import Mathlib.Data.List.Basic

/-!
# Machinery/Cuts — three trimmed texts behind each other

Three texts that neither begin nor end in white space are joined by a mark that they may hold.
`oneWay_iff` says on their own letters when no other three such texts join to the same: nowhere
else does a mark stand between two texts.
-/

namespace Cuts

section Texts

variable {α : Type} {space : α → Bool} {mark : α} {a b c l r x y z : List α}

/-- A text that is not empty and has no white space at its ends. -/
structure Trimmed (space : α → Bool) (text : List α) : Prop where
  ne_nil : text ≠ []
  head : ∀ e ∈ text.head?, space e = false
  last : ∀ e ∈ text.getLast?, space e = false

/-- White space stands beside what is between the two texts. -/
def Beside (space : α → Bool) (l r : List α) : Prop :=
  (∃ e ∈ l.getLast?, space e = true) ∨ ∃ e ∈ r.head?, space e = true

/-- **Three texts are cut one way**: a mark inside one of them has white space beside it, or else is
the first or the last letter of all, or the whole text in the middle. -/
structure OneWay (space : α → Bool) (mark : α) (a b c : List α) : Prop where
  first : ∀ l r, a = l ++ mark :: r → l = [] ∨ Beside space l r
  middle : ∀ l r, b = l ++ mark :: r → l = [] ∧ r = [] ∨ Beside space l r
  last : ∀ l r, c = l ++ mark :: r → r = [] ∨ Beside space l r

theorem not_beside (hl : ∀ e ∈ l.getLast?, space e = false) (hr : ∀ e ∈ r.head?, space e = false) :
    ¬ Beside space l r := by
  rintro (⟨e, he, hspace⟩ | ⟨e, he, hspace⟩)
  · exact Bool.false_ne_true ((hl e he).symm.trans hspace)
  · exact Bool.false_ne_true ((hr e he).symm.trans hspace)

theorem beside_false (h : ¬ Beside space l r) :
    (∀ e ∈ l.getLast?, space e = false) ∧ ∀ e ∈ r.head?, space e = false := by
  rw [Beside, not_or] at h
  exact ⟨fun e he => Bool.eq_false_iff.mpr fun hspace => h.1 ⟨e, he, hspace⟩,
    fun e he => Bool.eq_false_iff.mpr fun hspace => h.2 ⟨e, he, hspace⟩⟩

theorem Trimmed.head_of_append (h : Trimmed space (l ++ r)) : ∀ e ∈ l.head?, space e = false :=
  fun e he => h.head e (List.mem_head?_append_of_mem_head? he)

theorem Trimmed.last_of_append (h : Trimmed space (l ++ r)) : ∀ e ∈ r.getLast?, space e = false :=
  fun e he => h.last e (List.mem_getLast?_append_of_mem_getLast? he)

/-- The part of a trimmed text before a place that has no white space before it. -/
theorem Trimmed.before (h : Trimmed space (l ++ r)) (hne : l ≠ [])
    (hlast : ∀ e ∈ l.getLast?, space e = false) : Trimmed space l :=
  ⟨hne, h.head_of_append, hlast⟩

theorem Trimmed.behind (h : Trimmed space (l ++ r)) (hne : r ≠ [])
    (hhead : ∀ e ∈ r.head?, space e = false) : Trimmed space r :=
  ⟨hne, hhead, h.last_of_append⟩

/-- A trimmed text before a mark and what may stand behind a mark. -/
theorem Trimmed.joined_left (hmark : space mark = false) (h : Trimmed space a)
    (hl : ∀ e ∈ l.getLast?, space e = false) : Trimmed space (a ++ mark :: l) where
  ne_nil := List.append_ne_nil_of_left_ne_nil h.ne_nil _
  head e he := h.head e (List.head?_append_of_ne_nil a h.ne_nil ▸ he)
  last e he := by
    rw [List.getLast?_append_of_ne_nil _ (List.cons_ne_nil _ _), List.getLast?_cons,
      Option.mem_some_iff] at he
    cases hlast : l.getLast? with
    | none =>
      rw [hlast] at he
      exact he ▸ hmark
    | some d =>
      rw [hlast] at he
      exact he ▸ hl d hlast

theorem Trimmed.joined_right (hmark : space mark = false) (hr : ∀ e ∈ r.head?, space e = false)
    (h : Trimmed space c) : Trimmed space (r ++ mark :: c) where
  ne_nil := List.append_ne_nil_of_right_ne_nil _ (List.cons_ne_nil _ _)
  head e he := by
    cases r with
    | nil => exact (Option.some.inj he) ▸ hmark
    | cons d r => exact hr e he
  last e he := by
    rw [List.getLast?_append_of_ne_nil _ (List.cons_ne_nil _ _),
      List.getLast?_cons_of_ne_nil h.ne_nil] at he
    exact h.last e he

/-- Two marks in one text: they are the same, or one stands before the other. -/
theorem append_mark_cases (h : x ++ mark :: y = a ++ mark :: b) :
    x = a ∧ y = b ∨ (∃ s, x = a ++ mark :: s ∧ b = s ++ mark :: y) ∨
      ∃ s, a = x ++ mark :: s ∧ y = s ++ mark :: b := by
  obtain ⟨s, ha, hy⟩ | ⟨s, hx, hb⟩ := List.append_eq_append_iff.mp h
  · obtain ⟨rfl, hy⟩ | ⟨s, rfl, rfl⟩ := List.cons_eq_append_iff.mp hy
    · exact .inl ⟨by simpa using ha.symm, (List.cons.inj hy).2⟩
    · exact .inr (.inr ⟨s, ha, rfl⟩)
  · obtain ⟨rfl, hb⟩ | ⟨s, rfl, rfl⟩ := List.cons_eq_append_iff.mp hb
    · exact .inl ⟨by simpa using hx, (List.cons.inj hb).2.symm⟩
    · exact .inr (.inl ⟨s, hx, rfl⟩)

/-- **No other cut**, where every mark inside has white space beside it. -/
theorem eq_of_oneWay (h : OneWay space mark a b c) (hx : Trimmed space x) (hy : Trimmed space y)
    (hz : Trimmed space z)
    (heq : x ++ mark :: (y ++ mark :: z) = a ++ mark :: (b ++ mark :: c)) :
    x = a ∧ y = b ∧ z = c := by
  obtain ⟨rfl, htail⟩ | ⟨s, rfl, htail⟩ | ⟨s, rfl, htail⟩ := append_mark_cases heq
  · obtain ⟨rfl, rfl⟩ | ⟨s, rfl, rfl⟩ | ⟨s, rfl, rfl⟩ := append_mark_cases htail
    · exact ⟨rfl, rfl, rfl⟩
    · -- the second cut is in the last text
      obtain hnil | hbeside := h.last s z rfl
      · exact (hz.ne_nil hnil).elim
      · exact (not_beside (Trimmed.last_of_append (l := b ++ [mark]) (by simpa using hy))
          hz.head hbeside).elim
    · obtain ⟨hnil, -⟩ | hbeside := h.middle y s rfl
      · exact (hy.ne_nil hnil).elim
      · exact (not_beside hy.last hz.head_of_append hbeside).elim
  · -- the first cut is behind the first text
    have hlast := Trimmed.last_of_append (l := a ++ [mark]) (r := s) (by simpa using hx)
    obtain ⟨rfl, rfl⟩ | ⟨t, rfl, hrest⟩ | ⟨t, rfl, rfl⟩ := append_mark_cases htail
    · obtain hnil | hbeside := h.last y z rfl
      · exact (hz.ne_nil hnil).elim
      · exact (not_beside hy.last hz.head hbeside).elim
    · obtain ⟨rfl, rfl⟩ | hbeside := h.middle s t rfl
      · -- the text in the middle is a mark, and the first cut stands before it
        obtain ⟨d, y, rfl⟩ := List.exists_cons_of_ne_nil hy.ne_nil
        obtain ⟨rfl, rfl⟩ := List.cons.inj hrest
        obtain hnil | hbeside := h.last y z rfl
        · exact (hz.ne_nil hnil).elim
        · exact (not_beside (Trimmed.last_of_append (l := [d]) hy) hz.head hbeside).elim
      · refine (not_beside hlast (fun e he => hy.head e ?_) hbeside).elim
        have hmem := List.mem_head?_append_of_mem_head? (t := mark :: c) he
        rwa [← hrest, List.head?_append_of_ne_nil _ hy.ne_nil] at hmem
    · obtain hnil | hbeside := h.last _ _ rfl
      · exact (List.append_ne_nil_of_left_ne_nil hy.ne_nil _ hnil).elim
      · refine (not_beside (Trimmed.last_of_append (l := a ++ mark :: (b ++ [mark])) (r := t)
          (by simpa using hx)) ?_ hbeside).elim
        rw [List.head?_append_of_ne_nil _ hy.ne_nil]
        exact hy.head
  · -- the first cut is in the first text
    obtain hnil | hbeside := h.first x s rfl
    · exact (hx.ne_nil hnil).elim
    · refine (not_beside hx.last (fun e he => hy.head e ?_) hbeside).elim
      have hmem := List.mem_head?_append_of_mem_head? (t := mark :: (b ++ mark :: c)) he
      rwa [← htail, List.head?_append_of_ne_nil _ hy.ne_nil] at hmem

/-- **Three trimmed texts are cut one way** exactly when no other three join to the same. -/
theorem oneWay_iff (hmark : space mark = false) (ha : Trimmed space a) (hb : Trimmed space b)
    (hc : Trimmed space c) : OneWay space mark a b c ↔
      ∀ x y z, Trimmed space x → Trimmed space y → Trimmed space z →
        x ++ mark :: (y ++ mark :: z) = a ++ mark :: (b ++ mark :: c) → x = a ∧ y = b ∧ z = c := by
  refine ⟨fun h x y z hx hy hz => eq_of_oneWay h hx hy hz, fun h => ⟨?_, ?_, ?_⟩⟩
  · rintro l r rfl
    by_contra hno
    obtain ⟨hne, hbeside⟩ := not_or.mp hno
    obtain ⟨hl, hr⟩ := beside_false hbeside
    have heq := (h l (r ++ mark :: b) c (ha.before hne hl) (hb.joined_right hmark hr) hc
      (by simp)).1
    exact absurd (congrArg List.length heq) (by simp)
  · rintro l r rfl
    by_contra hno
    obtain ⟨hne, hbeside⟩ := not_or.mp hno
    obtain ⟨hl, hr⟩ := beside_false hbeside
    by_cases hnil : l = []
    · have hright : r ≠ [] := fun hr => hne ⟨hnil, hr⟩
      have heq := (h (a ++ mark :: l) r c (ha.joined_left hmark hl)
        (Trimmed.behind (l := l ++ [mark]) (by simpa using hb) hright hr) hc (by simp)).1
      exact absurd (congrArg List.length heq) (by simp)
    · have heq := (h a l (r ++ mark :: c) ha (hb.before hnil hl) (hc.joined_right hmark hr)
        (by simp)).2.1
      exact absurd (congrArg List.length heq) (by simp)
  · rintro l r rfl
    by_contra hno
    obtain ⟨hne, hbeside⟩ := not_or.mp hno
    obtain ⟨hl, hr⟩ := beside_false hbeside
    have heq := (h a (b ++ mark :: l) r ha (hb.joined_left hmark hl)
      (Trimmed.behind (l := l ++ [mark]) (by simpa using hc) hne hr) (by simp)).2.1
    exact absurd (congrArg List.length heq) (by simp)

end Texts

end Cuts
