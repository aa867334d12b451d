import Mathlib.Algebra.BigOperators.Group.List.Lemmas
import Mathlib.Algebra.Order.BigOperators.Group.List
import Mathlib.Data.List.Pairwise
import Mathlib.Tactic.Linarith

/-!
# Machinery/Table — a list as a table: rows changed in place, and tallies over the rows

* `updateFirst p g l` — the first row with `p`, rewritten by `g`.  `updateFirst_split` is the one
  fact the rest follows from: the table is `pre ++ a :: post` before and `pre ++ g a :: post`
  after, with no row of `pre` satisfying `p`.
* `tally f l` — the total of `f` over the rows, and how one changed row changes it.
-/

namespace Table

variable {α β : Type} {p : α → Bool} {g : α → α} {l pre post : List α} {a : α}

/-! ## Changing one row -/

/-- The first row satisfying `p`, rewritten in place. -/
def updateFirst (p : α → Bool) (g : α → α) : List α → List α
  | [] => []
  | a :: as => if p a then g a :: as else a :: updateFirst p g as

/-- **The split of a table at the row found.** -/
theorem updateFirst_split (g : α → α) (h : l.find? p = some a) :
    ∃ pre post, l = pre ++ a :: post ∧ updateFirst p g l = pre ++ g a :: post ∧
      p a ∧ ∀ b ∈ pre, p b = false := by
  induction l with
  | nil => simp at h
  | cons b bs ih =>
    by_cases hb : p b
    · obtain rfl : b = a := by simpa [hb] using h
      exact ⟨[], bs, rfl, by simp [updateFirst, hb], hb, by simp⟩
    · obtain ⟨pre, post, rfl, hu, ha, hpre⟩ := ih (by simpa [hb] using h)
      refine ⟨b :: pre, post, rfl, by simp [updateFirst, hb, hu], ha, ?_⟩
      intro c hc
      rcases List.mem_cons.mp hc with rfl | hc
      · simpa using hb
      · exact hpre c hc

theorem updateFirst_append (ha : p a) : ∀ {pre post : List α},
    (∀ b ∈ pre, p b = false) → updateFirst p g (pre ++ a :: post) = pre ++ g a :: post
  | [], post, _ => if_pos ha
  | b :: pre, post, h => by
    have hb := h b List.mem_cons_self
    rw [List.cons_append, updateFirst, if_neg (by simp [hb]),
      updateFirst_append ha fun c hc => h c (List.mem_cons_of_mem b hc)]
    rfl

/-- With keys of their own the rows are changed by key. -/
theorem updateFirst_eq_map {κ : Type} [DecidableEq κ] {key : α → κ} (hnodup : (l.map key).Nodup)
    (h : l.find? p = some a) :
    updateFirst p g l = l.map fun b => if key b = key a then g b else b := by
  obtain ⟨pre, post, rfl, hupdate, -, -⟩ := updateFirst_split g h
  rw [List.map_append, List.map_cons, List.nodup_append] at hnodup
  obtain ⟨-, hpost, hpre⟩ := hnodup
  have hkeep : ∀ l : List α, (∀ b ∈ l, key b ≠ key a) →
      (l.map fun b => if key b = key a then g b else b) = l := fun l hl => by
    conv_rhs => rw [← List.map_id l]
    exact List.map_congr_left fun b hb => if_neg (hl b hb)
  rw [hupdate, List.map_append, List.map_cons, if_pos rfl, hkeep pre, hkeep post]
  · exact fun b hb heq => (List.nodup_cons.mp hpost).1 (heq ▸ List.mem_map_of_mem hb)
  · exact fun b hb => hpre (key b) (List.mem_map_of_mem hb) (key a) List.mem_cons_self

/-- A table without such a row stays as it is. -/
theorem updateFirst_of_none (h : l.find? p = none) : updateFirst p g l = l := by
  induction l with
  | nil => rfl
  | cons b bs ih =>
    have hb : p b = false := by simpa using List.find?_eq_none.mp h b List.mem_cons_self
    have hbs : bs.find? p = none := by simpa [hb] using h
    simp [updateFirst, hb, ih hbs]

/-- A column the rewrite leaves alone reads the same over the whole table. -/
theorem map_updateFirst (f : α → β) (hf : ∀ x, f (g x) = f x) (l : List α) :
    (updateFirst p g l).map f = l.map f := by
  induction l with
  | nil => rfl
  | cons b bs ih =>
    by_cases hb : p b <;> simp [updateFirst, hb, hf, ih]

/-- Rewriting a row leaves a search for other rows as it was. -/
theorem find?_updateFirst_of_disjoint {q : α → Bool} (h : ∀ x, p x → q x = false)
    (hg : ∀ x, p x → q (g x) = false) (l : List α) : (updateFirst p g l).find? q = l.find? q := by
  cases hf : l.find? p with
  | none => rw [updateFirst_of_none hf]
  | some a =>
    obtain ⟨pre, post, rfl, hu, ha, -⟩ := updateFirst_split g hf
    rw [hu, List.find?_append, List.find?_append, List.find?_cons, List.find?_cons, h a ha, hg a ha]

/-- Rewriting a row that still answers the search rewrites the answer. -/
theorem find?_updateFirst_self (hg : ∀ x, p x → p (g x)) (l : List α) :
    (updateFirst p g l).find? p = (l.find? p).map g := by
  cases hf : l.find? p with
  | none => rw [updateFirst_of_none hf, hf, Option.map_none]
  | some a =>
    obtain ⟨pre, post, rfl, hu, ha, hpre⟩ := updateFirst_split g hf
    have hnone : pre.find? p = none := List.find?_eq_none.mpr fun b hb => by simp [hpre b hb]
    rw [hu, List.find?_append, hnone, List.find?_cons, hg a ha]
    rfl

/-- **A search by key finds the row** of a table whose keys are distinct. -/
theorem find?_of_nodup {key : α → β} (hl : (l.map key).Nodup) (ha : a ∈ l)
    (hp : ∀ x ∈ l, p x = true ↔ key x = key a) : l.find? p = some a := by
  have hsome : (l.find? p).isSome := List.find?_isSome.mpr ⟨a, ha, (hp a ha).mpr rfl⟩
  obtain ⟨b, hb⟩ := Option.isSome_iff_exists.mp hsome
  have hmem := List.mem_of_find?_eq_some hb
  have hkey : key b = key a := (hp b hmem).mp (List.find?_some hb)
  rw [hb, List.inj_on_of_nodup_map hl hmem ha hkey]

/-- **Those with `P` come first**: a list in which `P` is inherited by whatever stands before
splits into the rows with `P` and the rows without. -/
theorem exists_prefix_split {P : α → Prop} :
    ∀ {l : List α}, l.Pairwise (fun a b => P b → P a) →
      ∃ pre post, l = pre ++ post ∧ (∀ a ∈ pre, P a) ∧ ∀ b ∈ post, ¬ P b
  | [], _ => ⟨[], [], rfl, by simp, by simp⟩
  | a :: l, h => by
    obtain ⟨hhead, htail⟩ := List.pairwise_cons.mp h
    by_cases ha : P a
    · obtain ⟨pre, post, rfl, hpre, hpost⟩ := exists_prefix_split htail
      exact ⟨a :: pre, post, rfl, by simpa [ha] using hpre, hpost⟩
    · refine ⟨[], a :: l, rfl, by simp, fun b hb hPb => ?_⟩
      rcases List.mem_cons.mp hb with rfl | hb
      · exact ha hPb
      · exact ha (hhead b hb hPb)

/-- A predicate that holds of one row at most: filtering for it is finding it. -/
theorem filter_of_pairwise : ∀ {l : List α},
    l.Pairwise (fun a b => p a = true → p b = false) → l.filter p = (l.find? p).toList
  | [], _ => rfl
  | a :: l, h => by
    obtain ⟨ha, hl⟩ := List.pairwise_cons.mp h
    by_cases hp : p a = true
    · have hnone : l.filter p = [] := List.filter_eq_nil_iff.mpr fun b hb => by simp [ha b hb hp]
      rw [List.filter_cons_of_pos hp, List.find?_cons_of_pos hp, hnone]
      rfl
    · rw [List.filter_cons_of_neg hp, List.find?_cons_of_neg hp]
      exact filter_of_pairwise hl

/-! ## Tallies -/

/-- **The total of `f` over the rows.** -/
def tally (f : α → Int) (l : List α) : Int := (l.map f).sum

variable {f f' : α → Int}

@[simp] theorem tally_nil (f : α → Int) : tally f [] = 0 := rfl

@[simp] theorem tally_cons (f : α → Int) (a : α) (l : List α) :
    tally f (a :: l) = f a + tally f l := by simp [tally]

@[simp] theorem tally_append (f : α → Int) (l m : List α) :
    tally f (l ++ m) = tally f l + tally f m := by simp [tally]

theorem tally_congr (h : ∀ x ∈ l, f x = f' x) : tally f l = tally f' l := by
  rw [tally, tally, List.map_congr_left h]

theorem tally_map (f : β → Int) (g : α → β) (l : List α) :
    tally f (l.map g) = tally (fun a => f (g a)) l := by
  rw [tally, List.map_map]
  rfl

theorem tally_zero (h : ∀ a ∈ l, f a = 0) : tally f l = 0 :=
  List.sum_eq_zero (List.forall_mem_map.mpr h)

theorem tally_nonneg (h : ∀ x ∈ l, 0 ≤ f x) : 0 ≤ tally f l := by
  exact List.sum_nonneg (List.forall_mem_map.mpr h)

theorem tally_le_tally (h : ∀ x ∈ l, f x ≤ f' x) : tally f l ≤ tally f' l :=
  List.sum_le_sum h

/-- **One row found less**: a column that nowhere grows and drops by `c` at one row has a total
smaller by `c` at least. -/
theorem tally_drop_le {c : Int} (ha : a ∈ l) (h : ∀ x ∈ l, f' x ≤ f x) (hc : f' a + c ≤ f a) :
    tally f' l + c ≤ tally f l := by
  obtain ⟨pre, post, rfl⟩ := List.append_of_mem ha
  have hpre : tally f' pre ≤ tally f pre := tally_le_tally fun x hx => h x (by simp [hx])
  have hpost : tally f' post ≤ tally f post := tally_le_tally fun x hx => h x (by simp [hx])
  simp only [tally_append, tally_cons]
  omega

theorem tally_filter (f : α → Int) (q : α → Bool) (l : List α) :
    tally f (l.filter q) = tally (fun x => if q x then f x else 0) l := by
  induction l with
  | nil => rfl
  | cons b bs ih => by_cases hb : q b <;> simp [hb, ih]

theorem tally_add (f f' : α → Int) (l : List α) :
    tally (fun x => f x + f' x) l = tally f l + tally f' l := List.sum_map_add

theorem tally_sub (f f' : α → Int) (l : List α) :
    tally (fun x => f x - f' x) l = tally f l - tally f' l := by
  induction l with
  | nil => rfl
  | cons b bs ih =>
    simp only [tally_cons, ih]
    omega

theorem tally_perm {m : List α} (f : α → Int) (h : l.Perm m) : tally f l = tally f m :=
  (h.map f).sum_eq

/-- **One row rewritten**: the total moves by what the row moved. -/
theorem tally_updateFirst (f : α → Int) (h : l.find? p = some a) :
    tally f (updateFirst p g l) = tally f l - f a + f (g a) := by
  obtain ⟨pre, post, rfl, hu, -, -⟩ := updateFirst_split g h
  simp only [hu, tally_append, tally_cons]
  omega

end Table
