import Mathlib.Data.List.Sort

/-!
# Machinery/Sorting — a sort by an order of the members, and what stands first in it

An order that is total and transitive on the members of a list sorts it (`pairwise_of_mem`).
`firsts` keeps the first member of each key, which the order puts before the others of the key; two
sorted lists of the same distinct members are one list when only equal members tie
(`eq_of_mem_iff`).
-/

namespace Sorting

variable {α κ : Type} {r : α → α → Prop} {l m : List α} {a b : α}

/-- **A list is sorted by an order of its members.** -/
theorem pairwise_of_mem [DecidableRel r] (htotal : ∀ a ∈ l, ∀ b ∈ l, r a b ∨ r b a)
    (htrans : ∀ a ∈ l, ∀ b ∈ l, ∀ c ∈ l, r a b → r b c → r a c) :
    (l.insertionSort r).Pairwise r := by
  let s : {a // a ∈ l} → {a // a ∈ l} → Prop := fun a b => r a.1 b.1
  have hdecidable : DecidableRel s := fun a b => inferInstanceAs (Decidable (r a.1 b.1))
  have hstotal : Std.Total s := ⟨fun a b => htotal a.1 a.2 b.1 b.2⟩
  have hstrans : IsTrans {a // a ∈ l} s :=
    ⟨fun a b c => htrans a.1 a.2 b.1 b.2 c.1 c.2⟩
  have hsorted := List.pairwise_insertionSort s l.attach
  have hmap : (l.attach.insertionSort s).map Subtype.val = l.insertionSort r := by
    rw [List.map_insertionSort s r Subtype.val l.attach fun _ _ _ _ => Iff.rfl,
      List.attach_map_subtype_val]
  rw [← hmap, List.pairwise_map]
  exact hsorted

/-- **Two sorted lists of the same distinct members are one list**, when only equal members tie. -/
theorem eq_of_mem_iff (hl : l.Pairwise r) (hm : m.Pairwise r) (hlnodup : l.Nodup)
    (hmnodup : m.Nodup) (hmem : ∀ a, a ∈ l ↔ a ∈ m)
    (hties : ∀ a ∈ l, ∀ b ∈ l, r a b → r b a → a = b) : l = m :=
  List.Perm.eq_of_pairwise (fun a b ha hb => hties a ha b ((hmem b).mpr hb)) hl hm
    ((List.perm_ext_iff_of_nodup hlnodup hmnodup).mpr hmem)

section Firsts

variable [DecidableEq κ] (key : α → κ)

/-- The first member of each key that is not among the given ones. -/
def firsts : List κ → List α → List α
  | _, [] => []
  | seen, a :: l => if key a ∈ seen then firsts seen l else a :: firsts (key a :: seen) l

variable {key} {seen : List κ}

theorem mem_of_mem_firsts : ∀ {l : List α} {seen : List κ}, a ∈ firsts key seen l →
    a ∈ l ∧ key a ∉ seen
  | b :: l, seen, h => by
    rw [firsts] at h
    split at h
    · exact ⟨List.mem_cons_of_mem b (mem_of_mem_firsts h).1, (mem_of_mem_firsts h).2⟩
    · next hfresh =>
      rcases List.mem_cons.mp h with rfl | h
      · exact ⟨List.mem_cons_self, hfresh⟩
      · obtain ⟨hmem, hkey⟩ := mem_of_mem_firsts h
        exact ⟨List.mem_cons_of_mem b hmem, fun hseen => hkey (List.mem_cons_of_mem _ hseen)⟩

theorem firsts_sublist : ∀ (seen : List κ) (l : List α), (firsts key seen l).Sublist l
  | _, [] => List.Sublist.refl []
  | seen, a :: l => by
    rw [firsts]
    split
    · exact (firsts_sublist seen l).cons a
    · exact (firsts_sublist _ l).cons_cons a

theorem nodup_firsts : ∀ (seen : List κ) (l : List α), ((firsts key seen l).map key).Nodup
  | _, [] => List.nodup_nil
  | seen, a :: l => by
    rw [firsts]
    split
    · exact nodup_firsts seen l
    · refine List.nodup_cons.mpr ⟨fun hmem => ?_, nodup_firsts _ l⟩
      obtain ⟨b, hb, hkey⟩ := List.mem_map.mp hmem
      exact (mem_of_mem_firsts hb).2 (by rw [hkey]; exact List.mem_cons_self)

/-- Every key has a first member. -/
theorem exists_mem_firsts : ∀ {l : List α} {seen : List κ}, a ∈ l → key a ∉ seen →
    ∃ b ∈ firsts key seen l, key b = key a
  | b :: l, seen, hmem, hseen => by
    rw [firsts]
    by_cases hb : key b ∈ seen
    · rw [if_pos hb]
      rcases List.mem_cons.mp hmem with rfl | hmem
      · exact absurd hb hseen
      · exact exists_mem_firsts hmem hseen
    · rw [if_neg hb]
      by_cases hkey : key b = key a
      · exact ⟨b, List.mem_cons_self, hkey⟩
      · rcases List.mem_cons.mp hmem with rfl | hmem
        · exact absurd rfl hkey
        · have hfresh : key a ∉ key b :: seen := by
            rw [List.mem_cons, not_or]
            exact ⟨Ne.symm hkey, hseen⟩
          obtain ⟨c, hc, hsame⟩ := exists_mem_firsts hmem hfresh
          exact ⟨c, List.mem_cons_of_mem b hc, hsame⟩

/-- **The first of a key stands before the others.** -/
theorem firsts_le (hrefl : ∀ a, r a a) : ∀ {l : List α} {seen : List κ}, l.Pairwise r →
    a ∈ firsts key seen l → b ∈ l → key b = key a → r a b
  | c :: l, seen, hsorted, ha, hb, hkey => by
    obtain ⟨hfirst, hsorted⟩ := List.pairwise_cons.mp hsorted
    rw [firsts] at ha
    split at ha
    · next hseen =>
      rcases List.mem_cons.mp hb with rfl | hb
      · exact absurd (hkey ▸ hseen) (mem_of_mem_firsts ha).2
      · exact firsts_le hrefl hsorted ha hb hkey
    · rcases List.mem_cons.mp ha with rfl | ha
      · rcases List.mem_cons.mp hb with rfl | hb
        · exact hrefl b
        · exact hfirst b hb
      · rcases List.mem_cons.mp hb with rfl | hb
        · exact absurd (hkey ▸ List.mem_cons_self) (mem_of_mem_firsts ha).2
        · exact firsts_le hrefl hsorted ha hb hkey

end Firsts

end Sorting
