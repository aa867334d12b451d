import Mathlib.Data.List.Sort

/-!
# Machinery/Standing — where a stable sort puts a member

A stable sort puts before a member those the order puts strictly before it, and those it ties with
that are listed before it (`sublist_insertionSort_iff`).
-/

namespace Sorting

variable {α : Type} {r : α → α → Prop} {l : List α} {a b : α}

/-- A stable sort of the list puts `b` before `a`. -/
def Precedes (r : α → α → Prop) (l : List α) (b a : α) : Prop :=
  r b a ∧ (¬ r a b ∨ [b, a].Sublist l)

theorem not_sublist_of_nodup : ∀ {l : List α}, l.Nodup → [a, b].Sublist l → ¬ [b, a].Sublist l
  | c :: l, hnodup, h, h' => by
    obtain ⟨hout, hnodup⟩ := List.nodup_cons.mp hnodup
    rcases List.cons_sublist_cons'.mp h with hl | ⟨rfl, hl⟩
    · rcases List.cons_sublist_cons'.mp h' with hl' | ⟨rfl, -⟩
      · exact not_sublist_of_nodup hnodup hl hl'
      · exact hout (hl.subset (List.mem_cons_of_mem a List.mem_cons_self))
    · rcases List.cons_sublist_cons'.mp h' with hl' | ⟨rfl, hl'⟩
      · exact hout (hl'.subset (List.mem_cons_of_mem b List.mem_cons_self))
      · exact hout (hl'.subset List.mem_cons_self)

theorem sublist_or : ∀ {l : List α}, a ∈ l → b ∈ l → a ≠ b → [a, b].Sublist l ∨ [b, a].Sublist l
  | c :: l, ha, hb, hne => by
    rcases List.mem_cons.mp ha with rfl | hal
    · refine .inl (List.Sublist.cons_cons _ (List.singleton_sublist.mpr ?_))
      exact (List.mem_cons.mp hb).resolve_left hne.symm
    · rcases List.mem_cons.mp hb with rfl | hbl
      · exact .inr (List.Sublist.cons_cons _ (List.singleton_sublist.mpr hal))
      · exact (sublist_or hal hbl hne).imp (List.Sublist.cons _) (List.Sublist.cons _)

/-- **What a stable sort puts before what.** -/
theorem sublist_insertionSort_iff [DecidableRel r] [Std.Total r] [IsTrans α r] (hnodup : l.Nodup)
    (ha : a ∈ l) (hb : b ∈ l) (hne : b ≠ a) :
    [b, a].Sublist (l.insertionSort r) ↔ Precedes r l b a := by
  have hforward : ∀ {a b : α}, a ∈ l → b ∈ l → b ≠ a → Precedes r l b a →
      [b, a].Sublist (l.insertionSort r) := by
    rintro a b ha hb hne ⟨hr, hbefore⟩
    rcases hbefore with hstrict | hlisted
    · have ha' := (List.mem_insertionSort r).mpr ha
      have hb' := (List.mem_insertionSort r).mpr hb
      refine (sublist_or hb' ha' hne).resolve_right fun hback => hstrict ?_
      exact (List.pairwise_pair.mp ((List.pairwise_insertionSort r l).sublist hback))
    · exact List.pair_sublist_insertionSort hr hlisted
  refine ⟨fun hsub => ?_, hforward ha hb hne⟩
  have hr : r b a := List.pairwise_pair.mp ((List.pairwise_insertionSort r l).sublist hsub)
  refine ⟨hr, or_iff_not_imp_left.mpr fun hr' => ?_⟩
  refine (sublist_or hb ha hne).resolve_right fun hback => ?_
  have hsorted := (List.perm_insertionSort r l).nodup_iff.mpr hnodup
  exact not_sublist_of_nodup hsorted hsub
    (hforward hb ha hne.symm ⟨not_not.mp hr', .inr hback⟩)

end Sorting
