import MeiyeAgent.Machinery.Sorting
import Mathlib.Order.Defs.LinearOrder

/-!
# Machinery/Comparators — comparators that answer a number, read as orders

A comparator answers a number, whose sign orders the two, or nothing at all.  `Answers cmp o a b`
says that on `a` and `b` it answers with the sign of the order `o`.

* `StrictlyOrders` — a strict order on the members with a property, which decides every two of them
  that are apart.
* `strictlyOrders_of_answers`, `pairwise_of_answers` — an order built of others (`compareLex`,
  `compareOn`, `signed`) makes its comparators strict orders, and sorts by them.
-/

namespace Comparing

open Std (TransCmp OrientedCmp ReflCmp)

variable {α : Type}

/-! ## Strict orders on some members -/

/-- **A strict order** of the members with `on`, which decides those that are `apart`. -/
structure StrictlyOrders (lt : α → α → Prop) (on : α → Prop) (apart : α → α → Prop) : Prop where
  irrefl : ∀ a, on a → ¬ lt a a
  trans : ∀ a b c, on a → on b → on c → lt a b → lt b c → lt a c
  total : ∀ a b, on a → on b → apart a b → lt a b ∨ lt b a

/-! ## The sign of an answer -/

/-- The order of a comparator that always answers. -/
def signed (cmp : α → α → Int) (a b : α) : Ordering := compare (cmp a b) 0

theorem signed_eq_eq {cmp : α → α → Int} {a b : α} : signed cmp a b = .eq ↔ cmp a b = 0 :=
  compare_eq_iff_eq

theorem signed_isLE {cmp : α → α → Int} {a b : α} : (signed cmp a b).isLE ↔ cmp a b ≤ 0 :=
  Ordering.isLE_iff_ne_gt.trans compare_le_iff_le

/-- A comparator that is antisymmetric and transitive orders. -/
theorem transCmp_signed {cmp : α → α → Int} (hanti : ∀ a b, cmp a b < 0 ↔ 0 < cmp b a)
    (htrans : ∀ a b c, cmp a b ≤ 0 → cmp b c ≤ 0 → cmp a c ≤ 0) : TransCmp (signed cmp) where
  eq_swap {a b} := by
    have hab := hanti a b
    have hba := hanti b a
    rw [signed, signed]
    rcases lt_trichotomy (cmp a b) 0 with hlt | heq | hgt
    · rw [compare_lt_iff_lt.mpr hlt, compare_gt_iff_gt.mpr (hab.mp hlt)]
      rfl
    · have hzero : cmp b a = 0 := by omega
      rw [heq, hzero]
      rfl
    · rw [compare_gt_iff_gt.mpr hgt, compare_lt_iff_lt.mpr (hba.mpr hgt)]
      rfl
  isLE_trans {a b c} hab hbc :=
    signed_isLE.mpr (htrans a b c (signed_isLE.mp hab) (signed_isLE.mp hbc))

/-- Two comparisons that agree on less and greater are one. -/
theorem compare_congr {β γ : Type} [LinearOrder β] [LinearOrder γ] {b b' : β} {c c' : γ}
    (hlt : b < b' ↔ c < c') (hgt : b' < b ↔ c' < c) : compare b b' = compare c c' := by
  rcases hcmp : compare c c' with _ | _ | _
  · exact compare_lt_iff_lt.mpr (hlt.mpr (compare_lt_iff_lt.mp hcmp))
  · obtain rfl := compare_eq_iff_eq.mp hcmp
    exact compare_eq_iff_eq.mpr (le_antisymm (not_lt.mp (mt hgt.mp (lt_irrefl c)))
      (not_lt.mp (mt hlt.mp (lt_irrefl c))))
  · exact compare_gt_iff_gt.mpr (hgt.mpr (compare_gt_iff_gt.mp hcmp))

/-- The sign of a difference is the order of the two. -/
theorem compare_sub (x y : Int) : compare (x - y) 0 = compare x y :=
  compare_congr (by omega) (by omega)

/-! ## What a comparator answers -/

/-- **The comparator answers** on `a` and `b`, with the sign of the order `o`. -/
def Answers (cmp : α → α → Option Int) (o : α → α → Ordering) (a b : α) : Prop :=
  ∃ n, cmp a b = some n ∧ compare n 0 = o a b

/-- **One comparator after another**: the second answers where the first is `0`. -/
theorem exists_answer_then {n : Int} {r : Option Int} {o o' : Ordering} (hn : compare n 0 = o)
    (hr : n = 0 → ∃ m, r = some m ∧ compare m 0 = o') :
    ∃ m, (if n ≠ 0 then some n else r) = some m ∧ compare m 0 = o.then o' := by
  subst hn
  by_cases hzero : n = 0
  · obtain ⟨m, hm, hsign⟩ := hr hzero
    rw [if_neg (not_not.mpr hzero), compare_eq_iff_eq.mpr hzero]
    exact ⟨m, hm, hsign⟩
  · rw [if_pos hzero]
    refine ⟨n, rfl, ?_⟩
    rcases hcmp : compare n 0 with _ | _ | _
    · rfl
    · exact absurd (compare_eq_iff_eq.mp hcmp) hzero
    · rfl

section Answers

variable {cmp : α → α → Option Int} {o : α → α → Ordering} {on : α → Prop} {a b : α} {l : List α}

/-- What the comparator puts first is what the order puts first. -/
theorem Answers.lt_iff (h : Answers cmp o a b) : (∃ n < 0, cmp a b = some n) ↔ o a b = .lt := by
  obtain ⟨n, hn, hsign⟩ := h
  rw [← hsign, compare_lt_iff_lt, hn]
  constructor
  · rintro ⟨m, hm, heq⟩
    rwa [Option.some_inj.mp heq]
  · exact fun hneg => ⟨n, hneg, rfl⟩

theorem Answers.isLE_iff (h : Answers cmp o a b) : (cmp a b).getD 0 ≤ 0 ↔ (o a b).isLE := by
  obtain ⟨n, hn, hsign⟩ := h
  rw [← hsign, hn, Option.getD_some]
  exact (Ordering.isLE_iff_ne_gt.trans compare_le_iff_le).symm

/-- **A comparator that answers by a transitive order is a strict order**, and decides the members
the order does not tie. -/
theorem strictlyOrders_of_answers [TransCmp o] (h : ∀ a b, on a → on b → Answers cmp o a b)
    {apart : α → α → Prop} (hties : ∀ a b, on a → on b → o a b = .eq → ¬ apart a b) :
    StrictlyOrders (fun a b => ∃ n < 0, cmp a b = some n) on apart where
  irrefl a ha hlt := by
    have := (h a a ha ha).lt_iff.mp hlt
    rw [@ReflCmp.compare_self _ o] at this
    exact nomatch this
  trans a b c ha hb hc hab hbc := (h a c ha hc).lt_iff.mpr
    (TransCmp.lt_trans ((h a b ha hb).lt_iff.mp hab) ((h b c hb hc).lt_iff.mp hbc))
  total a b ha hb hapart := by
    rcases ho : o a b with _ | _ | _
    · exact .inl ((h a b ha hb).lt_iff.mpr ho)
    · exact absurd hapart (hties a b ha hb ho)
    · exact .inr ((h b a hb ha).lt_iff.mpr (OrientedCmp.lt_of_gt ho))

/-- **A list is sorted by the order its comparator answers with.** -/
theorem pairwise_of_answers [TransCmp o] (h : ∀ a ∈ l, ∀ b ∈ l, Answers cmp o a b) :
    (l.insertionSort fun a b => (cmp a b).getD 0 ≤ 0).Pairwise fun a b => o b a ≠ .lt := by
  have hsorted := Sorting.pairwise_of_mem (r := fun a b => (cmp a b).getD 0 ≤ 0) (l := l)
    (fun a ha b hb => ?_) fun a ha b hb c hc hab hbc => ?_
  · refine hsorted.imp_of_mem fun {a b} ha hb hle => ?_
    have ha := List.mem_insertionSort _ |>.mp ha
    have hb := List.mem_insertionSort _ |>.mp hb
    exact OrientedCmp.not_lt_of_isLE ((h a ha b hb).isLE_iff.mp hle)
  · rw [(h a ha b hb).isLE_iff, (h b hb a ha).isLE_iff]
    rcases ho : o a b with _ | _ | _
    · exact .inl rfl
    · exact .inl rfl
    · exact .inr (by rw [OrientedCmp.lt_of_gt ho]; rfl)
  · rw [(h a ha b hb).isLE_iff] at hab
    rw [(h b hb c hc).isLE_iff] at hbc
    rw [(h a ha c hc).isLE_iff]
    exact TransCmp.isLE_trans hab hbc

end Answers

end Comparing
