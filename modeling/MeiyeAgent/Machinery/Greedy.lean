import MeiyeAgent.Machinery.Table

/-!
# Machinery/Greedy — serving a request from a queue of stores, first to last

`greedy cap want l` takes from each item of `l` in turn as much as it holds, until `want` is met.

* `greedy_amount` — every amount taken is positive and within the item's capacity.
* `greedy_sublist` — the items served are those of the queue, in order, none twice.
* `tally_greedy` — the total taken is `min want (capacity)`: the request is met exactly when the
  queue holds enough.
* `greedy_exhausts` — an item is served only when every item before it is served all it holds.
-/

namespace Greedy

open Table

variable {α : Type} {cap : α → Int}

/-- **The greedy plan**: `min` of what is left to serve and what the item holds, item by item. -/
def greedy (cap : α → Int) : Int → List α → List (α × Int)
  | _, [] => []
  | want, a :: l =>
    if want = 0 then []
    else (a, min (cap a) want) :: greedy cap (want - min (cap a) want) l

theorem greedy_zero (l : List α) : greedy cap 0 l = [] := by cases l <;> simp [greedy]

/-- Every amount is positive and within its item's capacity. -/
theorem greedy_amount : ∀ {l : List α} {want : Int}, 0 ≤ want → (∀ a ∈ l, 0 < cap a) →
    ∀ x ∈ greedy cap want l, 0 < x.2 ∧ x.2 ≤ cap x.1
  | [], _, _, _, _, hx => by simp [greedy] at hx
  | a :: l, want, hw, hl, x, hx => by
    rcases eq_or_lt_of_le hw with rfl | hw
    · simp [greedy] at hx
    have ha : 0 < cap a := hl a List.mem_cons_self
    rcases List.mem_cons.mp (by simpa [greedy, hw.ne'] using hx) with rfl | hx
    · exact ⟨lt_min ha hw, min_le_left _ _⟩
    · exact greedy_amount (by omega) (fun b hb => hl b (List.mem_cons_of_mem _ hb)) x hx

/-- The items served are a sublist of the queue. -/
theorem greedy_sublist : ∀ (want : Int) (l : List α), ((greedy cap want l).map Prod.fst).Sublist l
  | _, [] => by simp [greedy]
  | want, a :: l => by
    by_cases hw : want = 0
    · simp [greedy, hw]
    · simpa [greedy, hw] using greedy_sublist (want - min (cap a) want) l

/-- **The total served** is the request, or all there is. -/
theorem tally_greedy : ∀ {l : List α} {want : Int}, 0 ≤ want → (∀ a ∈ l, 0 < cap a) →
    tally Prod.snd (greedy cap want l) = min want (tally cap l)
  | [], want, hw, _ => by simp [greedy, hw]
  | a :: l, want, hw, hl => by
    have hl' : ∀ b ∈ l, 0 < cap b := fun b hb => hl b (List.mem_cons_of_mem _ hb)
    have ha : 0 < cap a := hl a List.mem_cons_self
    have hrest : 0 ≤ tally cap l := tally_nonneg fun b hb => (hl' b hb).le
    by_cases h0 : want = 0
    · subst h0
      simp only [greedy, if_true, tally_nil, tally_cons]
      omega
    · have ih : tally Prod.snd (greedy cap (want - min (cap a) want) l) =
          min (want - min (cap a) want) (tally cap l) := tally_greedy (by omega) hl'
      simp only [greedy, h0, if_false, tally_cons, ih]
      omega

/-- **What comes before an item served is exhausted.** -/
theorem greedy_exhausts {r : α → α → Prop} (hirrefl : ∀ a, ¬ r a a) {x : α × Int} {a : α}
    (hr : r a x.1) : ∀ {l : List α} {want : Int}, l.Pairwise (fun b c => ¬ r c b) →
      x ∈ greedy cap want l → a ∈ l → (a, cap a) ∈ greedy cap want l
  | c :: l, want, hl, hx, ha => by
    obtain ⟨hfirst, hl⟩ := List.pairwise_cons.mp hl
    by_cases hw : want = 0
    · rw [hw, greedy_zero] at hx
      exact absurd hx List.not_mem_nil
    rw [greedy, if_neg hw] at hx ⊢
    rcases List.mem_cons.mp hx with rfl | hx
    · rcases List.mem_cons.mp ha with rfl | ha
      · exact absurd hr (hirrefl a)
      · exact absurd hr (hfirst a ha)
    · rcases List.mem_cons.mp ha with rfl | ha
      · -- something is left for the items after it, so it gave all it holds
        have hleft : want - min (cap a) want ≠ 0 := by
          intro hzero
          rw [hzero, greedy_zero] at hx
          exact List.not_mem_nil hx
        have hall : min (cap a) want = cap a := by omega
        rw [hall]
        exact List.mem_cons_self
      · exact List.mem_cons_of_mem _ (greedy_exhausts hirrefl hr hl hx ha)

end Greedy
