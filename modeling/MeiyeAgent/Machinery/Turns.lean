import MeiyeAgent.Machinery.Effect
import Mathlib.Algebra.BigOperators.Group.List.Lemmas
import Mathlib.Algebra.Order.BigOperators.Group.List
import Mathlib.Algebra.Order.Group.Nat
import Mathlib.Algebra.Order.BigOperators.Group.Finset
import Mathlib.Algebra.GroupWithZero.Nat
import Mathlib.Data.List.DropRight

/-!
# Machinery/Turns — turns taken in a sliding window, and the choice by a linear scan

* `select before l` — the index a scan from the left ends at, where a later element replaces the
  best so far only if it comes `before` it.  `select_best` reads off what the chosen one is
  for any preorder the comparison respects, ties left open.
* `push w l a` — the window of the last `w` turns after one more turn.
* `length_le_of_quotas` — **turns below quotas run out**: if a turn is only ever taken below the
  taker's quota, and the quotas add up to no more than the window, the run of turns is short.
  `exists_below_quota` is the other side: quotas that add up to more always leave somebody below.
-/

namespace Turns

variable {α : Type}

/-! ## The choice by a linear scan -/

/-- The scan past index `i`, with the best so far and its index. -/
def selectFrom (before : α → α → Bool) (best : α) (bestIndex i : Nat) : List α → Nat
  | [] => bestIndex
  | a :: as =>
    if before a best then selectFrom before a i (i + 1) as
    else selectFrom before best bestIndex (i + 1) as

/-- The index the scan ends at. -/
def select (before : α → α → Bool) : List α → Nat
  | [] => 0
  | a :: as => selectFrom before a 0 1 as

section Select

variable {before : α → α → Bool} {R : α → α → Prop}

theorem selectFrom_best {l : List α} (hrefl : ∀ a, R a a)
    (htrans : ∀ a ∈ l, ∀ b ∈ l, ∀ c ∈ l, R a b → R b c → R a c)
    (hbefore : ∀ a ∈ l, ∀ b ∈ l, before a b → R a b)
    (hnot : ∀ a ∈ l, ∀ b ∈ l, before a b = false → R b a) :
    ∀ (as : List α) (best : α) (bestIndex i : Nat),
      l[bestIndex]? = some best → l.drop i = as → (∀ a ∈ l.take i, R best a) →
      ∃ a, l[selectFrom before best bestIndex i as]? = some a ∧ ∀ b ∈ l, R a b
  | [], best, bestIndex, i, hbest, hdrop, hseen => by
    refine ⟨best, hbest, fun b hb => hseen b ?_⟩
    rwa [List.take_of_length_le (List.drop_eq_nil_iff.mp hdrop)]
  | a :: as, best, bestIndex, i, hbest, hdrop, hseen => by
    have hget : l[i]? = some a := by
      rw [← List.head?_drop, hdrop, List.head?_cons]
    have hrest : l.drop (i + 1) = as := by
      rw [← List.tail_drop, hdrop, List.tail_cons]
    have htake : ∀ b ∈ l.take (i + 1), b ∈ l.take i ∨ b = a := by
      intro b hb
      rw [List.take_add_one, hget] at hb
      simpa using hb
    have ha := List.mem_of_getElem? hget
    have hb := List.mem_of_getElem? hbest
    rw [selectFrom]
    split
    · next h =>
      refine selectFrom_best hrefl htrans hbefore hnot as a i (i + 1) hget hrest fun c hc => ?_
      rcases htake c hc with hc | rfl
      · exact htrans a ha best hb c (List.mem_of_mem_take hc) (hbefore a ha best hb h) (hseen c hc)
      · exact hrefl c
    · next h =>
      refine selectFrom_best hrefl htrans hbefore hnot as best bestIndex (i + 1) hbest hrest
        fun c hc => ?_
      rcases htake c hc with hc | rfl
      · exact hseen c hc
      · exact hnot c ha best hb (Bool.eq_false_iff.mpr h)

/-- **The chosen element is a least one**, for any preorder the comparison respects. -/
theorem select_best {l : List α} (hrefl : ∀ a, R a a)
    (htrans : ∀ a ∈ l, ∀ b ∈ l, ∀ c ∈ l, R a b → R b c → R a c)
    (hbefore : ∀ a ∈ l, ∀ b ∈ l, before a b → R a b)
    (hnot : ∀ a ∈ l, ∀ b ∈ l, before a b = false → R b a) (hl : l ≠ []) :
    ∃ a, l[select before l]? = some a ∧ ∀ b ∈ l, R a b := by
  cases l with
  | nil => exact absurd rfl hl
  | cons a as =>
    refine selectFrom_best hrefl htrans hbefore hnot as a 0 1 rfl rfl fun b hb => ?_
    obtain rfl : b = a := by simpa using hb
    exact hrefl b

end Select

/-! ## The window -/

/-- **One more turn**, in a window of the last `w`. -/
def push (w : Nat) (l : List α) (a : α) : List α := (l ++ [a]).rtake w

theorem length_push_le (w : Nat) (l : List α) (a : α) : (push w l a).length ≤ w := by
  rw [push, List.rtake, List.length_drop]
  omega

/-- The last `w` of the last `w` and what follows are the last `w` of all. -/
theorem rtake_rtake_append (w : Nat) (l as : List α) :
    (l.rtake w ++ as).rtake w = (l ++ as).rtake w := by
  simp only [List.rtake_eq_reverse_take_reverse, List.reverse_append, List.reverse_reverse,
    List.take_append, List.take_take, List.length_reverse]
  congr 3
  omega

/-- The window after a run of turns. -/
theorem runAll_push (w : Nat) : ∀ (as l : List α), l.length ≤ w →
    Effect.runAll (push w) as l = (l ++ as).rtake w
  | [], l, hl => by
    rw [Effect.runAll_nil, List.append_nil, List.rtake, Nat.sub_eq_zero_of_le hl, List.drop_zero]
  | a :: as, l, _ => by
    rw [Effect.runAll_cons, runAll_push w as _ (length_push_le w l a), push, rtake_rtake_append,
      List.append_assoc]
    rfl

/-- A run as long as the window leaves nothing of what was there. -/
theorem rtake_append_of_length {w : Nat} {as : List α} (h : as.length = w) (l : List α) :
    (l ++ as).rtake w = as := by
  rw [List.rtake, List.length_append, h, Nat.add_sub_cancel, List.drop_left]

/-! ## Quotas -/

section Quotas

variable [DecidableEq α] {members : List α} {quota : α → Nat} {w : Nat}

/-- The elements of a list counted member by member. -/
theorem sum_count_eq_length (hnodup : members.Nodup) {l : List α} (hl : ∀ a ∈ l, a ∈ members) :
    (members.map l.count).sum = l.length := by
  have hcard := Multiset.sum_count_eq_card (s := members.toFinset) (m := (l : Multiset α))
    (by simpa using hl)
  rw [← List.sum_toFinset _ hnodup]
  simpa using hcard

/-- **Somebody is below quota**: the quotas add up to more than the window holds. -/
theorem exists_below_quota (hnodup : members.Nodup) {l : List α} (hl : ∀ a ∈ l, a ∈ members)
    (h : l.length < (members.map quota).sum) : ∃ a ∈ members, l.count a < quota a := by
  rw [← sum_count_eq_length hnodup hl] at h
  exact List.exists_lt_of_sum_lt l.count quota h

/-- With nobody above quota and one member below, the quotas add up to more than the list. -/
theorem length_lt_of_below (hnodup : members.Nodup) {l : List α} (hl : ∀ a ∈ l, a ∈ members)
    (hle : ∀ a, l.count a ≤ quota a) {a : α} (ha : a ∈ members) (hlt : l.count a < quota a) :
    l.length < (members.map quota).sum := by
  rw [← sum_count_eq_length hnodup hl]
  exact List.sum_lt_sum _ _ (fun b _ => hle b) ⟨a, ha, hlt⟩

/-- A turn a member may take: while `other` has none in the window, one below its own quota. -/
def TurnOk (members : List α) (quota : α → Nat) (other : α) (l : List α) (a : α) : Prop :=
  a ∈ members ∧ (l.count other = 0 → l.count a < quota a)

variable {other : α}

theorem Admits.mem {ts l : List α}
    (h : Effect.Admits (push w) (TurnOk members quota other) ts l) : ∀ a ∈ ts, a ∈ members := by
  induction ts generalizing l with
  | nil => simp
  | cons t ts ih =>
    intro a ha
    rcases List.mem_cons.mp ha with rfl | ha
    · exact h.1.1
    · exact ih h.2 a ha

/-- The turns of one window after a window of members only are within the quotas. -/
theorem count_le_quota (hother : other ∉ members) {front : List α} (hfront : front.length = w)
    (hmem : ∀ a ∈ front, a ∈ members) :
    ∀ (ts done : List α), (∀ a ∈ done, a ∈ members) → done.length + ts.length ≤ w →
      (∀ a, done.count a ≤ quota a) →
      Effect.Admits (push w) (TurnOk members quota other) ts ((front ++ done).rtake w) →
      ∀ a, (done ++ ts).count a ≤ quota a
  | [], done, _, _, hle, _, a => by
    rw [List.append_nil]
    exact hle a
  | t :: ts, done, hdone, hlen, hle, hadm, a => by
    obtain ⟨⟨htmem, htlt⟩, hrest⟩ := hadm
    have hsuffix : done.Sublist ((front ++ done).rtake w) := by
      rw [List.length_cons] at hlen
      rw [List.rtake, List.length_append, List.drop_append_of_le_length (by omega)]
      exact List.sublist_append_right _ _
    have hnone : ((front ++ done).rtake w).count other = 0 := by
      refine List.count_eq_zero.mpr fun h => hother ?_
      rcases List.mem_append.mp (List.mem_of_mem_drop h) with h | h
      · exact hmem other h
      · exact hdone other h
    have hlt : done.count t < quota t := (hsuffix.count_le t).trans_lt (htlt hnone)
    have happend : done ++ t :: ts = done ++ [t] ++ ts := by simp
    rw [push, rtake_rtake_append, List.append_assoc] at hrest
    rw [happend]
    refine count_le_quota hother hfront hmem ts (done ++ [t]) ?_ ?_ ?_ hrest a
    · intro b hb
      rcases List.mem_append.mp hb with hb | hb
      · exact hdone b hb
      · exact List.mem_singleton.mp hb ▸ htmem
    · simp only [List.length_append, List.length_cons, List.length_nil] at hlen ⊢
      omega
    · intro b
      rw [List.count_append, List.count_singleton]
      by_cases hb : t = b
      · subst hb
        simpa using Nat.succ_le_of_lt hlt
      · simpa [hb] using hle b

/-- **Turns below quotas run out** within two windows, if the window holds the quotas' total. -/
theorem length_le_of_quotas (hnodup : members.Nodup) (hother : other ∉ members)
    (hsum : (members.map quota).sum ≤ w) {ts l : List α} (hl : l.length ≤ w)
    (h : Effect.Admits (push w) (TurnOk members quota other) ts l) : ts.length ≤ 2 * w := by
  by_contra hlong
  have hlen : 2 * w < ts.length := by omega
  obtain ⟨front, mid, t, rest, rfl, hfront, hmid⟩ : ∃ front mid t rest,
      ts = front ++ (mid ++ t :: rest) ∧ front.length = w ∧ mid.length = w := by
    refine ⟨ts.take w, (ts.drop w).take w, ts[2 * w], ts.drop (2 * w + 1), ?_, ?_, ?_⟩
    · rw [← List.drop_eq_getElem_cons hlen, Nat.two_mul, ← List.drop_drop, List.take_append_drop,
        List.take_append_drop]
    · rw [List.length_take]
      omega
    · rw [List.length_take, List.length_drop]
      omega
  have hmem := Admits.mem h
  have hfrontmem : ∀ a ∈ front, a ∈ members := fun a ha => hmem a (List.mem_append_left _ ha)
  have hmidmem : ∀ a ∈ mid, a ∈ members := fun a ha =>
    hmem a (List.mem_append_right _ (List.mem_append_left _ ha))
  -- after the first window of turns, `other` has none; after the second, all are within quota
  rw [Effect.admits_append, Effect.admits_append, runAll_push w front l hl,
    rtake_append_of_length hfront] at h
  obtain ⟨-, hmidok, ht, -⟩ := h
  have hwithin : ∀ a, mid.count a ≤ quota a := by
    have := count_le_quota hother hfront hfrontmem mid [] (by simp) (by simp [hmid]) (by simp)
      (by rwa [List.append_nil, List.rtake, hfront, Nat.sub_self, List.drop_zero])
    simpa using this
  rw [runAll_push w mid front hfront.le, rtake_append_of_length hmid] at ht
  have hbelow := ht.2 (List.count_eq_zero.mpr fun ho => hother (hmidmem other ho))
  have hover := length_lt_of_below hnodup hmidmem hwithin ht.1 hbelow
  omega

end Quotas

end Turns
