import MeiyeAgent.CreditBilling.Cycles

/-!
# CreditBilling/CycleTiling — the cycles of a subscription tile time

From the year 100 on `Date.UTC` reads every year as it stands, so cycle `k` starts in the month `k`
after the anchor's (`cycleStart`), a month of its own.  Everything considered must be in the range
of dates: `CycleInRange anchorAt k` says that cycle `k` starts in it.

* `cycleStart_strictMono` — cycles follow one another.
* `cycleIndexAt_iff` — **the grid is read back**: the index of a moment is `k` exactly when the
  moment lies in cycle `k`, the two loops correcting the guess of the months between.
* `dueCycles_eq` — the cycles that have begun, up to the paid one, are those up to the index.
-/

namespace MeiyeAgent

open Calendar

/-! ## The start of a cycle -/

/-- The day and the time of the anchor, in the month `k` after its own. -/
def cycleStart (anchorAt : Int) (k : Nat) : Int :=
  (monthStart (monthOfInstant anchorAt + k) +
    min (dayOfMonth anchorAt) (monthLength (monthOfInstant anchorAt + k)) - 1) * msPerDay +
    anchorAt % msPerDay

/-- Cycle `k` starts within the range of dates, and so does the last day of its month. -/
structure CycleInRange (anchorAt : Int) (k : Nat) : Prop where
  month : (monthStart (monthOfInstant anchorAt + k + 1) - 1) * msPerDay ≤ maxTime
  start : cycleStart anchorAt k ≤ maxTime

/-- **An anchor the tiling is about**: a date, of the year 100 or later. -/
structure CycleAnchor (anchorAt : Int) : Prop where
  low : -maxTime ≤ anchorAt
  high : anchorAt ≤ maxTime
  year : 100 ≤ monthOfInstant anchorAt / 12

section Cycles

variable {anchorAt : Int}

theorem dayOfMonth_bounds (anchorAt : Int) :
    1 ≤ dayOfMonth anchorAt ∧ dayOfMonth anchorAt ≤ monthLength (monthOfInstant anchorAt) := by
  obtain ⟨hlow, hhigh⟩ := monthOf_spec (anchorAt / msPerDay)
  rw [dayOfMonth, monthOfInstant, monthLength]
  omega

/-- **A cycle starts in its month.** -/
theorem cycleStart_month (anchorAt : Int) (k : Nat) :
    monthStart (monthOfInstant anchorAt + k) * msPerDay ≤ cycleStart anchorAt k ∧
      cycleStart anchorAt k < monthStart (monthOfInstant anchorAt + k + 1) * msPerDay := by
  obtain ⟨hday, -⟩ := dayOfMonth_bounds anchorAt
  have hlength := (monthLength_bounds (monthOfInstant anchorAt + k)).1
  have hnext : monthStart (monthOfInstant anchorAt + k + 1) =
      monthStart (monthOfInstant anchorAt + k) + monthLength (monthOfInstant anchorAt + k) := by
    rw [monthLength]
    omega
  rw [cycleStart, hnext, msPerDay]
  omega

/-- **Cycles follow one another.** -/
theorem cycleStart_strictMono (anchorAt : Int) : StrictMono (cycleStart anchorAt) := by
  refine strictMono_nat_of_lt_succ fun k => ?_
  have hk := (cycleStart_month anchorAt k).2
  have hk' := (cycleStart_month anchorAt (k + 1)).1
  rw [Nat.cast_succ, ← add_assoc] at hk'
  exact hk.trans_le hk'

/-- The first cycle starts at the anchor. -/
theorem cycleStart_zero (anchorAt : Int) : cycleStart anchorAt 0 = anchorAt := by
  obtain ⟨-, hday⟩ := dayOfMonth_bounds anchorAt
  rw [cycleStart, Nat.cast_zero, add_zero, min_eq_left hday, dayOfMonth, msPerDay]
  omega

variable {j k : Nat}

theorem CycleInRange.mono (h : CycleInRange anchorAt k) (hjk : j ≤ k) :
    CycleInRange anchorAt j where
  month := by
    have hmonth : monthStart (monthOfInstant anchorAt + j + 1) ≤
        monthStart (monthOfInstant anchorAt + k + 1) :=
      monthStart_strictMono.monotone (by omega)
    have := h.month
    rw [msPerDay] at this ⊢
    omega
  start := ((cycleStart_strictMono anchorAt).monotone hjk).trans h.start

/-- No cycle starts beyond the last month. -/
theorem CycleInRange.month_le (h : CycleInRange anchorAt k) :
    monthOfInstant anchorAt + k + 1 ≤ lastMonth := by
  by_contra hlt
  have hlast : monthStart (lastMonth + 1) ≤ monthStart (monthOfInstant anchorAt + k + 1) :=
    monthStart_strictMono.monotone (by omega)
  have hvalue : monthStart (lastMonth + 1) = 100000018 := by decide
  have := h.month
  rw [msPerDay, maxTime] at this
  omega

theorem targetMonth_eq (h : CycleAnchor anchorAt) (k : Nat) :
    targetMonth anchorAt k = monthOfInstant anchorAt + k := by
  have hyear := h.year
  rw [targetMonth, utcYear, if_neg (by omega)]
  omega

/-- Months of the year 100 and later start well within the range. -/
theorem CycleAnchor.monthStart_low (h : CycleAnchor anchorAt) (k : Nat) :
    -700000 ≤ monthStart (monthOfInstant anchorAt + k) := by
  have hyear := h.year
  have hmono : monthStart 1200 ≤ monthStart (monthOfInstant anchorAt + k) :=
    monthStart_strictMono.monotone (by omega)
  have hvalue : monthStart 1200 = -683003 := by decide
  omega

/-- **The start of a cycle is computed** exactly when it is computable. -/
theorem addUtcMonths_eq_some (h : CycleAnchor anchorAt) {ms : Int} :
    addUtcMonths anchorAt k = some ms ↔ CycleInRange anchorAt k ∧ ms = cycleStart anchorAt k := by
  have hlow := h.monthStart_low k
  have hlength := monthStart_lt_succ (monthOfInstant anchorAt + k)
  have hmonth := (cycleStart_month anchorAt k).1
  simp only [addUtcMonths, targetMonth_eq h, Option.bind_eq_bind, Option.bind_eq_some_iff,
    timeClip_eq_some]
  constructor
  · rintro ⟨_, ⟨hlast, -⟩, hstart, rfl⟩
    exact ⟨⟨hlast.2, hstart.2⟩, rfl⟩
  · rintro ⟨hk, rfl⟩
    have hlast := hk.month
    have hstart := hk.start
    rw [msPerDay] at hlast hmonth
    rw [maxTime] at hlast hstart
    refine ⟨_, ⟨⟨?_, hk.month⟩, rfl⟩, ⟨?_, hk.start⟩, rfl⟩
    · rw [maxTime, msPerDay]
      omega
    · change -maxTime ≤ cycleStart anchorAt k
      rw [maxTime]
      omega

/-- **A cycle is computed** exactly when the next one is computable, and runs up to it. -/
theorem creditSubscriptionCycle_eq_ok (h : CycleAnchor anchorAt) {k : Nat}
    {cycle : CreditSubscriptionCycle} : creditSubscriptionCycle anchorAt k = .ok cycle ↔
      CycleInRange anchorAt (k + 1) ∧
        cycle = ⟨k, cycleStart anchorAt k, cycleStart anchorAt (k + 1)⟩ := by
  have hvalid (k : Nat) (ms : Int) : validDate (addUtcMonths anchorAt k) = .ok ms ↔
      CycleInRange anchorAt k ∧ ms = cycleStart anchorAt k := by
    rw [← addUtcMonths_eq_some h]
    rcases addUtcMonths anchorAt k with _ | t <;> simp [validDate]
  have hcast : ((k : Int) + 1) = ((k + 1 : Nat) : Int) := by push_cast; rfl
  simp only [creditSubscriptionCycle, hcast, Effect.bind_eq_ok, hvalid, Effect.pure_eq_ok]
  constructor
  · rintro ⟨_, ⟨-, rfl⟩, _, ⟨hnext, rfl⟩, rfl⟩
    exact ⟨hnext, rfl⟩
  · rintro ⟨hnext, rfl⟩
    exact ⟨_, ⟨hnext.mono (Nat.le_succ k), rfl⟩, _, ⟨hnext, rfl⟩, rfl⟩

theorem creditSubscriptionCycle_computable (h : CycleAnchor anchorAt)
    (hk : CycleInRange anchorAt (k + 1)) : creditSubscriptionCycle anchorAt k =
      .ok ⟨k, cycleStart anchorAt k, cycleStart anchorAt (k + 1)⟩ :=
  (creditSubscriptionCycle_eq_ok h).mpr ⟨hk, rfl⟩

/-- Beyond the range the cycle throws. -/
theorem creditSubscriptionCycle_throws (h : CycleAnchor anchorAt)
    (hk : ¬ CycleInRange anchorAt (k + 1)) :
    creditSubscriptionCycle anchorAt k = .error (.rangeError "Invalid time value") := by
  rcases hcycle : creditSubscriptionCycle anchorAt k with e | cycle
  · have hvalid (o : Option Int) (e : Thrown) (he : validDate o = .error e) :
        e = .rangeError "Invalid time value" := by
      rcases o with _ | ms
      · exact (Except.error.inj he).symm
      · exact nomatch he
    rw [creditSubscriptionCycle] at hcycle
    rcases hstart : validDate (addUtcMonths anchorAt k) with e' | ms <;> rw [hstart] at hcycle
    · rw [← Except.error.inj hcycle, hvalid _ _ hstart]
    · rcases hend : validDate (addUtcMonths anchorAt (k + 1)) with e' | ms' <;>
        rw [hend] at hcycle
      · rw [← Except.error.inj hcycle, hvalid _ _ hend]
      · exact nomatch hcycle
  · exact absurd ((creditSubscriptionCycle_eq_ok h).mp hcycle).1 hk

/-! ## The index of a moment -/

/-- The moment lies in cycle `k`. -/
def InCycle (anchorAt target : Int) (k : Nat) : Prop :=
  cycleStart anchorAt k ≤ target ∧ target < cycleStart anchorAt (k + 1)

variable {target : Int}

/-- A moment lies in one cycle. -/
theorem InCycle.unique (hj : InCycle anchorAt target j) (hk : InCycle anchorAt target k) :
    j = k := by
  have hjk : j < k + 1 := (cycleStart_strictMono anchorAt).lt_iff_lt.mp (hj.1.trans_lt hk.2)
  have hkj : k < j + 1 := (cycleStart_strictMono anchorAt).lt_iff_lt.mp (hk.1.trans_lt hj.2)
  omega

/-- **Every moment from the anchor on lies in a cycle.** -/
theorem exists_inCycle {target : Int} (hle : anchorAt ≤ target) : ∀ {bound : Nat},
    target < cycleStart anchorAt bound → ∃ k < bound, InCycle anchorAt target k
  | 0, hlt => by
    rw [cycleStart_zero] at hlt
    omega
  | bound + 1, hlt => by
    by_cases hbegun : cycleStart anchorAt bound ≤ target
    · exact ⟨bound, Nat.lt_succ_self bound, hbegun, hlt⟩
    · obtain ⟨k, hk, hin⟩ := exists_inCycle hle (not_le.mp hbegun)
      exact ⟨k, hk.trans (Nat.lt_succ_self bound), hin⟩

/-- The first loop ends at a cycle that has begun, or at the first. -/
theorem cycleBack_begun (h : CycleAnchor anchorAt) {target : Int} : ∀ {guess k : Nat},
    cycleBack anchorAt target guess = .ok k → k = 0 ∨ cycleStart anchorAt k ≤ target
  | 0, k, hok => .inl (Except.ok.inj hok).symm
  | guess + 1, k, hok => by
    rw [cycleBack, Effect.bind_eq_ok] at hok
    obtain ⟨cycle, hcycle, hok⟩ := hok
    obtain ⟨-, rfl⟩ := (creditSubscriptionCycle_eq_ok h).mp hcycle
    by_cases hlate : target < cycleStart anchorAt (guess + 1)
    · exact cycleBack_begun h (((if_pos hlate).symm.trans hok))
    · obtain rfl := Effect.pure_eq_ok.mp ((if_neg hlate).symm.trans hok)
      exact .inr (not_lt.mp hlate)

/-- **The first loop** goes back to the last cycle, up to the guess, that has begun. -/
theorem cycleBack_spec (h : CycleAnchor anchorAt) {target : Int} : ∀ {guess : Nat},
    CycleInRange anchorAt (guess + 1) → ∃ k ≤ guess, cycleBack anchorAt target guess = .ok k ∧
      (k = 0 ∨ cycleStart anchorAt k ≤ target)
  | 0, _ => ⟨0, le_refl 0, rfl, .inl rfl⟩
  | guess + 1, hguess => by
    rw [cycleBack, creditSubscriptionCycle_computable h hguess]
    by_cases hlate : target < cycleStart anchorAt (guess + 1)
    · obtain ⟨k, hk, hback, hbegun⟩ := @cycleBack_spec h target _
        (hguess.mono (Nat.le_succ (guess + 1)))
      exact ⟨k, Nat.le_succ_of_le hk, (if_pos hlate).trans hback, hbegun⟩
    · exact ⟨guess + 1, le_refl _, if_neg hlate, .inr (not_lt.mp hlate)⟩

theorem cyclesLeft_succ (anchorAt : Int) (k : Nat) :
    cyclesLeft anchorAt (k + 1) = cyclesLeft anchorAt k - 1 := by
  rw [cyclesLeft, cyclesLeft]
  omega

/-- With no cycles left the next is out of range. -/
theorem not_computable_of_cyclesLeft (hleft : cyclesLeft anchorAt k = 0) :
    ¬ CycleInRange anchorAt (k + 2) := by
  intro hk
  have hmonth := hk.month_le
  rw [cyclesLeft] at hleft
  omega

/-- **The second loop terminates**: more steps than the cycles left change nothing. -/
theorem cycleForward_terminates (h : CycleAnchor anchorAt) (target : Int) : ∀ {fuel k : Nat},
    cyclesLeft anchorAt k ≤ fuel → cycleForward anchorAt target fuel k =
      cycleForward anchorAt target (cyclesLeft anchorAt k) k
  | 0, k, hfuel => by rw [Nat.le_zero.mp hfuel]
  | fuel + 1, k, hfuel => by
    rcases hleft : cyclesLeft anchorAt k with _ | left
    · have hthrows := creditSubscriptionCycle_throws h (not_computable_of_cyclesLeft hleft)
      have hstop : cycleForward anchorAt target (fuel + 1) k =
          .error (.rangeError "Invalid time value") := by
        rw [cycleForward, hthrows]
        rfl
      exact hstop
    · have hnext : cyclesLeft anchorAt (k + 1) = left := by
        rw [cyclesLeft_succ, hleft]
        rfl
      have ih := @cycleForward_terminates h target fuel (k + 1) (by omega)
      rw [cycleForward, cycleForward, ih, hnext]

/-- What has begun by a target comes no later than its cycle. -/
theorem InCycle.computable_of_begun (hj : InCycle anchorAt target j)
    (hbegun : cycleStart anchorAt k ≤ target) (hnext : CycleInRange anchorAt (j + 2)) :
    CycleInRange anchorAt (k + 2) := by
  have hkj : k < j + 1 := (cycleStart_strictMono anchorAt).lt_iff_lt.mp (hbegun.trans_lt hj.2)
  exact hnext.mono (by omega)

/-- **The second loop** goes on to the cycle of the target, where the next one is computable. -/
theorem cycleForward_iff (h : CycleAnchor anchorAt) {target : Int} : ∀ {fuel k : Nat},
    cyclesLeft anchorAt k ≤ fuel → cycleStart anchorAt k ≤ target → ∀ j,
      cycleForward anchorAt target fuel k = .ok j ↔
        InCycle anchorAt target j ∧ CycleInRange anchorAt (j + 2)
  | 0, k, hfuel, hbegun, j => by
    refine iff_of_false (fun hok => nomatch hok) fun ⟨hj, hnext⟩ => ?_
    exact not_computable_of_cyclesLeft (Nat.le_zero.mp hfuel) (hj.computable_of_begun hbegun hnext)
  | fuel + 1, k, hfuel, hbegun, j => by
    by_cases hk : CycleInRange anchorAt (k + 2)
    · rw [cycleForward, creditSubscriptionCycle_computable h hk]
      by_cases hnext : cycleStart anchorAt (k + 1) ≤ target
      · have hleft : cyclesLeft anchorAt (k + 1) ≤ fuel := by
          rw [cyclesLeft_succ]
          omega
        rw [← cycleForward_iff h hleft hnext j]
        exact Iff.of_eq (congrArg (· = _) (if_pos hnext))
      · have hin : InCycle anchorAt target k := ⟨hbegun, not_le.mp hnext⟩
        refine (Iff.of_eq (congrArg (· = _) (if_neg hnext))).trans ?_
        rw [Effect.pure_eq_ok]
        constructor
        · rintro rfl
          exact ⟨hin, hk⟩
        · exact fun ⟨hj, _⟩ => hin.unique hj
    · rw [cycleForward, creditSubscriptionCycle_throws h hk]
      exact iff_of_false (fun hok => nomatch hok) fun ⟨hj, hnext⟩ =>
        hk (hj.computable_of_begun hbegun hnext)

theorem monthOfInstant_spec (t : Int) : monthStart (monthOfInstant t) * msPerDay ≤ t ∧
    t < monthStart (monthOfInstant t + 1) * msPerDay := by
  obtain ⟨hlow, hhigh⟩ := monthOf_spec (t / msPerDay)
  rw [monthOfInstant]
  rw [msPerDay] at hlow hhigh ⊢
  omega

/-- **The guess is the cycle, or the next.** -/
theorem InCycle.guess (hk : InCycle anchorAt target k) :
    monthOfInstant anchorAt + k ≤ monthOfInstant target ∧
      monthOfInstant target ≤ monthOfInstant anchorAt + k + 1 := by
  obtain ⟨hlow, hhigh⟩ := monthOfInstant_spec target
  have hstart := (cycleStart_month anchorAt k).1.trans hk.1
  have hend := hk.2.trans (cycleStart_month anchorAt (k + 1)).2
  rw [msPerDay] at hlow hhigh hstart hend
  have hfrom : monthOfInstant anchorAt + k < monthOfInstant target + 1 :=
    monthStart_strictMono.lt_iff_lt.mp (by omega)
  have hto : monthOfInstant target < monthOfInstant anchorAt + (k + 1 : Nat) + 1 :=
    monthStart_strictMono.lt_iff_lt.mp (by omega)
  push_cast at hto
  omega

/-- **The index of a moment**: -1 before the anchor, and otherwise the cycle it lies in, where the
next cycle is computable. -/
theorem cycleIndexAt_iff (h : CycleAnchor anchorAt) (hle : anchorAt ≤ target) (k : Int) :
    creditSubscriptionCycleIndexAt anchorAt target = .ok k ↔ ∃ j : Nat, k = j ∧
      InCycle anchorAt target j ∧ CycleInRange anchorAt (j + 2) := by
  obtain ⟨guess, hguess⟩ : ∃ guess : Nat,
      guess = (monthOfInstant target - monthOfInstant anchorAt).toNat := ⟨_, rfl⟩
  rw [creditSubscriptionCycleIndexAt, if_neg (not_lt.mpr hle), ← hguess]
  simp only [Effect.bind_eq_ok, Effect.pure_eq_ok]
  have hbegun {j : Nat} (hj : j = 0 ∨ cycleStart anchorAt j ≤ target) :
      cycleStart anchorAt j ≤ target := by
    rcases hj with rfl | hj
    · rwa [cycleStart_zero]
    · exact hj
  constructor
  · rintro ⟨i, hback, j, hforward, rfl⟩
    have hi := cycleBack_begun h hback
    have hj := (cycleForward_iff h (le_refl _) (hbegun hi) j).mp hforward
    exact ⟨j, rfl, hj⟩
  · rintro ⟨j, rfl, hin, hnext⟩
    have hclose := hin.guess
    obtain ⟨i, -, hback, hi⟩ := @cycleBack_spec _ h target guess
      (hnext.mono (by omega))
    exact ⟨i, hback, j, (cycleForward_iff h (le_refl _) (hbegun hi) j).mpr ⟨hin, hnext⟩, rfl⟩

/-! ## The cycles that have begun -/

/-- Cycle `k`, whatever the range of dates. -/
def cycleAt (anchorAt : Int) (k : Nat) : CreditSubscriptionCycle :=
  ⟨k, cycleStart anchorAt k, cycleStart anchorAt (k + 1)⟩

/-- **The loop collects** the cycles up to the one the moment lies in. -/
theorem dueCycles_eq (h : CycleAnchor anchorAt) {now : Int} {j : Nat}
    (hin : InCycle anchorAt now j) (hnext : CycleInRange anchorAt (j + 2)) :
    ∀ {left k : Nat}, k ≤ j + 1 → dueCycles anchorAt now left k =
      .ok ((List.range' k (min left (j + 1 - k))).map (cycleAt anchorAt))
  | 0, k, _ => by
    rw [Nat.zero_min]
    rfl
  | left + 1, k, hk => by
    rw [dueCycles, creditSubscriptionCycle_computable h (hnext.mono (by omega))]
    by_cases hlast : k = j + 1
    · subst hlast
      rw [Nat.sub_self, Nat.min_zero]
      exact if_pos hin.2
    · have hbegun : cycleStart anchorAt k ≤ now :=
        ((cycleStart_strictMono anchorAt).monotone (by omega)).trans hin.1
      have hmin : min (left + 1) (j + 1 - k) = min left (j + 1 - (k + 1)) + 1 := by omega
      have ih := @dueCycles_eq h _ _ hin hnext left (k + 1) (by omega)
      refine (if_neg (not_lt.mpr hbegun)).trans ?_
      rw [ih, hmin, List.range'_succ]
      rfl

/-- Before the anchor nothing has begun. -/
theorem dueCycles_before (h : CycleAnchor anchorAt) {now : Int} (hbefore : now < anchorAt)
    {left : Nat} (hfirst : left = 0 ∨ CycleInRange anchorAt 1) :
    dueCycles anchorAt now left 0 = .ok [] := by
  rcases left with _ | left
  · rfl
  · have hone : CycleInRange anchorAt 1 := hfirst.resolve_left (Nat.succ_ne_zero left)
    rw [dueCycles, creditSubscriptionCycle_computable h hone]
    exact if_pos (by rwa [cycleStart_zero])

/-- **The current cycle** is the one the moment lies in, if it is paid. -/
theorem currentCycle_eq (h : CycleAnchor anchorAt) {now : Int} (hin : InCycle anchorAt now j)
    (hnext : CycleInRange anchorAt (j + 2)) (paid : Int) : currentCycle anchorAt now paid =
      .ok (if (j : Int) < paid then some (cycleAt anchorAt j) else none) := by
  rw [currentCycle, dueCycles_eq h hin hnext (Nat.zero_le _), Nat.sub_zero]
  change Except.ok _ = Except.ok _
  congr 1
  by_cases hpaid : (j : Int) < paid
  · have hmin : min paid.toNat (j + 1) = j + 1 := by omega
    rw [hmin, if_pos hpaid, List.range'_concat, List.map_append, List.map_singleton,
      List.getLast?_concat, Option.filter_some]
    simpa [cycleAt] using hin.2
  · have hmin : min paid.toNat (j + 1) = paid.toNat := by omega
    rw [hmin, if_neg hpaid]
    rcases hcount : paid.toNat with _ | n
    · rfl
    · -- the last of the paid cycles has ended
      have hended : cycleStart anchorAt (n + 1) ≤ now :=
        ((cycleStart_strictMono anchorAt).monotone (by omega)).trans hin.1
      rw [List.range'_concat, List.map_append, List.map_singleton, List.getLast?_concat,
        Option.filter_some]
      simpa [cycleAt] using hended

/-! ## The tiling -/

/-- **A moment has index -1** exactly when it precedes the anchor. -/
theorem cycleIndexAt_before (h : CycleAnchor anchorAt) (t : Int) :
    creditSubscriptionCycleIndexAt anchorAt t = .ok (-1) ↔ t < anchorAt := by
  by_cases hlt : t < anchorAt
  · exact iff_of_true (by rw [creditSubscriptionCycleIndexAt, if_pos hlt]) hlt
  · refine iff_of_false (fun hok => ?_) hlt
    obtain ⟨j, hj, -⟩ := (cycleIndexAt_iff h (not_lt.mp hlt) _).mp hok
    omega

/-- **A moment has index `j`** exactly when it lies in cycle `j` and the next cycle is computable. -/
theorem cycleIndexAt_eq_ok (h : CycleAnchor anchorAt) (t : Int) (j : Nat) :
    creditSubscriptionCycleIndexAt anchorAt t = .ok j ↔
      InCycle anchorAt t j ∧ CycleInRange anchorAt (j + 2) := by
  by_cases hlt : t < anchorAt
  · refine iff_of_false (fun hok => ?_) fun ⟨hin, _⟩ => ?_
    · have heq := Except.ok.inj (((cycleIndexAt_before h t).mpr hlt).symm.trans hok)
      omega
    · have hfirst := (cycleStart_strictMono anchorAt).monotone (Nat.zero_le j)
      rw [cycleStart_zero] at hfirst
      exact absurd (hfirst.trans hin.1) (not_le.mpr hlt)
  · rw [cycleIndexAt_iff h (not_lt.mp hlt)]
    constructor
    · rintro ⟨i, hi, hin⟩
      rwa [Nat.cast_inj.mp hi]
    · exact fun hin => ⟨j, rfl, hin⟩

theorem monthOfInstant_mono {t t' : Int} (hle : t ≤ t') : monthOfInstant t ≤ monthOfInstant t' := by
  by_contra hlt
  have hstart : monthStart (monthOfInstant t' + 1) ≤ monthStart (monthOfInstant t) :=
    monthStart_strictMono.monotone (by omega)
  have hlow := (monthOf_spec (t / msPerDay)).1
  have hhigh := (monthOf_spec (t' / msPerDay)).2
  change monthStart (monthOfInstant t) ≤ _ at hlow
  change _ < monthStart (monthOfInstant t' + 1) at hhigh
  have hday := Int.ediv_le_ediv (show (0 : Int) < msPerDay by decide) hle
  omega

/-- The third month after a moment's own begins within 93 days of the moment. -/
theorem monthStart_third_le (t : Int) :
    monthStart (monthOfInstant t + 3) * msPerDay ≤ t + 93 * msPerDay := by
  have hlow := (monthOf_spec (t / msPerDay)).1
  have hone := (monthLength_bounds (monthOfInstant t)).2
  have htwo := (monthLength_bounds (monthOfInstant t + 1)).2
  have hthree := (monthLength_bounds (monthOfInstant t + 2)).2
  rw [monthLength] at hone htwo hthree
  rw [add_assoc] at htwo hthree
  change monthStart (monthOfInstant t) ≤ t / msPerDay at hlow
  change monthStart (monthOfInstant t + 2) - _ ≤ 31 at htwo
  change monthStart (monthOfInstant t + 3) - _ ≤ 31 at hthree
  generalize monthOfInstant t = m at *
  rw [msPerDay] at hlow ⊢
  omega

/-- **Every moment from the anchor on has an index**, up to 93 days before the dates end. -/
theorem cycleIndexAt_total (h : CycleAnchor anchorAt) {t : Int} (hle : anchorAt ≤ t)
    (hrange : t + 93 * msPerDay ≤ maxTime) :
    ∃ j : Nat, creditSubscriptionCycleIndexAt anchorAt t = .ok j := by
  have hspec := (monthOf_spec (t / msPerDay)).2
  obtain ⟨bound, hbound⟩ : ∃ bound : Nat,
      monthOfInstant anchorAt + bound = monthOfInstant t + 1 := by
    have hmono := monthOfInstant_mono hle
    exact ⟨(monthOfInstant t + 1 - monthOfInstant anchorAt).toNat, by omega⟩
  have hlt : t < cycleStart anchorAt bound := by
    have hmonth := (cycleStart_month anchorAt bound).1
    rw [hbound] at hmonth
    change _ < monthStart (monthOfInstant t + 1) at hspec
    rw [msPerDay] at hspec hmonth
    omega
  have hnext : CycleInRange anchorAt (bound + 1) := by
    have hthird := monthStart_third_le t
    have hmonth : monthOfInstant anchorAt + (bound + 1 : Nat) + 1 = monthOfInstant t + 3 := by
      omega
    have hstart := (cycleStart_month anchorAt (bound + 1)).2
    rw [hmonth] at hstart
    refine ⟨?_, by omega⟩
    rw [hmonth]
    rw [msPerDay] at hthird hrange ⊢
    omega
  obtain ⟨j, hj, hin⟩ := exists_inCycle hle hlt
  exact ⟨j, (cycleIndexAt_eq_ok h t j).mpr ⟨hin, hnext.mono (by omega)⟩⟩

/-- **The cycles of an anchor tile time**, as far as the dates reach: cycle `k` is computed exactly
when the cycle after it begins within them. -/
structure CyclesTile (anchorAt : Int) : Prop where
  computed : ∀ k, (∃ cycle, creditSubscriptionCycle anchorAt k = .ok cycle) ↔
    CycleInRange anchorAt (k + 1)
  starts : ∀ cycle, creditSubscriptionCycle anchorAt 0 = .ok cycle → cycle.startsAt = anchorAt
  contiguous : ∀ k cycle next, creditSubscriptionCycle anchorAt k = .ok cycle →
    creditSubscriptionCycle anchorAt (k + 1) = .ok next → cycle.endsAt = next.startsAt
  increasing : ∀ j k earlier later, j < k → creditSubscriptionCycle anchorAt j = .ok earlier →
    creditSubscriptionCycle anchorAt k = .ok later → earlier.startsAt < later.startsAt
  covered : ∀ t ≥ anchorAt, ∀ k cycle, creditSubscriptionCycle anchorAt k = .ok cycle →
    t < cycle.endsAt → ∃ j ≤ k, ∃ own, creditSubscriptionCycle anchorAt j = .ok own ∧
      own.startsAt ≤ t ∧ t < own.endsAt
  single : ∀ t j k one other, creditSubscriptionCycle anchorAt j = .ok one →
    creditSubscriptionCycle anchorAt k = .ok other → one.startsAt ≤ t ∧ t < one.endsAt →
      other.startsAt ≤ t ∧ t < other.endsAt → j = k
  terminates : ∀ target k fuel, cyclesLeft anchorAt k ≤ fuel →
    cycleForward anchorAt target fuel k = cycleForward anchorAt target (cyclesLeft anchorAt k) k
  before : ∀ t, creditSubscriptionCycleIndexAt anchorAt t = .ok (-1) ↔ t < anchorAt
  total : ∀ t ≥ anchorAt, t + 93 * msPerDay ≤ maxTime →
    ∃ j : Nat, creditSubscriptionCycleIndexAt anchorAt t = .ok j
  indexed : ∀ t (j : Nat), creditSubscriptionCycleIndexAt anchorAt t = .ok j ↔
    ∃ cycle next, creditSubscriptionCycle anchorAt j = .ok cycle ∧
      creditSubscriptionCycle anchorAt (j + 1) = .ok next ∧
        cycle.startsAt ≤ t ∧ t < cycle.endsAt
  natural : ∀ t k, creditSubscriptionCycleIndexAt anchorAt t = .ok k → k = -1 ∨ ∃ j : Nat, k = j
  due : ∀ now (j : Nat) (paid : Int), creditSubscriptionCycleIndexAt anchorAt now = .ok j →
    dueCycles anchorAt now paid.toNat 0 =
      (List.range (min paid.toNat (j + 1))).mapM (creditSubscriptionCycle anchorAt)
  current : ∀ now (j : Nat) (paid : Int), creditSubscriptionCycleIndexAt anchorAt now = .ok j →
    currentCycle anchorAt now paid =
      if (j : Int) < paid then some <$> creditSubscriptionCycle anchorAt j else .ok none
  early : ∀ now (paid : Int) first, creditSubscriptionCycleIndexAt anchorAt now = .ok (-1) →
    creditSubscriptionCycle anchorAt 0 = .ok first →
      dueCycles anchorAt now paid.toNat 0 = .ok [] ∧ currentCycle anchorAt now paid = .ok none

/-- **The due cycles** are the computed ones up to the index, within those paid. -/
theorem dueCycles_of_index (h : CycleAnchor anchorAt) {now : Int}
    (hok : creditSubscriptionCycleIndexAt anchorAt now = .ok j) (paid : Int) :
    dueCycles anchorAt now paid.toNat 0 =
      (List.range (min paid.toNat (j + 1))).mapM (creditSubscriptionCycle anchorAt) := by
  obtain ⟨hin, hrange⟩ := (cycleIndexAt_eq_ok h now j).mp hok
  rw [dueCycles_eq h hin hrange (Nat.zero_le _), Nat.sub_zero, List.range_eq_range']
  refine (Effect.list_mapM_eq_ok.mpr ?_).symm
  refine List.forall₂_map_right_iff.mpr (List.forall₂_same.mpr fun k hk => ?_)
  have hlt := (List.mem_range'_1.mp hk).2
  exact creditSubscriptionCycle_computable h (hrange.mono (by omega))

/-- The index of an instant is that of the cycle around it, where the next one can be computed. -/
theorem cycleIndexAt_eq_ok_iff (h : CycleAnchor anchorAt) (t : Int) (j : Nat) :
    creditSubscriptionCycleIndexAt anchorAt t = .ok j ↔
      ∃ cycle next, creditSubscriptionCycle anchorAt j = .ok cycle ∧
        creditSubscriptionCycle anchorAt (j + 1) = .ok next ∧
          cycle.startsAt ≤ t ∧ t < cycle.endsAt := by
  rw [cycleIndexAt_eq_ok h]
  constructor
  · rintro ⟨hin, hrange⟩
    exact ⟨_, _, (creditSubscriptionCycle_eq_ok h).mpr ⟨hrange.mono (Nat.le_succ _), rfl⟩,
      (creditSubscriptionCycle_eq_ok h).mpr ⟨hrange, rfl⟩, hin⟩
  · rintro ⟨cycle, next, hok, hnext, hin⟩
    obtain ⟨-, rfl⟩ := (creditSubscriptionCycle_eq_ok h).mp hok
    exact ⟨hin, ((creditSubscriptionCycle_eq_ok h).mp hnext).1⟩

/-- The current cycle is the one of the index, where that is paid. -/
theorem currentCycle_of_index (h : CycleAnchor anchorAt) {now : Int}
    (hok : creditSubscriptionCycleIndexAt anchorAt now = .ok j) (paid : Int) :
    currentCycle anchorAt now paid =
      if (j : Int) < paid then some <$> creditSubscriptionCycle anchorAt j else .ok none := by
  obtain ⟨hin, hrange⟩ := (cycleIndexAt_eq_ok h now j).mp hok
  have hown : creditSubscriptionCycle anchorAt j = .ok (cycleAt anchorAt j) :=
    creditSubscriptionCycle_computable h (hrange.mono (Nat.le_succ _))
  rw [currentCycle_eq h hin hrange, hown]
  split <;> rfl

/-- **The cycles tile time**, whatever the day of the anchor. -/
theorem cyclesTile (h : CycleAnchor anchorAt) : CyclesTile anchorAt where
  computed _ := ⟨fun ⟨_, hok⟩ => ((creditSubscriptionCycle_eq_ok h).mp hok).1,
    fun hk => ⟨_, creditSubscriptionCycle_computable h hk⟩⟩
  starts cycle hok := by
    obtain ⟨-, rfl⟩ := (creditSubscriptionCycle_eq_ok h).mp hok
    exact cycleStart_zero anchorAt
  contiguous k cycle next hok hnext := by
    obtain ⟨-, rfl⟩ := (creditSubscriptionCycle_eq_ok h).mp hok
    obtain ⟨-, rfl⟩ := (creditSubscriptionCycle_eq_ok h).mp hnext
    rfl
  increasing j k earlier later hjk hok hlater := by
    obtain ⟨-, rfl⟩ := (creditSubscriptionCycle_eq_ok h).mp hok
    obtain ⟨-, rfl⟩ := (creditSubscriptionCycle_eq_ok h).mp hlater
    exact cycleStart_strictMono anchorAt hjk
  covered t hle k cycle hok hlt := by
    obtain ⟨hrange, rfl⟩ := (creditSubscriptionCycle_eq_ok h).mp hok
    obtain ⟨j, hj, hin⟩ := exists_inCycle hle hlt
    exact ⟨j, Nat.le_of_lt_succ hj, _,
      (creditSubscriptionCycle_eq_ok h).mpr ⟨hrange.mono hj, rfl⟩, hin⟩
  single t j k one other hok hok' hone hother := by
    obtain ⟨-, rfl⟩ := (creditSubscriptionCycle_eq_ok h).mp hok
    obtain ⟨-, rfl⟩ := (creditSubscriptionCycle_eq_ok h).mp hok'
    exact InCycle.unique hone hother
  terminates target _ _ hfuel := cycleForward_terminates h target hfuel
  before := cycleIndexAt_before h
  total _ := cycleIndexAt_total h
  indexed := cycleIndexAt_eq_ok_iff h
  natural t k hok := by
    by_cases hlt : t < anchorAt
    · exact .inl (Except.ok.inj (hok.symm.trans ((cycleIndexAt_before h t).mpr hlt)))
    · obtain ⟨j, hj, -⟩ := (cycleIndexAt_iff h (not_lt.mp hlt) k).mp hok
      exact .inr ⟨j, hj⟩
  due _ _ paid hok := dueCycles_of_index h hok paid
  current _ _ paid hok := currentCycle_of_index h hok paid
  early now paid first hok hfirst := by
    obtain ⟨hone, -⟩ := (creditSubscriptionCycle_eq_ok h).mp hfirst
    have hnone : dueCycles anchorAt now paid.toNat 0 = .ok [] :=
      dueCycles_before h ((cycleIndexAt_before h now).mp hok) (.inr hone)
    refine ⟨hnone, ?_⟩
    rw [currentCycle, hnone]
    rfl

end Cycles

/-- The anchor of 31 January 2028, a leap year. -/
theorem cyclesTile_leap : CyclesTile 1832889600000 :=
  cyclesTile ⟨by decide, by decide, by decide⟩

end MeiyeAgent
