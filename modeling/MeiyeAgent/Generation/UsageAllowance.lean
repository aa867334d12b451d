import MeiyeAgent.Generation.GenerationEffects
import Mathlib.Algebra.Order.BigOperators.Group.List
import Mathlib.Tactic.Linarith

/-!
# Generation/UsageAllowance — what compensation gives back

The projection weighs each reservation by how it has ended, so an append moves two sums at once.
Two facts carry everything: a reservation is made by one event (`Recorded`), and what is available
plus what a reservation has taken stays the same while it is given back (`Recorded.gives`).

* `CompensatesOnce` — **the side condition of a compensation**: the commit was whole, and none of it
  was given back before.
* `AmountsAddUp` — the amounts are whole numbers that add up to no more than `2 ^ 53`.
* `allowanceKept_run` — **such a run creates no allowance**, and the counterexample compensates a
  partial commit.
-/

namespace MeiyeAgent

open Effect GenerationTables

variable {s s' : GenerationTables} {events : List UsageEvent} {event : UsageEvent} {id : String}

/-! ## Sums over the events -/

/-- One summand is another, and the sums differ by it. -/
theorem sum_map_replaced {α : Type} {f g : α → Rat} {l before after : List α} {a : α}
    (hl : l = before ++ a :: after) (hbefore : ∀ x ∈ before, f x = g x)
    (hafter : ∀ x ∈ after, f x = g x) : (l.map f).sum = (l.map g).sum - g a + f a := by
  subst hl
  rw [List.map_append, List.map_cons, List.sum_append, List.sum_cons, List.map_append,
    List.map_cons, List.sum_append, List.sum_cons, List.map_congr_left hbefore,
    List.map_congr_left hafter]
  linarith

theorem terminalOf_append : terminalOf (events ++ [event]) id =
    if event.isTerminalOf id = true then some event else terminalOf events id := by
  rw [terminalOf, List.reverse_append, List.reverse_singleton, List.singleton_append,
    List.find?_cons, terminalOf]
  cases event.isTerminalOf id <;> rfl

/-- A reservation has not ended, from either end of the list. -/
theorem terminalOf_eq_none (h : events.find? (·.isTerminalOf id) = none) :
    terminalOf events id = none := by
  rw [List.find?_eq_none] at h
  exact List.find?_eq_none.mpr fun event hevent => h event (List.mem_reverse.mp hevent)

/-- An event that ends nothing leaves the shares of the others. -/
theorem shares_append (events : List UsageEvent) (h : event.action.isTerminal = false) :
    reservedShare (events ++ [event]) = reservedShare events ∧
      committedShare (events ++ [event]) = committedShare events := by
  have hterminal (id : String) : terminalOf (events ++ [event]) id = terminalOf events id := by
    rw [terminalOf_append, if_neg]
    intro hends
    rw [(UsageEvent.isTerminalOf_eq_true.mp hends).2] at h
    exact nomatch h
  constructor
  · funext other
    simp only [reservedShare, hterminal]
  · funext other
    simp only [committedShare, funext hterminal]

/-- What reserves nothing has no share. -/
theorem shares_of_none (h : event.reserves = none) :
    reservedShare events event = 0 ∧ committedShare events event = 0 := by
  rw [reservedShare, committedShare, h]
  exact ⟨rfl, rfl⟩

theorem reserves_eq_some (h : event.reserves = some id) :
    event.isReserveOf id = true ∧ id ≠ "" := by
  rw [UsageEvent.reserves] at h
  split at h
  · next haction =>
    obtain ⟨hid, hne⟩ := Option.filter_eq_some_iff.mp h
    exact ⟨UsageEvent.isReserveOf_eq_true.mpr ⟨haction, hid⟩, of_decide_eq_true hne⟩
  · exact nomatch h

theorem reserves_of_isReserveOf (h : event.isReserveOf id = true) (hne : id ≠ "") :
    event.reserves = some id := by
  obtain ⟨haction, hid⟩ := UsageEvent.isReserveOf_eq_true.mp h
  rw [UsageEvent.reserves, if_pos haction, hid]
  exact Option.filter_eq_some_iff.mpr ⟨rfl, decide_eq_true hne⟩

/-- A terminal event leaves the shares of the other reservations. -/
theorem shares_terminal (events : List UsageEvent) {other : UsageEvent}
    (hid : event.reservationId = some id)
    (hother : other.isReserveOf id = false) :
    reservedShare (events ++ [event]) other = reservedShare events other ∧
      committedShare (events ++ [event]) other = committedShare events other := by
  cases hreserves : other.reserves with
  | none =>
    rw [(shares_of_none hreserves).1, (shares_of_none hreserves).1, (shares_of_none hreserves).2,
      (shares_of_none hreserves).2]
    exact ⟨rfl, rfl⟩
  | some id' =>
    have hterminal : terminalOf (events ++ [event]) id' = terminalOf events id' := by
      rw [terminalOf_append, if_neg]
      intro hends
      have hsame := (UsageEvent.isTerminalOf_eq_true.mp hends).1
      obtain rfl := Option.some.inj (hid.symm.trans hsame)
      exact nomatch hother.symm.trans (reserves_eq_some hreserves).1
    simp only [reservedShare, committedShare, hreserves, Option.bind_some, hterminal]
    exact ⟨trivial, trivial⟩

/-! ## The invariant -/

/-- What events of one action move on a reservation. -/
def amountOf (action : UsageAction) (id : String) (events : List UsageEvent) : Rat :=
  (events.map fun event =>
    if event.action = action ∧ event.reservationId = some id then event.amount else 0).sum

/-- **What a reservation has taken**: while it is open its amount, then what was committed of it,
less what was compensated. -/
def takenOf (id : String) (events : List UsageEvent) : Rat :=
  (if events.any (·.isTerminalOf id) then 0 else amountOf .reserve id events) +
    amountOf .commit id events - amountOf .compensate id events

/-- **The invariant**: a reservation has a name and one event that makes it, amounts are not
negative, and the usage is within the allowance. -/
structure Recorded (events : List UsageEvent) : Prop where
  nonneg : ∀ event ∈ events, 0 ≤ event.amount
  named : ∀ event ∈ events, event.isReserveOf "" = false
  once : ∀ id, (events.filter (·.isReserveOf id)).length ≤ 1
  within : (projectUsage events).reserved + (projectUsage events).committed ≤
    (projectUsage events).allowance

theorem Recorded.nil : Recorded [] where
  nonneg _ h := absurd h List.not_mem_nil
  named _ h := absurd h List.not_mem_nil
  once _ := Nat.zero_le _
  within := (add_zero (0 : Rat)).le

theorem amountOf_append {action : UsageAction} : amountOf action id (events ++ [event]) =
    amountOf action id events +
      if event.action = action ∧ event.reservationId = some id then event.amount else 0 := by
  rw [amountOf, List.map_append, List.sum_append, List.map_singleton, List.sum_singleton, amountOf]

theorem amountOf_append_ne {action : UsageAction} (h : event.action ≠ action) :
    amountOf action id (events ++ [event]) = amountOf action id events := by
  rw [amountOf_append, if_neg fun hboth => h hboth.1, add_zero]

theorem amountOf_nonneg (h : Recorded events) (action : UsageAction) (id : String) :
    0 ≤ amountOf action id events := by
  refine List.sum_nonneg fun amount hamount => ?_
  obtain ⟨event, hevent, rfl⟩ := List.mem_map.mp hamount
  split
  · exact h.nonneg event hevent
  · exact le_refl 0

variable {reservation : UsageEvent}

/-- **One event makes a reservation**: the list splits at it. -/
theorem Recorded.split (h : Recorded events)
    (hreservation : events.find? (·.isReserveOf id) = some reservation) : ∃ before after,
      events = before ++ reservation :: after ∧ (∀ event ∈ before, event.isReserveOf id = false) ∧
        ∀ event ∈ after, event.isReserveOf id = false := by
  obtain ⟨hreserves, before, after, hevents, hbefore⟩ := List.find?_eq_some_iff_append.mp hreservation
  refine ⟨before, after, hevents, fun event hevent => by simpa using hbefore event hevent,
    fun event hevent => Bool.eq_false_iff.mpr fun hother => ?_⟩
  have honce := h.once id
  rw [hevents, List.filter_append, List.filter_cons_of_pos hreserves, List.length_append,
    List.length_cons] at honce
  have hpos := List.length_pos_of_mem (List.mem_filter.mpr ⟨hevent, hother⟩)
  omega

/-- What a reservation was made for. -/
theorem Recorded.amountOf_reserve (h : Recorded events)
    (hreservation : events.find? (·.isReserveOf id) = some reservation) :
    amountOf .reserve id events = reservation.amount := by
  obtain ⟨before, after, rfl, hbefore, hafter⟩ := h.split hreservation
  have hnot {others : List UsageEvent} (h : ∀ event ∈ others, event.isReserveOf id = false) :
      amountOf .reserve id others = 0 := by
    refine List.sum_eq_zero fun amount hamount => ?_
    obtain ⟨event, hevent, rfl⟩ := List.mem_map.mp hamount
    exact if_neg fun hboth => nomatch (h event hevent).symm.trans
      (UsageEvent.isReserveOf_eq_true.mpr hboth)
  have hboth := UsageEvent.isReserveOf_eq_true.mp (List.find?_some hreservation)
  have hsplit : amountOf .reserve id (before ++ reservation :: after) =
      amountOf .reserve id before + (reservation.amount + amountOf .reserve id after) := by
    rw [amountOf, List.map_append, List.map_cons, List.sum_append, List.sum_cons, if_pos hboth]
    rfl
  rw [hsplit, hnot hbefore, hnot hafter, zero_add, add_zero]

/-! ## The projection over an append -/

/-- An event that ends nothing adds its own shares. -/
theorem project_append (events : List UsageEvent) (h : event.action.isTerminal = false) :
    (projectUsage (events ++ [event])).allowance =
        (projectUsage events).allowance + event.allows ∧
      (projectUsage (events ++ [event])).reserved =
        (projectUsage events).reserved + reservedShare events event ∧
      (projectUsage (events ++ [event])).committed =
        (projectUsage events).committed + committedShare events event := by
  obtain ⟨hreserved, hcommitted⟩ := shares_append events h
  simp only [projectUsage, hreserved, hcommitted, List.map_append, List.sum_append,
    List.map_singleton, List.sum_singleton]
  exact ⟨trivial, trivial, trivial⟩

/-- An adjustment and a compensation add to the allowance, and to nothing else. -/
theorem project_allowance (events : List UsageEvent)
    (h : event.action = .adjust ∨ event.action = .compensate) :
    (projectUsage (events ++ [event])).allowance =
        (projectUsage events).allowance + event.amount ∧
      (projectUsage (events ++ [event])).reserved = (projectUsage events).reserved ∧
      (projectUsage (events ++ [event])).committed = (projectUsage events).committed := by
  have hterminal : event.action.isTerminal = false := by
    rcases h with haction | haction <;> rw [haction] <;> rfl
  have hnone : event.reserves = none := by
    refine if_neg ?_
    rcases h with haction | haction <;> rw [haction] <;> nofun
  obtain ⟨hallowance, hreserved, hcommitted⟩ := project_append events hterminal
  rw [hallowance, hreserved, hcommitted, (shares_of_none hnone).1, (shares_of_none hnone).2,
    add_zero, add_zero, UsageEvent.allows, if_pos h]
  exact ⟨rfl, rfl, rfl⟩

/-- **The end of a reservation** moves its amount out of what is reserved. -/
theorem Recorded.project_terminal (h : Recorded events) (hterminal : event.action.isTerminal = true)
    (hid : event.reservationId = some id)
    (hreservation : events.find? (·.isReserveOf id) = some reservation)
    (hopen : events.find? (·.isTerminalOf id) = none) :
    (projectUsage (events ++ [event])).allowance = (projectUsage events).allowance ∧
      (projectUsage (events ++ [event])).reserved =
        (projectUsage events).reserved - reservation.amount ∧
      (projectUsage (events ++ [event])).committed = (projectUsage events).committed +
        if event.action = .commit then event.amount else 0 := by
  have hne : id ≠ "" := by
    rintro rfl
    have hmem := List.mem_of_find?_eq_some hreservation
    exact nomatch (h.named reservation hmem).symm.trans (List.find?_some hreservation)
  have hmakes := reserves_of_isReserveOf (List.find?_some hreservation) hne
  have hbefore := terminalOf_eq_none hopen
  have hafter : terminalOf (events ++ [event]) id = some event := by
    rw [terminalOf_append, if_pos (UsageEvent.isTerminalOf_eq_true.mpr ⟨hid, hterminal⟩)]
  have hnone : event.reserves = none := by
    rw [UsageEvent.reserves, if_neg]
    rintro haction
    rw [haction] at hterminal
    exact nomatch hterminal
  have hallows : event.allows = 0 := by
    rw [UsageEvent.allows, if_neg]
    rintro (haction | haction) <;> rw [haction] at hterminal <;> exact nomatch hterminal
  obtain ⟨before, after, hevents, hfirst, hlast⟩ := h.split hreservation
  refine ⟨?_, ?_, ?_⟩
  · simp only [projectUsage, List.map_append, List.sum_append, List.map_singleton,
      List.sum_singleton, hallows, add_zero]
  · have hshare : reservedShare events reservation = reservation.amount := by
      rw [reservedShare, hmakes]
      exact if_pos (by rw [hbefore]; rfl)
    have hshare' : reservedShare (events ++ [event]) reservation = 0 := by
      rw [reservedShare, hmakes]
      exact if_neg (by rw [hafter]; nofun)
    have hsum := sum_map_replaced hevents
      (fun other hother => (shares_terminal events hid (hfirst other hother)).1)
      fun other hother => (shares_terminal events hid (hlast other hother)).1
    simp only [projectUsage, List.map_append, List.sum_append, List.map_singleton,
      List.sum_singleton, (shares_of_none hnone).1, hsum, hshare, hshare', add_zero]
  · have hshare : committedShare events reservation = 0 := by
      rw [committedShare, hmakes, Option.bind_some, hbefore]
    have hshare' : committedShare (events ++ [event]) reservation =
        if event.action = .commit then event.amount else 0 := by
      rw [committedShare, hmakes, Option.bind_some, hafter]
    have hsum := sum_map_replaced hevents
      (fun other hother => (shares_terminal events hid (hfirst other hother)).2)
      fun other hother => (shares_terminal events hid (hlast other hother)).2
    simp only [projectUsage, List.map_append, List.sum_append, List.map_singleton,
      List.sum_singleton, (shares_of_none hnone).2, hsum, hshare, hshare', add_zero, sub_zero]

/-- **The clamp hides no deficit.** -/
theorem Recorded.available (h : Recorded events) : (projectUsage events).available =
    (projectUsage events).allowance - (projectUsage events).reserved -
      (projectUsage events).committed := by
  refine max_eq_right ?_
  have hwithin := h.within
  simp only [projectUsage] at hwithin
  linarith

/-- **The invariant holds after every event the code writes.** -/
theorem Recorded.append (h : Recorded events) (hrule : UsageRule events event)
    (hnonneg : 0 ≤ event.amount) (hnamed : event.isReserveOf "" = false) :
    Recorded (events ++ [event]) := by
  have hmem {P : UsageEvent → Prop} (hold : ∀ other ∈ events, P other) (hnew : P event) :
      ∀ other ∈ events ++ [event], P other := fun other hother =>
    (List.mem_append.mp hother).elim (hold other) fun hlast => List.mem_singleton.mp hlast ▸ hnew
  refine ⟨hmem h.nonneg hnonneg, hmem h.named hnamed, fun id => ?_, ?_⟩
  · rw [List.filter_append, List.length_append]
    by_cases hreserves : event.isReserveOf id = true
    · have hnone : events.filter (·.isReserveOf id) = [] := by
        obtain ⟨haction, hid⟩ := UsageEvent.isReserveOf_eq_true.mp hreserves
        cases hrule with
        | reserve id' _ hid' hnew =>
          obtain rfl := Option.some.inj (hid.symm.trans hid')
          exact List.filter_eq_nil_iff.mpr (List.find?_eq_none.mp hnew)
        | adjust hother => exact nomatch haction.symm.trans hother
        | compensate hother => exact nomatch haction.symm.trans hother
        | terminal _ _ hother =>
          rw [haction] at hother
          exact nomatch hother
      rw [hnone, List.length_nil, Nat.zero_add]
      exact List.length_filter_le _ _
    · rw [List.filter_cons_of_neg hreserves, List.filter_nil, List.length_nil, Nat.add_zero]
      exact h.once id
  · have hwithin := h.within
    cases hrule with
    | adjust haction =>
      obtain ⟨hallowance, hreserved, hcommitted⟩ := project_allowance events (.inl haction)
      rw [hallowance, hreserved, hcommitted]
      linarith
    | compensate haction =>
      obtain ⟨hallowance, hreserved, hcommitted⟩ := project_allowance events (.inr haction)
      rw [hallowance, hreserved, hcommitted]
      linarith
    | reserve id haction hid hnew hopen hpositive hroom =>
      obtain ⟨hallowance, hreserved, hcommitted⟩ :=
        project_append events (by rw [haction]; rfl)
      have hallows : event.allows = 0 := if_neg (by rw [haction]; nofun)
      have hreserves := UsageEvent.isReserveOf_eq_true.mpr ⟨haction, hid⟩
      have hne : id ≠ "" := by
        rintro rfl
        exact nomatch hnamed.symm.trans hreserves
      have hmakes := reserves_of_isReserveOf hreserves hne
      have hshare : reservedShare events event = event.amount := by
        rw [reservedShare, hmakes]
        exact if_pos (by rw [terminalOf_eq_none hopen]; rfl)
      have hshare' : committedShare events event = 0 := by
        rw [committedShare, hmakes, Option.bind_some, terminalOf_eq_none hopen]
      rw [h.available] at hroom
      rw [hallowance, hreserved, hcommitted, hshare, hshare', hallows]
      linarith
    | terminal id reservation haction hid hreservation hopen hcommit =>
      obtain ⟨hallowance, hreserved, hcommitted⟩ :=
        h.project_terminal haction hid hreservation hopen
      rw [hallowance, hreserved, hcommitted]
      have hheld := h.nonneg reservation (List.mem_of_find?_eq_some hreservation)
      split
      · next hcommits =>
        have hfits := (hcommit hcommits).2
        linarith
      · linarith

/-! ## What is given back -/

/-- **What is available and what a reservation has taken** add up to the same, while the
reservation is refunded, expires or is compensated. -/
theorem Recorded.gives (h : Recorded events) (hrule : UsageRule events event)
    (hnonneg : 0 ≤ event.amount) (hid : event.reservationId = some id)
    (haction : event.action = .refund ∨ event.action = .expire ∨ event.action = .compensate) :
    (projectUsage (events ++ [event])).available + takenOf id (events ++ [event]) =
      (projectUsage events).available + takenOf id events := by
  have hkept := h.append hrule hnonneg (Bool.eq_false_iff.mpr fun hreserves => by
    rw [(UsageEvent.isReserveOf_eq_true.mp hreserves).1] at haction
    rcases haction with haction | haction | haction <;> exact nomatch haction)
  rw [h.available, hkept.available, takenOf, takenOf, List.any_append, List.any_cons,
    List.any_nil, Bool.or_false]
  cases hrule with
  | adjust hother =>
    rw [hother] at haction
    rcases haction with haction | haction | haction <;> exact nomatch haction
  | reserve _ hother =>
    rw [hother] at haction
    rcases haction with haction | haction | haction <;> exact nomatch haction
  | compensate hcompensate =>
    obtain ⟨hallowance, hreserved, hcommitted⟩ :=
      project_allowance events (.inr hcompensate)
    have hends : event.isTerminalOf id = false := decide_eq_false fun hboth => by
      rw [hcompensate] at hboth
      exact nomatch hboth.2
    have hcompensated : amountOf .compensate id (events ++ [event]) =
        amountOf .compensate id events + event.amount := by
      rw [amountOf_append, if_pos ⟨hcompensate, hid⟩]
    rw [hallowance, hreserved, hcommitted, hends, Bool.or_false, hcompensated,
      amountOf_append_ne (by rw [hcompensate]; nofun),
      amountOf_append_ne (by rw [hcompensate]; nofun)]
    linarith
  | terminal id' reservation hterminal hid' hreservation hopen =>
    obtain rfl := Option.some.inj (hid.symm.trans hid')
    obtain ⟨hallowance, hreserved, hcommitted⟩ :=
      h.project_terminal hterminal hid hreservation hopen
    have hends : event.isTerminalOf id = true :=
      UsageEvent.isTerminalOf_eq_true.mpr ⟨hid, hterminal⟩
    have hnone : events.any (·.isTerminalOf id) = false :=
      List.any_eq_false.mpr (List.find?_eq_none.mp hopen)
    have hcommit : event.action ≠ .commit := by
      rcases haction with haction | haction | haction <;> rw [haction] <;> nofun
    have hcompensate : event.action ≠ .compensate := by
      rintro hother
      rw [hother] at hterminal
      exact nomatch hterminal
    rw [hallowance, hreserved, hcommitted, if_neg hcommit, hends, Bool.or_true, if_pos rfl, hnone,
      if_neg Bool.false_ne_true, amountOf_append_ne hcommit, amountOf_append_ne hcompensate,
      h.amountOf_reserve hreservation]
    linarith

/-! ## Calls -/

/-- The calls at issue: usage by hand, with no compensation and no negative adjustment, and the
compensation of a job. -/
def UsageCall : GenerationOperation → Prop
  | .appendUsageEvent input =>
      input.action ≠ .compensate ∧ (input.action = .adjust → 0 ≤ input.amount)
  | .compensateCommittedUsage _ => True
  | _ => False

instance (operation : GenerationOperation) : Decidable (UsageCall operation) := by
  cases operation <;> unfold UsageCall <;> infer_instance

/-- **What a compensation keeps to**, unless the job was compensated for the reason before: what it
gives back was committed as a whole, and nothing of it was compensated. -/
def CompensatesOnce (s : GenerationTables) : GenerationOperation → Prop
  | .compensateCommittedUsage input => ∀ job ∈ s.generationJobs.get? input.jobId,
      ∀ reservation ∈ s.reservationOf job.operation job.usageReservationId,
      ∀ terminal ∈ s.endOf job.operation job.usageReservationId, terminal.action = .commit →
        (s.listUsageEvents job.operation).any
          (·.id = "job:" ++ job.id ++ ":compensate:" ++ input.reason) = false →
        terminal.amount = reservation.amount ∧
          ∀ event ∈ s.listUsageEvents job.operation, event.action = .compensate →
            event.reservationId ≠ some job.usageReservationId
  | _ => True

instance (s : GenerationTables) (operation : GenerationOperation) :
    Decidable (CompensatesOnce s operation) := by
  cases operation <;> unfold CompensatesOnce <;> infer_instance

/-- **Amounts that add up exactly**: they are whole numbers, and no call takes the allowance beyond
`2 ^ 53`.  What is reserved and committed stays below it, so no sum of `projectUsage` is rounded. -/
def AmountsAddUp (s : GenerationTables) : GenerationOperation → Prop
  | .appendUsageEvent input => input.amount.isInt = true ∧ (input.action = .adjust →
      (projectUsage (s.listUsageEvents input.resource)).allowance + input.amount ≤ 2 ^ 53)
  | .compensateCommittedUsage input => ∀ job ∈ s.generationJobs.get? input.jobId,
      ∀ reservation ∈ s.reservationOf job.operation job.usageReservationId,
        (projectUsage (s.listUsageEvents job.operation)).allowance + reservation.amount ≤ 2 ^ 53
  | _ => True

instance (s : GenerationTables) (operation : GenerationOperation) :
    Decidable (AmountsAddUp s operation) := by
  cases operation <;> unfold AmountsAddUp <;> infer_instance

/-- A call that gives a reservation back. -/
def GivesBack (resource : UsageResource) (id : String) (s : GenerationTables) :
    GenerationOperation → Prop
  | .appendUsageEvent input => input.resource = resource ∧ input.reservationId = some id ∧
      (input.action = .refund ∨ input.action = .expire)
  | .compensateCommittedUsage input => ∀ job ∈ s.generationJobs.get? input.jobId,
      job.operation = resource ∧ job.usageReservationId = id
  | _ => False

/-- The events of every resource are sound, and no more is compensated than was committed. -/
structure AllowanceSound (s : GenerationTables) : Prop where
  recorded : ∀ resource, Recorded (s.listUsageEvents resource)
  compensated : ∀ resource id, amountOf .compensate id (s.listUsageEvents resource) ≤
    amountOf .commit id (s.listUsageEvents resource)

theorem AllowanceSound.of_nil (h : s.usageEvents = []) : AllowanceSound s where
  recorded resource := by
    rw [listUsageEvents, h]
    exact .nil
  compensated resource id := by
    rw [listUsageEvents, h]
    exact le_refl 0

/-- An event is appended that is sound, and compensates no more than was committed. -/
theorem AllowanceSound.record (h : AllowanceSound s)
    (hrule : UsageRule (s.listUsageEvents event.resource) event) (hnonneg : 0 ≤ event.amount)
    (hnamed : event.isReserveOf "" = false)
    (hcompensates : event.action = .compensate → ∀ id, event.reservationId = some id →
      amountOf .compensate id (s.listUsageEvents event.resource) + event.amount ≤
        amountOf .commit id (s.listUsageEvents event.resource)) :
    AllowanceSound (s.record event) := by
  refine ⟨fun resource => ?_, fun resource id => ?_⟩
  · rw [listUsageEvents_record]
    split
    · next heq => exact heq ▸ (h.recorded event.resource).append hrule hnonneg hnamed
    · rw [List.append_nil]
      exact h.recorded resource
  · rw [listUsageEvents_record]
    split
    · next heq =>
      subst heq
      have hbefore := h.compensated event.resource id
      by_cases hcompensate : event.action = .compensate
      · have hcommit : event.action ≠ .commit := by
          rw [hcompensate]
          nofun
        rw [amountOf_append_ne hcommit, amountOf_append]
        split
        · next hboth => exact hcompensates hcompensate id hboth.2
        · rw [add_zero]
          exact hbefore
      · rw [amountOf_append_ne hcompensate, amountOf_append]
        split <;> linarith
    · rw [List.append_nil]
      exact h.compensated resource id

/-- What was committed of a reservation is at least any one commit of it. -/
theorem Recorded.le_amountOf_commit (h : Recorded events) {terminal : UsageEvent}
    (hterminal : terminal ∈ events) (hcommit : terminal.action = .commit)
    (hid : terminal.reservationId = some id) : terminal.amount ≤ amountOf .commit id events := by
  refine List.single_le_sum (fun amount hamount => ?_) _
    (List.mem_map.mpr ⟨terminal, hterminal, if_pos ⟨hcommit, hid⟩⟩)
  obtain ⟨event, hevent, rfl⟩ := List.mem_map.mp hamount
  split
  · exact h.nonneg event hevent
  · exact le_refl 0

/-- What a call appends keeps to the rules, and is the reservation's own when it gives back. -/
structure UsageWrite (s : GenerationTables) (operation : GenerationOperation)
    (event : UsageEvent) : Prop where
  rule : UsageRule (s.listUsageEvents event.resource) event
  nonneg : 0 ≤ event.amount
  named : event.isReserveOf "" = false
  compensates : event.action = .compensate → ∀ id, event.reservationId = some id →
    amountOf .compensate id (s.listUsageEvents event.resource) + event.amount ≤
      amountOf .commit id (s.listUsageEvents event.resource)
  gives : ∀ resource id, GivesBack resource id s operation → event.resource = resource ∧
    event.reservationId = some id ∧
      (event.action = .refund ∨ event.action = .expire ∨ event.action = .compensate)

/-- **A compensation of what was committed as a whole** is of no more than that. -/
theorem AllowanceSound.compensates (h : AllowanceSound s) {job : GenerationJob}
    {terminal : UsageEvent} (hended : s.endOf job.operation job.usageReservationId = some terminal)
    (hcommit : terminal.action = .commit) (hwhole : terminal.amount = reservation.amount)
    (hfirst : ∀ event ∈ s.listUsageEvents job.operation, event.action = .compensate →
      event.reservationId ≠ some job.usageReservationId) :
    amountOf .compensate job.usageReservationId (s.listUsageEvents job.operation) +
        reservation.amount ≤
      amountOf .commit job.usageReservationId (s.listUsageEvents job.operation) := by
  have hnone : amountOf .compensate job.usageReservationId (s.listUsageEvents job.operation) =
      0 := by
    refine List.sum_eq_zero fun amount hamount => ?_
    obtain ⟨event, hevent, rfl⟩ := List.mem_map.mp hamount
    exact if_neg fun hboth => hfirst event hevent hboth.1 hboth.2
  have hid := (UsageEvent.isTerminalOf_eq_true.mp (List.find?_some hended)).1
  have hcommitted := (h.recorded job.operation).le_amountOf_commit
    (List.mem_of_find?_eq_some hended) hcommit hid
  rw [hnone, zero_add, ← hwhole]
  exact hcommitted

/-- **What the calls at issue write.** -/
theorem AllowanceSound.writes (h : AllowanceSound s) {operation : GenerationOperation}
    (hcall : UsageCall operation) (honce : CompensatesOnce s operation)
    (heffect : GenerationEffect s operation s') :
    s' = s ∨ ∃ event, s' = s.record event ∧ UsageWrite s operation event := by
  cases heffect with
  | kept => exact .inl rfl
  | appended input event hresource haction hamount hid hnamed hrule =>
    rw [← hresource] at hrule
    refine .inr ⟨event, rfl, hrule, ?_, hnamed, fun hcompensate => ?_, fun resource id hgives => ?_⟩
    · cases hrule with
      | adjust hadjust => exact hamount ▸ hcall.2 (haction ▸ hadjust)
      | compensate hcompensate => exact absurd (haction ▸ hcompensate) hcall.1
      | reserve _ _ _ _ _ hpositive => exact hpositive.le
      | terminal id reservation hterminal hid' hreservation hopen hcommit hwhole =>
        by_cases hcommits : event.action = .commit
        · exact (hcommit hcommits).1
        · rw [hwhole hcommits]
          exact (h.recorded event.resource).nonneg _ (List.mem_of_find?_eq_some hreservation)
    · exact absurd (haction ▸ hcompensate) hcall.1
    · refine ⟨hresource.trans hgives.1, hid.trans hgives.2.1, ?_⟩
      rw [haction]
      exact hgives.2.2.elim .inl fun hexpire => .inr (.inl hexpire)
  | refunded input job reservation event hjob hreservation hopen hresource haction hid hamount =>
    have hheld : reservation ∈ s.listUsageEvents job.operation :=
      List.mem_of_find?_eq_some hreservation
    refine .inr ⟨event, rfl, ?_, ?_, ?_, fun hcompensate => ?_, fun resource id hgives => ?_⟩
    · rw [hresource]
      exact .terminal job.usageReservationId reservation (by rw [haction]; rfl) hid hreservation
        hopen (fun hcommit => nomatch haction.symm.trans hcommit) fun _ => hamount
    · rw [hamount]
      exact (h.recorded job.operation).nonneg reservation hheld
    · exact decide_eq_false fun hboth => nomatch haction.symm.trans hboth.1
    · exact nomatch haction.symm.trans hcompensate
    · obtain ⟨rfl, rfl⟩ := hgives job hjob
      exact ⟨hresource, hid, .inl haction⟩
  | compensated input job reservation terminal event hjob hreservation hended hcommit hnew heventId
      hresource haction hid hamount =>
    have hheld : reservation ∈ s.listUsageEvents job.operation :=
      List.mem_of_find?_eq_some hreservation
    have hany : (s.listUsageEvents job.operation).any
        (·.id = "job:" ++ job.id ++ ":compensate:" ++ input.reason) = false := by
      rw [heventId] at hnew
      exact List.any_eq_false.mpr (List.find?_eq_none.mp hnew)
    obtain ⟨hwhole, hfirst⟩ := honce job hjob reservation hreservation terminal hended hcommit hany
    refine .inr ⟨event, rfl, .compensate haction, ?_, ?_, fun _ id hid' => ?_,
      fun resource id hgives => ?_⟩
    · rw [hamount]
      exact (h.recorded job.operation).nonneg reservation hheld
    · exact decide_eq_false fun hboth => nomatch haction.symm.trans hboth.1
    · obtain rfl := Option.some.inj (hid.symm.trans hid')
      rw [hresource, hamount]
      exact h.compensates hended hcommit hwhole hfirst
    · obtain ⟨rfl, rfl⟩ := hgives job hjob
      exact ⟨hresource, hid, .inr (.inr haction)⟩
  | _ => exact hcall.elim

/-! ## Runs -/

/-- A call at issue that is a replay, or keeps to the side conditions. -/
def KeepsAllowance (repository : GenerationRepository) (command : GenerationCommand) : Prop :=
  UsageCall command.operation ∧
    ((repository.commandResults.get? command.idempotencyKey).isSome = true ∨
      CompensatesOnce repository.tables command.operation ∧
        AmountsAddUp repository.tables command.operation)

instance (repository : GenerationRepository) (command : GenerationCommand) :
    Decidable (KeepsAllowance repository command) :=
  inferInstanceAs (Decidable (_ ∧ (_ ∨ _ ∧ _)))

variable {repository : GenerationRepository} {command : GenerationCommand}

theorem AllowanceSound.writes_step (payloadHash : GenerationPayload → String)
    (h : AllowanceSound repository.tables) (hkeeps : KeepsAllowance repository command) :
    (repository.step payloadHash command).tables = repository.tables ∨
      ∃ event, (repository.step payloadHash command).tables = repository.tables.record event ∧
        UsageWrite repository.tables command.operation event := by
  obtain ⟨hcall, hreplay | ⟨honce, -⟩⟩ := hkeeps
  · exact .inl (tables_of_replay payloadHash hreplay)
  · exact h.writes hcall honce (effect_of_step payloadHash repository command)

theorem AllowanceSound.step (payloadHash : GenerationPayload → String)
    (h : AllowanceSound repository.tables) (hkeeps : KeepsAllowance repository command) :
    AllowanceSound (repository.step payloadHash command).tables := by
  rcases h.writes_step payloadHash hkeeps with hsame | ⟨event, hrecord, hwrite⟩
  · exact hsame ▸ h
  · rw [hrecord]
    exact h.record hwrite.rule hwrite.nonneg hwrite.named hwrite.compensates

/-- What is available of a resource together with what one reservation has taken of it. -/
def availableAndTaken (s : GenerationTables) (resource : UsageResource) (id : String) : Rat :=
  (projectUsage (s.listUsageEvents resource)).available + takenOf id (s.listUsageEvents resource)

/-- A call that gives a reservation back makes available what the reservation loses. -/
theorem AllowanceSound.gives_step (payloadHash : GenerationPayload → String)
    {resource : UsageResource} (h : AllowanceSound repository.tables)
    (hkeeps : KeepsAllowance repository command)
    (hgives : GivesBack resource id repository.tables command.operation) :
    availableAndTaken (repository.step payloadHash command).tables resource id =
      availableAndTaken repository.tables resource id := by
  rcases h.writes_step payloadHash hkeeps with hsame | ⟨event, hrecord, hwrite⟩
  · rw [hsame]
  · obtain ⟨rfl, hid, haction⟩ := hwrite.gives resource id hgives
    rw [hrecord, availableAndTaken, listUsageEvents_record, if_pos rfl]
    exact (h.recorded event.resource).gives hwrite.rule hwrite.nonneg hid haction

theorem AllowanceSound.taken_nonneg (h : AllowanceSound s) (resource : UsageResource)
    (id : String) : 0 ≤ takenOf id (s.listUsageEvents resource) := by
  have hcompensated := h.compensated resource id
  have hreserved := amountOf_nonneg (h.recorded resource) .reserve id
  rw [takenOf]
  split <;> linarith

/-- **No allowance is created** of a resource: no more is compensated than was committed, and what
is reserved and committed is within the allowance. -/
structure AllowanceKept (events : List UsageEvent) : Prop where
  compensated : ∀ id, amountOf .compensate id events ≤ amountOf .commit id events
  within : (projectUsage events).reserved + (projectUsage events).committed ≤
    (projectUsage events).allowance

/-- **A run of calls that compensate once what was committed as a whole** creates no allowance, and
whatever such calls then give back of a reservation makes available at most what it has taken. -/
theorem allowanceKept_run (payloadHash : GenerationPayload → String) (tables : GenerationTables)
    (commands : List GenerationCommand)
    (h : Admits (GenerationRepository.step payloadHash) KeepsAllowance commands
      ⟨{ tables with usageEvents := [] }, .empty⟩) :
    let repository := runAll (GenerationRepository.step payloadHash) commands
      ⟨{ tables with usageEvents := [] }, .empty⟩
    ∀ resource, AllowanceKept (repository.tables.listUsageEvents resource) ∧
      ∀ id more, Admits (GenerationRepository.step payloadHash)
        (fun r command => KeepsAllowance r command ∧
          GivesBack resource id r.tables command.operation) more repository →
        (projectUsage ((runAll (GenerationRepository.step payloadHash) more
          repository).tables.listUsageEvents resource)).available ≤
            (projectUsage (repository.tables.listUsageEvents resource)).available +
              takenOf id (repository.tables.listUsageEvents resource) := by
  intro repository resource
  have hsound : AllowanceSound repository.tables :=
    runAll_induct (fun r : GenerationRepository => AllowanceSound r.tables)
      (fun _ _ hsound hkeeps => hsound.step payloadHash hkeeps) commands (.of_nil rfl) h
  refine ⟨⟨hsound.compensated resource, (hsound.recorded resource).within⟩, fun id more hmore => ?_⟩
  obtain ⟨hafter, hsame⟩ := runAll_induct (fun r : GenerationRepository =>
    AllowanceSound r.tables ∧ availableAndTaken r.tables resource id =
      availableAndTaken repository.tables resource id)
    (fun _ _ hr hok => ⟨hr.1.step payloadHash hok.1,
      (hr.1.gives_step payloadHash hok.1 hok.2).trans hr.2⟩) more ⟨hsound, rfl⟩ hmore
  rw [availableAndTaken, availableAndTaken] at hsame
  have htaken := hafter.taken_nonneg resource id
  linarith

/-! ### Sample runs -/

/-- The owner of the shop. -/
def shopOwner : GenerationContext := ⟨"shop", "owner", "correlation", false, true⟩

/-- A command of the owner under a key of its own. -/
def ownerCommand (key : String) (operation : GenerationOperation) : GenerationCommand :=
  ⟨shopOwner, key, "2026-01-01T00:00:00.000Z", operation⟩

/-- Tables with one job of copy, which holds the reservation `usage`. -/
def oneJobTables : GenerationTables :=
  { GenerationTables.empty with generationJobs := OrderedMap.empty.set "job" {
      id := "job"
      operation := .copy
      routeSnapshotId := "route"
      usageReservationId := "usage"
      status := .completed
      createdBy := "owner"
      correlationId := "correlation"
      createdAt := "2026-01-01T00:00:00.000Z"
      updatedAt := "2026-01-01T00:00:00.000Z" } }

/-- Of 10 units 5 are reserved, an amount of them is committed, and the job is compensated. -/
def compensatedCommands (committed : Rat) : List GenerationCommand :=
  [ownerCommand "adjust" (.appendUsageEvent ⟨"adjust", .copy, .adjust, 10, none, "grant"⟩),
    ownerCommand "reserve" (.appendUsageEvent ⟨"reserve", .copy, .reserve, 5, some "usage", "job"⟩),
    ownerCommand "commit"
      (.appendUsageEvent ⟨"commit", .copy, .commit, committed, some "usage", "job"⟩),
    ownerCommand "compensate" (.compensateCommittedUsage ⟨"job", "label"⟩)]

theorem allowanceKept_compensated :
    let repository := runAll (GenerationRepository.step fun _ => "hash") (compensatedCommands 5)
      ⟨{ oneJobTables with usageEvents := [] }, .empty⟩
    ∀ resource, AllowanceKept (repository.tables.listUsageEvents resource) ∧
      ∀ id more, Admits (GenerationRepository.step fun _ => "hash")
        (fun r command => KeepsAllowance r command ∧
          GivesBack resource id r.tables command.operation) more repository →
        (projectUsage ((runAll (GenerationRepository.step fun _ => "hash") more
          repository).tables.listUsageEvents resource)).available ≤
            (projectUsage (repository.tables.listUsageEvents resource)).available +
              takenOf id (repository.tables.listUsageEvents resource) :=
  allowanceKept_run (fun _ => "hash") oneJobTables (compensatedCommands 5) (by decide +kernel)

/-- **A partial commit is compensated as a whole**: 2 units were committed, and 5 are given back. -/
theorem not_allowanceKept : ¬ ∀ (tables : GenerationTables) (commands : List GenerationCommand),
    (∀ command ∈ commands, UsageCall command.operation) →
    ∀ resource, AllowanceKept ((runAll (GenerationRepository.step fun _ => "hash") commands
      ⟨{ tables with usageEvents := [] }, .empty⟩).tables.listUsageEvents resource) := by
  intro h
  have hcompensated := (h oneJobTables (compensatedCommands 2) (by decide) .copy).compensated
    "usage"
  exact absurd hcompensated (by decide +kernel)

end MeiyeAgent
