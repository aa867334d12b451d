import MeiyeAgent.ProductBilling.UsageSound

/-!
# ProductBilling/UsageConservation — when a refund returns what it is asked to

Whatever is called, a settled record accounts for all it reserved.  A refund is another matter: it
looks at the units alone, so the credits an earlier settlement returned are forgotten, and the
credits of a record at its units already stay where they are.

* `UsageClaim` — what a call is to keep: the accounts, no increase, and refunds as asked.
* `RefundMeets` — the condition a refund needs, on the stored record and on what it asks for.
* `conserved_iff` — **a run keeps the one exactly when it meets the other**.
-/

namespace MeiyeAgent

open Effect

/-! ## What is claimed -/

/-- No settled amount of the record is larger than before. -/
structure NoIncrease (before after : ProductUsageRecord) : Prop where
  units : ∀ resource, amount (after.settledUnits.getD []) resource ≤
    amount (before.settledUnits.getD []) resource
  credits : after.settledCredits.getD 0 ≤ before.settledCredits.getD 0

/-- A refund that is to leave nothing. -/
def AsksNothing (input : RefundProductUsageInput) : Prop :=
  match input.remainingUnits with
  | some units => ∀ resource, givenAmount units resource = 0
  | none => input.remainingQuantity.getD 0 = 0

/-- **The record is left as the refund asked**: what remains is what was given, and nothing remains
of a record refunded to nothing. -/
structure RefundedAsAsked (input : RefundProductUsageInput) (record : ProductUsageRecord) :
    Prop where
  given : ∀ units, input.remainingUnits = some units →
    ∀ resource, amount (record.settledUnits.getD []) resource = givenAmount units resource
  legacy : input.remainingUnits = none → record.settledQuantity = input.remainingQuantity.getD 0
  nothing : AsksNothing input →
    (∀ resource, amount (record.refundedUnits.getD []) resource =
      amount (record.reservedUnits.getD []) resource) ∧
        record.refundedCredits.getD 0 = record.reservedCredits.getD 0

namespace MemoryProductUsageLedger

/-- **What a call is to keep.** -/
structure UsageClaim (ledger : MemoryProductUsageLedger) (call : Call) : Prop where
  accounted : ∀ taskId record, (step ledger call).getByTask taskId = some record →
    record.status ≠ .reserved → Accounted record
  lowered : ∀ taskId before, ledger.getByTask taskId = some before → before.status ≠ .reserved →
    ∃ after, (step ledger call).getByTask taskId = some after ∧ after.status ≠ .reserved ∧
      NoIncrease before after
  refunded : ∀ input, call = .refund input → ∀ record, result (refund input) ledger = .ok record →
    (step ledger call).getByTask input.taskId = some record ∧ RefundedAsAsked input record

/-! ## The condition -/

/-- **The credits follow the units**: a settled record keeps no more credits after the refund to
`remaining` than it did, and none with no units. -/
def CreditsFollow (existing : ProductUsageRecord) (remaining : List ProductUsageUnit) : Prop :=
  existing.status ≠ .reserved → ∀ credits kept, existing.reservedCredits = some credits →
    existing.settledCredits = some kept →
      if existing.settledUnits.getD [] = remaining then remaining = [] → kept = 0
      else Doubles.nearest (Doubles.nearest (credits * totalUnits remaining) /
        existing.reservedQuantity) < kept + 1 / 2

/-- A quantity that is given stands for units. -/
def QuantityStands (existing : ProductUsageRecord) (input : RefundProductUsageInput) : Prop :=
  input.remainingUnits = none → 0 ≤ input.remainingQuantity.getD 0 ∧
    (input.remainingQuantity.getD 0 = 0 ∨ existing.resource.isSome)

/-- **The condition on a call**: a refund that is accepted names what it leaves, and the credits
follow. -/
def RefundMeets (ledger : MemoryProductUsageLedger) (call : Call) : Prop :=
  ∀ input existing remaining, call = .refund input →
    ledger.getByTask input.taskId = some existing → RefundAsked existing input remaining →
      QuantityStands existing input ∧ CreditsFollow existing remaining

variable {ledger : MemoryProductUsageLedger} {existing next : ProductUsageRecord}
  {input : RefundProductUsageInput} {remaining : List ProductUsageUnit}

/-! ## What a refund leaves -/

theorem exists_settledCredits (h : Sound existing) (hs : existing.status ≠ .reserved)
    {credits : Int} (hc : existing.reservedCredits = some credits) :
    ∃ kept, existing.settledCredits = some kept ∧ 0 ≤ kept := by
  have hsome := (h.known hs).1
  rw [hc, Option.isSome_some] at hsome
  obtain ⟨kept, hkept⟩ := Option.isSome_iff_exists.mp hsome
  exact ⟨kept, hkept, h.retained kept hkept⟩

/-- A refund to nothing leaves no credits. -/
theorem refundTo_nothing (h : Sound existing) :
    (refundTo existing input (existing.reservedUnits.getD []) []).settledCredits.getD 0 = 0 := by
  rcases hc : existing.reservedCredits with _ | credits
  · simp [refundTo, hc, (h.noCredits hc).1]
  · obtain ⟨units, hunits, hnormal, htotal⟩ := h.reserved
    have hnonneg : 0 ≤ existing.reservedQuantity := htotal ▸ totalUnits_nonneg hnormal
    have htotal : totalUnits [] = 0 := rfl
    simp only [refundTo, hc, Option.getD_some, htotal, remainingCredits]
    split
    · rfl
    · exact numberShare_zero ..

/-- **A refund of a settled record** increases nothing exactly when the credits follow. -/
theorem noIncrease_refundTo (h : Sound existing) (hasked : RefundAsked existing input remaining)
    (hs : existing.status ≠ .reserved) (hne : existing.settledUnits.getD [] ≠ remaining) :
    NoIncrease existing (refundTo existing input (existing.reservedUnits.getD []) remaining) ↔
      CreditsFollow existing remaining := by
  have hremaining := normal_of_normalizeUnits hasked.given
  have hunits := (unitsWithin_iff hremaining h.settledUnits_eq_ok.2).mp (hasked.lowers hs).1
  -- a record that reserved no units is at its target already
  have hquantity : 0 < existing.reservedQuantity := by
    obtain ⟨units, hreserved, hnormal, htotal⟩ := h.reserved
    rcases (totalUnits_nonneg hnormal).lt_or_eq with hpos | hzero
    · omega
    · refine absurd (eq_of_amount h.settledUnits_eq_ok.2 hremaining fun resource => ?_) hne
      have hnone := eq_nil_of_totalUnits hnormal hzero.symm
      have hle := h.settled_le hs resource
      have hlower := hunits resource
      have hnonneg := amount_nonneg hremaining resource
      rw [hreserved, Option.getD_some, hnone] at hle
      have hnil : amount [] resource = 0 := rfl
      omega
  rcases hc : existing.reservedCredits with _ | credits
  · refine ⟨fun _ _ credits _ hsome => ?_, fun _ => ⟨hunits, ?_⟩⟩
    · rw [hc] at hsome
      exact nomatch hsome
    · simp [refundTo, hc, (h.noCredits hc).1]
  · obtain ⟨kept, hkept, -⟩ := exists_settledCredits h hs hc
    have hcredits : (refundTo existing input (existing.reservedUnits.getD []) remaining
        ).settledCredits.getD 0 ≤ existing.settledCredits.getD 0 ↔
          Doubles.nearest (Doubles.nearest (credits * totalUnits remaining) /
            existing.reservedQuantity) < kept + 1 / 2 := by
      simp only [refundTo, hc, hkept, Option.getD_some, remainingCredits, if_neg hquantity.ne']
      exact numberShare_le_iff
    constructor
    · intro hno _ c k hc' hk
      obtain rfl := Option.some.inj (hc.symm.trans hc')
      obtain rfl := Option.some.inj (hkept.symm.trans hk)
      rw [if_neg hne]
      exact hcredits.mp hno.credits
    · intro hfollow
      have := hfollow hs credits kept hc hkept
      rw [if_neg hne] at this
      exact ⟨hunits, hcredits.mpr this⟩

/-- **A settled record whose units are what remains is as the refund asked** exactly when the
quantity stands for units and no credits are left with no units. -/
theorem refundedAsAsked_iff (h : Sound next) (hs : next.status ≠ .reserved)
    (hgiven : normalizeUnits (remainingGiven existing input) "remainingUnits" = .ok remaining)
    (hsettled : next.settledUnits.getD [] = remaining) : RefundedAsAsked input next ↔
      QuantityStands existing input ∧ (remaining = [] → next.settledCredits.getD 0 = 0) := by
  have hremaining := normal_of_normalizeUnits hgiven
  have hquantity : next.settledQuantity = totalUnits remaining := by
    obtain ⟨units, hunits, -, htotal⟩ := h.settled
    rw [htotal, ← hsettled, hunits, Option.getD_some]
  have hamount : ∀ units, input.remainingUnits = some units →
      ∀ resource, amount remaining resource = givenAmount units resource := by
    intro units hunits resource
    rw [remainingGiven, hunits, Option.getD_some] at hgiven
    exact amount_normalizeUnits hgiven resource
  have hlegacy : (input.remainingUnits = none →
      next.settledQuantity = input.remainingQuantity.getD 0) ↔ QuantityStands existing input := by
    refine forall_congr' fun hnone => ?_
    rw [remainingGiven, hnone, Option.getD_none] at hgiven
    have hunits := normalizeUnits_legacyUnits hgiven
    rw [hquantity, hunits, totalUnits_legacyUnits (hunits ▸ hremaining)]
    split
    · next hpos => exact ⟨fun _ => ⟨hpos.2.le, .inr hpos.1⟩, fun _ => rfl⟩
    · next hpos =>
      refine ⟨fun hzero => ⟨hzero.le, .inl hzero.symm⟩, fun ⟨hnonneg, hstands⟩ => ?_⟩
      rcases hstands with hzero | hresource
      · exact hzero.symm
      · exact le_antisymm hnonneg (not_lt.mp fun hlt => hpos ⟨hresource, hlt⟩)
  -- to ask for nothing is to leave no units
  have hnothing : QuantityStands existing input → (AsksNothing input ↔ remaining = []) := by
    intro hstands
    rw [AsksNothing]
    split
    · next units hunits =>
      refine ⟨fun hzero => eq_of_amount hremaining .nil fun resource => ?_, ?_⟩
      · rw [hamount units hunits, hzero]
        rfl
      · rintro rfl resource
        rw [← hamount units hunits]
        rfl
    · next hnone =>
      rw [← hlegacy.mpr hstands hnone, hquantity]
      refine ⟨eq_nil_of_totalUnits hremaining, ?_⟩
      rintro rfl
      rfl
  have haccounted := h.accounted hs
  have hcredits : next.refundedCredits.getD 0 = next.reservedCredits.getD 0 ↔
      next.settledCredits.getD 0 = 0 := by
    have := haccounted.credits
    omega
  constructor
  · intro hasked
    have hstands := hlegacy.mp hasked.legacy
    exact ⟨hstands, fun hnil => hcredits.mp (hasked.nothing ((hnothing hstands).mpr hnil)).2⟩
  · rintro ⟨hstands, hleft⟩
    refine ⟨fun units hunits resource => hsettled ▸ hamount units hunits resource,
      hlegacy.mpr hstands, fun hasks => ?_⟩
    have hnil := (hnothing hstands).mp hasks
    refine ⟨fun resource => ?_, hcredits.mpr (hleft hnil)⟩
    have hsum := haccounted.units resource
    rw [hsettled, hnil] at hsum
    have : amount [] resource = 0 := rfl
    omega

/-- **A refund that is accepted keeps its record as claimed exactly when the condition holds.** -/
theorem refund_meets_iff (h : Sound existing) (hasked : RefundAsked existing input remaining)
    {outcome : Option ProductUsageRecord} (houtcome : refundRecord existing input = .ok outcome) :
    ((existing.status ≠ .reserved → NoIncrease existing (outcome.getD existing)) ∧
      RefundedAsAsked input (outcome.getD existing)) ↔
        QuantityStands existing input ∧ CreditsFollow existing remaining := by
  obtain ⟨given, hgiven, rfl⟩ := (refundRecord_eq_ok h).mp houtcome
  obtain rfl := Except.ok.inj (hgiven.given.symm.trans hasked.given)
  have hremaining := normal_of_normalizeUnits hasked.given
  split
  · next hreached =>
    obtain ⟨hs, hsame⟩ := hreached
    rw [Option.getD_none, refundedAsAsked_iff h hs hasked.given hsame]
    have hno : NoIncrease existing existing := ⟨fun _ => le_refl _, le_refl _⟩
    have hfollow : (given = [] → existing.settledCredits.getD 0 = 0) ↔
        CreditsFollow existing given := by
      constructor
      · intro hzero _ credits kept _ hkept
        rw [if_pos hsame]
        intro hnil
        have := hzero hnil
        rwa [hkept] at this
      · intro hfollow hnil
        rcases hc : existing.reservedCredits with _ | credits
        · rw [(h.noCredits hc).1, Option.getD_none]
        · obtain ⟨kept, hkept, -⟩ := exists_settledCredits h hs hc
          have := hfollow hs credits kept hc hkept
          rw [if_pos hsame] at this
          rw [hkept, Option.getD_some, this hnil]
    exact ⟨fun hboth => ⟨hboth.2.1, hfollow.mp hboth.2.2⟩,
      fun hboth => ⟨fun _ => hno, hboth.1, hfollow.mpr hboth.2⟩⟩
  · next hreached =>
    have hsound : Sound (refundTo existing input (existing.reservedUnits.getD []) given) ∧
        (refundTo existing input (existing.reservedUnits.getD []) given).status ≠ .reserved :=
      sound_refundTo h hremaining hasked.within
    obtain ⟨hnext, hs⟩ := hsound
    have hsettled : (refundTo existing input (existing.reservedUnits.getD []) given
      ).settledUnits.getD [] = given := rfl
    rw [Option.getD_some, refundedAsAsked_iff hnext hs hasked.given hsettled]
    have hleft : given = [] → (refundTo existing input (existing.reservedUnits.getD []) given
        ).settledCredits.getD 0 = 0 := by
      rintro rfl
      exact refundTo_nothing h
    by_cases hreserved : existing.status = .reserved
    · exact ⟨fun hboth => ⟨hboth.2.1, fun hne => absurd hreserved hne⟩,
        fun hboth => ⟨fun hne => absurd hreserved hne, hboth.1, hleft⟩⟩
    · have hno := noIncrease_refundTo h hasked hreserved fun heq => hreached ⟨hreserved, heq⟩
      exact ⟨fun hboth => ⟨hboth.2.1, hno.mp (hboth.1 hreserved)⟩,
        fun hboth => ⟨fun _ => hno.mpr hboth.2, hboth.1, hleft⟩⟩

/-! ## Every call -/

/-- A settled record is stored as it is. -/
def StaysSettled (ledger ledger' : MemoryProductUsageLedger) : Prop :=
  ∀ taskId before, ledger.getByTask taskId = some before → before.status ≠ .reserved →
    ledger'.getByTask taskId = some before

theorem staysSettled_refl (ledger : MemoryProductUsageLedger) : StaysSettled ledger ledger :=
  fun _ _ h _ => h

/-- What is written in place of no settled record leaves the settled records. -/
theorem staysSettled_set {taskId : String}
    (h : ∀ existing, ledger.byTask.get? taskId = some existing → existing.status = .reserved) :
    StaysSettled ledger ⟨ledger.byTask.set taskId next⟩ := by
  intro task before hbefore hs
  have hne : task ≠ taskId := fun heq => hs (h before (heq ▸ hbefore))
  exact (OrderedMap.get?_set_ne hne).trans hbefore

/-- **Only a refund changes a settled record.** -/
theorem step_staysSettled {call : Call} (h : ∀ input, call ≠ .refund input) :
    StaysSettled ledger (step ledger call) := by
  have hkeeps : Keeps (StaysSettled ledger) (perform call) ledger := by
    have hrefl := staysSettled_refl ledger
    cases call with
    | reserve input =>
      refine wp_reserve (fun _ => hrefl) (fun _ _ _ => hrefl) fun hnone _ _ _ => staysSettled_set ?_
      intro existing hget
      rw [hnone] at hget
      exact nomatch hget
    | replaceReservation input =>
      refine wp_replaceReservation (fun _ => hrefl) fun existing hget hs _ _ _ =>
        staysSettled_set ?_
      intro other hother
      obtain rfl := Option.some.inj (hget.symm.trans hother)
      exact hs
    | settle input =>
      refine wp_changeRecord (fun _ _ => hrefl) fun existing hget => ⟨fun _ _ => hrefl,
        fun _ => hrefl, fun next hnext => staysSettled_set ?_⟩
      intro other hother
      obtain rfl := Option.some.inj (hget.symm.trans hother)
      rcases settleRecord_eq_ok hnext with ⟨-, hnone⟩ | ⟨hs, -⟩
      · exact nomatch hnone
      · exact hs
    | refund input => exact absurd rfl (h input)
  exact wp_final.mp hkeeps

/-- **What a refund that is accepted returns and stores.** -/
theorem refund_outcome {outcome : Option ProductUsageRecord}
    (hget : ledger.getByTask input.taskId = some existing)
    (hok : refundRecord existing input = .ok outcome) :
    result (refund input) ledger = .ok (outcome.getD existing) ∧
      (step ledger (.refund input)).getByTask input.taskId = some (outcome.getD existing) ∧
      ∀ task, task ≠ input.taskId →
        (step ledger (.refund input)).getByTask task = ledger.getByTask task := by
  have hends : Wp (refund input) ledger (fun record ledger' => record = outcome.getD existing ∧
      ledger'.getByTask input.taskId = some record ∧
        ∀ task, task ≠ input.taskId → ledger'.getByTask task = ledger.getByTask task)
      fun _ _ => False := by
    refine wp_changeRecord (fun hnone => ?_) fun other hother => ?_
    · rw [getByTask, hnone] at hget
      exact nomatch hget
    · obtain rfl := Option.some.inj (hget.symm.trans hother)
      rw [hok]
      refine ⟨fun e herror => (nomatch herror), fun hreplay => ?_, fun next hnext => ?_⟩
      · rw [Except.ok.inj hreplay]
        exact ⟨rfl, hget, fun _ _ => rfl⟩
      · rw [Except.ok.inj hnext]
        exact ⟨rfl, OrderedMap.get?_set_self, fun task hne => OrderedMap.get?_set_ne hne⟩
  obtain ⟨hreturns, hthrows⟩ := wp_iff_result.mp hends
  rcases hresult : result (refund input) ledger with e | record
  · exact (hthrows e hresult).elim
  · obtain ⟨rfl, hstored, hothers⟩ := hreturns record hresult
    exact ⟨rfl, hstored, hothers⟩

/-- **A refund that is refused** returns nothing and writes nothing. -/
theorem refund_refused
    (h : ∀ existing, ledger.getByTask input.taskId = some existing →
      ∃ e, refundRecord existing input = .error e) :
    (∀ record, result (refund input) ledger ≠ .ok record) ∧ step ledger (.refund input) = ledger := by
  have hends : Wp (refund input) ledger (fun _ _ => False) fun _ ledger' => ledger' = ledger := by
    refine wp_changeRecord (fun _ _ => rfl) fun existing hget => ⟨fun _ _ => rfl, ?_, ?_⟩
    all_goals
      obtain ⟨e, herror⟩ := h existing hget
      rw [herror]
    · exact fun h => nomatch h
    · exact fun _ h => nomatch h
  refine ⟨fun record hrecord => (wp_iff_result.mp hends).1 record hrecord, ?_⟩
  exact wp_final.mp (hends.mono (fun _ _ h => h.elim) fun _ _ h => h)

/-- **A call keeps what is claimed exactly when it meets the condition.** -/
theorem usageClaim_iff (h : AllSound ledger) (call : Call) :
    UsageClaim ledger call ↔ RefundMeets ledger call := by
  have haccounted : ∀ taskId record, (step ledger call).getByTask taskId = some record →
      record.status ≠ .reserved → Accounted record := fun taskId record hrecord =>
    (step_sound h call taskId record hrecord).2.accounted
  by_cases hcall : ∃ input, call = .refund input
  · obtain ⟨input, rfl⟩ := hcall
    by_cases haccepted : ∃ existing outcome, ledger.getByTask input.taskId = some existing ∧
        refundRecord existing input = .ok outcome
    · obtain ⟨existing, outcome, hget, hok⟩ := haccepted
      have hsound := (h _ _ hget).2
      obtain ⟨remaining, hasked, -⟩ := (refundRecord_eq_ok hsound).mp hok
      have hmeets := refund_meets_iff hsound hasked hok
      obtain ⟨hresult, hstored, hothers⟩ := refund_outcome hget hok
      constructor
      · rintro ⟨-, hlowered, hrefunded⟩ input' existing' remaining' hinput hget' hasked'
        obtain rfl := Call.refund.inj hinput
        obtain rfl := Option.some.inj (hget.symm.trans hget')
        obtain rfl := Except.ok.inj (hasked.given.symm.trans hasked'.given)
        refine hmeets.mp ⟨fun hs => ?_, (hrefunded input rfl _ hresult).2⟩
        obtain ⟨after, hafter, -, hno⟩ := hlowered _ _ hget hs
        obtain rfl := Option.some.inj (hstored.symm.trans hafter)
        exact hno
      · intro hcondition
        obtain ⟨hno, hasAsked⟩ := hmeets.mpr (hcondition input existing remaining rfl hget hasked)
        refine ⟨haccounted, fun task before hbefore hs => ?_, fun input' hinput record hrecord => ?_⟩
        · by_cases htask : task = input.taskId
          · subst htask
            obtain rfl := Option.some.inj (hget.symm.trans hbefore)
            refine ⟨_, hstored, ?_, hno hs⟩
            obtain ⟨given, hgiven, rfl⟩ := (refundRecord_eq_ok hsound).mp hok
            split
            · exact hs
            · exact (sound_refundTo hsound (normal_of_normalizeUnits hgiven.given) hgiven.within).2
          · exact ⟨before, (hothers task htask).trans hbefore, hs, fun _ => le_refl _, le_refl _⟩
        · obtain rfl := Call.refund.inj hinput
          obtain rfl := Except.ok.inj (hresult.symm.trans hrecord)
          exact ⟨hstored, hasAsked⟩
    · have hthrows : ∀ existing, ledger.getByTask input.taskId = some existing →
          ∃ e, refundRecord existing input = .error e := by
        intro existing hget
        rcases houtcome : refundRecord existing input with e | outcome
        · exact ⟨e, rfl⟩
        · exact absurd ⟨existing, outcome, hget, houtcome⟩ haccepted
      obtain ⟨hnone, hsame⟩ := refund_refused hthrows
      constructor
      · intro _ input' existing remaining hinput hget hasked
        obtain rfl := Call.refund.inj hinput
        exact absurd ⟨existing, _, hget,
          (refundRecord_eq_ok (h _ _ hget).2).mpr ⟨remaining, hasked, rfl⟩⟩ haccepted
      · refine fun _ => ⟨haccounted, fun task before hbefore hs => ?_, fun input' hinput record
          hrecord => ?_⟩
        · rw [hsame]
          exact ⟨before, hbefore, hs, fun _ => le_refl _, le_refl _⟩
        · obtain rfl := Call.refund.inj hinput
          exact absurd hrecord (hnone record)
  · have hstays : StaysSettled ledger (step ledger call) :=
      step_staysSettled fun input heq => hcall ⟨input, heq⟩
    refine ⟨fun _ input _ _ heq => absurd ⟨input, heq⟩ hcall, fun _ => ⟨haccounted,
      fun task before hbefore hs => ?_, fun input heq => absurd ⟨input, heq⟩ hcall⟩⟩
    exact ⟨before, hstays task before hbefore hs, hs, fun _ => le_refl _, le_refl _⟩

/-- **A run keeps what is claimed exactly when its refunds meet the condition.** -/
theorem conserved_iff (calls : List Call) :
    Admits step UsageClaim calls empty ↔ Admits step RefundMeets calls empty :=
  admits_congr AllSound (fun _ call h => step_sound h call) (fun _ call h => usageClaim_iff h call)
    calls allSound_empty

/-- A reservation of credits alone, settled in full, then refunded to nothing. -/
def unreturnedCredits : List Call :=
  [.reserve
      { id := "usage"
        taskId := "task"
        workspaceId := "workspace"
        quoteId := "quote"
        units := some []
        credits := some 10
        billingMode := .per_request
        createdAt := "t1" },
    .settle
      { taskId := "task"
        settledUnits := some []
        settlementStatus := .estimated
        updatedAt := "t2" },
    .refund { taskId := "task", updatedAt := "t3" }]

/-- **The credits stay settled**: the record is at its units already. -/
theorem not_conserved_of_credits : ¬ Admits step UsageClaim unreturnedCredits empty := by
  rw [unreturnedCredits]
  rintro ⟨-, -, hclaim, -⟩
  have hreturned : ∃ record, result (refund { taskId := "task", updatedAt := "t3" })
      (runAll step (unreturnedCredits.take 2) empty) = .ok record ∧
        record.refundedCredits.getD 0 ≠ record.reservedCredits.getD 0 := ⟨_, rfl, by decide⟩
  obtain ⟨record, hrecord, hne⟩ := hreturned
  exact hne ((hclaim.refunded _ rfl record hrecord).2.nothing rfl).2

end MemoryProductUsageLedger

end MeiyeAgent
