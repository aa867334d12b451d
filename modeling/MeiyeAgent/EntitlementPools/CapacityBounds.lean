import MeiyeAgent.EntitlementPools.CapacityGate

/-!
# EntitlementPools/CapacityBounds — what the gate never exceeds

The log of a run is the admissions it made, with the time and the token estimate of each.  The gate
keeps no log: it keeps the samples still in the window, and `RateWindow.load_concat_le` turns the
check against those into a bound on every window of the log.

* `step_within` — **the step**: the concurrency limits, and both rates over every window.
* `capacity_kept` — the same over every run with a clock that does not go back, with what a single
  request may do next: stay within its product limit, or leave no trace but pruning.
* `fractions_exceed` — a rate limit that is no whole number, or an estimate, is exceeded by the
  rounding.
-/

namespace MeiyeAgent

open Effect

namespace ThreeLayerCapacityGate

variable {text : ℚ → String} {gate gate' : ThreeLayerCapacityGate}

/-! ## The log of a run -/

/-- An admission: the clock it was checked at, and the estimate it came with. -/
structure AdmissionRecord where
  atMs : Int
  estimate : Option TokenEstimate
  deriving DecidableEq, Repr

/-- The sample of an admission for the token rate. -/
def AdmissionRecord.sample (record : AdmissionRecord) : Option TokenAdmit :=
  (requestTokens record.estimate).map (⟨record.atMs, ·⟩)

/-- What a call adds to the log. -/
def admission (text : ℚ → String) (gate : ThreeLayerCapacityGate) : Call → Option AdmissionRecord
  | .tryAcquire input nowMs acquiredMs =>
    match result (tryAcquire text input nowMs acquiredMs) gate with
    | .ok (.admitted _) => some ⟨nowMs, input.tokens⟩
    | _ => none
  | .setProductAccountLimit .. | .release _ => none

/-- **The log of a run.** -/
def admissions (text : ℚ → String) : List Call → ThreeLayerCapacityGate → List AdmissionRecord
  | [], _ => []
  | call :: calls, gate =>
    (admission text gate call).toList ++ admissions text calls (step text gate call)

/-- The readings of the clock a call makes. -/
def Call.readings : Call → List Int
  | .tryAcquire _ nowMs acquiredMs => [nowMs, acquiredMs]
  | .setProductAccountLimit .. | .release _ => []

/-- The admissions in the 60 seconds that end at `t`. -/
def inWindow (t : Int) (log : List AdmissionRecord) : List AdmissionRecord :=
  RateWindow.window AdmissionRecord.atMs RPM_WINDOW_MS t log

/-- The tokens counted in the 60 seconds that end at `t`. -/
def tokensIn (t : Int) (log : List AdmissionRecord) : Int :=
  ((inWindow t log).map fun record => (requestTokens record.estimate).getD 0).sum

/-! ## The invariant -/

/-- **Within every limit**: the gate after a run with this log, `last` on the clock. -/
structure Within (last : Int) (log : List AdmissionRecord) (gate : ThreeLayerCapacityGate) :
    Prop where
  supplyInt : gate.limits.supplyAccount.concurrency.isInt
  systemInt : gate.limits.systemTotal.concurrency.isInt
  productInt : ∀ account, (gate.productLimit account).isInt
  supply : (gate.countSupplyInUse : ℚ) ≤ gate.limits.supplyAccount.concurrency
  system : (gate.countSupplyInUse : ℚ) ≤ gate.limits.systemTotal.concurrency
  requests : ∀ rpm, gate.limits.supplyAccount.rpm = some rpm →
    RateWindow.Tracks id RPM_WINDOW_MS last (log.map AdmissionRecord.atMs) gate.admitTimestamps ∧
      ∀ t, RateWindow.load id (fun _ => 1) RPM_WINDOW_MS t (log.map AdmissionRecord.atMs) ≤ ⌈rpm⌉₊
  tokens : ∀ tpm, gate.limits.supplyAccount.tpm = some tpm → tpm < 2 ^ 53 →
    RateWindow.Tracks TokenAdmit.atMs RPM_WINDOW_MS last (log.filterMap AdmissionRecord.sample)
      gate.tokenAdmits ∧
      ∀ t, RateWindow.load TokenAdmit.atMs TokenAdmit.tokens RPM_WINDOW_MS t
        (log.filterMap AdmissionRecord.sample) ≤ max 0 ⌊tpm⌋

theorem isInt_of_assertPositiveInt {value : ℚ} {field : String}
    (h : assertPositiveInt value field = .ok ()) : value.isInt ∧ 0 < value := by
  rw [assertPositiveInt, last_guard_eq_ok, not_or, Bool.not_eq_false, not_le] at h
  exact h

/-- Below a whole limit there is room for one more. -/
theorem add_one_le_of_isInt {n : Nat} {limit : ℚ} (hint : limit.isInt) (h : (n : ℚ) < limit) :
    ((n + 1 : Nat) : ℚ) ≤ limit := by
  rw [Rat.eq_num_of_isInt hint] at h ⊢
  exact_mod_cast h

theorem create_within {supplyAccountId : String} {limits : SupplyCapacityLimits}
    (h : create supplyAccountId limits = .ok gate) (last : Int) : Within last [] gate := by
  simp only [create, bind_eq_ok, pure_eq_ok] at h
  obtain ⟨normal, hnormal, rfl⟩ := h
  rw [normalizeThreeLayerLimits] at hnormal
  split at hnormal
  · simp only [bind_eq_ok, pure_eq_ok] at hnormal
    obtain ⟨⟨⟩, hsupply, ⟨⟩, hproduct, ⟨⟩, hsystem, rfl⟩ := hnormal
    obtain ⟨hsupplyInt, hsupplyPos⟩ := isInt_of_assertPositiveInt hsupply
    obtain ⟨hsystemInt, hsystemPos⟩ := isInt_of_assertPositiveInt hsystem
    refine ⟨hsupplyInt, hsystemInt, fun _ => (isInt_of_assertPositiveInt hproduct).1,
      ?_, ?_, fun rpm _ => ⟨.nil, fun t => ?_⟩, fun tpm _ _ => ⟨.nil, fun t => ?_⟩⟩
    · simpa [countSupplyInUse, OrderedMap.values, OrderedMap.empty] using hsupplyPos.le
    · simpa [countSupplyInUse, OrderedMap.values, OrderedMap.empty] using hsystemPos.le
    · simp [RateWindow.load, RateWindow.window]
    · simp [RateWindow.load, RateWindow.window]
  · simp at hnormal

/-! ## The steps -/

variable {last : Int} {log : List AdmissionRecord}

/-- Pruning keeps every limit, and what is tracked. -/
theorem within_of_pruned {now : Int} (h : Within last log gate) (hle : last ≤ now)
    (hpruned : Pruned now gate gate') : Within now log gate' := by
  obtain ⟨seq, rfl | rfl⟩ := hpruned
  · exact { h with
      requests := fun rpm hrpm => ⟨(h.requests rpm hrpm).1.mono hle, (h.requests rpm hrpm).2⟩
      tokens := fun tpm htpm hlt =>
        ⟨(h.tokens tpm htpm hlt).1.mono hle, (h.tokens tpm htpm hlt).2⟩ }
  · exact { h with
      requests := fun rpm hrpm =>
        ⟨((h.requests rpm hrpm).1.mono hle).prune, (h.requests rpm hrpm).2⟩
      tokens := fun tpm htpm hlt =>
        ⟨((h.tokens tpm htpm hlt).1.mono hle).prune, (h.tokens tpm htpm hlt).2⟩ }

/-- A later reading of the clock changes nothing. -/
theorem Within.mono {later : Int} (h : Within last log gate) (hle : last ≤ later) :
    Within later log gate :=
  within_of_pruned h hle (Pruned.refl later gate)

variable {lease : CapacityLease}

/-- The lease of an admission, counted. -/
theorem countSupplyInUse_set (h : gate.leases.get? lease.leaseId = none)
    (hleases : gate'.leases = gate.leases.set lease.leaseId lease) :
    gate'.countSupplyInUse = gate.countSupplyInUse + 1 := by
  rw [countSupplyInUse, hleases, OrderedMap.values, OrderedMap.entries_set_of_none h, List.map_append,
    List.length_append]
  rfl

theorem countProductInUse_set (h : gate.leases.get? lease.leaseId = none)
    (hleases : gate'.leases = gate.leases.set lease.leaseId lease) :
    gate'.countProductInUse lease.productAccountId =
      gate.countProductInUse lease.productAccountId + 1 := by
  rw [countProductInUse, hleases, OrderedMap.values, OrderedMap.entries_set_of_none h,
    List.map_append, List.countP_append]
  simp [countProductInUse, OrderedMap.values]

theorem length_pruneForTpm_le (nowMs : Int) (tokens : Option Int) :
    (gate.pruneForTpm nowMs tokens).admitTimestamps.length ≤ gate.admitTimestamps.length := by
  rw [pruneForTpm]
  split
  · exact List.length_dropWhile_le ..
  · exact le_refl _

/-- Room in the request rate. -/
theorem room_of_rpmRejection {rpm : ℚ} {kept : List Int} (h : rpmRejection text gate = none)
    (hrpm : gate.limits.supplyAccount.rpm = some rpm)
    (hkept : kept.length ≤ gate.admitTimestamps.length) :
    (kept.map fun _ => (1 : Int)).sum + 1 ≤ (⌈rpm⌉₊ : Int) := by
  have hlt : gate.admitTimestamps.length < ⌈rpm⌉₊ := by
    simp only [rpmRejection, hrpm] at h
    exact Nat.lt_ceil.mpr (not_le.mp fun hge => by rw [if_pos hge] at h; exact nomatch h)
  rw [List.map_const', List.sum_replicate, nsmul_one]
  omega

/-- **Room in the token rate**: below `2 ^ 53` the tokens are added exactly. -/
theorem room_of_tpmRejection {tpm : ℚ} {tokens : Int}
    (h : tpmRejection text gate (some tokens) = none)
    (htpm : gate.limits.supplyAccount.tpm = some tpm) (hlimit : tpm < 2 ^ 53)
    (hkept : ∀ sample ∈ gate.tokenAdmits, 0 ≤ sample.tokens) (htokens : 0 ≤ tokens) :
    (gate.tokenAdmits.map TokenAdmit.tokens).sum + tokens ≤ max 0 ⌊tpm⌋ := by
  have hnonneg : ∀ n ∈ gate.tokenAdmits.map TokenAdmit.tokens ++ [tokens], 0 ≤ n := by
    intro n hn
    rcases List.mem_append.mp hn with hn | hn
    · obtain ⟨sample, hsample, rfl⟩ := List.mem_map.mp hn
      exact hkept sample hsample
    · exact (List.mem_singleton.mp hn).symm ▸ htokens
  have hle : (((gate.tokenAdmits.map TokenAdmit.tokens ++ [tokens]).foldl addNumbers 0 : Int) : ℚ) ≤
      tpm := by
    simp only [tpmRejection, htpm] at h
    rw [List.foldl_append, List.foldl_cons, List.foldl_nil]
    exact not_lt.mp fun hgt => by rw [if_pos hgt] at h; exact nomatch h
  have hexact := foldl_addNumbers_of_lt hnonneg (le_refl 0) (by exact_mod_cast hle.trans_lt hlimit)
  rw [hexact, zero_add, List.sum_append, List.sum_singleton] at hle
  exact (Int.le_floor.mpr hle).trans (le_max_right _ _)

theorem requestTokens_nonneg {estimate : Option TokenEstimate} {tokens : Int}
    (h : requestTokens estimate = some tokens) : 0 ≤ tokens := by
  match estimate with
  | some (.finite value) => exact Option.some.inj h ▸ le_max_left _ _
  | some .notFinite => exact nomatch h
  | none => exact nomatch h

/-- No sample weighs less than nothing. -/
theorem sample_tokens_nonneg :
    ∀ sample ∈ log.filterMap AdmissionRecord.sample, 0 ≤ sample.tokens := by
  intro sample hsample
  obtain ⟨record, -, hrecord⟩ := List.mem_filterMap.mp hsample
  obtain ⟨tokens, htokens, rfl⟩ := Option.map_eq_some_iff.mp hrecord
  exact requestTokens_nonneg htokens

/-- **An admission keeps every limit.** -/
theorem within_of_admission {nowMs : TimeValue} {input : CapacityAcquireInput}
    (h : Within last log gate) (hle : last ≤ nowMs)
    (hadm : Admission text input nowMs lease gate gate') :
    Within nowMs (log ++ [⟨nowMs, input.tokens⟩]) gate' := by
  have hpruned := pruned_pruneFor gate nowMs (requestTokens input.tokens)
  have hwithin := within_of_pruned h hle hpruned
  have hlength : (gate.pruneFor nowMs (requestTokens input.tokens)).admitTimestamps.length ≤
      (gate.pruneForRpm nowMs).admitTimestamps.length := length_pruneForTpm_le ..
  obtain ⟨hsupply, hrpm, htpm, hsystem, -, hnew, -, seq, hgate'⟩ := hadm
  rw [sampleRequest_eq, sampleTokens_eq] at hgate'
  generalize hp : gate.pruneFor nowMs (requestTokens input.tokens) = p at *
  have hcount : gate'.countSupplyInUse = gate.countSupplyInUse + 1 :=
    countSupplyInUse_set hnew (by rw [hgate'])
  have hlimits : gate'.limits = p.limits := by rw [hgate']
  refine ⟨hlimits ▸ hwithin.supplyInt, hlimits ▸ hwithin.systemInt, fun account => ?_, ?_, ?_,
    fun rpm hrpmLimit => ?_, fun tpm htpmLimit hlimit => ?_⟩
  · have := hwithin.productInt account
    rwa [hgate']
  · rw [hcount, hlimits, hpruned.limits]
    refine add_one_le_of_isInt h.supplyInt (not_le.mp fun hge => ?_)
    rw [supplyRejection, if_pos hge] at hsupply
    exact nomatch hsupply
  · rw [hcount, hlimits]
    refine add_one_le_of_isInt hwithin.systemInt (not_le.mp fun hge => ?_)
    have hge' : (p.leases.values.length : ℚ) ≥ p.limits.systemTotal.concurrency := by
      rwa [hpruned.leases]
    rw [systemRejection, if_pos hge'] at hsystem
    exact nomatch hsystem
  · rw [hlimits] at hrpmLimit
    obtain ⟨htracks, hload⟩ := hwithin.requests rpm hrpmLimit
    have hkept : gate'.admitTimestamps = p.admitTimestamps ++ [nowMs.val] := by
      rw [hgate']
      simp [hrpmLimit]
    have hsame : (gate.pruneForRpm nowMs).limits = p.limits :=
      (Pruned.refl _ gate).forRpm.limits.trans hpruned.limits.symm
    have hroom := room_of_rpmRejection hrpm (hsame ▸ hrpmLimit) hlength
    rw [List.map_append, hkept]
    exact ⟨htracks.concat _,
      RateWindow.load_concat_le (fun _ _ => Int.one_nonneg) htracks hload rfl hroom⟩
  · rw [hlimits] at htpmLimit
    obtain ⟨htracks, hload⟩ := hwithin.tokens tpm htpmLimit hlimit
    rw [List.filterMap_append]
    rcases htokens : requestTokens input.tokens with _ | tokens
    · have hsample : [(⟨nowMs, input.tokens⟩ : AdmissionRecord)].filterMap AdmissionRecord.sample =
          [] := by simp [AdmissionRecord.sample, htokens]
      have hkept : gate'.tokenAdmits = p.tokenAdmits := by
        rw [hgate']
        simp [htokens]
      rw [hsample, hkept, List.append_nil]
      exact ⟨htracks, hload⟩
    · have hsample : [(⟨nowMs, input.tokens⟩ : AdmissionRecord)].filterMap AdmissionRecord.sample =
          [⟨nowMs, tokens⟩] := by simp [AdmissionRecord.sample, htokens]
      have hkept : gate'.tokenAdmits = p.tokenAdmits ++ [⟨nowMs, tokens⟩] := by
        rw [hgate']
        simp [htokens, htpmLimit]
      rw [htokens] at htpm
      have hold : ∀ sample ∈ p.tokenAdmits, 0 ≤ sample.tokens := fun sample hsample => by
        obtain ⟨old, hlog, -⟩ := htracks
        exact sample_tokens_nonneg sample (hlog ▸ List.mem_append_right old hsample)
      rw [hsample, hkept]
      exact ⟨htracks.concat _, RateWindow.load_concat_le sample_tokens_nonneg htracks hload rfl
        (room_of_tpmRejection htpm htpmLimit hlimit hold (requestTokens_nonneg htokens))⟩

/-- **A request keeps every limit**, whatever it ends in. -/
theorem within_tryAcquire (h : Within last log gate) (input : CapacityAcquireInput)
    {nowMs acquiredMs : TimeValue} (hle : last ≤ nowMs) (hle' : nowMs.val ≤ acquiredMs) :
    Within acquiredMs
      (log ++ (admission text gate (.tryAcquire input nowMs acquiredMs)).toList)
      (step text gate (.tryAcquire input nowMs acquiredMs)) := by
  obtain ⟨hreturn, hthrow⟩ := wp_iff_result.mp (tryAcquire_spec text gate input nowMs acquiredMs)
  refine Within.mono ?_ hle'
  simp only [admission, step]
  rcases hresult : result (tryAcquire text input nowMs acquiredMs) gate with e | decision
  · rw [Option.toList_none, List.append_nil]
    exact within_of_pruned h hle (hthrow e hresult)
  · have hspec := hreturn decision hresult
    cases decision with
    | rejected rejection =>
      rw [Option.toList_none, List.append_nil]
      exact within_of_pruned h hle hspec
    | admitted lease => exact within_of_admission h hle hspec

/-- A release takes a lease away at most. -/
theorem within_release (h : Within last log gate) (leaseId : String) :
    Within last log (step text gate (.release leaseId)) := by
  have hstep : step text gate (.release leaseId) =
      { gate with leases := gate.leases.erase leaseId } := by
    have hkeeps : Keeps (· = { gate with leases := gate.leases.erase leaseId })
        (release leaseId) gate := by simp [release]
    exact wp_final.mp hkeeps
  have hcount : ((step text gate (.release leaseId)).countSupplyInUse : ℚ) ≤
      gate.countSupplyInUse := by
    rw [hstep, countSupplyInUse, countSupplyInUse, OrderedMap.values, OrderedMap.values,
      List.length_map, List.length_map]
    exact_mod_cast List.length_filter_le ..
  rw [hstep] at hcount ⊢
  exact { h with supply := hcount.trans h.supply, system := hcount.trans h.system }

/-- A product limit that is accepted is a whole number. -/
theorem within_setProductAccountLimit (text : ℚ → String) (h : Within last log gate)
    (productAccountId : String) (concurrency : ℚ) :
    Within last log (step text gate (.setProductAccountLimit productAccountId concurrency)) := by
  have hkeeps : Keeps (Within last log)
      (setProductAccountLimit productAccountId concurrency) gate := by
    simp only [setProductAccountLimit, wp_bind, wp_check_unit, wp_modify]
    refine ⟨fun hok => { h with productInt := fun account => ?_ }, fun _ _ => h⟩
    rw [productLimit, OrderedMap.get?_set]
    split
    · exact (isInt_of_assertPositiveInt hok).1
    · exact h.productInt account
  exact wp_final.mp hkeeps

/-- **The run**: within every limit, wherever the clock has come to. -/
theorem runAll_within (text : ℚ → String) : ∀ (calls : List Call) {last : Int} {log : List AdmissionRecord}
    {gate : ThreeLayerCapacityGate}, Within last log gate →
      (last :: calls.flatMap Call.readings).Pairwise (· ≤ ·) →
      ∃ last', Within last' (log ++ admissions text calls gate) (runAll (step text) calls gate)
  | [], last, log, gate, h, _ => ⟨last, by rwa [admissions, List.append_nil]⟩
  | call :: calls, last, log, gate, h, hclock => by
    rw [List.flatMap_cons] at hclock
    rw [admissions, runAll_cons, ← List.append_assoc]
    cases call with
    | tryAcquire input nowMs acquiredMs =>
      obtain ⟨hlast, hrest⟩ := List.pairwise_cons.mp hclock
      obtain ⟨hnow, hlater⟩ := List.pairwise_cons.mp hrest
      have hle : last ≤ nowMs := hlast nowMs List.mem_cons_self
      have hle' : nowMs.val ≤ acquiredMs := hnow acquiredMs List.mem_cons_self
      exact runAll_within text calls (within_tryAcquire h input hle hle') hlater
    | setProductAccountLimit account concurrency =>
      have hstep := within_setProductAccountLimit text h account concurrency
      rw [admission, Option.toList_none, List.append_nil]
      exact runAll_within text calls hstep hclock
    | release leaseId =>
      rw [admission, Option.toList_none, List.append_nil]
      exact runAll_within text calls (within_release h leaseId) hclock

/-! ## What holds of every run -/

theorem load_requests (t : Int) (log : List AdmissionRecord) :
    RateWindow.load id (fun _ => 1) RPM_WINDOW_MS t (log.map AdmissionRecord.atMs) =
      (inWindow t log).length := by
  have hload : RateWindow.load id (fun _ => 1) RPM_WINDOW_MS t
      (log.filterMap fun record => some record.atMs) =
        RateWindow.load AdmissionRecord.atMs (fun _ => 1) RPM_WINDOW_MS t log := by
    refine RateWindow.load_filterMap (fun record h => ?_) (fun record atMs h => ?_) t log
    · exact absurd h (Option.some_ne_none _)
    · exact ⟨(Option.some.inj h).symm, rfl⟩
  rw [← List.filterMap_eq_map]
  refine hload.trans ?_
  rw [RateWindow.load, List.map_const', List.sum_replicate, nsmul_one, inWindow]

theorem Call.reading_range {reading : Int} (call : Call) (h : reading ∈ call.readings) :
    -maxTime ≤ reading := by
  cases call with
  | tryAcquire input nowMs acquiredMs =>
    rcases List.mem_cons.mp h with rfl | h
    · exact nowMs.2.1
    · exact List.mem_singleton.mp h ▸ acquiredMs.2.1
  | setProductAccountLimit account concurrency => exact absurd h List.not_mem_nil
  | release leaseId => exact absurd h List.not_mem_nil

/-- No call changes the limits of the gate. -/
theorem step_limits (call : Call) : (step text gate call).limits = gate.limits := by
  cases call with
  | setProductAccountLimit account concurrency =>
    have hkeeps : Keeps (fun g => g.limits = gate.limits)
        (setProductAccountLimit account concurrency) gate := by
      simp [setProductAccountLimit]
    exact wp_final.mp hkeeps
  | tryAcquire input nowMs acquiredMs =>
    have hkeeps : Keeps (fun g => g.limits = gate.limits)
        (tryAcquire text input nowMs acquiredMs) gate := by
      refine (tryAcquire_spec text gate input nowMs acquiredMs).mono (fun decision g h => ?_)
        fun _ g h => h.limits
      cases decision with
      | rejected rejection => exact h.limits
      | admitted lease => exact h.limits
    exact wp_final.mp hkeeps
  | release leaseId =>
    have hkeeps : Keeps (fun g => g.limits = gate.limits) (release leaseId) gate := by
      simp [release]
    exact wp_final.mp hkeeps

theorem load_tokens (t : Int) (log : List AdmissionRecord) :
    RateWindow.load TokenAdmit.atMs TokenAdmit.tokens RPM_WINDOW_MS t
      (log.filterMap AdmissionRecord.sample) = tokensIn t log := by
  refine RateWindow.load_filterMap (fun record h => ?_) (fun record sample h => ?_) t log
  · rw [Option.map_eq_none_iff.mp h, Option.getD_none]
  · obtain ⟨tokens, htokens, rfl⟩ := Option.map_eq_some_iff.mp h
    rw [htokens, Option.getD_some]
    exact ⟨rfl, rfl⟩

/-- What one more request may do: stay within the product limit in force, or leave the leases and
the rate windows as they were, pruning apart. -/
def RequestKept (text : ℚ → String) (gate : ThreeLayerCapacityGate) (input : CapacityAcquireInput)
    (nowMs acquiredMs : TimeValue) : Prop :=
  let after := step text gate (.tryAcquire input nowMs acquiredMs)
  match result (tryAcquire text input nowMs acquiredMs) gate with
  | .ok (.admitted _) =>
    (after.countProductInUse input.productAccountId : ℚ) ≤ gate.productLimit input.productAccountId
  | _ => Pruned nowMs gate after

theorem requestKept (h : Within last log gate) (input : CapacityAcquireInput)
    (nowMs acquiredMs : TimeValue) : RequestKept text gate input nowMs acquiredMs := by
  obtain ⟨hreturn, hthrow⟩ := wp_iff_result.mp (tryAcquire_spec text gate input nowMs acquiredMs)
  simp only [RequestKept, step]
  rcases hresult : result (tryAcquire text input nowMs acquiredMs) gate with e | decision
  · exact hthrow e hresult
  · have hspec := hreturn decision hresult
    cases decision with
    | rejected rejection => exact hspec
    | admitted lease =>
      have hproduct := hspec.product
      rw [(pruned_pruneFor gate nowMs (requestTokens input.tokens)).productRejection] at hproduct
      have hcount := countProductInUse_set hspec.unused hspec.leases
      rw [hspec.account] at hcount
      simp only [hcount]
      refine add_one_le_of_isInt (h.productInt _) (not_le.mp fun hge => ?_)
      rw [productRejection, if_pos hge] at hproduct
      exact nomatch hproduct

/-- **The capacity gate is never exceeded.**  After every run whose clock does not go back, the
leases are within the supply and the system limit, the admissions of any 60 seconds within the
request rate (rounded up) and their tokens (estimates rounded down) within the token rate, if that is
below `2 ^ 53`; and one more request is within its product limit or leaves no trace. -/
theorem capacity_kept (text : ℚ → String) {supplyAccountId : String}
    {limits : SupplyCapacityLimits} {gate₀ : ThreeLayerCapacityGate}
    (hcreate : create supplyAccountId limits = .ok gate₀) (calls : List Call)
    (hclock : (calls.flatMap Call.readings).Pairwise (· ≤ ·)) :
    ((runAll (step text) calls gate₀).countSupplyInUse : ℚ) ≤
        gate₀.limits.supplyAccount.concurrency ∧
      ((runAll (step text) calls gate₀).leases.values.length : ℚ) ≤
        gate₀.limits.systemTotal.concurrency ∧
      (∀ rpm, gate₀.limits.supplyAccount.rpm = some rpm →
        ∀ t, (inWindow t (admissions text calls gate₀)).length ≤ ⌈rpm⌉₊) ∧
      (∀ tpm, gate₀.limits.supplyAccount.tpm = some tpm → tpm < 2 ^ 53 →
        ∀ t, (tokensIn t (admissions text calls gate₀) : ℚ) ≤ max 0 tpm) ∧
      ∀ input nowMs acquiredMs,
        RequestKept text (runAll (step text) calls gate₀) input nowMs acquiredMs := by
  -- the clock starts before the first reading
  obtain ⟨start, hstart⟩ : ∃ start, ∀ reading ∈ calls.flatMap Call.readings, start ≤ reading := by
    refine ⟨-maxTime, fun reading hreading => ?_⟩
    obtain ⟨call, -, hcall⟩ := List.mem_flatMap.mp hreading
    exact call.reading_range hcall
  obtain ⟨last, hwithin⟩ := runAll_within text calls (create_within hcreate start)
    (List.pairwise_cons.mpr ⟨hstart, hclock⟩)
  rw [List.nil_append] at hwithin
  have hlimits : (runAll (step text) calls gate₀).limits = gate₀.limits :=
    runAll_invariant (fun gate : ThreeLayerCapacityGate => gate.limits = gate₀.limits)
      (fun gate call h => (step_limits call).trans h) calls rfl
  refine ⟨hlimits ▸ hwithin.supply, hlimits ▸ hwithin.system, fun rpm hrpm t => ?_,
    fun tpm htpm hlimit t => ?_, fun input nowMs acquiredMs => requestKept hwithin input nowMs acquiredMs⟩
  · have hload := (hwithin.requests rpm (hlimits ▸ hrpm)).2 t
    rw [load_requests] at hload
    exact_mod_cast hload
  · have hload := (hwithin.tokens tpm (hlimits ▸ htpm) hlimit).2 t
    rw [load_tokens] at hload
    calc (tokensIn t (admissions text calls gate₀) : ℚ)
        ≤ ((max 0 ⌊tpm⌋ : Int) : ℚ) := by exact_mod_cast hload
      _ = max 0 (⌊tpm⌋ : ℚ) := by push_cast; rfl
      _ ≤ max 0 tpm := max_le_max_left _ (Int.floor_le tpm)

/-! ## Limits and estimates that are no whole numbers -/

/-- A gate with room for one and a half requests and ten tokens a minute. -/
def fractionalLimits : SupplyCapacityLimits where
  supplyAccount := some ⟨some 5, some (3 / 2), some 10⟩
  productAccount := some ⟨some 5, none⟩
  systemTotal := some ⟨some 5⟩

def fractionalGate : ThreeLayerCapacityGate :=
  ⟨"s", .empty, 0, ⟨⟨5, some (3 / 2), some 10⟩, ⟨5, none⟩, ⟨5⟩⟩, .empty, [], []⟩

/-- Two requests at one instant, each with an estimate of 5.9 tokens. -/
def fractionalCalls : List Call :=
  let input : CapacityAcquireInput := ⟨"p", "w", none, some (.finite (59 / 10))⟩
  let now := TimeValue.epoch
  [.tryAcquire input now now, .tryAcquire input now now]

/-- The estimates of the admissions in the 60 seconds that end at `t`, as they were given. -/
def estimatesIn (t : Int) (log : List AdmissionRecord) : ℚ :=
  ((inWindow t log).map fun record => match record.estimate with
    | some (.finite value) => value
    | _ => 0).sum

theorem capacity_kept_fractional : (fractionalCalls.flatMap Call.readings).Pairwise (· ≤ ·) ∧
    create "s" fractionalLimits = .ok fractionalGate ∧
    (inWindow 0 (admissions (fun _ => "") fractionalCalls fractionalGate)).length ≤
      ⌈(3 / 2 : ℚ)⌉₊ :=
  have hcreate : create "s" fractionalLimits = .ok fractionalGate := by decide +kernel
  ⟨by decide, hcreate, (capacity_kept (fun _ => "") hcreate fractionalCalls
    (by decide)).2.2.1 (3 / 2) rfl 0⟩

/-- **Rounding exceeds the rates as they are given**: two requests in a minute with room for one and
a half, and 11.8 tokens with room for ten. -/
theorem fractions_exceed :
    (fractionalCalls.flatMap Call.readings).Pairwise (· ≤ ·) ∧
      create "s" fractionalLimits = .ok fractionalGate ∧
      ¬ ((inWindow 0 (admissions (fun _ => "") fractionalCalls fractionalGate)).length : ℚ) ≤
        3 / 2 ∧
      ¬ estimatesIn 0 (admissions (fun _ => "") fractionalCalls fractionalGate) ≤ 10 := by
  refine ⟨by decide, by decide +kernel, ?_, ?_⟩
  · decide +kernel
  · decide +kernel

end ThreeLayerCapacityGate

end MeiyeAgent
