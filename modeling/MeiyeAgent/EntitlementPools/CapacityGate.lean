import MeiyeAgent.Foundation.Numbers
import MeiyeAgent.Foundation.Runtime
import MeiyeAgent.Machinery.OrderedMap
import MeiyeAgent.Machinery.RateWindow

/-!
# EntitlementPools/CapacityGate — the three-layer capacity gate of one supply account

A request is admitted if the supply account, its rates, the system and its product account all have
room, in that order.  Limits are finite numbers; the two rate limits need not be whole.

* `tryAcquire_spec` — **what a request does**: a refusal, by an answer or by a throw, prunes the
  rate windows at most; an admission adds one lease, and one sample to each window that is limited.
-/

namespace MeiyeAgent

open Effect

inductive CapacityLayer
  | supply_account
  | product_account
  | system_total
  deriving DecidableEq, Repr

/-! ## Limits -/

structure SupplyAccountCapacity where
  concurrency : ℚ
  rpm : Option ℚ
  tpm : Option ℚ
  deriving DecidableEq, Repr

structure ProductAccountCapacity where
  concurrency : ℚ
  queuePriority : Option ℚ
  deriving DecidableEq, Repr

structure SystemTotalCapacity where
  concurrency : ℚ
  deriving DecidableEq, Repr

structure ThreeLayerCapacityLimits where
  supplyAccount : SupplyAccountCapacity
  productAccount : ProductAccountCapacity
  systemTotal : SystemTotalCapacity
  deriving DecidableEq, Repr

structure SupplyAccountLimitsInput where
  concurrency : Option ℚ := none
  rpm : Option ℚ := none
  tpm : Option ℚ := none

structure ProductAccountLimitsInput where
  concurrency : Option ℚ := none
  queuePriority : Option ℚ := none

structure SystemTotalLimitsInput where
  concurrency : Option ℚ := none

/-- The limits as they are configured, each part of which may be left out. -/
structure SupplyCapacityLimits where
  supplyAccount : Option SupplyAccountLimitsInput := none
  productAccount : Option ProductAccountLimitsInput := none
  systemTotal : Option SystemTotalLimitsInput := none

def assertPositiveInt (value : ℚ) (field : String) : Except Thrown Unit :=
  if value.isInt = false ∨ value ≤ 0 then
    throw (.domain .INVALID_STATE (field ++ " must be a positive integer."))
  else pure ()

def normalizeThreeLayerLimits (limits : SupplyCapacityLimits) :
    Except Thrown ThreeLayerCapacityLimits :=
  match limits.supplyAccount, limits.productAccount, limits.systemTotal with
  | some ⟨some supplyConcurrency, rpm, tpm⟩, some ⟨some productConcurrency, queuePriority⟩,
      some ⟨some systemConcurrency⟩ => do
    assertPositiveInt supplyConcurrency "supplyAccount.concurrency"
    assertPositiveInt productConcurrency "productAccount.concurrency"
    assertPositiveInt systemConcurrency "systemTotal.concurrency"
    return ⟨⟨supplyConcurrency, rpm, tpm⟩, ⟨productConcurrency, queuePriority⟩,
      ⟨systemConcurrency⟩⟩
  | _, _, _ =>
    throw (.domain .INVALID_STATE ("Three-layer capacity requires supplyAccount, " ++
      "productAccount, and systemTotal concurrency."))

/-! ## The gate -/

def RPM_WINDOW_MS : Int := 60000

structure CapacityLease where
  leaseId : String
  supplyAccountId : String
  productAccountId : String
  workspaceId : String
  acquiredAt : String
  deriving DecidableEq, Repr

/-- A refusal at one layer. -/
structure CapacityRejection where
  layer : CapacityLayer
  message : String
  inUse : Int
  limit : ℚ
  deriving DecidableEq, Repr

inductive CapacityAdmissionDecision
  | admitted (lease : CapacityLease)
  | rejected (rejection : CapacityRejection)
  deriving DecidableEq, Repr

structure TokenAdmit where
  atMs : Int
  tokens : Int
  deriving DecidableEq, Repr

structure ThreeLayerCapacityGate where
  supplyAccountId : String
  leases : OrderedMap String CapacityLease
  seq : Nat
  limits : ThreeLayerCapacityLimits
  productLimits : OrderedMap String ℚ
  admitTimestamps : List Int
  tokenAdmits : List TokenAdmit
  deriving DecidableEq

/-- A number given as a token estimate: the infinities and `NaN` are not finite. -/
inductive TokenEstimate
  | finite (value : ℚ)
  | notFinite
  deriving DecidableEq, Repr

/-- The tokens a request is counted with. -/
def requestTokens : Option TokenEstimate → Option Int
  | some (.finite value) => some (max 0 ⌊value⌋)
  | _ => none

structure CapacityAcquireInput where
  productAccountId : String
  workspaceId : String
  leaseId : Option String
  tokens : Option TokenEstimate
  deriving DecidableEq, Repr

namespace ThreeLayerCapacityGate

def create (supplyAccountId : String) (limits : SupplyCapacityLimits) :
    Except Thrown ThreeLayerCapacityGate := do
  let limits ← normalizeThreeLayerLimits limits
  return ⟨supplyAccountId, .empty, 0, limits, .empty, [], []⟩

def setProductAccountLimit (productAccountId : String) (concurrency : ℚ) :
    EStateM Thrown ThreeLayerCapacityGate Unit := do
  check (assertPositiveInt concurrency "productAccount.concurrency")
  modify fun gate =>
    { gate with productLimits := gate.productLimits.set productAccountId concurrency }

def countSupplyInUse (gate : ThreeLayerCapacityGate) : Nat := gate.leases.values.length

def countProductInUse (gate : ThreeLayerCapacityGate) (productAccountId : String) : Nat :=
  gate.leases.values.countP fun lease => lease.productAccountId = productAccountId

/-- The limit of a product account in force. -/
def productLimit (gate : ThreeLayerCapacityGate) (productAccountId : String) : ℚ :=
  (gate.productLimits.get? productAccountId).getD gate.limits.productAccount.concurrency

def pruneRateWindows (gate : ThreeLayerCapacityGate) (nowMs : Int) : ThreeLayerCapacityGate :=
  { gate with
    admitTimestamps := RateWindow.prune id (nowMs - RPM_WINDOW_MS) gate.admitTimestamps
    tokenAdmits := RateWindow.prune TokenAdmit.atMs (nowMs - RPM_WINDOW_MS) gate.tokenAdmits }

/-! ### The layers

`text` is `Number.prototype.toString`. -/

variable (text : ℚ → String)

def supplyRejection (gate : ThreeLayerCapacityGate) : Option CapacityRejection :=
  let supplyInUse := gate.countSupplyInUse
  if (supplyInUse : ℚ) ≥ gate.limits.supplyAccount.concurrency then
    some ⟨.supply_account, "Supply-account " ++ gate.supplyAccountId ++
      " concurrency exhausted (" ++ toString supplyInUse ++ "/" ++
        text gate.limits.supplyAccount.concurrency ++ ").", supplyInUse,
      gate.limits.supplyAccount.concurrency⟩
  else none

def rpmRejection (gate : ThreeLayerCapacityGate) : Option CapacityRejection :=
  match gate.limits.supplyAccount.rpm with
  | none => none
  | some rpmLimit =>
    let rpmInUse := gate.admitTimestamps.length
    if (rpmInUse : ℚ) ≥ rpmLimit then
      some ⟨.supply_account, "Supply-account " ++ gate.supplyAccountId ++ " RPM exhausted (" ++
        toString rpmInUse ++ "/" ++ text rpmLimit ++ " in 60s).", rpmInUse, rpmLimit⟩
    else none

def tpmRejection (gate : ThreeLayerCapacityGate) (tokens : Option Int) :
    Option CapacityRejection :=
  match gate.limits.supplyAccount.tpm, tokens with
  | some tpmLimit, some requestTokens =>
    let tokensInUse := (gate.tokenAdmits.map TokenAdmit.tokens).foldl addNumbers 0
    if (addNumbers tokensInUse requestTokens : ℚ) > tpmLimit then
      some ⟨.supply_account, "Supply-account " ++ gate.supplyAccountId ++ " TPM exhausted (" ++
        toString tokensInUse ++ "+" ++ toString requestTokens ++ "/" ++ text tpmLimit ++
          " in 60s).", tokensInUse, tpmLimit⟩
    else none
  | _, _ => none

def systemRejection (gate : ThreeLayerCapacityGate) : Option CapacityRejection :=
  let systemInUse := gate.leases.values.length
  if (systemInUse : ℚ) ≥ gate.limits.systemTotal.concurrency then
    some ⟨.system_total, "System-total concurrency exhausted (" ++ toString systemInUse ++ "/" ++
      text gate.limits.systemTotal.concurrency ++ ").", systemInUse,
      gate.limits.systemTotal.concurrency⟩
  else none

def productRejection (gate : ThreeLayerCapacityGate) (productAccountId : String) :
    Option CapacityRejection :=
  let productInUse := gate.countProductInUse productAccountId
  if (productInUse : ℚ) ≥ gate.productLimit productAccountId then
    some ⟨.product_account, "Product-account " ++ productAccountId ++ " concurrency exhausted (" ++
      toString productInUse ++ "/" ++ text (gate.productLimit productAccountId) ++ ").",
      productInUse, gate.productLimit productAccountId⟩
  else none

/-- The windows are pruned for the request rate only if it is limited. -/
def pruneForRpm (gate : ThreeLayerCapacityGate) (nowMs : Int) : ThreeLayerCapacityGate :=
  if gate.limits.supplyAccount.rpm.isSome then gate.pruneRateWindows nowMs else gate

/-- The windows are pruned for the token rate only if it is limited and the tokens are known. -/
def pruneForTpm (gate : ThreeLayerCapacityGate) (nowMs : Int) (tokens : Option Int) :
    ThreeLayerCapacityGate :=
  if gate.limits.supplyAccount.tpm.isSome ∧ tokens.isSome then gate.pruneRateWindows nowMs
  else gate

/-- The sample of an admission for the request rate, if it is limited. -/
def sampleRequest (gate : ThreeLayerCapacityGate) (nowMs : Int) : ThreeLayerCapacityGate :=
  if gate.limits.supplyAccount.rpm.isSome then
    { gate with admitTimestamps := gate.admitTimestamps ++ [nowMs] }
  else gate

/-- The sample of an admission for the token rate, if it is limited and the tokens are known. -/
def sampleTokens (gate : ThreeLayerCapacityGate) (nowMs : Int) (tokens : Option Int) :
    ThreeLayerCapacityGate :=
  match gate.limits.supplyAccount.tpm, tokens with
  | some _, some tokens => { gate with tokenAdmits := gate.tokenAdmits ++ [⟨nowMs, tokens⟩] }
  | _, _ => gate

/-- What follows the checks.  `acquiredMs` is the second reading of the clock. -/
def commit (input : CapacityAcquireInput) (nowMs acquiredMs : TimeValue) :
    EStateM Thrown ThreeLayerCapacityGate CapacityAdmissionDecision := do
  let gate ← get
  let seq := if input.leaseId.isSome then gate.seq else gate.seq + 1
  set { gate with seq }
  let lease : CapacityLease :=
    ⟨input.leaseId.getD ("lease:" ++ toString seq), gate.supplyAccountId, input.productAccountId,
      input.workspaceId, isoText acquiredMs⟩
  if (gate.leases.get? lease.leaseId).isSome then
    throw (.domain .IDEMPOTENCY_CONFLICT
      ("Capacity lease " ++ lease.leaseId ++ " already exists."))
  modify fun gate => { gate with leases := gate.leases.set lease.leaseId lease }
  modify (sampleRequest · nowMs)
  modify (sampleTokens · nowMs (requestTokens input.tokens))
  return .admitted lease

/-- A layer's refusal is the answer; otherwise the next layer is asked. -/
def unlessRejected (rejection : Option CapacityRejection)
    (next : EStateM Thrown ThreeLayerCapacityGate CapacityAdmissionDecision) :
    EStateM Thrown ThreeLayerCapacityGate CapacityAdmissionDecision :=
  match rejection with
  | some rejection => pure (.rejected rejection)
  | none => next

def tryAcquire (input : CapacityAcquireInput) (nowMs acquiredMs : TimeValue) :
    EStateM Thrown ThreeLayerCapacityGate CapacityAdmissionDecision := do
  if Text.isBlank input.productAccountId ∨ Text.isBlank input.workspaceId then
    throw (.domain .INVALID_STATE "Capacity acquire requires productAccountId and workspaceId.")
  let tokens := requestTokens input.tokens
  unlessRejected (supplyRejection text (← get)) do
    modify (pruneForRpm · nowMs)
    unlessRejected (rpmRejection text (← get)) do
      modify (pruneForTpm · nowMs tokens)
      unlessRejected (tpmRejection text (← get) tokens) do
        unlessRejected (systemRejection text (← get)) do
          unlessRejected (productRejection text (← get) input.productAccountId) do
            commit input nowMs acquiredMs

def release (leaseId : String) : EStateM Thrown ThreeLayerCapacityGate Bool := do
  let gate ← get
  set { gate with leases := gate.leases.erase leaseId }
  return (gate.leases.get? leaseId).isSome

/-! ## Runs -/

/-- A call on the gate, with the readings of the clock it makes. -/
inductive Call
  | setProductAccountLimit (productAccountId : String) (concurrency : ℚ)
  | tryAcquire (input : CapacityAcquireInput) (nowMs acquiredMs : TimeValue)
  | release (leaseId : String)

/-- The gate a call leaves. -/
def step (gate : ThreeLayerCapacityGate) : Call → ThreeLayerCapacityGate
  | .setProductAccountLimit productAccountId concurrency =>
    final (setProductAccountLimit productAccountId concurrency) gate
  | .tryAcquire input nowMs acquiredMs => final (tryAcquire text input nowMs acquiredMs) gate
  | .release leaseId => final (release leaseId) gate

/-! ## What a request does -/

variable {text} {gate gate' : ThreeLayerCapacityGate} {input : CapacityAcquireInput}
  {nowMs acquiredMs : TimeValue}

/-- **Pruned at most**: the leases and limits stand, and the rate windows either stand or have lost
the samples older than the window; a lease number may have been drawn. -/
def Pruned (nowMs : Int) (gate gate' : ThreeLayerCapacityGate) : Prop :=
  ∃ seq, gate' = { gate with seq } ∨ gate' = { gate.pruneRateWindows nowMs with seq }

theorem Pruned.refl (nowMs : Int) (gate : ThreeLayerCapacityGate) : Pruned nowMs gate gate :=
  ⟨gate.seq, .inl rfl⟩

theorem Pruned.withSeq {nowMs : Int} (h : Pruned nowMs gate gate') (seq : Nat) :
    Pruned nowMs gate { gate' with seq } := by
  obtain ⟨_, rfl | rfl⟩ := h
  · exact ⟨seq, .inl rfl⟩
  · exact ⟨seq, .inr rfl⟩

/-- Pruning again at the same clock drops nothing more. -/
theorem Pruned.prune {nowMs : Int} (h : Pruned nowMs gate gate') :
    Pruned nowMs gate (gate'.pruneRateWindows nowMs) := by
  obtain ⟨seq, rfl | rfl⟩ := h
  · exact ⟨seq, .inr rfl⟩
  · refine ⟨seq, .inr ?_⟩
    simp only [pruneRateWindows, RateWindow.prune_prune]

theorem Pruned.forRpm {nowMs : Int} (h : Pruned nowMs gate gate') :
    Pruned nowMs gate (gate'.pruneForRpm nowMs) := by
  rw [pruneForRpm]
  split
  · exact h.prune
  · exact h

theorem Pruned.forTpm {nowMs : Int} (h : Pruned nowMs gate gate') (tokens : Option Int) :
    Pruned nowMs gate (gate'.pruneForTpm nowMs tokens) := by
  rw [pruneForTpm]
  split
  · exact h.prune
  · exact h

theorem Pruned.leases {nowMs : Int} (h : Pruned nowMs gate gate') : gate'.leases = gate.leases := by
  obtain ⟨_, rfl | rfl⟩ := h <;> rfl

theorem Pruned.limits {nowMs : Int} (h : Pruned nowMs gate gate') : gate'.limits = gate.limits := by
  obtain ⟨_, rfl | rfl⟩ := h <;> rfl

theorem Pruned.productRejection {nowMs : Int} {productAccountId : String}
    (h : Pruned nowMs gate gate') :
    productRejection text gate' productAccountId = productRejection text gate productAccountId := by
  obtain ⟨_, rfl | rfl⟩ := h <;> rfl

/-- A refused request ends there. -/
theorem wp_unlessRejected {rejection : Option CapacityRejection}
    {next : EStateM Thrown ThreeLayerCapacityGate CapacityAdmissionDecision}
    {Q : CapacityAdmissionDecision → ThreeLayerCapacityGate → Prop}
    {E : Thrown → ThreeLayerCapacityGate → Prop} :
    Wp (unlessRejected rejection next) gate Q E ↔
      (∀ r, rejection = some r → Q (.rejected r) gate) ∧
        (rejection = none → Wp next gate Q E) := by
  cases rejection <;> simp [unlessRejected]

/-- The gate the layers after the rates see. -/
def pruneFor (gate : ThreeLayerCapacityGate) (nowMs : Int) (tokens : Option Int) :
    ThreeLayerCapacityGate := (gate.pruneForRpm nowMs).pruneForTpm nowMs tokens

/-- **An admission**: every layer has room, and the lease and the samples are added. -/
structure Admission (text : ℚ → String) (input : CapacityAcquireInput) (nowMs : TimeValue)
    (lease : CapacityLease) (gate gate' : ThreeLayerCapacityGate) : Prop where
  supply : supplyRejection text gate = none
  rpm : rpmRejection text (gate.pruneForRpm nowMs) = none
  tpm : tpmRejection text (gate.pruneFor nowMs (requestTokens input.tokens))
    (requestTokens input.tokens) = none
  system : systemRejection text (gate.pruneFor nowMs (requestTokens input.tokens)) = none
  product : productRejection text (gate.pruneFor nowMs (requestTokens input.tokens))
    input.productAccountId = none
  unused : gate.leases.get? lease.leaseId = none
  account : lease.productAccountId = input.productAccountId
  result : ∃ seq, gate' = (({ gate.pruneFor nowMs (requestTokens input.tokens) with
    seq := seq
    leases := gate.leases.set lease.leaseId lease }).sampleRequest nowMs).sampleTokens nowMs
      (requestTokens input.tokens)

theorem pruned_pruneFor (gate : ThreeLayerCapacityGate) (nowMs : Int) (tokens : Option Int) :
    Pruned nowMs gate (gate.pruneFor nowMs tokens) := ((Pruned.refl nowMs gate).forRpm).forTpm tokens

theorem sampleRequest_eq (nowMs : Int) : gate.sampleRequest nowMs = { gate with
    admitTimestamps := gate.admitTimestamps ++
      if gate.limits.supplyAccount.rpm.isSome then [nowMs] else [] } := by
  rw [sampleRequest]
  split
  · rfl
  · rw [List.append_nil]

theorem sampleTokens_eq (nowMs : Int) (tokens : Option Int) :
    gate.sampleTokens nowMs tokens = { gate with
      tokenAdmits := gate.tokenAdmits ++ if gate.limits.supplyAccount.tpm.isSome then
        (tokens.map (TokenAdmit.mk nowMs)).toList else [] } := by
  rcases htpm : gate.limits.supplyAccount.tpm with _ | tpm
  · simp [sampleTokens, htpm]
  · cases tokens <;> simp [sampleTokens, htpm]

/-- An admission adds its lease and leaves the limits. -/
theorem Admission.leases {lease : CapacityLease}
    (h : Admission text input nowMs lease gate gate') :
    gate'.leases = gate.leases.set lease.leaseId lease := by
  obtain ⟨seq, hresult⟩ := h.result
  rw [hresult, sampleRequest_eq, sampleTokens_eq]

theorem Admission.limits {lease : CapacityLease}
    (h : Admission text input nowMs lease gate gate') : gate'.limits = gate.limits := by
  obtain ⟨seq, hresult⟩ := h.result
  rw [hresult, sampleRequest_eq, sampleTokens_eq]
  exact (pruned_pruneFor gate nowMs _).limits

theorem commit_spec (gate : ThreeLayerCapacityGate) (input : CapacityAcquireInput)
    (nowMs acquiredMs : TimeValue) :
    Wp (commit input nowMs acquiredMs) gate
      (fun decision gate' => ∃ lease seq, decision = .admitted lease ∧
        gate.leases.get? lease.leaseId = none ∧ lease.productAccountId = input.productAccountId ∧
        gate' = (({ gate with seq, leases := gate.leases.set lease.leaseId lease }).sampleRequest
          nowMs).sampleTokens nowMs (requestTokens input.tokens))
      fun _ gate' => ∃ seq, gate' = { gate with seq } := by
  simp only [commit, wp_bind, wp_get, wp_set, wp_ite, wp_throw, wp_modify, wp_pure]
  refine ⟨fun _ => ⟨_, rfl⟩, fun hnew => ⟨_, _, rfl, ?_, rfl, rfl⟩⟩
  rwa [Bool.not_eq_true, Option.isSome_eq_false_iff, Option.isNone_iff_eq_none] at hnew

/-- **What a request does.** -/
theorem tryAcquire_spec (text : ℚ → String) (gate : ThreeLayerCapacityGate)
    (input : CapacityAcquireInput) (nowMs acquiredMs : TimeValue) :
    Wp (tryAcquire text input nowMs acquiredMs) gate
      (fun decision gate' => match decision with
        | .rejected _ => Pruned nowMs gate gate'
        | .admitted lease => Admission text input nowMs lease gate gate')
      fun _ gate' => Pruned nowMs gate gate' := by
  simp only [tryAcquire, wp_bind, wp_get, wp_ite, wp_throw, wp_modify, wp_unlessRejected]
  refine ⟨fun _ => Pruned.refl nowMs gate, fun _ => ⟨fun _ _ => Pruned.refl nowMs gate,
    fun hsupply => ⟨fun _ _ => (Pruned.refl nowMs gate).forRpm, fun hrpm => ?_⟩⟩⟩
  rw [← pruneFor]
  have hpruned := pruned_pruneFor gate nowMs (requestTokens input.tokens)
  refine ⟨fun _ _ => hpruned, fun htpm => ⟨fun _ _ => hpruned, fun hsystem =>
    ⟨fun _ _ => hpruned, fun hproduct => ?_⟩⟩⟩
  refine (commit_spec _ input nowMs acquiredMs).mono (fun decision gate' hcommit => ?_)
    fun _ gate' hcommit => ?_
  · obtain ⟨lease, seq, rfl, hnew, haccount, rfl⟩ := hcommit
    have hleases := hpruned.leases
    rw [hleases] at hnew
    exact ⟨hsupply, hrpm, htpm, hsystem, hproduct, hnew, haccount, seq, by rw [hleases]⟩
  · obtain ⟨seq, rfl⟩ := hcommit
    exact hpruned.withSeq seq

end ThreeLayerCapacityGate

end MeiyeAgent
