import MeiyeAgent.Foundation.JsValues
import MeiyeAgent.JobRuntime.TracerJobs

/-!
# JobRuntime/JobFingerprints — the fingerprint of a durable job

`canonicalJson` writes a value by hand, the members of an object by their names; a job is known
again by the digest of what is written.

* `canonicalJson_eq_chars` — of data, what is written is the JSON of the value, normalised.
* `fingerprints_characterise` — so the fingerprint is that of the job as JSON, stored or not.
-/

namespace MeiyeAgent

namespace JsValue

/-! ## `canonicalJson` -/

/-- Entries by their names. -/
def sortNames {α : Type} (entries : List (String × α)) : List (String × α) :=
  entries.insertionSort fun a b => TextLe a.1 b.1

/-- `"name":text`. -/
def writeMember (entry : String × List Char) : List Char := Json.quote entry.1 ++ ':' :: entry.2

mutual

/-- `canonicalJson`, on a value that `JSON.stringify` returns on. -/
def canonicalJson : JsValue → List Char
  | undefined => []  -- `join` writes nothing where `JSON.stringify` answers `undefined`
  | null => Json.chars .null
  | bool value => Json.chars (.bool value)
  | number digits => Json.chars (.number digits)
  | notFinite => Json.chars .null
  | bigint _ => []
  | text value => Json.chars (.text value)
  | function => []
  | date _ => ['\x7b', '\x7d']  -- an object without members
  | array items => '[' :: ([','].intercalate (canonicalItems items) ++ [']'])
  | object fields =>
    '\x7b' :: ([','].intercalate ((sortNames (canonicalMembers fields)).map writeMember) ++
      ['\x7d'])

def canonicalItems : List JsValue → List (List Char)
  | [] => []
  | item :: items => canonicalJson item :: canonicalItems items

def canonicalMembers : List (String × JsValue) → List (String × List Char)
  | [] => []
  | (name, value) :: fields =>
    if value.isUndefined then canonicalMembers fields
    else (name, canonicalJson value) :: canonicalMembers fields

end

/-- The members that are not `undefined`. -/
def given (fields : List (String × JsValue)) : List (String × JsValue) :=
  fields.filter fun field => !field.2.isUndefined

theorem canonicalItems_eq (items : List JsValue) :
    canonicalItems items = items.map canonicalJson := by
  induction items with
  | nil => rfl
  | cons item items ih => rw [canonicalItems, ih, List.map_cons]

theorem canonicalMembers_eq (fields : List (String × JsValue)) : canonicalMembers fields =
    (given fields).map fun field => (field.1, canonicalJson field.2) := by
  induction fields with
  | nil => rfl
  | cons field fields ih =>
    rw [canonicalMembers, ih, given, given, List.filter_cons]
    cases field.2.isUndefined <;> rfl

/-- What is done to the values of entries leaves their order. -/
theorem map_sortNames {α β : Type} (f : α → β) (entries : List (String × α)) :
    (sortNames entries).map (fun entry => (entry.1, f entry.2)) =
      sortNames (entries.map fun entry => (entry.1, f entry.2)) :=
  List.map_insertionSort _ _ (fun entry : String × α => (entry.1, f entry.2)) entries
    fun _ _ _ _ => Iff.rfl

theorem canonicalJson_object (fields : List (String × JsValue)) :
    canonicalJson (object fields) = '\x7b' :: ([','].intercalate ((sortNames (given fields)).map
      fun field => Json.quote field.1 ++ ':' :: canonicalJson field.2) ++ ['\x7d']) := by
  rw [canonicalJson, canonicalMembers_eq, ← map_sortNames, List.map_map]
  rfl

/-! ## What is written of data -/

theorem toJson_of_isData {v : JsValue} (h : IsData v) : toJson v = some (stored v) := by
  cases v with
  | undefined | bigint | function | date => exact h.elim
  | _ => rfl

variable {fields : List (String × JsValue)}

theorem isData_given (h : IsData (object fields)) : ∀ field ∈ given fields, IsData field.2 := by
  intro field hfield
  obtain ⟨hmem, hgiven⟩ := List.mem_filter.mp hfield
  refine (isData_object.mp h field hmem).resolve_left fun hundefined => ?_
  rw [hundefined] at hgiven
  cases hgiven

/-- Of data, the members that are stored are those that are given. -/
theorem fieldsToJson_eq : ∀ {fields : List (String × JsValue)},
    (∀ field ∈ fields, field.2 = undefined ∨ IsData field.2) →
      fieldsToJson fields = (given fields).map fun field => (field.1, stored field.2)
  | [], _ => rfl
  | (name, value) :: fields, h => by
    have ih := fieldsToJson_eq fun field hfield => h field (List.mem_cons_of_mem _ hfield)
    rw [fieldsToJson, ih, given, given]
    rcases h (name, value) List.mem_cons_self with hundefined | hdata
    · obtain rfl : value = undefined := hundefined
      rfl
    · have hkept : value.isUndefined = false := by
        cases value with
        | undefined => exact hdata.elim
        | _ => rfl
      have hvalue : toJson value = some (stored value) := toJson_of_isData hdata
      rw [List.filter_cons_of_pos (by rw [hkept]; rfl), hvalue]
      rfl

theorem stored_array (items : List JsValue) : stored (array items) = .array (items.map stored) := by
  rw [stored, toJson, itemsToJson_eq, Option.getD_some]

theorem stored_object (h : IsData (object fields)) : stored (object fields) =
      .object ((given fields).map fun field => (field.1, stored field.2)) := by
  rw [stored, toJson, fieldsToJson_eq (isData_object.mp h), Option.getD_some]

/-- **Of data, what is written is its JSON**, normalised. -/
theorem canonicalJson_eq_chars (v : JsValue) : IsData v →
    canonicalJson v = Json.chars (Json.normalize (stored v)) := by
  induction v using parts_induction with
  | step v ih =>
    intro h
    cases v with
    | array items =>
      have hitems : items.map canonicalJson =
          ((items.map stored).map Json.normalize).map Json.chars := by
        rw [List.map_map, List.map_map]
        exact List.map_congr_left fun item hitem =>
          ih item hitem (isData_array.mp h item hitem)
      rw [canonicalJson, canonicalItems_eq, stored_array, Json.normalize, Json.normalizeItems_eq,
        Json.chars, Json.charsItems_eq, hitems]
    | object fields =>
      have hsort : (Json.normalizeFields ((given fields).map fun field =>
          (field.1, stored field.2))).insertionSort Json.NameLe =
            (sortNames (given fields)).map fun field =>
              (field.1, Json.normalize (stored field.2)) := by
        rw [Json.normalizeFields_eq, List.map_map]
        exact (map_sortNames (fun value => Json.normalize (stored value)) (given fields)).symm
      rw [canonicalJson_object, stored_object h, Json.normalize, hsort, Json.chars,
        Json.charsFields_eq, List.map_map]
      have hmembers : (sortNames (given fields)).map
          (fun field => Json.quote field.1 ++ ':' :: canonicalJson field.2) =
            (sortNames (given fields)).map ((fun field : String × Json =>
              Json.quote field.1 ++ ':' :: Json.chars field.2) ∘
                fun field => (field.1, Json.normalize (stored field.2))) := by
        refine List.map_congr_left fun field hfield => ?_
        have hgiven : field ∈ given fields :=
          (List.perm_insertionSort _ (given fields)).mem_iff.mp hfield
        have hpart : field.2 ∈ fields.map Prod.snd :=
          List.mem_map_of_mem (List.mem_filter.mp hgiven).1
        rw [ih field.2 hpart (isData_given h field hgiven)]
        rfl
      rw [hmembers]
    | undefined | bigint | function | date => exact h.elim
    | _ => rfl

/-- What is stored of data is well formed. -/
theorem wellFormed_stored (v : JsValue) : Formed v → IsData v → (stored v).WellFormed := by
  induction v using parts_induction with
  | step v ih =>
    intro hformed h
    cases v with
    | array items =>
      rw [stored_array, Json.wellFormed_array]
      intro j hj
      obtain ⟨item, hitem, rfl⟩ := List.mem_map.mp hj
      exact ih item hitem (formed_array.mp hformed item hitem) (isData_array.mp h item hitem)
    | object fields =>
      rw [Formed] at hformed
      rw [stored_object h, Json.wellFormed_object, List.map_map]
      refine ⟨hformed.1.sublist (List.filter_sublist.map _), fun field hfield => ?_⟩
      obtain ⟨field, hgiven, rfl⟩ := List.mem_map.mp hfield
      have hmem : field ∈ fields := (List.mem_filter.mp hgiven).1
      exact ih field.2 (List.mem_map_of_mem hmem) (formedFields_iff.mp hformed.2 field hmem)
        (isData_given h field hgiven)
    | number digits => exact hformed
    | undefined | bigint | function | date => exact h.elim
    | _ => trivial

/-- **Data is written alike exactly where it is the same as JSON.** -/
theorem canonicalJson_inj {v w : JsValue} (hv : Formed v) (hw : Formed w) (hdv : IsData v)
    (hdw : IsData w) : canonicalJson v = canonicalJson w ↔ (stored v).Same (stored w) := by
  rw [canonicalJson_eq_chars v hdv, canonicalJson_eq_chars w hdw,
    Json.chars_normalize_inj (wellFormed_stored v hv hdv) (wellFormed_stored w hw hdw)]

/-! ## What is read back -/

mutual

/-- What is read back is data. -/
theorem isData_ofJson : ∀ j : Json, IsData (ofJson j)
  | .null => trivial
  | .bool _ => trivial
  | .number _ => trivial
  | .text _ => trivial
  | .array items => isData_itemsOfJson items
  | .object fields => isData_fieldsOfJson fields

theorem isData_itemsOfJson : ∀ items : List Json, IsDataItems (itemsOfJson items)
  | [] => trivial
  | item :: items => ⟨isData_ofJson item, isData_itemsOfJson items⟩

theorem isData_fieldsOfJson : ∀ fields : List (String × Json), IsDataFields (fieldsOfJson fields)
  | [] => trivial
  | (_, value) :: fields => ⟨Or.inr (isData_ofJson value), isData_fieldsOfJson fields⟩

end

theorem stored_ofJson (j : Json) : stored (ofJson j) = j := by
  rw [stored, toJson_ofJson, Option.getD_some]

/-- **JSON is written alike exactly where it is the same.** -/
theorem canonicalJson_ofJson_inj {j j' : Json} (h : j.WellFormed) (h' : j'.WellFormed) :
    canonicalJson (ofJson j) = canonicalJson (ofJson j') ↔ j.Same j' := by
  rw [canonicalJson_eq_chars _ (isData_ofJson j), canonicalJson_eq_chars _ (isData_ofJson j'),
    stored_ofJson, stored_ofJson, Json.chars_normalize_inj h h']

/-- A member read back is data, or is not there. -/
theorem isData_member_ofJson (name : String) (fields : List (String × Json)) :
    member name (ofJson (.object fields)) = undefined ∨
      IsData (member name (ofJson (.object fields))) := by
  rw [member_ofJson]
  cases (Json.object fields).field? name with
  | none => exact Or.inl rfl
  | some j => exact Or.inr (isData_ofJson j)

/-! ## Members that may be left out -/

/-- A member that may be left out. -/
def optional {α : Type} (write : α → JsValue) : Option α → JsValue
  | some value => write value
  | none => undefined

def texts (values : List String) : JsValue := array (values.map text)

theorem isData_optional {α : Type} {write : α → JsValue} (h : ∀ a, IsData (write a))
    (value : Option α) : optional write value = undefined ∨ IsData (optional write value) := by
  cases value with
  | none => exact Or.inl rfl
  | some a => exact Or.inr (h a)

theorem formed_optional {α : Type} {write : α → JsValue} (h : ∀ a, Formed (write a))
    (value : Option α) : Formed (optional write value) := by
  cases value with
  | none => trivial
  | some a => exact h a

theorem isData_texts (values : List String) : IsData (texts values) := by
  rw [texts, isData_array]
  intro item hitem
  obtain ⟨value, -, rfl⟩ := List.mem_map.mp hitem
  trivial

theorem formed_texts (values : List String) : Formed (texts values) := by
  rw [texts, formed_array]
  intro item hitem
  obtain ⟨value, -, rfl⟩ := List.mem_map.mp hitem
  trivial

end JsValue

/-! ## Jobs -/

/-- An entitlement, as a job carries it along. -/
structure EntitlementProjection where
  revision : String
  allowedCatalogModelIds : List String
  allowedQualityTiers : List String
  availableSupplyPoolIds : List String
  overageMode : String

structure JobSchedulingPolicy where
  queuePriority : Int
  workspaceConcurrencyLimit : Int
  entitlementProjection : Option EntitlementProjection

structure DurableJobInput where
  jobId : String
  workspaceId : String
  kind : String
  runAt : Option String
  payload : JsValue
  scheduling : Option JobSchedulingPolicy
  formed : payload.Formed

/-- A `JobRuntimeError`, or the `DataCloneError` of `structuredClone`. -/
inductive EnvelopeError
  | runtime (code : JobRuntimeErrorCode) (message : String)
  | dataClone
  deriving DecidableEq

structure DurableJobEnvelope where
  job : DurableJobInput
  fingerprint : String
  enqueuedAt : String

namespace JsValue

def isPlainObject : JsValue → Bool
  | object _ => true
  | _ => false

end JsValue

open JsValue

def EntitlementProjection.toValue (projection : EntitlementProjection) : JsValue :=
  object [("revision", text projection.revision),
    ("allowedCatalogModelIds", texts projection.allowedCatalogModelIds),
    ("allowedQualityTiers", texts projection.allowedQualityTiers),
    ("availableSupplyPoolIds", texts projection.availableSupplyPoolIds),
    ("overageMode", text projection.overageMode)]

def JobSchedulingPolicy.toValue (scheduling : JobSchedulingPolicy) : JsValue :=
  object [("queuePriority", number (toString scheduling.queuePriority)),
    ("workspaceConcurrencyLimit", number (toString scheduling.workspaceConcurrencyLimit)),
    ("entitlementProjection",
      optional EntitlementProjection.toValue scheduling.entitlementProjection)]

namespace DurableJobInput

/-- The members of a job. -/
def members (input : DurableJobInput) : List (String × JsValue) :=
  [("jobId", text input.jobId), ("workspaceId", text input.workspaceId), ("kind", text input.kind),
    ("runAt", optional text input.runAt), ("payload", input.payload),
    ("scheduling", optional JobSchedulingPolicy.toValue input.scheduling)]

def toValue (input : DurableJobInput) : JsValue := object input.members

/-- `input.runAt`, where it is truthy. -/
def givenRunAt (input : DurableJobInput) : Option String := input.runAt.filter (· ≠ "")

def validateDurableJobInput (host : Host) (input : DurableJobInput) :
    Except EnvelopeError Unit := do
  if Text.isBlank input.jobId ∨ Text.isBlank input.workspaceId ∨ Text.isBlank input.kind then
    throw (.runtime .INVALID_JOB "jobId, workspaceId, and kind are required.")
  if ¬ input.payload.isPlainObject then
    throw (.runtime .INVALID_JOB "Job payload must be a plain JSON object.")
  if input.givenRunAt.any fun runAt => (host.dateParse runAt).isNone then
    throw (.runtime .INVALID_JOB "runAt must be an ISO date.")
  if input.scheduling.any fun scheduling =>
      scheduling.queuePriority < 0 ∨ scheduling.workspaceConcurrencyLimit < 1 then
    throw (.runtime .INVALID_JOB
      "Job scheduling priority and workspace concurrency must be valid integers.")
  if ¬ input.payload.serializable then
    throw (.runtime .INVALID_JOB "Job payload must be JSON serializable.")

/-- The job with its start written as `toISOString` writes it. -/
def atInstant (host : Host) (input : DurableJobInput) : DurableJobInput :=
  { input with runAt := input.givenRunAt.map fun runAt => isoText (host.instant runAt) }

end DurableJobInput

section Fingerprints

variable (sha256 : List Char → String) (host : Host)

def fingerprintValue (value : JsValue) : String := sha256 (canonicalJson value)

namespace DurableJobInput

def makeDurableJobEnvelope (input : DurableJobInput) (enqueuedAt : TimeValue) :
    Except EnvelopeError DurableJobEnvelope := do
  validateDurableJobInput host input
  if ¬ input.payload.cloneable then throw .dataClone  -- `structuredClone`
  let normalized := input.atInstant host
  return {
    job := normalized
    fingerprint := fingerprintValue sha256 normalized.toValue
    enqueuedAt := isoText enqueuedAt.val }

end DurableJobInput

/-- An envelope as it is stored. -/
def DurableJobEnvelope.toValue (envelope : DurableJobEnvelope) : JsValue :=
  object (envelope.job.members ++
    [("fingerprint", text envelope.fingerprint), ("enqueuedAt", text envelope.enqueuedAt)])

/-- The job an envelope holds, by its members. -/
def jobOf (envelope : JsValue) : JsValue :=
  object (["jobId", "workspaceId", "kind", "runAt", "payload", "scheduling"].map fun name =>
    (name, member name envelope))

/-- **The fingerprint of an envelope that was stored and read back**, computed again. -/
def DurableJobEnvelope.recomputed (envelope : DurableJobEnvelope) : String :=
  fingerprintValue sha256 (jobOf (ofJson (stored envelope.toValue)))

end Fingerprints

/-- Two jobs are equal as JSON, whatever the order of their members. -/
def DurableJobInput.EqualAsJson (input input' : DurableJobInput) : Prop :=
  (stored input.toValue).Same (stored input'.toValue)

/-! ## Jobs of data -/

theorem EntitlementProjection.isData (projection : EntitlementProjection) :
    IsData projection.toValue := by
  simp [EntitlementProjection.toValue, isData_object, isData_texts, IsData]

theorem EntitlementProjection.formed (projection : EntitlementProjection) :
    Formed projection.toValue := by
  simp [EntitlementProjection.toValue, Formed, FormedFields, formed_texts]

theorem JobSchedulingPolicy.isData (scheduling : JobSchedulingPolicy) :
    IsData scheduling.toValue := by
  have hprojection := isData_optional EntitlementProjection.isData scheduling.entitlementProjection
  simp [JobSchedulingPolicy.toValue, isData_object, IsData, hprojection]

theorem JobSchedulingPolicy.formed (scheduling : JobSchedulingPolicy) :
    Formed scheduling.toValue := by
  have hprojection := formed_optional EntitlementProjection.formed scheduling.entitlementProjection
  simp [JobSchedulingPolicy.toValue, Formed, FormedFields, hprojection, Json.isNumeral_int]

namespace DurableJobInput

theorem isData_toValue {input : DurableJobInput} (h : IsData input.payload) :
    IsData input.toValue := by
  have hrunAt := @isData_optional _ text (fun _ => trivial) input.runAt
  have hscheduling := isData_optional JobSchedulingPolicy.isData input.scheduling
  simp [toValue, members, isData_object, IsData, h, hrunAt, hscheduling]

theorem formed_toValue (input : DurableJobInput) : Formed input.toValue := by
  have hrunAt := @formed_optional _ text (fun _ => trivial) input.runAt
  have hscheduling := formed_optional JobSchedulingPolicy.formed input.scheduling
  simp [toValue, members, Formed, FormedFields, input.formed, hrunAt, hscheduling]

end DurableJobInput

/-- Members that are stored alike make objects that are stored alike. -/
theorem JsValue.fieldsToJson_map_congr {f g : String → JsValue} : ∀ {names : List String},
    (∀ name ∈ names, toJson (f name) = toJson (g name)) →
      fieldsToJson (names.map fun name => (name, f name)) =
        fieldsToJson (names.map fun name => (name, g name))
  | [], _ => rfl
  | name :: names, h => by
    rw [List.map_cons, List.map_cons, fieldsToJson, fieldsToJson, h name List.mem_cons_self,
      fieldsToJson_map_congr fun other hother => h other (List.mem_cons_of_mem name hother)]

namespace DurableJobEnvelope

theorem members_nodup (envelope : DurableJobEnvelope) : ((envelope.job.members ++
    [("fingerprint", text envelope.fingerprint), ("enqueuedAt", text envelope.enqueuedAt)]).map
      Prod.fst).Nodup := by
  simp [DurableJobInput.members]

/-- **A job read back is stored as the job was.** -/
theorem stored_jobOf (envelope : DurableJobEnvelope) :
    stored (jobOf (ofJson (stored envelope.toValue))) = stored envelope.job.toValue := by
  have hown : jobOf envelope.toValue = envelope.job.toValue := by
    simp [jobOf, toValue, DurableJobInput.toValue, DurableJobInput.members, member]
  rw [← hown, jobOf, jobOf, stored, stored, stored, toJson, toJson, toValue, toJson,
    Option.getD_some, Option.getD_some, Option.getD_some]
  exact congrArg Json.object (fieldsToJson_map_congr fun name _ =>
    toJson_member_ofJson name (members_nodup envelope))

theorem isData_jobOf (envelope : DurableJobEnvelope) :
    IsData (jobOf (ofJson (stored envelope.toValue))) := by
  rw [jobOf, isData_object]
  intro field hfield
  obtain ⟨name, -, rfl⟩ := List.mem_map.mp hfield
  exact isData_member_ofJson name _

/-- **The fingerprint of a job of data survives storing.** -/
theorem recomputed_eq (sha256 : List Char → String) {envelope : DurableJobEnvelope}
    (hdata : IsData envelope.job.payload)
    (hfingerprint : envelope.fingerprint = fingerprintValue sha256 envelope.job.toValue) :
    envelope.recomputed sha256 = envelope.fingerprint := by
  rw [recomputed, hfingerprint, fingerprintValue, fingerprintValue,
    canonicalJson_eq_chars _ (isData_jobOf envelope), stored_jobOf,
    canonicalJson_eq_chars _ (DurableJobInput.isData_toValue hdata)]

end DurableJobEnvelope

namespace DurableJobInput

variable {host : Host} {input input' : DurableJobInput}

/-- An accepted job of data is given an envelope. -/
theorem makeDurableJobEnvelope_eq (sha256 : List Char → String) (enqueuedAt : TimeValue)
    (hvalid : validateDurableJobInput host input = .ok ()) (hdata : IsData input.payload) :
    makeDurableJobEnvelope sha256 host input enqueuedAt = .ok {
      job := input.atInstant host
      fingerprint := fingerprintValue sha256 (input.atInstant host).toValue
      enqueuedAt := isoText enqueuedAt.val } := by
  rw [makeDurableJobEnvelope, hvalid, cloneable_of_isData _ hdata]
  rfl

/-- Fingerprints of data are those of jobs that are equal as JSON. -/
theorem fingerprintValue_inj {sha256 : List Char → String} (hdata : IsData input.payload)
    (hdata' : IsData input'.payload) (hsha256 : Set.InjOn sha256
      {canonicalJson input.toValue, canonicalJson input'.toValue}) :
    fingerprintValue sha256 input.toValue = fingerprintValue sha256 input'.toValue ↔
      EqualAsJson input input' := by
  rw [EqualAsJson, ← canonicalJson_inj (formed_toValue input) (formed_toValue input')
    (isData_toValue hdata) (isData_toValue hdata'), fingerprintValue, fingerprintValue]
  exact hsha256.eq_iff (Set.mem_insert _ _) (Set.mem_insert_of_mem _ rfl)

/-- **What is asked of fingerprints**: accepted jobs are given envelopes, these have one fingerprint
exactly where the jobs are the same, and each fingerprint is found again in the envelope that was
stored and read back. -/
def Characterised (sha256 : List Char → String) (host : Host) (same : Prop)
    (input input' : DurableJobInput) : Prop :=
  ∀ enqueuedAt enqueuedAt' : TimeValue, ∃ envelope envelope',
    makeDurableJobEnvelope sha256 host input enqueuedAt = .ok envelope ∧
    makeDurableJobEnvelope sha256 host input' enqueuedAt' = .ok envelope' ∧
    (envelope.fingerprint = envelope'.fingerprint ↔ same) ∧
    envelope.recomputed sha256 = envelope.fingerprint ∧
    envelope'.recomputed sha256 = envelope'.fingerprint

/-- **Fingerprints characterise jobs of data**: two that are accepted have one fingerprint exactly
where they are equal as JSON, their starts compared as instants. -/
theorem fingerprints_characterise (sha256 : List Char → String)
    (hvalid : validateDurableJobInput host input = .ok ())
    (hvalid' : validateDurableJobInput host input' = .ok ())
    (hdata : IsData input.payload) (hdata' : IsData input'.payload)
    (hsha256 : Set.InjOn sha256 {canonicalJson (input.atInstant host).toValue,
      canonicalJson (input'.atInstant host).toValue}) :
    Characterised sha256 host (EqualAsJson (input.atInstant host) (input'.atInstant host))
      input input' := by
  intro enqueuedAt enqueuedAt'
  refine ⟨_, _, makeDurableJobEnvelope_eq sha256 enqueuedAt hvalid hdata,
    makeDurableJobEnvelope_eq sha256 enqueuedAt' hvalid' hdata', ?_, ?_, ?_⟩
  · have hjob : IsData (input.atInstant host).payload := hdata
    have hjob' : IsData (input'.atInstant host).payload := hdata'
    exact fingerprintValue_inj hjob hjob' hsha256
  · exact DurableJobEnvelope.recomputed_eq sha256 hdata rfl
  · exact DurableJobEnvelope.recomputed_eq sha256 hdata' rfl

/-! ## One job, written in two ways -/

/-- The review of a note, at the start of the year. -/
def newYear (runAt : String) (fields : List (String × JsValue))
    (formed : Formed (object fields)) : DurableJobInput where
  jobId := "job-1"
  workspaceId := "shop"
  kind := "review"
  runAt := some runAt
  payload := object fields
  scheduling := none
  formed := formed

theorem newYear_valid {runAt : String} (formed : Formed (object fields)) (hgiven : runAt ≠ "")
    (hread : (isoHost.dateParse runAt).isSome) (hfields : serializableFields fields = true) :
    validateDurableJobInput isoHost (newYear runAt fields formed) = .ok () := by
  have hsome : (isoHost.dateParse runAt).isNone = false := by
    rw [← Option.not_isSome, hread]
    rfl
  have hrunAt : (newYear runAt fields formed).givenRunAt = some runAt := by
    simp [givenRunAt, newYear, hgiven]
  have hblank : Text.isBlank "job-1" = false ∧ Text.isBlank "shop" = false ∧
      Text.isBlank "review" = false := by decide
  rw [validateDurableJobInput, hrunAt]
  simp [newYear, hblank, hsome, isPlainObject, serializable, hfields]

def reviewFields : List (String × JsValue) :=
  [("note", text "spring"), ("rating", number "5")]

def reviewFields' : List (String × JsValue) :=
  [("rating", number "5"), ("photo", undefined), ("note", text "spring")]

theorem isNumeral_five : Json.IsNumeral "5" := Json.isNumeral_repr 5

theorem formed_review : Formed (object reviewFields) := by
  simp [reviewFields, Formed, FormedFields, isNumeral_five]

theorem formed_review' : Formed (object reviewFields') := by
  simp [reviewFields', Formed, FormedFields, isNumeral_five]

/-- The job with its members in order, and again with one more that is `undefined`. -/
theorem fingerprints_characterise_newYear :
    Characterised
      (fun _ => "11f2f696c9f15257d6518c5ebdc605ce52c615117dccaf8ca454e10dcab9cdce") isoHost
      (EqualAsJson
        ((newYear "2026-01-01T00:00:00.000Z" reviewFields formed_review).atInstant isoHost)
        ((newYear "+002026-01-01T00:00:00.000Z" reviewFields' formed_review').atInstant isoHost))
      (newYear "2026-01-01T00:00:00.000Z" reviewFields formed_review)
      (newYear "+002026-01-01T00:00:00.000Z" reviewFields' formed_review') := by
  refine fingerprints_characterise _ (newYear_valid _ (by decide) (by decide +kernel) rfl)
    (newYear_valid _ (by decide) (by decide +kernel) rfl) ?_ ?_ ?_
  · simp [newYear, reviewFields, isData_object, IsData]
  · simp [newYear, reviewFields', isData_object, IsData]
  · have hsame : canonicalJson ((newYear "2026-01-01T00:00:00.000Z" reviewFields
        formed_review).atInstant isoHost).toValue =
          canonicalJson ((newYear "+002026-01-01T00:00:00.000Z" reviewFields'
            formed_review').atInstant isoHost).toValue := by decide +kernel
    rw [hsame, Set.pair_eq_singleton]
    exact Set.injOn_singleton _ _

/-- **Two accepted jobs that write their start in two ways have one fingerprint.** -/
theorem not_characterised : ¬ ∀ (sha256 : List Char → String) (host : Host)
    (input input' : DurableJobInput), Function.Injective sha256 →
      validateDurableJobInput host input = .ok () →
      validateDurableJobInput host input' = .ok () →
        Characterised sha256 host (EqualAsJson input input') input input' := by
  intro h
  let input := newYear "2026-01-01T00:00:00.000Z" reviewFields formed_review
  let input' := newYear "+002026-01-01T00:00:00.000Z" reviewFields formed_review
  have hvalid : validateDurableJobInput isoHost input = .ok () :=
    newYear_valid _ (by decide) (by decide +kernel) rfl
  have hvalid' : validateDurableJobInput isoHost input' = .ok () :=
    newYear_valid _ (by decide) (by decide +kernel) rfl
  have hdata : IsData input.payload := by
    simp [input, newYear, reviewFields, isData_object, IsData]
  have hdata' : IsData input'.payload := hdata
  have hnow : -maxTime ≤ (0 : Int) ∧ (0 : Int) ≤ maxTime := by decide
  obtain ⟨envelope, envelope', henvelope, henvelope', hiff, -⟩ :=
    h String.ofList isoHost input input' (fun _ _ => String.ofList_injective) hvalid hvalid'
      ⟨0, hnow⟩ ⟨0, hnow⟩
  rw [makeDurableJobEnvelope_eq _ _ hvalid hdata, Except.ok.injEq] at henvelope
  rw [makeDurableJobEnvelope_eq _ _ hvalid' hdata', Except.ok.injEq] at henvelope'
  have hequal : EqualAsJson input input' := by
    have hrunAt : (input.atInstant isoHost).runAt = (input'.atInstant isoHost).runAt := by
      decide +kernel
    have hjob : input.atInstant isoHost = input'.atInstant isoHost :=
      congrArg (fun runAt => ({ input with runAt := runAt } : DurableJobInput)) hrunAt
    rw [← hiff, ← henvelope, ← henvelope', hjob]
  have hwritten := (canonicalJson_inj (formed_toValue input) (formed_toValue input')
    (isData_toValue hdata) (isData_toValue hdata')).mpr hequal
  revert hwritten
  decide +kernel

end DurableJobInput

end MeiyeAgent
