import MeiyeAgent.Foundation.CanonicalJson

/-!
# Foundation/JsValues — values in memory, and what JSON keeps of them

`JSON.stringify` drops what has no JSON form from an object, writes `null` for it in an array, and
writes a date by its own text.  `structuredClone` copies every value but a function.

* `toJson`, `ofJson` — what is stored of a value, and what is read back.
* `IsData` — the values that are JSON already, but for members that are `undefined`.
-/

namespace MeiyeAgent

/-- A value; a finite number is known by its text, a hole of an array reads as `undefined`, and a
`function` stands for a symbol too. -/
inductive JsValue
  | undefined
  | null
  | bool (value : Bool)
  | number (digits : String)
  | notFinite
  | bigint (digits : String)
  | text (value : String)
  | function
  | date (time : Option TimeValue)
  | array (items : List JsValue)
  | object (fields : List (String × JsValue))

namespace JsValue

/-- The values a value holds. -/
def parts : JsValue → List JsValue
  | array items => items
  | object fields => fields.map Prod.snd
  | _ => []

/-- What holds of a value when it holds of its parts holds of every value. -/
theorem parts_induction {P : JsValue → Prop} (step : ∀ v, (∀ w ∈ v.parts, P w) → P v)
    (v : JsValue) : P v := by
  refine step v fun w hw => ?_
  have hsize : sizeOf w < sizeOf v := by
    cases v with
    | array items =>
      have hmem : w ∈ items := hw
      have := List.sizeOf_lt_of_mem hmem
      rw [array.sizeOf_spec]
      omega
    | object fields =>
      obtain ⟨field, hfield, rfl⟩ := List.mem_map.mp hw
      have := List.sizeOf_lt_of_mem hfield
      rw [object.sizeOf_spec]
      obtain ⟨name, value⟩ := field
      rw [Prod.mk.sizeOf_spec] at this
      dsimp only
      omega
    | _ => cases hw
  exact parts_induction step w
termination_by sizeOf v

def isUndefined : JsValue → Bool
  | undefined => true
  | _ => false

/-- `object[name]`. -/
def member (name : String) : JsValue → JsValue
  | object fields => ((fields.find? (·.1 = name)).map (·.2)).getD undefined
  | _ => undefined

/-! ## Storing -/

mutual

/-- `JSON.stringify` returns. -/
def serializable : JsValue → Bool
  | bigint _ => false
  | array items => serializableItems items
  | object fields => serializableFields fields
  | _ => true

def serializableItems : List JsValue → Bool
  | [] => true
  | item :: items => serializable item && serializableItems items

def serializableFields : List (String × JsValue) → Bool
  | [] => true
  | (_, value) :: fields => serializable value && serializableFields fields

end

mutual

/-- `structuredClone` returns, with a copy. -/
def cloneable : JsValue → Bool
  | function => false
  | array items => cloneableItems items
  | object fields => cloneableFields fields
  | _ => true

def cloneableItems : List JsValue → Bool
  | [] => true
  | item :: items => cloneable item && cloneableItems items

def cloneableFields : List (String × JsValue) → Bool
  | [] => true
  | (_, value) :: fields => cloneable value && cloneableFields fields

end

mutual

/-- What `JSON.stringify` keeps of a value it returns on, `none` where that is nothing. -/
def toJson : JsValue → Option Json
  | undefined => none
  | null => some .null
  | bool value => some (.bool value)
  | number digits => some (.number digits)
  | notFinite => some .null
  | bigint _ => none
  | text value => some (.text value)
  | function => none
  | date (some time) => some (.text (isoText time.val))
  | date none => some .null
  | array items => some (.array (itemsToJson items))
  | object fields => some (.object (fieldsToJson fields))

def itemsToJson : List JsValue → List Json
  | [] => []
  | item :: items => (toJson item).getD .null :: itemsToJson items

def fieldsToJson : List (String × JsValue) → List (String × Json)
  | [] => []
  | (name, value) :: fields => (toJson value).toList.map (name, ·) ++ fieldsToJson fields

end

/-- What is written for a value in an array. -/
def stored (v : JsValue) : Json := (toJson v).getD .null

mutual

/-- `JSON.parse` of what was written. -/
def ofJson : Json → JsValue
  | .null => null
  | .bool value => bool value
  | .number digits => number digits
  | .text value => text value
  | .array items => array (itemsOfJson items)
  | .object fields => object (fieldsOfJson fields)

def itemsOfJson : List Json → List JsValue
  | [] => []
  | item :: items => ofJson item :: itemsOfJson items

def fieldsOfJson : List (String × Json) → List (String × JsValue)
  | [] => []
  | (name, value) :: fields => (name, ofJson value) :: fieldsOfJson fields

end

theorem itemsToJson_eq (items : List JsValue) : itemsToJson items = items.map stored := by
  induction items with
  | nil => rfl
  | cons item items ih => rw [itemsToJson, ih, List.map_cons, stored]

theorem fieldsOfJson_eq (fields : List (String × Json)) :
    fieldsOfJson fields = fields.map fun field => (field.1, ofJson field.2) := by
  induction fields with
  | nil => rfl
  | cons field fields ih => rw [fieldsOfJson, ih, List.map_cons]

mutual

/-- **What is read back is stored again as it was.** -/
theorem toJson_ofJson : ∀ j : Json, toJson (ofJson j) = some j
  | .null => rfl
  | .bool _ => rfl
  | .number _ => rfl
  | .text _ => rfl
  | .array items => by rw [ofJson, toJson, itemsToJson_itemsOfJson items]
  | .object fields => by rw [ofJson, toJson, fieldsToJson_fieldsOfJson fields]

theorem itemsToJson_itemsOfJson : ∀ items : List Json, itemsToJson (itemsOfJson items) = items
  | [] => rfl
  | item :: items => by
    rw [itemsOfJson, itemsToJson, toJson_ofJson item, itemsToJson_itemsOfJson items,
      Option.getD_some]

theorem fieldsToJson_fieldsOfJson : ∀ fields : List (String × Json),
    fieldsToJson (fieldsOfJson fields) = fields
  | [] => rfl
  | (name, value) :: fields => by
    rw [fieldsOfJson, fieldsToJson, toJson_ofJson value, fieldsToJson_fieldsOfJson fields,
      Option.toList_some, List.map_singleton, List.singleton_append]

end

/-! ## Members -/

/-- Of a stored object the members are those of the value. -/
theorem field?_fieldsToJson {name : String} : ∀ {fields : List (String × JsValue)},
    (fields.map Prod.fst).Nodup →
      (Json.object (fieldsToJson fields)).field? name = toJson (member name (object fields))
  | [], _ => rfl
  | (other, value) :: fields, hnodup => by
    obtain ⟨hnotMem, hnodup⟩ := List.nodup_cons.mp hnodup
    have ih : (Json.object (fieldsToJson fields)).field? name =
        toJson (member name (object fields)) := field?_fieldsToJson hnodup
    rw [fieldsToJson]
    by_cases heq : other = name
    · subst heq
      have hmember : member other (object ((other, value) :: fields)) = value := by
        simp [member]
      have hnone : member other (object fields) = undefined := by
        have hfind : fields.find? (·.1 = other) = none := by
          simp only [List.find?_eq_none, decide_eq_true_eq]
          rintro field hfield rfl
          exact hnotMem (List.mem_map.mpr ⟨field, hfield, rfl⟩)
        rw [member, hfind]
        rfl
      rw [hnone] at ih
      rw [hmember]
      cases toJson value with
      | none => exact ih
      | some j => simp [Json.field?]
    · have hmember : member name (object ((other, value) :: fields)) =
          member name (object fields) := by
        simp [member, heq]
      rw [hmember, ← ih]
      cases toJson value with
      | none => rfl
      | some j => exact Json.field?_cons heq

theorem member_ofJson (name : String) (fields : List (String × Json)) :
    member name (ofJson (.object fields)) =
      (((Json.object fields).field? name).map ofJson).getD undefined := by
  rw [ofJson, fieldsOfJson_eq, member, Json.field?, List.find?_map, Option.map_map, Option.map_map]
  rfl

variable {fields : List (String × JsValue)}

/-- **A member survives storing**, as JSON. -/
theorem toJson_member_ofJson (name : String) (hnodup : (fields.map Prod.fst).Nodup) :
    toJson (member name (ofJson (.object (fieldsToJson fields)))) =
      toJson (member name (object fields)) := by
  rw [member_ofJson, field?_fieldsToJson hnodup]
  cases toJson (member name (object fields)) with
  | none => rfl
  | some j => exact toJson_ofJson j

/-! ## Values that are JSON already -/

mutual

/-- The numbers of a value are numerals, the names of each object are distinct. -/
def Formed : JsValue → Prop
  | number digits => Json.IsNumeral digits
  | array items => FormedItems items
  | object fields => (fields.map Prod.fst).Nodup ∧ FormedFields fields
  | _ => True

def FormedItems : List JsValue → Prop
  | [] => True
  | item :: items => Formed item ∧ FormedItems items

def FormedFields : List (String × JsValue) → Prop
  | [] => True
  | (_, value) :: fields => Formed value ∧ FormedFields fields

end

mutual

/-- **A value that JSON keeps as it is**; a member may be `undefined`. -/
def IsData : JsValue → Prop
  | undefined => False
  | bigint _ => False
  | function => False
  | date _ => False
  | array items => IsDataItems items
  | object fields => IsDataFields fields
  | _ => True

def IsDataItems : List JsValue → Prop
  | [] => True
  | item :: items => IsData item ∧ IsDataItems items

def IsDataFields : List (String × JsValue) → Prop
  | [] => True
  | (_, value) :: fields => (value = undefined ∨ IsData value) ∧ IsDataFields fields

end

variable {items : List JsValue}

theorem formed_array : Formed (array items) ↔ ∀ item ∈ items, Formed item := by
  rw [Formed]
  induction items with
  | nil => simp [FormedItems]
  | cons item items ih => rw [FormedItems, ih, List.forall_mem_cons]

theorem formedFields_iff : FormedFields fields ↔ ∀ field ∈ fields, Formed field.2 := by
  induction fields with
  | nil => simp [FormedFields]
  | cons field fields ih => rw [FormedFields, ih, List.forall_mem_cons]

theorem isData_array : IsData (array items) ↔ ∀ item ∈ items, IsData item := by
  rw [IsData]
  induction items with
  | nil => simp [IsDataItems]
  | cons item items ih => rw [IsDataItems, ih, List.forall_mem_cons]

theorem isData_object :
    IsData (object fields) ↔ ∀ field ∈ fields, field.2 = undefined ∨ IsData field.2 := by
  rw [IsData]
  induction fields with
  | nil => simp [IsDataFields]
  | cons field fields ih => rw [IsDataFields, ih, List.forall_mem_cons]

theorem cloneable_array :
    cloneable (array items) = true ↔ ∀ item ∈ items, cloneable item = true := by
  rw [cloneable]
  induction items with
  | nil => simp [cloneableItems]
  | cons item items ih => rw [cloneableItems, Bool.and_eq_true, ih, List.forall_mem_cons]

theorem cloneable_object :
    cloneable (object fields) = true ↔ ∀ field ∈ fields, cloneable field.2 = true := by
  rw [cloneable]
  induction fields with
  | nil => simp [cloneableFields]
  | cons field fields ih => rw [cloneableFields, Bool.and_eq_true, ih, List.forall_mem_cons]

/-- Such a value can be copied. -/
theorem cloneable_of_isData (v : JsValue) : IsData v → cloneable v = true := by
  induction v using parts_induction with
  | step v ih =>
    intro h
    cases v with
    | array items =>
      rw [isData_array] at h
      exact cloneable_array.mpr fun item hitem => ih item hitem (h item hitem)
    | object fields =>
      rw [isData_object] at h
      refine cloneable_object.mpr fun field hfield => ?_
      rcases h field hfield with hundefined | hdata
      · rw [hundefined]
        rfl
      · exact ih field.2 (List.mem_map_of_mem hfield) hdata
    | undefined | bigint | function | date => exact h.elim
    | _ => rfl

end JsValue

end MeiyeAgent
