import Mathlib.Data.List.Basic

/-!
# Foundation/Json — JSON values

An object keeps its fields in the order it is written in.
-/

namespace MeiyeAgent

/-- A JSON value; a number is known by its text. -/
inductive Json
  | null
  | bool (value : Bool)
  | number (text : String)
  | text (value : String)
  | array (items : List Json)
  | object (fields : List (String × Json))

namespace Json

mutual

/-- `JSON.stringify`, on values whose texts need no escape. -/
def stringify : Json → String
  | null => "null"
  | bool value => if value then "true" else "false"
  | number digits => digits
  | text value => "\"" ++ value ++ "\""
  | array items => "[" ++ stringifyItems items ++ "]"
  | object fields => "\x7b" ++ stringifyFields fields ++ "\x7d"

def stringifyItems : List Json → String
  | [] => ""
  | [item] => stringify item
  | item :: items => stringify item ++ "," ++ stringifyItems items

def stringifyFields : List (String × Json) → String
  | [] => ""
  | [(name, value)] => "\"" ++ name ++ "\":" ++ stringify value
  | (name, value) :: fields =>
    "\"" ++ name ++ "\":" ++ stringify value ++ "," ++ stringifyFields fields

end

def field? (name : String) : Json → Option Json
  | object fields => (fields.find? (·.1 = name)).map (·.2)
  | _ => none

def text? : Json → Option String
  | text value => some value
  | _ => none

def items : Json → List Json
  | array items => items
  | _ => []

variable {fields : List (String × Json)}

/-- A field of another name in front is not seen. -/
theorem field?_cons {name other : String} {value : Json} (h : other ≠ name) :
    (object ((other, value) :: fields)).field? name =
      (object fields).field? name := by
  simp [field?, h]

/-- Without the fields of one name, the others read as before. -/
theorem field?_filter {name dropped : String} (h : name ≠ dropped) :
    (object (fields.filter (·.1 ≠ dropped))).field? name = (object fields).field? name := by
  have hfind : (fields.filter (·.1 ≠ dropped)).find? (·.1 = name) =
      fields.find? (·.1 = name) := by
    rw [List.find?_filter]
    congr 1
    ext field
    by_cases heq : field.1 = name <;> simp [heq, h]
  rw [field?, field?, hfind]

theorem field?_filter_self {dropped : String} :
    (object (fields.filter (·.1 ≠ dropped))).field? dropped = none := by
  have hfind : (fields.filter (·.1 ≠ dropped)).find? (·.1 = dropped) = none := by
    rw [List.find?_eq_none]
    intro field hfield
    simpa using (List.mem_filter.mp hfield).2
  rw [field?, hfind]
  rfl

end Json

end MeiyeAgent
