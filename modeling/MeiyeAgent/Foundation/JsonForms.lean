import MeiyeAgent.Foundation.Json
import MeiyeAgent.Machinery.Text
import Mathlib.Data.List.Forall2
import Mathlib.Data.List.Nodup
import Mathlib.Data.Rat.Defs

/-!
# Foundation/JsonForms — how a value is written as JSON, whatever the order of the fields

A `Form` says which JSON values write a value.  An object writes a record when each field reads as
the record's; the order of the fields is left open, and so are further fields.

* `Form.unique` — **what is written is one value**.
* `Form.writes_write` — every value is written somehow.
-/

namespace MeiyeAgent

/-- **How the values of a type are written**: each is, and what is written is one value. -/
structure Form (α : Type) where
  write : α → Json
  Writes : α → Json → Prop
  writes_write : ∀ a, Writes a (write a)
  unique : ∀ {a b j}, Writes a j → Writes b j → a = b

namespace Form

variable {α β : Type}

/-- A form that writes each value one way. -/
def ofInjective (write : α → Json) (h : Function.Injective write) : Form α where
  write := write
  Writes a j := j = write a
  writes_write _ := rfl
  unique ha hb := h (ha.symm.trans hb)

def text : Form String := ofInjective .text fun _ _ => Json.text.inj

def bool : Form Bool := ofInjective .bool fun _ _ => Json.bool.inj

/-- An enumeration, by the names of its members. -/
def enum (name : α → String) (h : Function.Injective name := by
    intro a b h
    cases a <;> cases b <;> first | rfl | exact absurd h (by decide)) : Form α :=
  ofInjective (fun a => .text (name a)) fun _ _ hab => h (Json.text.inj hab)

def number (numberText : α → String) (h : Function.Injective numberText) : Form α :=
  ofInjective (fun a => .number (numberText a)) fun _ _ hab => h (Json.number.inj hab)

/-- An array, item by item. -/
def list (form : Form α) : Form (List α) where
  write as := .array (as.map form.write)
  Writes as j := ∃ items, j = .array items ∧ List.Forall₂ form.Writes as items
  writes_write as := ⟨_, rfl, List.forall₂_map_right_iff.mpr
    (List.forall₂_same.mpr fun a _ => form.writes_write a)⟩
  unique := by
    rintro as bs j ⟨items, rfl, has⟩ ⟨items', heq, hbs⟩
    obtain rfl := Json.array.inj heq
    have hunique : Relator.LeftUnique form.Writes := fun _ _ _ ha hb => form.unique ha hb
    exact List.left_unique_forall₂' hunique has hbs

end Form

/-- **A field of a record**, which may be absent. -/
structure FormField (α : Type) where
  name : String
  write : α → Option Json
  Writes : α → Option Json → Prop
  Same : α → α → Prop
  writes_write : ∀ a, Writes a (write a)
  unique : ∀ {a b o}, Writes a o → Writes b o → Same a b

namespace FormField

variable {α β : Type}

def required (name : String) (form : Form β) (value : α → β) : FormField α where
  name := name
  write a := some (form.write (value a))
  Writes a o := ∃ j, o = some j ∧ form.Writes (value a) j
  Same a b := value a = value b
  writes_write a := ⟨_, rfl, form.writes_write (value a)⟩
  unique := by
    rintro a b o ⟨j, rfl, ha⟩ ⟨j', heq, hb⟩
    obtain rfl := Option.some.inj heq
    exact form.unique ha hb

def optional (name : String) (form : Form β) (value : α → Option β) : FormField α where
  name := name
  write a := (value a).map form.write
  Writes a o := Option.Rel form.Writes (value a) o
  Same a b := value a = value b
  writes_write a := by
    cases value a with
    | none => exact .none
    | some v => exact .some (form.writes_write v)
  unique := by
    intro a b o ha hb
    generalize value a = va at ha
    generalize value b = vb at hb
    cases ha with
    | none => cases hb; rfl
    | some ha =>
      cases hb with
      | some hb => rw [form.unique ha hb]

@[simp] theorem name_required (name : String) (form : Form β) (value : α → β) :
    (required name form value).name = name := rfl

@[simp] theorem name_optional (name : String) (form : Form β) (value : α → Option β) :
    (optional name form value).name = name := rfl

end FormField

/-! ## Records -/

/-- The fields of a record as they are written. -/
def writeFields {α : Type} (fields : List (FormField α)) (a : α) : List (String × Json) :=
  fields.filterMap fun field => (field.write a).map (field.name, ·)

/-- Of fields of distinct names, each is read back. -/
theorem field?_writeFields {α : Type} {a : α} : ∀ {fields : List (FormField α)},
    (fields.map (·.name)).Nodup → ∀ field ∈ fields,
      (Json.object (writeFields fields a)).field? field.name = field.write a
  | [], _, _, hmem => absurd hmem List.not_mem_nil
  | f :: fields, hnodup, field, hmem => by
    obtain ⟨hf, hfields⟩ := List.nodup_cons.mp hnodup
    rcases List.mem_cons.mp hmem with rfl | hmem
    · cases hwrite : field.write a with
      | some j => simp [Json.field?, writeFields, hwrite]
      | none =>
        -- no later field has the name
        have hlater : ∀ e ∈ writeFields fields a, e.1 ≠ field.name := by
          intro e he heq
          obtain ⟨f', hf', hsome⟩ := List.mem_filterMap.mp he
          obtain ⟨j, -, rfl⟩ := Option.map_eq_some_iff.mp hsome
          exact hf (List.mem_map.mpr ⟨f', hf', heq⟩)
        have hrest : writeFields (field :: fields) a = writeFields fields a := by
          rw [writeFields, List.filterMap_cons_none (by rw [hwrite]; rfl)]
          rfl
        rw [hrest, Json.field?, List.find?_eq_none.mpr fun e he => by simpa using hlater e he]
        rfl
    · have hne : f.name ≠ field.name := fun heq => hf (List.mem_map.mpr ⟨field, hmem, heq.symm⟩)
      rw [← field?_writeFields hfields field hmem]
      cases hwrite : f.write a with
      | some j => simp [Json.field?, writeFields, hwrite, hne]
      | none => simp [Json.field?, writeFields, hwrite]

/-- **An object**: each field is written, under its name; a record is known by its fields. -/
def Form.object {α : Type} (fields : List (FormField α))
    (nodup : (fields.map (·.name)).Nodup := by
      simp only [List.map_cons, List.map_nil, FormField.name_required, FormField.name_optional]
      decide)
    (ext : ∀ a b, (∀ field ∈ fields, field.Same a b) → a = b := by
      intro a b h
      simp only [List.forall_mem_cons, FormField.required, FormField.optional] at h
      cases a; cases b; simp_all) : Form α where
  write a := .object (writeFields fields a)
  Writes a j := ∀ field ∈ fields, field.Writes a (j.field? field.name)
  writes_write a field hfield := by
    rw [field?_writeFields nodup field hfield]
    exact field.writes_write a
  unique ha hb := ext _ _ fun field hfield => field.unique (ha field hfield) (hb field hfield)

/-- Further fields are not read. -/
theorem Form.object_writes_cons {α : Type} {fields : List (FormField α)}
    {nodup : (fields.map (·.name)).Nodup}
    {ext : ∀ a b, (∀ field ∈ fields, field.Same a b) → a = b} {a : α} {name : String}
    {value : Json} {written : List (String × Json)} (hname : name ∉ fields.map (·.name))
    (h : (Form.object fields nodup ext).Writes a (.object written)) :
    (Form.object fields nodup ext).Writes a (.object ((name, value) :: written)) := by
  intro field hfield
  rw [Json.field?_cons fun heq => hname (List.mem_map.mpr ⟨field, hfield, heq.symm⟩)]
  exact h field hfield

/-! ## Integers -/

/-- The text of an integer. -/
def intText : Int → String
  | .ofNat n => Nat.repr n
  | .negSucc n => "-" ++ Nat.repr (n + 1)

theorem intText_injective : Function.Injective intText := by
  have hdash : ∀ m n : Nat, Nat.repr m ≠ "-" ++ Nat.repr n := by
    intro m n heq
    have hmem : '-' ∈ (Nat.repr m).toList := by
      rw [heq, String.toList_append]
      exact List.mem_append_left _ (by decide)
    rw [Nat.toList_repr] at hmem
    have hdigit := Nat.isDigit_of_mem_toDigits (by decide) (by decide) hmem
    exact absurd hdigit (by decide)
  intro m n heq
  cases m with
  | ofNat m =>
    cases n with
    | ofNat n => exact congrArg Int.ofNat (Nat.repr_inj.mp heq)
    | negSucc n => exact absurd heq (hdash m (n + 1))
  | negSucc m =>
    cases n with
    | ofNat n => exact absurd heq.symm (hdash n (m + 1))
    | negSucc n =>
      have hsucc : m + 1 = n + 1 := Nat.repr_inj.mp ((String.append_right_inj _).mp heq)
      rw [Nat.add_right_cancel hsucc]

/-- The text of a fraction; a whole number is written as one. -/
def fractionText (q : ℚ) : String :=
  if q.den = 1 then intText q.num else intText q.num ++ "/" ++ Nat.repr q.den

theorem fractionText_injective : Function.Injective fractionText := by
  have hdigits : ∀ n : Nat, '/' ∉ (Nat.repr n).toList := by
    intro n hmem
    rw [Nat.toList_repr] at hmem
    exact absurd (Nat.isDigit_of_mem_toDigits (by decide) (by decide) hmem) (by decide)
  have hint : ∀ n : Int, '/' ∉ (intText n).toList := by
    intro n hmem
    cases n with
    | ofNat n => exact hdigits n hmem
    | negSucc n =>
      rw [intText, String.toList_append] at hmem
      rcases List.mem_append.mp hmem with hmem | hmem
      · exact absurd hmem (by decide)
      · exact hdigits _ hmem
  have hbar : ∀ q : ℚ, q.den ≠ 1 → ∀ n : Int, fractionText q ≠ intText n := by
    intro q hq n heq
    refine hint n ?_
    rw [← heq, fractionText, if_neg hq]
    simp
  intro p q heq
  by_cases hp : p.den = 1
  · have hp' : fractionText p = intText p.num := if_pos hp
    by_cases hq : q.den = 1
    · have hq' : fractionText q = intText q.num := if_pos hq
      exact Rat.ext (intText_injective (hp' ▸ hq' ▸ heq)) (hp.trans hq.symm)
    · exact absurd (heq.symm.trans hp') (hbar q hq _)
  · by_cases hq : q.den = 1
    · have hq' : fractionText q = intText q.num := if_pos hq
      exact absurd (heq.trans hq') (hbar p hp _)
    · rw [fractionText, if_neg hp, fractionText, if_neg hq] at heq
      have hchars : (intText p.num).toList ++ '/' :: (Nat.repr p.den).toList =
          (intText q.num).toList ++ '/' :: (Nat.repr q.den).toList := by
        simpa using congrArg String.toList heq
      obtain ⟨hnum, hden⟩ := Text.append_cons_inj (hdigits _) (hdigits _) hchars
      exact Rat.ext (intText_injective (String.toList_inj.mp hnum))
        (Nat.repr_inj.mp (String.toList_inj.mp hden))

def Form.int : Form Int := Form.number intText intText_injective

end MeiyeAgent
