import MeiyeAgent.Foundation.JsonPrinting
import MeiyeAgent.Foundation.TextOrder

/-!
# Foundation/CanonicalJson — one text for a value, whatever the order of its fields

`canonicalize` sorts the fields of every object by `localeCompare`; two values are the same as JSON
when they agree once their fields are put in one order.  What is canonical is still the same value,
so equal canonical texts are of the same value: `same_of_canonicalJson`.
-/

namespace MeiyeAgent

namespace Json

/-! ## The order an object is listed in -/

/-- The index a name is the numeral of. -/
def arrayIndex (name : String) : Option Nat :=
  name.toNat?.filter fun n => n < 4294967295 ∧ Nat.repr n = name

/-- **How an object lists its fields**: indices in their order, then the names as they were put. -/
def enumerated (fields : List (String × Json)) : List (String × Json) :=
  sortBy (fun a b => some ((((arrayIndex a.1).getD 0 : Nat) : Int) - (arrayIndex b.1).getD 0))
    (fields.filter fun field => (arrayIndex field.1).isSome) ++
    fields.filter fun field => (arrayIndex field.1).isNone

theorem enumerated_perm (fields : List (String × Json)) : (enumerated fields).Perm fields := by
  have hrest : (fields.filter fun field => (arrayIndex field.1).isNone) =
      fields.filter fun field => !(arrayIndex field.1).isSome :=
    List.filter_congr fun field _ => by cases arrayIndex field.1 <;> rfl
  rw [enumerated, hrest]
  exact ((sortBy_perm _ _).append_right _).trans (List.filter_append_perm _ fields)

/-! ## Canonical values -/

section Canonical

variable (host : Host)

/-- The fields by their names. -/
def sortFields (fields : List (String × Json)) : List (String × Json) :=
  sortBy (fun left right => some (host.localeCompare left.1 right.1)) fields

mutual

def canonicalize : Json → Json
  | null => null
  | bool value => bool value
  | number digits => number digits
  | text value => text value
  | array items => array (canonicalizeItems items)
  | object fields => object (enumerated (sortFields host (canonicalizeFields fields)))

def canonicalizeItems : List Json → List Json
  | [] => []
  | item :: items => canonicalize item :: canonicalizeItems items

def canonicalizeFields : List (String × Json) → List (String × Json)
  | [] => []
  | (name, value) :: fields => (name, canonicalize value) :: canonicalizeFields fields

end

def canonicalJson (j : Json) : String := String.ofList (chars (canonicalize host j))

end Canonical

/-! ## The same as JSON -/

/-- A field sorts no later than another, by its name. -/
def NameLe (a b : String × Json) : Prop := TextLe a.1 b.1

instance : DecidableRel NameLe := fun a b => inferInstanceAs (Decidable (TextLe a.1 b.1))

instance : Std.Total NameLe := ⟨fun a b => Std.Total.total (r := TextLe) a.1 b.1⟩

instance : IsTrans (String × Json) NameLe :=
  ⟨fun a b c h h' => IsTrans.trans (r := TextLe) a.1 b.1 c.1 h h'⟩

mutual

/-- A value with its fields in the order of their names. -/
def normalize : Json → Json
  | null => null
  | bool value => bool value
  | number digits => number digits
  | text value => text value
  | array items => array (normalizeItems items)
  | object fields => object ((normalizeFields fields).insertionSort NameLe)

def normalizeItems : List Json → List Json
  | [] => []
  | item :: items => normalize item :: normalizeItems items

def normalizeFields : List (String × Json) → List (String × Json)
  | [] => []
  | (name, value) :: fields => (name, normalize value) :: normalizeFields fields

end

/-- **Two values are equal as JSON.** -/
def Same (j j' : Json) : Prop := normalize j = normalize j'

section Canonical

variable {host : Host}

theorem canonicalizeFields_eq (fields : List (String × Json)) : canonicalizeFields host fields =
    fields.map fun field => (field.1, canonicalize host field.2) := by
  induction fields with
  | nil => rfl
  | cons field fields ih => rw [canonicalizeFields, ih, List.map_cons]

theorem normalizeFields_eq (fields : List (String × Json)) :
    normalizeFields fields = fields.map fun field => (field.1, normalize field.2) := by
  induction fields with
  | nil => rfl
  | cons field fields ih => rw [normalizeFields, ih, List.map_cons]

variable {fields : List (String × Json)}

/-- Fields under distinct names have one order by their names. -/
theorem sort_names_eq {fields' : List (String × Json)} (hperm : fields.Perm fields')
    (hnodup : (fields.map Prod.fst).Nodup) :
    fields.insertionSort NameLe = fields'.insertionSort NameLe := by
  refine List.Perm.eq_of_pairwise ?_ (List.pairwise_insertionSort NameLe fields)
    (List.pairwise_insertionSort NameLe fields') ((List.perm_insertionSort NameLe fields).trans
      (hperm.trans (List.perm_insertionSort NameLe fields').symm))
  intro a b ha hb hab hba
  have hname : a.1 = b.1 := Std.Antisymm.antisymm (r := TextLe) a.1 b.1 hab hba
  have hmem : a ∈ fields := (List.perm_insertionSort NameLe fields).mem_iff.mp ha
  have hmem' : b ∈ fields :=
    hperm.mem_iff.mpr ((List.perm_insertionSort NameLe fields').mem_iff.mp hb)
  exact List.inj_on_of_nodup_map hnodup hmem hmem' hname

theorem canonicalFields_perm (fields : List (String × Json)) :
    (enumerated (sortFields host (canonicalizeFields host fields))).Perm
      (canonicalizeFields host fields) :=
  (enumerated_perm _).trans (sortBy_perm _ _)

mutual

/-- **A canonical value is the same value.** -/
theorem normalize_canonicalize : ∀ j : Json, WellFormed j →
    normalize (canonicalize host j) = normalize j
  | .null, _ => rfl
  | .bool _, _ => rfl
  | .number _, _ => rfl
  | .text _, _ => rfl
  | .array items, h => by
    rw [WellFormed] at h
    rw [canonicalize, normalize, normalize, normalize_canonicalizeItems items h]
  | .object fields, h => by
    rw [WellFormed] at h
    rw [canonicalize, normalize, normalize]
    have hperm : (normalizeFields
        (enumerated (sortFields host (canonicalizeFields host fields)))).Perm
          (normalizeFields fields) := by
      rw [← normalize_canonicalizeFields fields h.2, normalizeFields_eq, normalizeFields_eq]
      exact (canonicalFields_perm fields).map _
    refine congrArg Json.object (sort_names_eq hperm ?_)
    rw [(hperm.map _).nodup_iff, normalizeFields_eq, List.map_map]
    exact h.1

theorem normalize_canonicalizeItems : ∀ items : List Json, WellFormedItems items →
    normalizeItems (canonicalizeItems host items) = normalizeItems items
  | [], _ => rfl
  | item :: items, h => by
    rw [canonicalizeItems, normalizeItems, normalizeItems, normalize_canonicalize item h.1,
      normalize_canonicalizeItems items h.2]

theorem normalize_canonicalizeFields : ∀ fields : List (String × Json), WellFormedFields fields →
    normalizeFields (canonicalizeFields host fields) = normalizeFields fields
  | [], _ => rfl
  | (name, value) :: fields, h => by
    rw [canonicalizeFields, normalizeFields, normalizeFields, normalize_canonicalize value h.1,
      normalize_canonicalizeFields fields h.2]

end

mutual

theorem wellFormed_canonicalize : ∀ j : Json, WellFormed j → WellFormed (canonicalize host j)
  | .null, h => h
  | .bool _, h => h
  | .number _, h => h
  | .text _, h => h
  | .array items, h => by
    rw [WellFormed] at h
    rw [canonicalize, WellFormed]
    exact wellFormed_canonicalizeItems items h
  | .object fields, h => by
    rw [WellFormed] at h
    rw [canonicalize, wellFormed_object]
    have hperm : (enumerated (sortFields host (canonicalizeFields host fields))).Perm _ :=
      canonicalFields_perm fields
    have hall := wellFormedFields_iff.mp (wellFormed_canonicalizeFields fields h.2)
    refine ⟨?_, fun field hfield => hall field (hperm.mem_iff.mp hfield)⟩
    rw [(hperm.map _).nodup_iff, canonicalizeFields_eq, List.map_map]
    exact h.1

theorem wellFormed_canonicalizeItems : ∀ items : List Json, WellFormedItems items →
    WellFormedItems (canonicalizeItems host items)
  | [], h => h
  | item :: items, h =>
    ⟨wellFormed_canonicalize item h.1, wellFormed_canonicalizeItems items h.2⟩

theorem wellFormed_canonicalizeFields : ∀ fields : List (String × Json), WellFormedFields fields →
    WellFormedFields (canonicalizeFields host fields)
  | [], h => h
  | (_, value) :: fields, h =>
    ⟨wellFormed_canonicalize value h.1, wellFormed_canonicalizeFields fields h.2⟩

end

/-- **Equal canonical texts are of the same value.** -/
theorem same_of_canonicalJson {j j' : Json} (h : WellFormed j) (h' : WellFormed j')
    (heq : canonicalJson host j = canonicalJson host j') : Same j j' := by
  have hchars : chars (canonicalize host j) = chars (canonicalize host j') :=
    String.ofList_injective heq
  have hcanonical := chars_inj (wellFormed_canonicalize j h) (wellFormed_canonicalize j' h') hchars
  calc normalize j = normalize (canonicalize host j) := (normalize_canonicalize j h).symm
    _ = normalize (canonicalize host j') := by rw [hcanonical]
    _ = normalize j' := normalize_canonicalize j' h'

end Canonical

/-! ## Fields of normalised values -/

theorem field?_eq_some (hnodup : (fields.map Prod.fst).Nodup) {name : String} {value : Json} :
    (object fields).field? name = some value ↔ (name, value) ∈ fields := by
  rw [field?, Option.map_eq_some_iff]
  constructor
  · rintro ⟨field, hfind, rfl⟩
    have hname : field.1 = name := by simpa using List.find?_some hfind
    rw [← hname]
    exact List.mem_of_find?_eq_some hfind
  · intro hmem
    cases hfind : fields.find? (·.1 = name) with
    | none =>
      have hne := List.find?_eq_none.mp hfind _ hmem
      exact absurd (decide_eq_true rfl) hne
    | some field =>
      have hname : field.1 = name := by simpa using List.find?_some hfind
      have hsame : field = (name, value) :=
        List.inj_on_of_nodup_map hnodup (List.mem_of_find?_eq_some hfind) hmem hname
      exact ⟨field, rfl, by rw [hsame]⟩

/-- **A normalised object has the fields of the object**, normalised. -/
theorem field?_normalize (hnodup : (fields.map Prod.fst).Nodup) (name : String) :
    (normalize (object fields)).field? name =
      ((object fields).field? name).map normalize := by
  have hperm := List.perm_insertionSort NameLe (normalizeFields fields)
  have hnodup' : (((normalizeFields fields).insertionSort NameLe).map Prod.fst).Nodup := by
    rw [(hperm.map _).nodup_iff, normalizeFields_eq, List.map_map]
    exact hnodup
  ext value
  rw [normalize, field?_eq_some hnodup', hperm.mem_iff, normalizeFields_eq,
    Option.map_eq_some_iff, List.mem_map]
  constructor
  · rintro ⟨⟨other, own⟩, hmem, heq⟩
    obtain ⟨rfl, rfl⟩ := Prod.mk.inj heq
    exact ⟨own, (field?_eq_some hnodup).mpr hmem, rfl⟩
  · rintro ⟨own, hfield, rfl⟩
    exact ⟨(name, own), (field?_eq_some hnodup).mp hfield, rfl⟩

/-- Of two objects that are the same, the fields are the same. -/
theorem Same.field? {fields' : List (String × Json)} (h : Same (object fields) (object fields'))
    (hnodup : (fields.map Prod.fst).Nodup) (hnodup' : (fields'.map Prod.fst).Nodup) (name : String)
    {value value' : Json} (hvalue : (object fields).field? name = some value)
    (hvalue' : (object fields').field? name = some value') : Same value value' := by
  have hfields := congrArg (Json.field? name) (h : normalize _ = normalize _)
  rw [field?_normalize hnodup, field?_normalize hnodup', hvalue, hvalue'] at hfields
  exact Option.some.inj hfields

/-! ## Normalised values, written -/

mutual

theorem wellFormed_normalize : ∀ j : Json, WellFormed j → WellFormed (normalize j)
  | .null, h => h
  | .bool _, h => h
  | .number _, h => h
  | .text _, h => h
  | .array items, h => by
    rw [WellFormed] at h
    rw [normalize, WellFormed]
    exact wellFormed_normalizeItems items h
  | .object fields, h => by
    rw [WellFormed] at h
    have hperm := List.perm_insertionSort NameLe (normalizeFields fields)
    have hall := wellFormedFields_iff.mp (wellFormed_normalizeFields fields h.2)
    rw [normalize, wellFormed_object]
    refine ⟨?_, fun field hfield => hall field (hperm.mem_iff.mp hfield)⟩
    rw [(hperm.map _).nodup_iff, normalizeFields_eq, List.map_map]
    exact h.1

theorem wellFormed_normalizeItems : ∀ items : List Json, WellFormedItems items →
    WellFormedItems (normalizeItems items)
  | [], h => h
  | item :: items, h => ⟨wellFormed_normalize item h.1, wellFormed_normalizeItems items h.2⟩

theorem wellFormed_normalizeFields : ∀ fields : List (String × Json), WellFormedFields fields →
    WellFormedFields (normalizeFields fields)
  | [], h => h
  | (_, value) :: fields, h =>
    ⟨wellFormed_normalize value h.1, wellFormed_normalizeFields fields h.2⟩

end

/-- **Two values are the same exactly where they are written alike**, once normalised. -/
theorem chars_normalize_inj {j j' : Json} (h : WellFormed j) (h' : WellFormed j') :
    chars (normalize j) = chars (normalize j') ↔ Same j j' :=
  ⟨chars_inj (wellFormed_normalize j h) (wellFormed_normalize j' h'), congrArg chars⟩

theorem normalizeItems_eq (items : List Json) : normalizeItems items = items.map normalize := by
  induction items with
  | nil => rfl
  | cons item items ih => rw [normalizeItems, ih, List.map_cons]

theorem intercalate_cons {cs : List Char} {rest : List (List Char)} (h : rest ≠ []) :
    [','].intercalate (cs :: rest) = cs ++ ',' :: [','].intercalate rest := by
  rw [List.intercalate_cons_of_ne_nil h, List.append_assoc, List.singleton_append]

theorem charsItems_eq (items : List Json) :
    charsItems items = [','].intercalate (items.map chars) := by
  induction items with
  | nil => rfl
  | cons item items ih =>
    cases items with
    | nil => rw [charsItems, List.map_singleton, List.intercalate_singleton]
    | cons other items =>
      have hjoin := @intercalate_cons (chars item) _
        (List.cons_ne_nil (chars other) (items.map chars))
      rw [charsItems, ih]
      · exact hjoin.symm
      · exact List.cons_ne_nil other items

theorem charsFields_eq (fields : List (String × Json)) : charsFields fields =
    [','].intercalate (fields.map fun field => quote field.1 ++ ':' :: chars field.2) := by
  induction fields with
  | nil => rfl
  | cons field fields ih =>
    obtain ⟨name, value⟩ := field
    cases fields with
    | nil => rw [charsFields, List.map_singleton, List.intercalate_singleton]
    | cons other fields =>
      have hjoin := @intercalate_cons (quote name ++ ':' :: chars value) _ (List.cons_ne_nil
        (quote other.1 ++ ':' :: chars other.2)
        (fields.map fun field => quote field.1 ++ ':' :: chars field.2))
      rw [List.append_assoc, List.cons_append] at hjoin
      rw [charsFields, ih]
      · exact hjoin.symm
      · exact List.cons_ne_nil other fields

end Json

end MeiyeAgent
