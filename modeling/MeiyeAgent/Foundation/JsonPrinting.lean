import MeiyeAgent.Foundation.JsonText

/-!
# Foundation/JsonPrinting — what is written out is one value

Numbers are numerals and the names of an object are distinct; then a value can be read off what is
written, up to the delimiter behind it, and `chars_inj` follows.
-/

namespace MeiyeAgent

namespace Json

/-! ## Well-formed values -/

def numeralChar (c : Char) : Bool :=
  c.isDigit || c == '-' || c == '+' || c == '.' || c == 'e'

/-- A number as it may be written. -/
def IsNumeral (digits : String) : Prop :=
  ∃ c cs, digits.toList = c :: cs ∧ (c.isDigit = true ∨ c = '-') ∧ ∀ d ∈ cs, numeralChar d = true

mutual

/-- **A value as JSON has it.** -/
def WellFormed : Json → Prop
  | null => True
  | bool _ => True
  | number digits => IsNumeral digits
  | text _ => True
  | array items => WellFormedItems items
  | object fields => (fields.map Prod.fst).Nodup ∧ WellFormedFields fields

def WellFormedItems : List Json → Prop
  | [] => True
  | item :: items => WellFormed item ∧ WellFormedItems items

def WellFormedFields : List (String × Json) → Prop
  | [] => True
  | (_, value) :: fields => WellFormed value ∧ WellFormedFields fields

end

theorem wellFormed_array {items : List Json} :
    WellFormed (.array items) ↔ ∀ item ∈ items, WellFormed item := by
  rw [WellFormed]
  induction items with
  | nil => simp [WellFormedItems]
  | cons item items ih => rw [WellFormedItems, ih, List.forall_mem_cons]

theorem wellFormedFields_iff {fields : List (String × Json)} :
    WellFormedFields fields ↔ ∀ field ∈ fields, WellFormed field.2 := by
  induction fields with
  | nil => simp [WellFormedFields]
  | cons field fields ih => rw [WellFormedFields, ih, List.forall_mem_cons]

theorem wellFormed_object {fields : List (String × Json)} : WellFormed (.object fields) ↔
    (fields.map Prod.fst).Nodup ∧ ∀ field ∈ fields, WellFormed field.2 := by
  rw [WellFormed, wellFormedFields_iff]

/-! ## Numerals -/

theorem isNumeral_repr (n : Nat) : IsNumeral (Nat.repr n) := by
  have hdigits : ∀ c ∈ (Nat.repr n).toList, c.isDigit = true := by
    intro c hc
    rw [Nat.toList_repr] at hc
    exact Nat.isDigit_of_mem_toDigits (by decide) (by decide) hc
  have hlength : 0 < (Nat.repr n).toList.length := by
    rw [Nat.toList_repr]
    exact Nat.length_toDigits_pos
  cases hlist : (Nat.repr n).toList with
  | nil =>
    rw [hlist] at hlength
    exact absurd hlength (Nat.lt_irrefl 0)
  | cons c cs =>
    rw [hlist] at hdigits
    refine ⟨c, cs, hlist, .inl (hdigits c List.mem_cons_self), fun d hd => ?_⟩
    rw [numeralChar, hdigits d (List.mem_cons_of_mem c hd)]
    rfl

theorem isNumeral_int (n : Int) : IsNumeral n.repr := by
  rw [Int.repr_eq_if]
  split_ifs
  · exact isNumeral_repr n.toNat
  · obtain ⟨c, cs, hlist, hfirst, hothers⟩ := isNumeral_repr (-n).toNat
    refine ⟨'-', c :: cs, by rw [String.toList_append, hlist]; rfl, .inr rfl, fun d hd => ?_⟩
    rcases List.mem_cons.mp hd with rfl | hd
    · rcases hfirst with hdigit | rfl
      · rw [numeralChar, hdigit]
        rfl
      · rfl
    · exact hothers d hd

/-! ## Reading a text back -/

/-- The character behind a backslash. -/
def unescaped : List Char → Option (Char × List Char)
  | 'u' :: '0' :: '0' :: high :: low :: rest =>
    ((List.range 32).find? fun n =>
      Nat.digitChar (n / 16) = high ∧ Nat.digitChar (n % 16) = low).map fun n =>
        (Char.ofNat n, rest)
  | 'n' :: rest => some ('\n', rest)
  | 'r' :: rest => some ('\r', rest)
  | 't' :: rest => some ('\t', rest)
  | 'b' :: rest => some (Char.ofNat 8, rest)
  | 'f' :: rest => some (Char.ofNat 12, rest)
  | c :: rest => some (c, rest)
  | [] => none

/-- The first character of a text, read back; none behind the closing quote. -/
def firstChar : List Char → Option (Char × List Char)
  | '"' :: _ => none
  | '\\' :: rest => unescaped rest
  | c :: rest => some (c, rest)
  | [] => none

theorem find?_control : ∀ n < 32, ((List.range 32).find? fun m =>
    Nat.digitChar (m / 16) = Nat.digitChar (n / 16) ∧
      Nat.digitChar (m % 16) = Nat.digitChar (n % 16)) = some n := by
  decide

theorem firstChar_escapeChar (c : Char) (rest : List Char) :
    firstChar (escapeChar c ++ rest) = some (c, rest) := by
  rw [escapeChar]
  split_ifs with hquote hbackslash hn hr ht hb hf hcontrol
  · rw [hquote]; rfl
  · rw [hbackslash]; rfl
  · rw [hn]; rfl
  · rw [hr]; rfl
  · rw [ht]; rfl
  · rw [← Char.ofNat_toNat c, hb]; rfl
  · rw [← Char.ofNat_toNat c, hf]; rfl
  · have hread : firstChar (['\\', 'u', '0', '0', Nat.digitChar (c.toNat / 16),
        Nat.digitChar (c.toNat % 16)] ++ rest) =
          ((List.range 32).find? fun n => Nat.digitChar (n / 16) = Nat.digitChar (c.toNat / 16) ∧
            Nat.digitChar (n % 16) = Nat.digitChar (c.toNat % 16)).map fun n =>
              (Char.ofNat n, rest) := rfl
    rw [hread, find?_control c.toNat hcontrol, Option.map_some, Char.ofNat_toNat]
  · rw [List.singleton_append, firstChar]
    · exact fun h => hquote h
    · exact fun h => hbackslash h

/-- **A text ends at its closing quote.** -/
theorem escape_inj : ∀ {cs ds rest rest' : List Char},
    escape cs ++ '"' :: rest = escape ds ++ '"' :: rest' → cs = ds ∧ rest = rest'
  | [], [], _, _, h => ⟨rfl, (List.cons.inj h).2⟩
  | [], d :: ds, rest, rest', h => by
    rw [escape, escape, List.flatMap_nil, List.nil_append, List.flatMap_cons,
      List.append_assoc] at h
    have hfirst := congrArg firstChar h
    rw [firstChar_escapeChar] at hfirst
    cases hfirst
  | c :: cs, [], rest, rest', h => by
    rw [escape, escape, List.flatMap_nil, List.nil_append, List.flatMap_cons,
      List.append_assoc] at h
    have hfirst := congrArg firstChar h
    rw [firstChar_escapeChar] at hfirst
    cases hfirst
  | c :: cs, d :: ds, rest, rest', h => by
    rw [escape, escape, List.flatMap_cons, List.append_assoc, List.flatMap_cons,
      List.append_assoc] at h
    have hfirst := congrArg firstChar h
    rw [firstChar_escapeChar, firstChar_escapeChar, Option.some_inj, Prod.mk.injEq] at hfirst
    obtain ⟨rfl, hrest⟩ := hfirst
    obtain ⟨rfl, rfl⟩ := escape_inj hrest
    exact ⟨rfl, rfl⟩

variable {rest rest' : List Char}

theorem quote_inj {name name' : String} (h : quote name ++ rest = quote name' ++ rest') :
    name = name' ∧ rest = rest' := by
  simp only [quote, List.cons_append, List.append_assoc, List.nil_append, List.cons.injEq,
    true_and] at h
  obtain ⟨hname, hrest⟩ := escape_inj h
  exact ⟨String.toList_inj.mp hname, hrest⟩

/-! ## Reading a value back -/

/-- What a value is, by its first character. -/
def sortOf (c : Char) : Nat :=
  if c = 'n' then 0 else if c = 't' then 1 else if c = 'f' then 2 else if c = '"' then 3
  else if c = '[' then 4 else if c = '\x7b' then 5 else if c.isDigit ∨ c = '-' then 6 else 7

def sort : Json → Nat
  | null => 0
  | bool value => if value then 1 else 2
  | number _ => 6
  | text _ => 3
  | array _ => 4
  | object _ => 5

theorem sortOf_numeral {c : Char} (h : c.isDigit = true ∨ c = '-') : sortOf c = 6 := by
  have hne : ∀ d : Char, d.isDigit = false → d ≠ '-' → c ≠ d := by
    rintro d hd hminus rfl
    rcases h with h | h
    · rw [hd] at h
      cases h
    · exact hminus h
  rw [sortOf, if_neg (hne 'n' rfl (by decide)), if_neg (hne 't' rfl (by decide)),
    if_neg (hne 'f' rfl (by decide)), if_neg (hne '"' rfl (by decide)),
    if_neg (hne '[' rfl (by decide)), if_neg (hne '\x7b' rfl (by decide)), if_pos h]

variable {j : Json}

/-- A value starts with a character of its own sort. -/
theorem chars_cons (h : WellFormed j) : ∃ c cs, chars j = c :: cs ∧ sortOf c = sort j := by
  cases j with
  | null => exact ⟨_, _, by rw [chars], rfl⟩
  | bool value => cases value <;> exact ⟨_, _, by rw [chars]; rfl, rfl⟩
  | number digits =>
    rw [WellFormed] at h
    obtain ⟨c, cs, hdigits, hfirst, -⟩ := h
    exact ⟨c, cs, by rw [chars, hdigits], sortOf_numeral hfirst⟩
  | text value => exact ⟨_, _, by rw [chars, quote], rfl⟩
  | array items => exact ⟨_, _, by rw [chars], rfl⟩
  | object fields => exact ⟨_, _, by rw [chars], rfl⟩

/-- What stands behind a value. -/
def Delimits : List Char → Prop
  | [] => True
  | c :: _ => c = ',' ∨ c = ']' ∨ c = '\x7d'

theorem delimits_numeral (h : Delimits rest) : rest.takeWhile numeralChar = [] := by
  cases rest with
  | nil => rfl
  | cons c rest =>
    rw [List.takeWhile_cons_of_neg]
    rcases h with rfl | rfl | rfl <;> decide

theorem numeral_inj {digits digits' : String} (h : IsNumeral digits) (h' : IsNumeral digits')
    (hrest : Delimits rest) (hrest' : Delimits rest')
    (heq : digits.toList ++ rest = digits'.toList ++ rest') : digits = digits' ∧ rest = rest' := by
  have hall : ∀ {digits : String}, IsNumeral digits →
      ∀ c ∈ digits.toList, numeralChar c = true := by
    rintro digits ⟨c, cs, hdigits, hfirst, hothers⟩ d hd
    rw [hdigits] at hd
    rcases List.mem_cons.mp hd with rfl | hd
    · rcases hfirst with hdigit | rfl
      · rw [numeralChar, hdigit]
        rfl
      · rfl
    · exact hothers d hd
  have htake : ∀ {digits : String} {rest : List Char}, IsNumeral digits → Delimits rest →
      (digits.toList ++ rest).takeWhile numeralChar = digits.toList := fun hdigits hrest => by
    rw [List.takeWhile_append_of_pos (hall hdigits), delimits_numeral hrest, List.append_nil]
  have hdigits : digits.toList = digits'.toList := by
    rw [← htake h hrest, heq, htake h' hrest']
  rw [hdigits] at heq
  exact ⟨String.toList_inj.mp hdigits, List.append_cancel_left heq⟩

/-- A list of items is its first item and the others. -/
theorem charsItems_cons (item : Json) (items : List Json) :
    charsItems (item :: items) =
      chars item ++ if items = [] then [] else ',' :: charsItems items := by
  cases items <;> simp [charsItems]

theorem charsFields_cons (name : String) (value : Json) (fields : List (String × Json)) :
    charsFields ((name, value) :: fields) = quote name ++
      ':' :: (chars value ++ if fields = [] then [] else ',' :: charsFields fields) := by
  cases fields <;> simp [charsFields]

theorem delimits_items (items : List Json) (rest : List Char) :
    Delimits ((if items = [] then [] else ',' :: charsItems items) ++ ']' :: rest) := by
  split <;> simp [Delimits]

theorem delimits_fields (fields : List (String × Json)) (rest : List Char) :
    Delimits ((if fields = [] then [] else ',' :: charsFields fields) ++ '\x7d' :: rest) := by
  split <;> simp [Delimits]

theorem sort_lt (j : Json) : sort j < 7 := by
  cases j with
  | bool value => cases value <;> decide
  | _ => simp [sort]

/-- Two values that are written alike are of one sort. -/
theorem sort_eq {j' : Json} (h : WellFormed j) (h' : WellFormed j')
    (heq : chars j ++ rest = chars j' ++ rest') : sort j = sort j' := by
  obtain ⟨c, cs, hchars, hc⟩ := chars_cons h
  obtain ⟨c', cs', hchars', hc'⟩ := chars_cons h'
  rw [hchars, hchars', List.cons_append, List.cons_append, List.cons.injEq] at heq
  rw [← hc, ← hc', heq.1]

/-- A value does not start with a bracket that closes. -/
theorem chars_ne_close (h : WellFormed j) : chars j ++ rest ≠ ']' :: rest' := by
  obtain ⟨c, cs, hchars, hsort⟩ := chars_cons h
  intro heq
  rw [hchars, List.cons_append, List.cons.injEq] at heq
  rw [heq.1] at hsort
  have hseven : sortOf ']' = 7 := by decide
  have hlt := sort_lt j
  omega

mutual

/-- **A value ends at its delimiter.** -/
theorem chars_append_inj : ∀ (j : Json) {j' : Json} {rest rest' : List Char}, WellFormed j →
    WellFormed j' → Delimits rest → Delimits rest' → chars j ++ rest = chars j' ++ rest' →
      j = j' ∧ rest = rest'
  | .null, j', _, _, h, h', _, _, heq => by
    have hsort := sort_eq h h' heq
    cases j' with
    | null => exact ⟨rfl, List.append_cancel_left heq⟩
    | bool value => cases value <;> simp [sort] at hsort
    | _ => simp [sort] at hsort
  | .bool value, j', _, _, h, h', _, _, heq => by
    have hsort := sort_eq h h' heq
    cases j' with
    | bool value' =>
      have hvalue : value = value' := by cases value <;> cases value' <;> simp [sort] at hsort ⊢
      subst hvalue
      exact ⟨rfl, List.append_cancel_left heq⟩
    | _ => cases value <;> simp [sort] at hsort
  | .number digits, j', _, _, h, h', hrest, hrest', heq => by
    have hsort := sort_eq h h' heq
    cases j' with
    | number digits' =>
      rw [WellFormed] at h h'
      rw [chars, chars] at heq
      obtain ⟨rfl, hsame⟩ := numeral_inj h h' hrest hrest' heq
      exact ⟨rfl, hsame⟩
    | bool value => cases value <;> simp [sort] at hsort
    | _ => simp [sort] at hsort
  | .text value, j', _, _, h, h', _, _, heq => by
    have hsort := sort_eq h h' heq
    cases j' with
    | text value' =>
      rw [chars, chars] at heq
      obtain ⟨rfl, hsame⟩ := quote_inj heq
      exact ⟨rfl, hsame⟩
    | bool value => cases value <;> simp [sort] at hsort
    | _ => simp [sort] at hsort
  | .array items, j', _, _, h, h', _, _, heq => by
    have hsort := sort_eq h h' heq
    cases j' with
    | array items' =>
      rw [WellFormed] at h h'
      simp only [chars, List.cons_append, List.append_assoc, List.nil_append, List.cons.injEq,
        true_and] at heq
      obtain ⟨rfl, hsame⟩ := charsItems_append_inj items h h' heq
      exact ⟨rfl, hsame⟩
    | bool value => cases value <;> simp [sort] at hsort
    | _ => simp [sort] at hsort
  | .object fields, j', _, _, h, h', _, _, heq => by
    have hsort := sort_eq h h' heq
    cases j' with
    | object fields' =>
      rw [WellFormed] at h h'
      simp only [chars, List.cons_append, List.append_assoc, List.nil_append, List.cons.injEq,
        true_and] at heq
      obtain ⟨rfl, hsame⟩ := charsFields_append_inj fields h.2 h'.2 heq
      exact ⟨rfl, hsame⟩
    | bool value => cases value <;> simp [sort] at hsort
    | _ => simp [sort] at hsort

theorem charsItems_append_inj : ∀ (items : List Json) {items' : List Json}
    {rest rest' : List Char}, WellFormedItems items → WellFormedItems items' →
    charsItems items ++ ']' :: rest = charsItems items' ++ ']' :: rest' →
      items = items' ∧ rest = rest'
  | [], [], _, _, _, _, heq => ⟨rfl, (List.cons.inj heq).2⟩
  | [], item' :: items', _, _, _, h', heq => by
    rw [charsItems_cons, List.append_assoc] at heq
    exact absurd heq.symm (chars_ne_close h'.1)
  | item :: items, [], _, _, h, _, heq => by
    rw [charsItems_cons, List.append_assoc] at heq
    exact absurd heq (chars_ne_close h.1)
  | item :: items, item' :: items', rest, rest', h, h', heq => by
    rw [charsItems_cons, charsItems_cons, List.append_assoc, List.append_assoc] at heq
    obtain ⟨rfl, htail⟩ := chars_append_inj item h.1 h'.1 (delimits_items items rest)
      (delimits_items items' rest') heq
    by_cases hnil : items = []
    · by_cases hnil' : items' = []
      · rw [if_pos hnil, if_pos hnil'] at htail
        exact ⟨by rw [hnil, hnil'], (List.cons.inj htail).2⟩
      · rw [if_pos hnil, if_neg hnil'] at htail
        exact absurd (List.cons.inj htail).1 (by decide)
    · by_cases hnil' : items' = []
      · rw [if_neg hnil, if_pos hnil'] at htail
        exact absurd (List.cons.inj htail).1 (by decide)
      · rw [if_neg hnil, if_neg hnil', List.cons_append, List.cons_append] at htail
        obtain ⟨rfl, hsame⟩ := charsItems_append_inj items h.2 h'.2 (List.cons.inj htail).2
        exact ⟨rfl, hsame⟩

theorem charsFields_append_inj : ∀ (fields : List (String × Json))
    {fields' : List (String × Json)} {rest rest' : List Char}, WellFormedFields fields →
    WellFormedFields fields' →
    charsFields fields ++ '\x7d' :: rest = charsFields fields' ++ '\x7d' :: rest' →
      fields = fields' ∧ rest = rest'
  | [], [], _, _, _, _, heq => ⟨rfl, (List.cons.inj heq).2⟩
  | [], (name', value') :: fields', _, _, _, _, heq => by
    rw [charsFields_cons, quote] at heq
    exact absurd (List.cons.inj heq).1 (by decide)
  | (name, value) :: fields, [], _, _, _, _, heq => by
    rw [charsFields_cons, quote] at heq
    exact absurd (List.cons.inj heq).1 (by decide)
  | (name, value) :: fields, (name', value') :: fields', rest, rest', h, h', heq => by
    rw [charsFields_cons, charsFields_cons, List.append_assoc, List.append_assoc] at heq
    obtain ⟨rfl, hvalue⟩ := quote_inj heq
    rw [List.cons_append, List.cons_append, List.append_assoc, List.append_assoc] at hvalue
    obtain ⟨rfl, htail⟩ := chars_append_inj value h.1 h'.1 (delimits_fields fields rest)
      (delimits_fields fields' rest') (List.cons.inj hvalue).2
    by_cases hnil : fields = []
    · by_cases hnil' : fields' = []
      · rw [if_pos hnil, if_pos hnil'] at htail
        exact ⟨by rw [hnil, hnil'], (List.cons.inj htail).2⟩
      · rw [if_pos hnil, if_neg hnil'] at htail
        exact absurd (List.cons.inj htail).1 (by decide)
    · by_cases hnil' : fields' = []
      · rw [if_neg hnil, if_pos hnil'] at htail
        exact absurd (List.cons.inj htail).1 (by decide)
      · rw [if_neg hnil, if_neg hnil', List.cons_append, List.cons_append] at htail
        obtain ⟨rfl, hsame⟩ := charsFields_append_inj fields h.2 h'.2 (List.cons.inj htail).2
        exact ⟨rfl, hsame⟩

end

/-- **What is written is one value.** -/
theorem chars_inj {j' : Json} (h : WellFormed j) (h' : WellFormed j') (heq : chars j = chars j') :
    j = j' := by
  have hnil : Delimits [] := trivial
  exact (chars_append_inj j h h' hnil hnil (congrArg (· ++ []) heq)).1

end Json

end MeiyeAgent
