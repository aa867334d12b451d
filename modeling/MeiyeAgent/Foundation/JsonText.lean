import Mathlib.Data.List.Infix
import MeiyeAgent.Foundation.Json

/-!
# Foundation/JsonText — JSON written out, with its escapes

A text is written between quotes, and a quote of its own is escaped.  So a search for a word
between two quotes finds a name or a text: the whole of it, or its end after a quote
(`quoted_infix_chars`).
-/

/-! ## Infixes -/

namespace List

variable {α : Type} {p a b : List α} {c : α}

/-- A prefix without `c` ends before `c`. -/
theorem prefix_append_cons (hc : c ∉ p) : p <+: a ++ c :: b ↔ p <+: a := by
  refine ⟨fun h => ?_, fun h => h.trans (prefix_append a _)⟩
  have hfirst : a ++ [c] <+: a ++ c :: b := ⟨b, by rw [append_assoc, singleton_append]⟩
  rcases prefix_or_prefix_of_prefix h hfirst with hshort | hlong
  · rcases prefix_concat_iff.mp hshort with rfl | hprefix
    · exact absurd (mem_append_right a mem_cons_self) hc
    · exact hprefix
  · exact absurd (hlong.subset (mem_append_right a mem_cons_self)) hc

/-- **An infix without `c` stands on one side of `c`.** -/
theorem infix_append_cons (hp : p ≠ []) (hc : c ∉ p) :
    p <:+: a ++ c :: b ↔ p <:+: a ∨ p <:+: b := by
  induction a with
  | nil =>
    have hnil : ¬ p <:+: [] := fun h => hp (infix_nil.mp h)
    have hfirst := prefix_append_cons (a := []) (b := b) hc
    rw [nil_append] at hfirst ⊢
    rw [infix_cons_iff, hfirst, prefix_nil]
    exact or_congr_left ⟨fun h => absurd h hp, fun h => absurd h hnil⟩
  | cons x a ih =>
    rw [cons_append, infix_cons_iff, infix_cons_iff, ih, ← or_assoc]
    rw [← cons_append, prefix_append_cons hc]

end List

namespace MeiyeAgent

namespace Json

/-! ## Writing -/

/-- A character of a text as it is written. -/
def escapeChar (c : Char) : List Char :=
  if c = '"' then ['\\', '"']
  else if c = '\\' then ['\\', '\\']
  else if c = '\n' then ['\\', 'n']
  else if c = '\r' then ['\\', 'r']
  else if c = '\t' then ['\\', 't']
  else if c.toNat = 8 then ['\\', 'b']
  else if c.toNat = 12 then ['\\', 'f']
  else if c.toNat < 32 then
    ['\\', 'u', '0', '0', Nat.digitChar (c.toNat / 16), Nat.digitChar (c.toNat % 16)]
  else [c]

def escape (cs : List Char) : List Char := cs.flatMap escapeChar

/-- A text between its quotes. -/
def quote (value : String) : List Char := '"' :: (escape value.toList ++ ['"'])

mutual

/-- `JSON.stringify`. -/
def chars : Json → List Char
  | null => ['n', 'u', 'l', 'l']
  | bool value => if value then ['t', 'r', 'u', 'e'] else ['f', 'a', 'l', 's', 'e']
  | number digits => digits.toList
  | text value => quote value
  | array items => '[' :: (charsItems items ++ [']'])
  | object fields => '\x7b' :: (charsFields fields ++ ['\x7d'])

def charsItems : List Json → List Char
  | [] => []
  | [item] => chars item
  | item :: items => chars item ++ ',' :: charsItems items

def charsFields : List (String × Json) → List Char
  | [] => []
  | [(name, value)] => quote name ++ ':' :: chars value
  | (name, value) :: fields => quote name ++ ':' :: (chars value ++ ',' :: charsFields fields)

end

/-! ## A word between quotes -/

/-- The word between two quotes. -/
def quoted (word : List Char) : List Char := '"' :: (word ++ ['"'])

/-- The text is the word, or ends with a quote and the word. -/
def Spells (word : List Char) (value : String) : Prop :=
  value.toList = word ∨ '"' :: word <:+ value.toList

mutual

/-- A name or a text of the value spells the word. -/
def Quotes (word : List Char) : Json → Prop
  | null => False
  | bool _ => False
  | number digits => quoted word <:+: digits.toList
  | text value => Spells word value
  | array items => QuotesItems word items
  | object fields => QuotesFields word fields

def QuotesItems (word : List Char) : List Json → Prop
  | [] => False
  | item :: items => Quotes word item ∨ QuotesItems word items

def QuotesFields (word : List Char) : List (String × Json) → Prop
  | [] => False
  | (name, value) :: fields => (Spells word name ∨ Quotes word value) ∨ QuotesFields word fields

end

variable {word : List Char}

theorem quotes_array {items : List Json} :
    Quotes word (.array items) ↔ ∃ item ∈ items, Quotes word item := by
  rw [Quotes]
  induction items with
  | nil => simp [QuotesItems]
  | cons item items ih => rw [QuotesItems, ih, List.exists_mem_cons_iff]

theorem quotes_object {fields : List (String × Json)} : Quotes word (.object fields) ↔
    ∃ field ∈ fields, Spells word field.1 ∨ Quotes word field.2 := by
  rw [Quotes]
  induction fields with
  | nil => simp [QuotesFields]
  | cons field fields ih => rw [QuotesFields, ih, List.exists_mem_cons_iff]

/-- The word has letters alone. -/
def IsWord (word : List Char) : Prop := word ≠ [] ∧ ∀ c ∈ word, c.isAlpha = true

instance : Decidable (IsWord word) :=
  @instDecidableAnd _ _ inferInstance (List.decidableBAll (fun c => c.isAlpha = true) word)

theorem digitChar_ne_quote {n : Nat} (h : n < 16) : Nat.digitChar n ≠ '"' := by
  decide +revert

/-- Only a quote is written with a quote. -/
theorem quote_notMem_escapeChar {c : Char} (h : c ≠ '"') : '"' ∉ escapeChar c := by
  have hhigh : c.toNat < 32 → Nat.digitChar (c.toNat / 16) ≠ '"' := fun hlt =>
    digitChar_ne_quote (by omega)
  have hlow : Nat.digitChar (c.toNat % 16) ≠ '"' := digitChar_ne_quote (by omega)
  rw [escapeChar, if_neg h]
  split_ifs <;> simp_all [eq_comm]

/-- A character is written as it is, or after a backslash. -/
theorem escapeChar_cases (c : Char) :
    escapeChar c = [c] ∧ c ≠ '"' ∨ ∃ rest, escapeChar c = '\\' :: rest ∧ c.isAlpha = false := by
  by_cases h : c = '"'
  · exact .inr ⟨['"'], by rw [escapeChar, if_pos h], by rw [h]; decide⟩
  by_cases halpha : c.isAlpha = true
  · have hrange : 65 ≤ c.toNat ∧ c.toNat ≠ 92 := by
      change (decide (65 ≤ c.val ∧ c.val ≤ 90) || 97 ≤ c.val && c.val ≤ 122) = true at halpha
      simp only [Bool.or_eq_true, Bool.and_eq_true, decide_eq_true_eq,
        UInt32.le_iff_toNat_le] at halpha
      change 65 ≤ c.toNat ∧ c.toNat ≤ 90 ∨ 97 ≤ c.toNat ∧ c.toNat ≤ 122 at halpha
      omega
    have hne : ∀ d : Char, d.toNat < 65 ∨ d.toNat = 92 → c ≠ d := by
      rintro d hd rfl
      omega
    refine .inl ⟨?_, h⟩
    rw [escapeChar, if_neg h, if_neg (hne '\\' (by decide)), if_neg (hne '\n' (by decide)),
      if_neg (hne '\r' (by decide)), if_neg (hne '\t' (by decide)), if_neg (by omega),
      if_neg (by omega), if_neg (by omega)]
  · have hfalse : c.isAlpha = false := Bool.eq_false_iff.mpr halpha
    rw [escapeChar, if_neg h]
    split_ifs
    all_goals first
      | exact .inr ⟨_, rfl, hfalse⟩
      | exact .inl ⟨rfl, h⟩

/-! ## Searching -/

/-- Behind its opening quote, a text starts with a word and a quote when it is the word. -/
theorem prefix_escape (hword : ∀ c ∈ word, c.isAlpha = true) {cs : List Char} :
    word ++ ['"'] <+: escape cs ++ ['"'] ↔ cs = word := by
  induction word generalizing cs with
  | nil =>
    cases cs with
    | nil => simp [escape]
    | cons c cs =>
      rw [escape, List.flatMap_cons]
      rcases escapeChar_cases c with ⟨hsame, hne⟩ | ⟨rest, hescaped, -⟩
      · simp [hsame, hne.symm]
      · simp [hescaped]
  | cons a word ih =>
    have ha : a.isAlpha = true := hword a List.mem_cons_self
    have hrest {cs : List Char} : word ++ ['"'] <+: escape cs ++ ['"'] ↔ cs = word :=
      ih fun c hc => hword c (List.mem_cons_of_mem a hc)
    cases cs with
    | nil =>
      have hquote : a ≠ '"' := by
        rintro rfl
        exact absurd ha (by decide)
      simp [escape, hquote]
    | cons c cs =>
      rw [escape, List.flatMap_cons]
      rcases escapeChar_cases c with ⟨hsame, hne⟩ | ⟨rest, hescaped, hnot⟩
      · rw [hsame, List.cons_append, List.singleton_append, List.cons_append,
          List.cons_prefix_cons, ← escape, hrest, List.cons.injEq, eq_comm (a := a)]
      · have hbackslash : a ≠ '\\' := by
          rintro rfl
          exact absurd ha (by decide)
        have hother : c ≠ a := by
          rintro rfl
          exact nomatch ha.symm.trans hnot
        simp [hescaped, hbackslash, hother]

/-- Past its opening quote, a text holds the word between quotes when it ends so. -/
theorem infix_escape (hword : ∀ c ∈ word, c.isAlpha = true) {cs : List Char} :
    quoted word <:+: escape cs ++ ['"'] ↔ '"' :: word <:+ cs := by
  induction cs with
  | nil => simp [escape, quoted, List.infix_cons_iff]
  | cons c cs ih =>
    rw [escape, List.flatMap_cons, List.append_assoc, ← escape, List.suffix_cons_iff]
    by_cases h : c = '"'
    · subst h
      have hopens : quoted word <+: '"' :: (escape cs ++ ['"']) ↔ cs = word := by
        rw [quoted, List.cons_prefix_cons, prefix_escape hword]
        exact and_iff_right rfl
      rw [show escapeChar '"' = ['\\', '"'] from rfl, List.cons_append, List.cons_append,
        List.nil_append, List.infix_cons_iff, List.infix_cons_iff, hopens, ih, List.cons.injEq]
      simp [quoted, eq_comm]
    · -- no quote among the characters written for `c`
      have hnot := quote_notMem_escapeChar h
      have hskip : ∀ {before after : List Char}, '"' ∉ before →
          (quoted word <:+: before ++ after ↔ quoted word <:+: after) := by
        intro before after hbefore
        induction before with
        | nil => rfl
        | cons d before ih =>
          rw [List.mem_cons, not_or] at hbefore
          rw [List.cons_append, List.infix_cons_iff, ih hbefore.2, quoted, List.cons_prefix_cons]
          simp [hbefore.1]
      rw [hskip hnot, ih]
      simp [Ne.symm h]

/-- **A text holds the word between quotes** when it spells it. -/
theorem quoted_infix_quote (hword : ∀ c ∈ word, c.isAlpha = true) {value : String} :
    quoted word <:+: quote value ↔ Spells word value := by
  rw [quote, List.infix_cons_iff, infix_escape hword, quoted, List.cons_prefix_cons,
    prefix_escape hword, Spells]
  simp

theorem quoted_not_infix_nil : ¬ quoted word <:+: [] := fun h => nomatch List.infix_nil.mp h

/-- What is neither a quote nor a letter separates. -/
theorem quoted_infix_append_cons (hword : IsWord word) {a b : List Char} {c : Char}
    (hquote : c ≠ '"') (halpha : c.isAlpha = false) :
    quoted word <:+: a ++ c :: b ↔ quoted word <:+: a ∨ quoted word <:+: b := by
  refine List.infix_append_cons (List.cons_ne_nil _ _) ?_
  rw [quoted, List.mem_cons, List.mem_append, List.mem_singleton]
  rintro (h | h | h)
  · exact hquote h
  · exact nomatch (hword.2 c h).symm.trans halpha
  · exact hquote h

theorem quoted_infix_between (hword : IsWord word) {a : List Char} {c d : Char}
    (hc : c ≠ '"') (hcalpha : c.isAlpha = false) (hd : d ≠ '"') (hdalpha : d.isAlpha = false) :
    quoted word <:+: c :: (a ++ [d]) ↔ quoted word <:+: a := by
  rw [← List.nil_append (c :: _), quoted_infix_append_cons hword hc hcalpha,
    quoted_infix_append_cons hword hd hdalpha, or_iff_right quoted_not_infix_nil,
    or_iff_left quoted_not_infix_nil]

/-- No word stands between quotes in a text without a quote. -/
theorem not_quoted_infix_of_notMem {cs : List Char} (h : '"' ∉ cs) : ¬ quoted word <:+: cs :=
  fun hquoted => h (hquoted.subset List.mem_cons_self)

mutual

/-- **The word stands between quotes in what is written** exactly where a name or a text spells
it. -/
theorem quoted_infix_chars (hword : IsWord word) :
    ∀ j : Json, quoted word <:+: chars j ↔ Quotes word j
  | null => by
    rw [chars, Quotes]
    exact iff_false_intro (not_quoted_infix_of_notMem (by decide))
  | bool value => by
    rw [chars, Quotes]
    refine iff_false_intro (not_quoted_infix_of_notMem ?_)
    cases value <;> decide
  | number digits => by rw [chars, Quotes]
  | text value => by rw [chars, Quotes, quoted_infix_quote hword.2]
  | array items => by
    rw [chars, Quotes, quoted_infix_between hword (by decide) rfl (by decide) rfl]
    exact quoted_infix_charsItems hword items
  | object fields => by
    rw [chars, Quotes, quoted_infix_between hword (by decide) rfl (by decide) rfl]
    exact quoted_infix_charsFields hword fields

theorem quoted_infix_charsItems (hword : IsWord word) :
    ∀ items : List Json, quoted word <:+: charsItems items ↔ QuotesItems word items
  | [] => iff_of_false quoted_not_infix_nil not_false
  | [item] => by
    rw [charsItems, QuotesItems, QuotesItems, or_false, quoted_infix_chars hword item]
  | item :: next :: items => by
    rw [charsItems, QuotesItems, quoted_infix_append_cons hword (by decide) rfl,
      quoted_infix_chars hword item, quoted_infix_charsItems hword (next :: items)]
    exact List.cons_ne_nil next items

theorem quoted_infix_charsFields (hword : IsWord word) :
    ∀ fields : List (String × Json),
      quoted word <:+: charsFields fields ↔ QuotesFields word fields
  | [] => iff_of_false quoted_not_infix_nil not_false
  | [(name, value)] => by
    rw [charsFields, QuotesFields, QuotesFields, or_false,
      quoted_infix_append_cons hword (by decide) rfl, quoted_infix_quote hword.2,
      quoted_infix_chars hword value]
  | (name, value) :: next :: fields => by
    rw [charsFields, QuotesFields, quoted_infix_append_cons hword (by decide) rfl,
      quoted_infix_append_cons hword (by decide) rfl, quoted_infix_quote hword.2,
      quoted_infix_chars hword value, quoted_infix_charsFields hword (next :: fields), or_assoc]
    exact List.cons_ne_nil next fields

end

end Json

end MeiyeAgent
