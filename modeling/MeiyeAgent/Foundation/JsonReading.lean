import Mathlib.Data.Option.Basic
import MeiyeAgent.Foundation.JsonText

/-!
# Foundation/JsonReading — the texts of JSON, read

`JSON.parse` on a text between quotes, and on an array of three texts.  A code unit may be written
by its number, and two such units are one character; half of a pair is refused.  What
`JSON.stringify` writes is read back: `readTexts_stringify`.
-/

namespace MeiyeAgent

namespace Json

/-! ## Texts -/

/-- Where a reader stands inside a text. -/
inductive TextState
  | plain
  /-- behind a backslash -/
  | escaped
  /-- so many digits of a code unit are missing -/
  | unit (missing value : Nat)

/-- The character a letter behind a backslash names. -/
def unescape (c : Char) : Option Char :=
  if c = '"' ∨ c = '\\' ∨ c = '/' then some c
  else if c = 'n' then some '\n'
  else if c = 'r' then some '\r'
  else if c = 't' then some '\t'
  else if c = 'b' then some (Char.ofNat 8)
  else if c = 'f' then some (Char.ofNat 12)
  else none

def hexDigit (c : Char) : Option Nat :=
  if 48 ≤ c.toNat ∧ c.toNat ≤ 57 then some (c.toNat - 48)
  else if 97 ≤ c.toNat ∧ c.toNat ≤ 102 then some (c.toNat - 87)
  else if 65 ≤ c.toNat ∧ c.toNat ≤ 70 then some (c.toNat - 55)
  else none

/-- One character more in front of what was read. -/
def readChar (c : Char) (read : Option (List Char × List Char)) :
    Option (List Char × List Char) :=
  read.map fun (cs, rest) => (c :: cs, rest)

/-- What stands before the closing quote, and what follows it; `high` is a unit that waits for its
other half. -/
def readText : Option Nat → TextState → List Char → Option (List Char × List Char)
  | _, _, [] => none
  | none, .plain, c :: rest =>
    if c = '"' then some ([], rest)
    else if c = '\\' then readText none .escaped rest
    else if c.toNat < 32 then none
    else readChar c (readText none .plain rest)
  | some high, .plain, c :: rest => if c = '\\' then readText (some high) .escaped rest else none
  | high, .escaped, c :: rest =>
    if c = 'u' then readText high (.unit 4 0) rest
    else if high.isSome then none
    else match unescape c with
      | none => none
      | some d => readChar d (readText none .plain rest)
  | high, .unit missing value, c :: rest =>
    match hexDigit c with
    | none => none
    | some digit =>
      let value := value * 16 + digit
      if 1 < missing then readText high (.unit (missing - 1) value) rest
      else match high with
        | none =>
          if 0xD800 ≤ value ∧ value ≤ 0xDBFF then readText (some value) .plain rest
          else if 0xDC00 ≤ value ∧ value ≤ 0xDFFF then none
          else readChar (Char.ofNat value) (readText none .plain rest)
        | some high =>
          if 0xDC00 ≤ value ∧ value ≤ 0xDFFF then
            readChar (Char.ofNat (0x10000 + (high - 0xD800) * 0x400 + (value - 0xDC00)))
              (readText none .plain rest)
          else none

theorem hexDigit_digitChar : ∀ n < 16, hexDigit (Nat.digitChar n) = some n := by decide

/-- **A character is read as it was written.** -/
theorem readText_escapeChar (c : Char) (rest : List Char) :
    readText none .plain (escapeChar c ++ rest) = readChar c (readText none .plain rest) := by
  rw [escapeChar]
  split_ifs with hquote hbackslash hn hr ht hb hf hcontrol
  · rw [hquote]; rfl
  · rw [hbackslash]; rfl
  · rw [hn]; rfl
  · rw [hr]; rfl
  · rw [ht]; rfl
  · rw [← Char.ofNat_toNat c, hb]; rfl
  · rw [← Char.ofNat_toNat c, hf]; rfl
  · have hzero : hexDigit '0' = some 0 := rfl
    have hhigh := hexDigit_digitChar (c.toNat / 16) (by omega)
    have hlow := hexDigit_digitChar (c.toNat % 16) (by omega)
    have hvalue : ((0 * 16 + 0) * 16 + 0) * 16 + c.toNat / 16 = c.toNat / 16 := by omega
    have hpoint : c.toNat / 16 * 16 + c.toNat % 16 = c.toNat := by omega
    simp only [List.cons_append, List.nil_append, readText, hzero, hhigh, hlow, hvalue, hpoint]
    simp [show ¬ 55296 ≤ c.toNat by omega, show ¬ 56320 ≤ c.toNat by omega]
  · rw [List.singleton_append, readText, if_neg hquote, if_neg hbackslash, if_neg hcontrol]

/-- **A text is read up to its closing quote.** -/
theorem readText_escape (rest : List Char) : ∀ cs : List Char,
    readText none .plain (escape cs ++ '"' :: rest) = some (cs, rest)
  | [] => rfl
  | c :: cs => by
    rw [escape, List.flatMap_cons, List.append_assoc, readText_escapeChar, ← escape,
      readText_escape rest cs]
    rfl

/-! ## Arrays of texts -/

def isJsonSpace (c : Char) : Bool := c = ' ' ∨ c = '\t' ∨ c = '\n' ∨ c = '\r'

/-- A sign, after white space. -/
def expect (sign : Char) (cs : List Char) : Option (List Char) :=
  match cs.dropWhile isJsonSpace with
  | [] => none
  | c :: rest => if c = sign then some rest else none

/-- A text, after white space. -/
def expectText (cs : List Char) : Option (String × List Char) := do
  let (value, rest) ← readText none .plain (← expect '"' cs)
  return (String.ofList value, rest)

/-- `JSON.parse` of an array of three texts. -/
def readTexts (source : String) : Option (String × String × String) := do
  let cs ← expect '[' source.toList
  let (first, cs) ← expectText cs
  let cs ← expect ',' cs
  let (second, cs) ← expectText cs
  let cs ← expect ',' cs
  let (third, cs) ← expectText cs
  let cs ← expect ']' cs
  guard (cs.all isJsonSpace)
  return (first, second, third)

theorem expect_cons {sign : Char} (h : isJsonSpace sign = false) (rest : List Char) :
    expect sign (sign :: rest) = some rest := by
  rw [expect, List.dropWhile_cons_of_neg (by simp [h])]
  exact if_pos rfl

theorem expectText_quote (value : String) (rest : List Char) :
    expectText (quote value ++ rest) = some (value, rest) := by
  have hquote : quote value ++ rest = '"' :: (escape value.toList ++ '"' :: rest) := by
    rw [quote, List.cons_append, List.append_assoc, List.singleton_append]
  rw [expectText, hquote, expect_cons rfl]
  simp [readText_escape]

/-- **Three texts are read as they were written.** -/
theorem readTexts_stringify (a b c : String) :
    readTexts (String.ofList (chars (.array [.text a, .text b, .text c]))) = some (a, b, c) := by
  have hchars : chars (.array [.text a, .text b, .text c]) =
      '[' :: (quote a ++ ',' :: (quote b ++ ',' :: (quote c ++ [']']))) := by
    simp [chars, charsItems]
  rw [readTexts, String.toList_ofList, hchars, expect_cons rfl]
  simp only [Option.bind_eq_bind, Option.bind_some, expectText_quote, @expect_cons ',' rfl,
    @expect_cons ']' rfl]
  rfl

end Json

end MeiyeAgent
