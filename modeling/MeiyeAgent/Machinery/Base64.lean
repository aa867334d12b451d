import Mathlib.Tactic.IntervalCases
import MeiyeAgent.Machinery.Text

/-!
# Machinery/Base64 — texts as bytes, and bytes in the Base64 alphabet

Three bytes are four digits of six bits; one or two bytes left over are two or three digits and the
padding.  `decode_encode_bytes` reads the bytes back, `text_base64` the text, and no encoding holds a
colon, so encoded texts may be joined with colons.
-/

namespace Base64

/-- The digit of six bits. -/
def digit (n : Nat) : Char :=
  if n < 26 then Char.ofNat (65 + n)
  else if n < 52 then Char.ofNat (71 + n)
  else if n < 62 then Char.ofNat (n - 4)
  else if n = 62 then '+' else '/'

/-- The six bits of a digit, the URL alphabet's included. -/
def value? (c : Char) : Option Nat :=
  let n := c.toNat
  if 65 ≤ n ∧ n ≤ 90 then some (n - 65)
  else if 97 ≤ n ∧ n ≤ 122 then some (n - 71)
  else if 48 ≤ n ∧ n ≤ 57 then some (n + 4)
  else if c = '+' ∨ c = '-' then some 62
  else if c = '/' ∨ c = '_' then some 63
  else none

def encode : List UInt8 → List Char
  | a :: b :: c :: rest =>
    [digit (a.toNat / 4), digit (a.toNat % 4 * 16 + b.toNat / 16),
      digit (b.toNat % 16 * 4 + c.toNat / 64), digit (c.toNat % 64)] ++ encode rest
  | [a, b] =>
    [digit (a.toNat / 4), digit (a.toNat % 4 * 16 + b.toNat / 16), digit (b.toNat % 16 * 4), '=']
  | [a] => [digit (a.toNat / 4), digit (a.toNat % 4 * 16), '=', '=']
  | [] => []

/-- The bytes of groups of six bits. -/
def bytesOf : List Nat → List UInt8
  | a :: b :: c :: d :: rest =>
    [UInt8.ofNat (a * 4 + b / 16), UInt8.ofNat (b % 16 * 16 + c / 4),
      UInt8.ofNat (c % 4 * 64 + d)] ++ bytesOf rest
  | [a, b, c] => [UInt8.ofNat (a * 4 + b / 16), UInt8.ofNat (b % 16 * 16 + c / 4)]
  | [a, b] => [UInt8.ofNat (a * 4 + b / 16)]
  | _ => []

/-- What is outside the alphabet is skipped. -/
def decode (cs : List Char) : List UInt8 := bytesOf (cs.filterMap value?)

theorem value?_digit {n : Nat} (h : n < 64) : value? (digit n) = some n := by
  interval_cases n <;> rfl

theorem digit_ne_colon {n : Nat} (h : n < 64) : digit n ≠ ':' := by
  interval_cases n <;> decide

theorem colon_notMem_encode : ∀ bytes : List UInt8, ':' ∉ encode bytes
  | [] => List.not_mem_nil
  | [a] => by
    have ha := a.toNat_lt
    simp only [encode, List.mem_cons, List.not_mem_nil, or_false, not_or]
    exact ⟨(digit_ne_colon (by omega)).symm, (digit_ne_colon (by omega)).symm, by decide, by decide⟩
  | [a, b] => by
    have ha := a.toNat_lt
    have hb := b.toNat_lt
    simp only [encode, List.mem_cons, List.not_mem_nil, or_false, not_or]
    exact ⟨(digit_ne_colon (by omega)).symm, (digit_ne_colon (by omega)).symm,
      (digit_ne_colon (by omega)).symm, by decide⟩
  | a :: b :: c :: rest => by
    have ha := a.toNat_lt
    have hb := b.toNat_lt
    have hc := c.toNat_lt
    simp only [encode, List.cons_append, List.nil_append, List.mem_cons, not_or]
    exact ⟨(digit_ne_colon (by omega)).symm, (digit_ne_colon (by omega)).symm,
      (digit_ne_colon (by omega)).symm, (digit_ne_colon (by omega)).symm, colon_notMem_encode rest⟩

/-- **The bytes are read back.** -/
theorem decode_encode_bytes : ∀ bytes : List UInt8, decode (encode bytes) = bytes
  | [] => rfl
  | [a] => by
    have ha := a.toNat_lt
    have hpad : value? '=' = none := rfl
    simp only [decode, encode, List.filterMap_cons, List.filterMap_nil, hpad]
    rw [value?_digit (by omega), value?_digit (by omega)]
    simp only [bytesOf]
    rw [show a.toNat / 4 * 4 + a.toNat % 4 * 16 / 16 = a.toNat by omega, UInt8.ofNat_toNat]
  | [a, b] => by
    have ha := a.toNat_lt
    have hb := b.toNat_lt
    have hpad : value? '=' = none := rfl
    simp only [decode, encode, List.filterMap_cons, List.filterMap_nil, hpad]
    rw [value?_digit (by omega), value?_digit (by omega), value?_digit (by omega)]
    simp only [bytesOf]
    rw [show a.toNat / 4 * 4 + (a.toNat % 4 * 16 + b.toNat / 16) / 16 = a.toNat by omega,
      show (a.toNat % 4 * 16 + b.toNat / 16) % 16 * 16 + b.toNat % 16 * 4 / 4 = b.toNat by omega,
      UInt8.ofNat_toNat, UInt8.ofNat_toNat]
  | a :: b :: c :: rest => by
    have ha := a.toNat_lt
    have hb := b.toNat_lt
    have hc := c.toNat_lt
    have ih := decode_encode_bytes rest
    rw [decode] at ih
    simp only [decode, encode, List.cons_append, List.nil_append, List.filterMap_cons]
    rw [value?_digit (by omega), value?_digit (by omega), value?_digit (by omega),
      value?_digit (by omega)]
    simp only [bytesOf, ih, List.cons_append, List.nil_append]
    rw [show a.toNat / 4 * 4 + (a.toNat % 4 * 16 + b.toNat / 16) / 16 = a.toNat by omega,
      show (a.toNat % 4 * 16 + b.toNat / 16) % 16 * 16 + (b.toNat % 16 * 4 + c.toNat / 64) / 4 =
        b.toNat by omega,
      show (b.toNat % 16 * 4 + c.toNat / 64) % 4 * 64 + c.toNat % 64 = c.toNat by omega,
      UInt8.ofNat_toNat, UInt8.ofNat_toNat, UInt8.ofNat_toNat]

/-! ## Texts -/

/-- Where a decoder stands inside a character: its bits so far, how many bytes are missing, and what
the next may be. -/
structure Pending where
  point : Nat
  missing : Nat
  lower : Nat
  upper : Nat

/-- The character that stands for what is not UTF-8. -/
def replacement : Char := Char.ofNat 0xFFFD

/-- A byte that begins a character. -/
def begin (byte : Nat) : List Char × Option Pending :=
  if byte < 0x80 then ([Char.ofNat byte], none)
  else if 0xC2 ≤ byte ∧ byte ≤ 0xDF then ([], some ⟨byte % 0x20, 1, 0x80, 0xBF⟩)
  else if 0xE0 ≤ byte ∧ byte ≤ 0xEF then
    ([], some ⟨byte % 0x10, 2, if byte = 0xE0 then 0xA0 else 0x80,
      if byte = 0xED then 0x9F else 0xBF⟩)
  else if 0xF0 ≤ byte ∧ byte ≤ 0xF4 then
    ([], some ⟨byte % 8, 3, if byte = 0xF0 then 0x90 else 0x80,
      if byte = 0xF4 then 0x8F else 0xBF⟩)
  else ([replacement], none)

/-- Decoding that replaces what is not UTF-8, from within a character. -/
def replaceInvalid : Option Pending → List UInt8 → List Char
  | none, [] => []
  | some _, [] => [replacement]
  | none, byte :: rest =>
    let (done, pending) := begin byte.toNat
    done ++ replaceInvalid pending rest
  | some pending, byte :: rest =>
    if pending.lower ≤ byte.toNat ∧ byte.toNat ≤ pending.upper then
      let point := pending.point * 0x40 + byte.toNat % 0x40
      if pending.missing = 1 then Char.ofNat point :: replaceInvalid none rest
      else replaceInvalid (some ⟨point, pending.missing - 1, 0x80, 0xBF⟩) rest
    else
      let (done, pending) := begin byte.toNat
      replacement :: done ++ replaceInvalid pending rest

/-- The text of bytes in UTF-8. -/
def textOf (bytes : List UInt8) : String :=
  (String.fromUTF8? ⟨bytes.toArray⟩).getD (String.ofList (replaceInvalid none bytes))

/-- `Buffer.from(text, 'utf8').toString('base64')`. -/
def base64 (text : String) : String := String.ofList (encode text.toUTF8.data.toList)

/-- `Buffer.from(text, 'base64').toString('utf8')`. -/
def fromBase64 (text : String) : String := textOf (decode text.toList)

/-- **The text is read back.** -/
theorem fromBase64_base64 (text : String) : fromBase64 (base64 text) = text := by
  rw [fromBase64, base64, String.toList_ofList, decode_encode_bytes, textOf, Array.toArray_toList]
  have hvalid : String.fromUTF8? text.toUTF8 = some text := by
    rw [String.fromUTF8?, String.toUTF8_eq_toByteArray, dif_pos text.isValidUTF8]
    rfl
  rw [hvalid, Option.getD_some]

theorem base64_inj {s t : String} : base64 s = base64 t ↔ s = t :=
  ⟨fun h => by rw [← fromBase64_base64 s, h, fromBase64_base64], congrArg base64⟩

theorem colon_notMem_base64 (text : String) : ':' ∉ (base64 text).toList := by
  rw [base64, String.toList_ofList]
  exact colon_notMem_encode _

/-- **Encoded texts joined with colons** are determined by their join. -/
theorem join_map_base64_inj {texts texts' : List String} (h : texts ≠ []) (h' : texts' ≠ []) :
    Text.join ':' (texts.map base64) = Text.join ':' (texts'.map base64) ↔ texts = texts' := by
  refine ⟨fun heq => ?_, fun heq => heq ▸ rfl⟩
  have hmark : ∀ l : List String, ∀ s ∈ l.map base64, ':' ∉ s.toList := by
    intro l s hs
    obtain ⟨t, -, rfl⟩ := List.mem_map.mp hs
    exact colon_notMem_base64 t
  have hmap := Text.join_inj (by simpa using h) (by simpa using h') (hmark texts) (hmark texts') heq
  exact List.map_injective_iff.mpr (fun _ _ => base64_inj.mp) hmap

end Base64
