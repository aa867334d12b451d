import Mathlib.Data.List.Lex
import MeiyeAgent.Foundation.Runtime

/-!
# Foundation/TextOrder — the order `sort` puts texts in

`Array.prototype.sort` without a comparator goes by UTF-16 code units.  The units determine the
text, so the order is total on texts and a sorted list is determined by its members:
`sortTexts_eq_of_perm`.
-/

namespace MeiyeAgent

/-- The UTF-16 code units of a text, which `sort` without a comparator goes by. -/
def codeUnits (text : String) : List Nat :=
  text.toList.flatMap fun c =>
    if c.toNat < 0x10000 then [c.toNat]
    else [0xD800 + (c.toNat - 0x10000) / 0x400, 0xDC00 + (c.toNat - 0x10000) % 0x400]

/-- `Array.prototype.sort` on texts. -/
def sortTexts (texts : List String) : List String :=
  sortBy (fun a b => some (if codeUnits a < codeUnits b then -1
    else if codeUnits b < codeUnits a then 1 else 0)) texts

/-- A code point is no surrogate. -/
theorem toNat_scalar (c : Char) : c.toNat < 0xD800 ∨ 0xDFFF < c.toNat ∧ c.toNat < 0x110000 := by
  have h := c.valid
  rwa [UInt32.isValidChar] at h

theorem codeUnits_chars_inj : ∀ {cs ds : List Char},
    codeUnits (String.ofList cs) = codeUnits (String.ofList ds) → cs = ds
  | [], [], _ => rfl
  | [], d :: ds, h => by
    simp only [codeUnits, String.toList_ofList, List.flatMap_cons, List.flatMap_nil] at h
    split at h <;> simp at h
  | c :: cs, [], h => by
    simp only [codeUnits, String.toList_ofList, List.flatMap_cons, List.flatMap_nil] at h
    split at h <;> simp at h
  | c :: cs, d :: ds, h => by
    have htail : codeUnits (String.ofList cs) = codeUnits (String.ofList ds) → cs = ds :=
      codeUnits_chars_inj
    simp only [codeUnits, String.toList_ofList, List.flatMap_cons] at h htail
    have hc := toNat_scalar c
    have hd := toNat_scalar d
    -- a unit that begins a pair is a surrogate, so units split the same way on both sides
    have hsame : c.toNat = d.toNat := by
      split at h <;> split at h <;> simp only [List.cons_append, List.cons.injEq] at h <;> omega
    obtain rfl : c = d := Char.toNat_inj.mp hsame
    rw [List.append_cancel_left_eq] at h
    rw [htail h]

/-- **The code units determine the text.** -/
theorem codeUnits_inj {a b : String} : codeUnits a = codeUnits b ↔ a = b := by
  refine ⟨fun h => ?_, congrArg codeUnits⟩
  rw [← String.ofList_toList (s := a), ← String.ofList_toList (s := b)] at h
  exact String.toList_inj.mp (codeUnits_chars_inj h)

/-- `a` sorts no later than `b`. -/
def TextLe (a b : String) : Prop := codeUnits a ≤ codeUnits b

instance : DecidableRel TextLe := fun a b => inferInstanceAs (Decidable (codeUnits a ≤ codeUnits b))

instance : IsTrans String TextLe := ⟨fun _ _ _ h h' => le_trans h h'⟩

instance : Std.Total TextLe := ⟨fun a b => le_total (codeUnits a) (codeUnits b)⟩

instance : Std.Antisymm TextLe := ⟨fun _ _ h h' => codeUnits_inj.mp (le_antisymm h h')⟩

theorem sortTexts_eq (texts : List String) : sortTexts texts = texts.insertionSort TextLe := by
  rw [sortTexts, sortBy]
  congr 1
  ext a b
  rw [Option.getD_some, TextLe]
  split
  · next h => simpa using h.le
  · next h =>
    split
    · next h' => simpa using h'
    · next h' => simpa using not_lt.mp h'

theorem sortTexts_perm (texts : List String) : (sortTexts texts).Perm texts := by
  rw [sortTexts_eq]
  exact List.perm_insertionSort TextLe texts

theorem sortTexts_sorted (texts : List String) : (sortTexts texts).Pairwise TextLe := by
  rw [sortTexts_eq]
  exact List.pairwise_insertionSort TextLe texts

/-- **A sorted list is determined by its members.** -/
theorem sortTexts_eq_of_perm {texts texts' : List String} (h : texts.Perm texts') :
    sortTexts texts = sortTexts texts' := by
  refine List.Perm.eq_of_pairwise ?_ (sortTexts_sorted _) (sortTexts_sorted _) ?_
  · exact fun a b _ _ hab hba => codeUnits_inj.mp (le_antisymm hab hba)
  · exact (sortTexts_perm texts).trans (h.trans (sortTexts_perm texts').symm)

/-- Sorting a sorted list leaves it. -/
theorem sortTexts_of_sorted {texts : List String} (h : texts.Pairwise TextLe) :
    sortTexts texts = texts := by
  refine List.Perm.eq_of_pairwise ?_ (sortTexts_sorted _) h (sortTexts_perm texts)
  exact fun a b _ _ hab hba => codeUnits_inj.mp (le_antisymm hab hba)

end MeiyeAgent
