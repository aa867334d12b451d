import MeiyeAgent.Foundation.TextOrder
import MeiyeAgent.Machinery.Reading

/-!
# Foundation/Schemas — the texts the contracts accept

A schema answers with the value it has parsed, `none` where it raises a `ZodError`.  A trimmed text
is parsed to itself.
-/

namespace MeiyeAgent

/-- A text that is there and not empty, as `if (text)` asks. -/
def truthy (text : Option String) : Option String := text.filter (· ≠ "")

theorem truthy_truthy (text : Option String) : truthy (truthy text) = truthy text := by
  rw [truthy, truthy, Option.filter_filter]
  simp

/-- `nonEmptyTrimmedStringSchema`, and `identifierSchema`. -/
def parseTrimmed (text : String) : Option String :=
  if Text.trim text = "" then none else some (Text.trim text)

/-- `.max(most)` on a text. -/
def parseMost (most : Nat) (text : String) : Option String :=
  if (codeUnits text).length ≤ most then some text else none

/-- `nonEmptyTrimmedStringSchema.max(most)`. -/
def parseTrimmedMost (most : Nat) (text : String) : Option String :=
  (parseTrimmed text).bind (parseMost most)

theorem parseTrimmed_eq_some {text parsed : String} (h : parseTrimmed text = some parsed) :
    parsed = Text.trim text ∧ parsed ≠ "" := by
  rw [parseTrimmed] at h
  split at h
  · exact nomatch h
  · next hne =>
    obtain rfl := Option.some.inj h
    exact ⟨rfl, hne⟩

/-- What has been trimmed is parsed to itself. -/
theorem parseTrimmed_idem {text parsed : String} (h : parseTrimmed text = some parsed) :
    parseTrimmed parsed = some parsed := by
  obtain ⟨rfl, hne⟩ := parseTrimmed_eq_some h
  rw [parseTrimmed, Text.trim_trim, if_neg hne]

theorem settles_parseTrimmed : Reading.Settles parseTrimmed := fun _ _ => parseTrimmed_idem

theorem settles_trimmedMost (most : Nat) : Reading.Settles (parseTrimmedMost most) := by
  intro text parsed h
  obtain ⟨trimmed, htrimmed, hmost⟩ := Option.bind_eq_some_iff.mp h
  have hsame : trimmed = parsed := by
    rw [parseMost] at hmost
    split at hmost
    · exact Option.some.inj hmost
    · exact nomatch hmost
  rw [hsame] at htrimmed hmost
  rw [parseTrimmedMost, parseTrimmed_idem htrimmed, Option.bind_some, hmost]

theorem parseTrimmed_eq_self {text : String} :
    parseTrimmed text = some text ↔ Text.trim text = text ∧ text ≠ "" := by
  rw [parseTrimmed]
  split
  · next hempty =>
    refine iff_of_false nofun fun ⟨htrim, hne⟩ => hne (htrim.symm.trans hempty)
  · next hne =>
    rw [Option.some.injEq]
    exact ⟨fun h => ⟨h, h ▸ hne⟩, And.left⟩

end MeiyeAgent
