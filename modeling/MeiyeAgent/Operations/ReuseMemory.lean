import Mathlib.Algebra.Order.Field.Rat
import MeiyeAgent.Foundation.JsonText
import MeiyeAgent.Foundation.Schemas

/-!
# Operations/ReuseMemory — what a store prefers

A preference is proposed as a candidate.  The records are those the schemas have read: numbers
carry the range they are read in.
-/

namespace MeiyeAgent

/-- What a memory is of. -/
inductive PreferenceMemoryKind
  | preference | episode | procedure | correction
  deriving DecidableEq

/-- How firmly a memory was meant. -/
inductive PreferenceMemoryAuthority
  | observation | session | strong | confirmed
  deriving DecidableEq

/-- Where a memory stands. -/
inductive PreferenceMemoryState
  | active | proposed | superseded | revoked | expired
  deriving DecidableEq

/-- Whether a memory fades. -/
inductive MemoryDecayMode
  | none_ | soft_preference
  deriving DecidableEq

/-- How a memory fades, and how fast. -/
structure PreferenceMemoryDecay where
  mode : MemoryDecayMode
  halfLifeDays : Option {days : ℚ // 0 < days} := none
  deriving DecidableEq

/-- How far a memory reaches. -/
inductive PreferenceMemoryChannel
  | session | cross_thread
  deriving DecidableEq

/-- A number from zero to one. -/
abbrev Confidence := {confidence : ℚ // 0 ≤ confidence ∧ confidence ≤ 1}

/-- Where a preference applies: in a store, for a persona, a scene, a platform. -/
structure ReusableAssetScope where
  storeId : String
  personaId : Option String := none
  scene : Option String := none
  platform : Option String := none
  deriving DecidableEq

/-- The words of a conversation a candidate was read from. -/
structure MemoryCandidateSource where
  conversationId : String
  sourceTurnId : String
  start : Nat
  end_ : Nat
  deriving DecidableEq

/-- What made a preference a candidate. -/
inductive PreferenceTrigger
  | explicit_long_term_intent | repeated_signal
  deriving DecidableEq

/-- What became of a candidate. -/
inductive PreferenceCandidateStatus
  | pending | confirmed | rejected
  deriving DecidableEq

/-- What a candidate says about itself, absent on rows of an earlier form. -/
structure MemoryFields where
  kind : Option PreferenceMemoryKind := none
  authority : Option PreferenceMemoryAuthority := none
  memoryState : Option PreferenceMemoryState := none
  decay : Option PreferenceMemoryDecay := none
  confidence : Option Confidence := none
  statement : Option String := none
  threadId : Option String := none
  channel : Option PreferenceMemoryChannel := none
  deriving DecidableEq

/-- A preference that is proposed. -/
structure PreferenceCandidate extends MemoryFields where
  candidateId : String
  workspaceId : String
  semanticKey : String
  proposedValue : Json
  defaultScope : ReusableAssetScope
  evidenceDecisionIds : List String
  evidenceTaskIds : List String
  trigger : PreferenceTrigger
  status : PreferenceCandidateStatus
  proposedAt : String
  source : Option MemoryCandidateSource := none

end MeiyeAgent
