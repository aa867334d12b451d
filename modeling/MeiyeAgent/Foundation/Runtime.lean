import MeiyeAgent.Foundation.Instants
import MeiyeAgent.Machinery.Effect
import MeiyeAgent.Machinery.Text
import Mathlib.Data.List.Sort
import Mathlib.Data.String.Basic

/-!
# Foundation/Runtime — errors, numbers, clocks and texts as the services see them

* `P1DomainError` and the errors the host raises itself, as one type `Thrown`.
* `Host` — the two host functions whose results the language leaves open: `Date.parse` beyond its
  own date format, and `localeCompare`.  Every definition below takes one.
* Amounts are integers.  A number that may be `NaN` (a difference of two parsed dates) is an
  `Option Int`, `none` standing for `NaN`; each comparison with `NaN` is false.
-/

namespace MeiyeAgent

/-! ## Errors -/

/-- The codes of a domain error. -/
inductive P1ErrorCode
  | NOT_FOUND
  | FORBIDDEN
  | INSUFFICIENT_ENTITLEMENT
  | IDEMPOTENCY_CONFLICT
  | INVALID_STATE
  | COMMANDS_FROZEN
  | P1_WRITE_DISABLED
  | WRITE_OWNERSHIP_MISSING
  deriving DecidableEq, Repr

/-- What a call may throw: a `P1DomainError`, a plain `Error`, the host's `RangeError`, or a
`DeferredCreditPaymentEvent`. -/
inductive Thrown
  | domain (code : P1ErrorCode) (message : String)
  | error (message : String)
  | rangeError (message : String)
  | deferred (message : String)
  deriving DecidableEq, Repr

/-! ## Numbers -/

/-- `Number.MAX_SAFE_INTEGER`. -/
def maxSafeInteger : Int := 9007199254740991

/-- `Number.isSafeInteger`, on a number that is an integer. -/
def isSafeInteger (n : Int) : Bool := -maxSafeInteger ≤ n ∧ n ≤ maxSafeInteger

/-- A difference that may be `NaN`. -/
def Num.sub (a b : Option Int) : Option Int := do return (← a) - (← b)

/-- `a <= b`, false on `NaN`. -/
def Num.le : Option Int → Option Int → Bool
  | some a, some b => a ≤ b
  | _, _ => false

/-- `a > b`, false on `NaN`. -/
def Num.gt : Option Int → Option Int → Bool
  | some a, some b => b < a
  | _, _ => false

/-- `a === b`, false on `NaN`. -/
def Num.eq : Option Int → Option Int → Bool
  | some a, some b => a == b
  | _, _ => false

@[simp] theorem Num.le_some (a b : Int) : Num.le (some a) (some b) = decide (a ≤ b) := rfl

@[simp] theorem Num.gt_some (a b : Int) : Num.gt (some a) (some b) = decide (b < a) := rfl

@[simp] theorem Num.eq_some (a b : Int) : Num.eq (some a) (some b) = (a == b) := rfl

/-- No two numbers are ordered both ways, `NaN` or not. -/
theorem Num.gt_eq_false_of_le {a b : Option Int} (h : Num.le a b = true) : Num.gt a b = false := by
  rcases a with _ | a <;> rcases b with _ | b
  · rfl
  · rfl
  · rfl
  · simpa using h

/-! ## The host -/

/-- **The host**: `Date.parse`, `none` where it gives `NaN`, and the sign of `localeCompare`.  What
`Date.parse` answers is a time value, and it reads the texts `toISOString` prints. -/
structure Host where
  dateParse : String → Option Int
  localeCompare : String → String → Int
  dateParse_range : ∀ text ms, dateParse text = some ms → -maxTime ≤ ms ∧ ms ≤ maxTime
  dateParse_isoText : ∀ ms, -maxTime ≤ ms ∧ ms ≤ maxTime → dateParse (isoText ms) = some ms

/-- The instant a date names, if it can be read. -/
def Host.instant (host : Host) (date : String) : Int := (host.dateParse date).getD 0

/-- The difference of two dates that can be read. -/
theorem Host.sub_dateParse {host : Host} {left right : String}
    (hl : ∃ ms, host.dateParse left = some ms) (hr : ∃ ms, host.dateParse right = some ms) :
    Num.sub (host.dateParse left) (host.dateParse right) =
      some (host.instant left - host.instant right) := by
  obtain ⟨l, hl⟩ := hl
  obtain ⟨r, hr⟩ := hr
  rw [instant, instant, hl, hr]
  rfl

/-- An instant a clock may show. -/
abbrev TimeValue := {ms : Int // -maxTime ≤ ms ∧ ms ≤ maxTime}

def TimeValue.epoch : TimeValue := ⟨0, by decide⟩

theorem timeClip_eq_some {ms t : Int} :
    timeClip ms = some t ↔ (-maxTime ≤ ms ∧ ms ≤ maxTime) ∧ ms = t := by
  rw [timeClip]
  split <;> simp_all

/-- **The host of concrete runs**: it reads the texts `toISOString` prints and no others, and
compares by code point. -/
def isoHost : Host where
  dateParse text := (parseIso text).bind timeClip
  localeCompare a b := if a < b then -1 else if a = b then 0 else 1
  dateParse_range text ms h := by
    obtain ⟨t, -, ht⟩ := Option.bind_eq_some_iff.mp h
    obtain ⟨hrange, rfl⟩ := timeClip_eq_some.mp ht
    exact hrange
  dateParse_isoText ms h := by
    rw [parseIso_isoText h, Option.bind_some]
    exact timeClip_eq_some.mpr ⟨h, rfl⟩

/-- **How `localeCompare` compares**: as an order, in which texts may tie. -/
structure Collates (host : Host) : Prop where
  antisymm : ∀ a b, host.localeCompare a b < 0 ↔ 0 < host.localeCompare b a
  trans : ∀ a b c, host.localeCompare a b ≤ 0 → host.localeCompare b c ≤ 0 →
    host.localeCompare a c ≤ 0

theorem Collates.antisymm' {host : Host} (h : Collates host) (s t : String) :
    0 < host.localeCompare s t ↔ host.localeCompare t s < 0 := (h.antisymm t s).symm

theorem Collates.self {host : Host} (h : Collates host) (s : String) :
    host.localeCompare s s = 0 := by
  have := h.antisymm s s
  omega

theorem collates_isoHost : Collates isoHost where
  antisymm a b := by
    rw [isoHost]
    dsimp only
    rcases lt_trichotomy a b with hlt | rfl | hgt
    · simp [hlt, hlt.not_gt, hlt.ne']
    · simp
    · simp [hgt, hgt.not_gt, hgt.ne']
  trans a b c hab hbc := by
    have hle : ∀ s t : String, isoHost.localeCompare s t ≤ 0 ↔ s ≤ t := fun s t => by
      rw [isoHost]
      dsimp only
      rcases lt_trichotomy s t with hlt | rfl | hgt
      · simp [hlt, hlt.le]
      · simp
      · simp [hgt.not_gt, hgt.ne', hgt]
    rw [hle] at hab hbc ⊢
    exact hab.trans hbc

/-- `Array.prototype.sort` with a comparator: stable, and a comparator that answers `NaN` leaves
the pair as it stands. -/
def sortBy {α : Type} (compare : α → α → Option Int) (l : List α) : List α :=
  l.insertionSort fun a b => (compare a b).getD 0 ≤ 0

theorem sortBy_perm {α : Type} (compare : α → α → Option Int) (l : List α) :
    (sortBy compare l).Perm l := List.perm_insertionSort _ l

/-- Sorted by a number that is never `NaN`, a list is in its order. -/
theorem sortBy_sorted {α : Type} (key : α → Int) (l : List α) :
    (sortBy (fun a b => some (key a - key b)) l).Pairwise fun a b => key a ≤ key b := by
  have htotal : Std.Total fun a b : α => key a - key b ≤ 0 :=
    ⟨fun a b => by have := Int.le_total (key a) (key b); omega⟩
  have htrans : IsTrans α fun a b => key a - key b ≤ 0 := ⟨fun _ _ _ _ _ => by omega⟩
  refine (List.pairwise_insertionSort (fun a b : α => key a - key b ≤ 0) l).imp fun h => ?_
  omega

/-- `value.trim() || other`, an absent value included. -/
def trimmedOr (value : Option String) (other : String) : String :=
  match value with
  | some v => if Text.isBlank v then other else Text.trim v
  | none => other

end MeiyeAgent
