import MeiyeAgent.Foundation.Runtime

/-!
# CreditBilling/Cycles — the monthly cycles of a subscription

Cycle `k` of a subscription starts `k` calendar months after its anchor, on the anchor's day of the
month or the last day there is.  The arithmetic is `Date.UTC`'s, its reading of the years 0 to 99
included, and a date out of range throws where the source prints it.
-/

namespace MeiyeAgent

open Calendar

/-! ## Dates -/

/-- `date(value, field)`, as an instant. -/
def date (host : Host) (value field : String) : Except Thrown Int :=
  match host.dateParse value with
  | some ms =>
    if Text.isBlank value then .error (.error (field ++ " must be an ISO timestamp.")) else .ok ms
  | none => .error (.error (field ++ " must be an ISO timestamp."))

/-- A date is read whatever field it is read for. -/
theorem date_eq_ok {host : Host} {value field : String} {ms : Int} :
    date host value field = .ok ms ↔ host.dateParse value = some ms ∧ Text.isBlank value = false := by
  rw [date]
  split
  · next parsed h => rw [h]; split <;> simp_all
  · next h => simp [h]

/-- `iso(value)`: a normalised timestamp is kept as its instant. -/
def iso (host : Host) (value : String) : Except Thrown Int := date host value "timestamp"

/-- **The text of an instant is a timestamp**, read as the instant. -/
theorem iso_isoText (host : Host) (t : TimeValue) : iso host (isoText t) = .ok t.val := by
  have hblank : Text.isBlank (isoText t) = false := by
    rw [isoText, dayText, ← List.append_assoc]
    exact Text.isBlank_concat (by decide)
  rw [iso, date, host.dateParse_isoText t t.property]
  simp [hblank]

/-- `a > b` on the normalised texts of two instants. -/
def isoTextAfter (a b : Int) : Bool := isoText b < isoText a

/-- `Date.UTC` reads a year of 0 to 99 as 1900 to 1999. -/
def utcYear (year : Int) : Int := if 0 ≤ year ∧ year ≤ 99 then 1900 + year else year

/-- The month `Date.UTC` is given for the month `offset` months after that of `anchor`. -/
def targetMonth (anchor offset : Int) : Int :=
  12 * utcYear ((monthOfInstant anchor + offset) / 12) + (monthOfInstant anchor + offset) % 12

/-- `addUtcMonths`, `none` for an invalid date. -/
def addUtcMonths (anchor offset : Int) : Option Int := do
  let month := targetMonth anchor offset
  -- the day before the first of the next month, whose date is the last day of this one
  let _ ← timeClip ((monthStart (month + 1) - 1) * msPerDay)
  timeClip ((monthStart month + min (dayOfMonth anchor) (monthLength month) - 1) * msPerDay +
    anchor % msPerDay)

structure CreditSubscriptionCycle where
  cycleIndex : Nat
  startsAt : Int
  endsAt : Int
  deriving DecidableEq, Repr

/-- `toISOString` throws on an invalid date. -/
def validDate : Option Int → Except Thrown Int
  | some ms => .ok ms
  | none => .error (.rangeError "Invalid time value")

def creditSubscriptionCycle (anchorAt : Int) (cycleIndex : Nat) :
    Except Thrown CreditSubscriptionCycle := do
  let startsAt ← validDate (addUtcMonths anchorAt cycleIndex)
  let endsAt ← validDate (addUtcMonths anchorAt (cycleIndex + 1))
  pure ⟨cycleIndex, startsAt, endsAt⟩

/-! ## The cycle of a moment -/

/-- The first loop: back while the cycle starts after the target. -/
def cycleBack (anchorAt target : Int) : Nat → Except Thrown Nat
  | 0 => .ok 0
  | k + 1 => do
    let cycle ← creditSubscriptionCycle anchorAt (k + 1)
    if target < cycle.startsAt then cycleBack anchorAt target k else pure (k + 1)

/-- The second loop: forward while the next cycle starts by the target.  The loop leaves the range
of dates, and throws, before `fuel` runs out. -/
def cycleForward (anchorAt target : Int) : Nat → Nat → Except Thrown Nat
  | 0, _ => .error (.rangeError "Invalid time value")
  | fuel + 1, k => do
    let cycle ← creditSubscriptionCycle anchorAt (k + 1)
    if cycle.startsAt ≤ target then cycleForward anchorAt target fuel (k + 1) else pure k

/-- The number of the last month a date can have. -/
def lastMonth : Int := 12 * 275760 + 8

/-- Steps from a cycle to beyond the last month. -/
def cyclesLeft (anchorAt : Int) (k : Nat) : Nat :=
  (lastMonth - monthOfInstant anchorAt - k + 1).toNat

def creditSubscriptionCycleIndexAt (anchorAt target : Int) : Except Thrown Int :=
  if target < anchorAt then .ok (-1)
  else do
    let k ← cycleBack anchorAt target (monthOfInstant target - monthOfInstant anchorAt).toNat
    let k ← cycleForward anchorAt target (cyclesLeft anchorAt k) k
    pure k

/-! ## The cycles that have begun -/

/-- The loop: the next `left` cycles from cycle `k`, up to the first that has not begun. -/
def dueCycles (anchorAt now : Int) : Nat → Nat → Except Thrown (List CreditSubscriptionCycle)
  | 0, _ => pure []
  | left + 1, k => do
    let cycle ← creditSubscriptionCycle anchorAt k
    if now < cycle.startsAt then pure []
    else do
      let later ← dueCycles anchorAt now left (k + 1)
      pure (cycle :: later)

/-- The cycle `now` lies in, among the first `paidThroughCycle`. -/
def currentCycle (anchorAt now : Int) (paidThroughCycle : Int) :
    Except Thrown (Option CreditSubscriptionCycle) := do
  let due ← dueCycles anchorAt now paidThroughCycle.toNat 0
  pure (due.getLast?.filter fun cycle => now < cycle.endsAt)

example : creditSubscriptionCycleIndexAt 1785587400250 1790000000000 = .ok 1 := by decide

end MeiyeAgent
