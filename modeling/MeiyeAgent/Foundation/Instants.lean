import MeiyeAgent.Machinery.Calendar
import Mathlib.Data.List.Basic
import Mathlib.Tactic.IntervalCases

/-!
# Foundation/Instants — instants, and the one text every host reads back

An instant is a number of milliseconds since 1970, within the range of a `Date`.  `isoText` is
`Date.prototype.toISOString`; `parseIso` is `Date.parse` on the texts it prints.

* `parseIso_isoText` — **the round trip**: the text of an instant is read back as the instant.
-/

namespace MeiyeAgent

open Calendar

/-! ## Instants -/

def msPerDay : Int := 86400000

/-- The largest time value a `Date` holds, either way from 1970. -/
def maxTime : Int := 8640000000000000

/-- `TimeClip`: a time value out of range is an invalid date. -/
def timeClip (ms : Int) : Option Int := if -maxTime ≤ ms ∧ ms ≤ maxTime then some ms else none

/-- The month number of an instant, counted through the years. -/
def monthOfInstant (ms : Int) : Int := monthOf (ms / msPerDay)

/-- `getUTCDate`. -/
def dayOfMonth (ms : Int) : Int := ms / msPerDay - monthStart (monthOfInstant ms) + 1

/-! ## The text of an instant -/

/-- The last `w` decimal digits of `n`. -/
def pad : Nat → Nat → List Char
  | 0, _ => []
  | w + 1, n => pad w (n / 10) ++ [Nat.digitChar (n % 10)]

/-- The year of the text: four digits, or a sign and six. -/
def yearText (year : Int) : List Char :=
  if 0 ≤ year ∧ year ≤ 9999 then pad 4 year.toNat
  else if 0 ≤ year then '+' :: pad 6 year.toNat
  else '-' :: pad 6 (-year).toNat

/-- What follows the year, from the month (counted from 1) to the milliseconds of the day. -/
def dayText (month day time : Nat) : List Char :=
  '-' :: pad 2 month ++ '-' :: pad 2 day ++ 'T' :: pad 2 (time / 3600000) ++
    ':' :: pad 2 (time / 60000 % 60) ++ ':' :: pad 2 (time / 1000 % 60) ++
    '.' :: pad 3 (time % 1000) ++ ['Z']

/-- `Date.prototype.toISOString`. -/
def isoText (ms : Int) : String :=
  String.ofList (yearText (monthOfInstant ms / 12) ++
    dayText (monthOfInstant ms % 12 + 1).toNat (dayOfMonth ms).toNat (ms % msPerDay).toNat)

/-! ## Reading it back -/

/-- The number a run of decimal digits writes. -/
def digits : List Char → Option Nat
  | cs => cs.foldl (fun n c => do
      if c.isDigit then return 10 * (← n) + (c.toNat - '0'.toNat) else none) (some 0)

/-- The part after the year. -/
def parseDay (year : Int) : List Char → Option Int
  | ['-', m₁, m₂, '-', d₁, d₂, 'T', h₁, h₂, ':', n₁, n₂, ':', s₁, s₂, '.', t₁, t₂, t₃, 'Z'] => do
    let month ← digits [m₁, m₂]
    let day ← digits [d₁, d₂]
    let hour ← digits [h₁, h₂]
    let minute ← digits [n₁, n₂]
    let second ← digits [s₁, s₂]
    let ms ← digits [t₁, t₂, t₃]
    let number := 12 * year + month - 1
    if 1 ≤ month ∧ month ≤ 12 ∧ 1 ≤ day ∧ day ≤ monthLength number ∧
        hour < 24 ∧ minute < 60 ∧ second < 60 then
      return (monthStart number + day - 1) * msPerDay +
        ((hour * 60 + minute) * 60 + second) * 1000 + ms
    else none
  | _ => none

/-- `Date.parse` on the texts of `toISOString`. -/
def parseIso (text : String) : Option Int :=
  match text.toList with
  | '+' :: a :: b :: c :: d :: e :: f :: rest => do parseDay (← digits [a, b, c, d, e, f]) rest
  | '-' :: a :: b :: c :: d :: e :: f :: rest => do
    let year ← digits [a, b, c, d, e, f]
    if year = 0 then none else parseDay (-(year : Int)) rest
  | a :: b :: c :: d :: rest => do parseDay (← digits [a, b, c, d]) rest
  | _ => none

example : parseIso "2026-08-01T12:30:00.250Z" = some 1785587400250 := by decide

example : isoText 1785587400250 = "2026-08-01T12:30:00.250Z" := by decide

/-! ## The round trip -/

theorem digits_append (cs : List Char) (n : Nat) (h : n < 10) :
    digits (cs ++ [Nat.digitChar n]) = (digits cs).map (10 * · + n) := by
  have hd : (Nat.digitChar n).isDigit = true ∧ (Nat.digitChar n).toNat - '0'.toNat = n := by
    decide +revert
  rw [digits, List.foldl_append, List.foldl_cons, List.foldl_nil, hd.1, hd.2, digits]
  rcases List.foldl _ _ cs with _ | k <;> rfl

theorem digits_pad : ∀ (w n : Nat), n < 10 ^ w → digits (pad w n) = some n
  | 0, n, h => by
    obtain rfl : n = 0 := by omega
    rfl
  | w + 1, n, h => by
    have hlt : n / 10 < 10 ^ w := by
      rw [pow_succ] at h
      omega
    rw [pad, digits_append _ _ (by omega), digits_pad w (n / 10) hlt, Option.map_some]
    congr 1
    omega

theorem parseDay_dayText {year : Int} {month day time : Nat} (hm : 1 ≤ month ∧ month ≤ 12)
    (hd : 1 ≤ day ∧ (day : Int) ≤ monthLength (12 * year + month - 1)) (ht : time < 86400000) :
    parseDay year (dayText month day time) =
      some ((monthStart (12 * year + month - 1) + day - 1) * msPerDay + time) := by
  have h₂ (n : Nat) (hn : n < 100) :
      digits [Nat.digitChar (n / 10 % 10), Nat.digitChar (n % 10)] = some n := digits_pad 2 n hn
  have h₃ (n : Nat) (hn : n < 1000) : digits [Nat.digitChar (n / 10 / 10 % 10),
      Nat.digitChar (n / 10 % 10), Nat.digitChar (n % 10)] = some n := digits_pad 3 n hn
  have hlen := (monthLength_bounds (12 * year + month - 1)).2
  simp only [dayText, pad, List.nil_append, List.cons_append, parseDay,
    h₂ month (by omega), h₂ day (by omega), h₂ (time / 3600000) (by omega),
    h₂ (time / 60000 % 60) (by omega), h₂ (time / 1000 % 60) (by omega),
    h₃ (time % 1000) (by omega), Option.bind_eq_bind, Option.bind_some]
  rw [if_pos (by omega)]
  simp only [Option.pure_def, Option.some.injEq, msPerDay]
  push_cast
  omega

/-- A year of four digits or of a sign and six is read back. -/
theorem parseIso_yearText {year : Int} (h : -1000000 < year ∧ year < 1000000) (rest : List Char) :
    parseIso (String.ofList (yearText year ++ rest)) = parseDay year rest := by
  have h₄ (n : Nat) (hn : n < 10000) : digits [Nat.digitChar (n / 10 / 10 / 10 % 10),
      Nat.digitChar (n / 10 / 10 % 10), Nat.digitChar (n / 10 % 10), Nat.digitChar (n % 10)] =
        some n := digits_pad 4 n hn
  have h₆ (n : Nat) (hn : n < 1000000) : digits [Nat.digitChar (n / 10 / 10 / 10 / 10 / 10 % 10),
      Nat.digitChar (n / 10 / 10 / 10 / 10 % 10), Nat.digitChar (n / 10 / 10 / 10 % 10),
      Nat.digitChar (n / 10 / 10 % 10), Nat.digitChar (n / 10 % 10), Nat.digitChar (n % 10)] =
        some n := digits_pad 6 n hn
  have hunsigned (k : Nat) (hk : k < 10) (b c d : Char) :
      parseIso (String.ofList (Nat.digitChar k :: b :: c :: d :: rest)) =
        (digits [Nat.digitChar k, b, c, d]).bind fun year => parseDay year rest := by
    rw [parseIso, String.toList_ofList]
    interval_cases k <;> rfl
  rw [yearText]
  split
  · next hy =>
    simp only [pad, List.nil_append, List.cons_append]
    rw [hunsigned _ (by omega), h₄ year.toNat (by omega), Option.bind_some,
      Int.toNat_of_nonneg hy.1]
  · split
    · next hy =>
      simp only [pad, List.nil_append, List.cons_append, parseIso, String.toList_ofList,
        h₆ year.toNat (by omega), Option.bind_eq_bind, Option.bind_some, Int.toNat_of_nonneg hy]
    · next hy =>
      simp only [pad, List.nil_append, List.cons_append, parseIso, String.toList_ofList,
        h₆ (-year).toNat (by omega), Option.bind_eq_bind, Option.bind_some]
      rw [if_neg (by omega)]
      congr 1
      omega

/-- **The round trip**: the text of an instant is read back as the instant. -/
theorem parseIso_isoText {ms : Int} (h : -maxTime ≤ ms ∧ ms ≤ maxTime) :
    parseIso (isoText ms) = some ms := by
  obtain ⟨hlow, hhigh⟩ := monthOf_spec (ms / msPerDay)
  obtain ⟨hnear, hnear'⟩ := monthStart_near (monthOf (ms / msPerDay))
  have hday : dayOfMonth ms = ms / msPerDay - monthStart (monthOf (ms / msPerDay)) + 1 := rfl
  have hmonth : monthOfInstant ms = monthOf (ms / msPerDay) := rfl
  obtain ⟨m, hm⟩ : ∃ m, m = monthOf (ms / msPerDay) := ⟨_, rfl⟩
  rw [← hm] at hlow hhigh hnear hnear' hday hmonth
  have hlength : monthLength m = monthStart (m + 1) - monthStart m := rfl
  have hbounds := monthLength_bounds m
  simp only [maxTime, msPerDay] at h hlow hhigh hnear hnear' hday
  have hnumber : 12 * (m / 12) + ((m % 12 + 1).toNat : Int) - 1 = m := by omega
  have htime : (ms % msPerDay).toNat < 86400000 := by
    simp only [msPerDay]
    omega
  rw [isoText, hmonth, parseIso_yearText (by omega),
    parseDay_dayText (by omega) (by rw [hnumber]; omega) htime, hnumber]
  simp only [Option.some.injEq, msPerDay]
  omega

end MeiyeAgent
