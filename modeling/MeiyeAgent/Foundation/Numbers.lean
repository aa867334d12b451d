import MeiyeAgent.Machinery.Doubles
import Mathlib.Algebra.Order.BigOperators.Group.List
import Mathlib.Algebra.Order.Group.Int

/-!
# Foundation/Numbers — integers as the numbers of the language

A number is a double, so a product, a quotient or a sum of integers is rounded to one.

* `numberShare` — the share of a whole: within it, and growing with the part.
* `addNumbers` — **a sum is exact below `2 ^ 53`** (`foldl_addNumbers`), and one that comes out below
  `2 ^ 53` was exact (`foldl_addNumbers_of_lt`).
-/

namespace MeiyeAgent

/-- `Math.round`. -/
def mathRound (x : ℚ) : Int := ⌊x + 1 / 2⌋

/-- The credits of a part of the whole, each step rounded to a double. -/
def numberShare (credits part whole : Int) : Int :=
  mathRound (Doubles.nearest (Doubles.nearest (credits * part) / whole))

/-- The sum of two integers, rounded to a double. -/
def addNumbers (a b : Int) : Int := ⌊Doubles.nearest ((a + b : Int) : ℚ)⌋

/-! ## Shares -/

theorem mathRound_nonneg {x : ℚ} (h : 0 ≤ x) : 0 ≤ mathRound x := by
  rw [mathRound, Int.floor_nonneg]
  linarith

theorem mathRound_mono : Monotone mathRound := by
  intro x y hle
  rw [mathRound, mathRound]
  gcongr

theorem mathRound_intCast (n : Int) : mathRound n = n := by
  rw [mathRound, Int.floor_eq_iff]
  constructor <;> linarith

variable {credits part part' whole : Int}

theorem numberShare_nonneg (hcredits : 0 ≤ credits) (hpart : 0 ≤ part) (hwhole : 0 ≤ whole) :
    0 ≤ numberShare credits part whole := by
  have hproduct : (0 : ℚ) ≤ credits * part := by exact_mod_cast mul_nonneg hcredits hpart
  have hquotient : (0 : ℚ) ≤ Doubles.nearest (credits * part) / whole :=
    div_nonneg (Doubles.nearest_nonneg hproduct) (by exact_mod_cast hwhole)
  exact mathRound_nonneg (Doubles.nearest_nonneg hquotient)

/-- **The share grows with the part.** -/
theorem numberShare_mono (hcredits : 0 ≤ credits) (hpart : 0 ≤ part) (hwhole : 0 ≤ whole)
    (hle : part ≤ part') : numberShare credits part whole ≤ numberShare credits part' whole := by
  have hcredits' : (0 : ℚ) ≤ credits := by exact_mod_cast hcredits
  have hwhole' : (0 : ℚ) ≤ whole := by exact_mod_cast hwhole
  have hproduct : (0 : ℚ) ≤ credits * part := by exact_mod_cast mul_nonneg hcredits hpart
  have hle' : (credits * part : ℚ) ≤ credits * part' := by gcongr
  refine mathRound_mono (Doubles.nearest_mono ?_ ?_)
  · exact div_nonneg (Doubles.nearest_nonneg hproduct) hwhole'
  · have := Doubles.nearest_mono hproduct hle'
    gcongr

theorem numberShare_le_iff {kept : Int} : numberShare credits part whole ≤ kept ↔
    Doubles.nearest (Doubles.nearest (credits * part) / whole) < kept + 1 / 2 := by
  rw [numberShare, mathRound, ← Int.lt_add_one_iff, Int.floor_lt]
  push_cast
  constructor <;> intro h <;> linarith

theorem numberShare_zero (credits whole : Int) : numberShare credits 0 whole = 0 := by
  have hzero : mathRound 0 = 0 := by exact_mod_cast mathRound_intCast 0
  rw [numberShare, Int.cast_zero, mul_zero, Doubles.nearest_zero, zero_div, Doubles.nearest_zero,
    hzero]

/-- **A share of less than the whole is at most the whole**: the product is off by less than what
the missing units take away. -/
theorem numberShare_le (hcredits : 0 ≤ credits) (hcredits' : credits < 2 ^ 53) (hpart : 0 ≤ part)
    (hlt : part < whole) (hwhole : whole < 2 ^ 53) : numberShare credits part whole ≤ credits := by
  have hcast : (0 : ℚ) ≤ credits := by exact_mod_cast hcredits
  have hpart' : (0 : ℚ) ≤ part := by exact_mod_cast hpart
  have hpos : (0 : ℚ) < whole := by exact_mod_cast hpart.trans_lt hlt
  have hstep : (part : ℚ) + 1 ≤ whole := by exact_mod_cast hlt
  have hproduct : (0 : ℚ) ≤ credits * part := mul_nonneg hcast hpart'
  have hshort : (part : ℚ) / 2 ^ 53 ≤ 1 := by
    have hsmall : (part : ℚ) ≤ 2 ^ 53 := by exact_mod_cast (hlt.trans hwhole).le
    rw [div_le_one (by positivity)]
    exact hsmall
  have hbound : Doubles.nearest (credits * part) ≤ credits * whole := by
    rcases hproduct.eq_or_lt with hnone | hsome
    · rw [← hnone, Doubles.nearest_zero]
      positivity
    · have hoff := (abs_le.mp (Doubles.abs_nearest_sub_le hsome)).2
      calc Doubles.nearest (credits * part)
          ≤ credits * (part + part / 2 ^ 53) := by
            linarith [mul_div_assoc (credits : ℚ) part (2 ^ 53)]
        _ ≤ credits * whole := by gcongr; linarith
  have hquotient : Doubles.nearest (credits * part) / whole ≤ credits :=
    (div_le_iff₀ hpos).mpr hbound
  calc numberShare credits part whole
      ≤ mathRound credits := mathRound_mono (Doubles.nearest_le_intCast
        (div_nonneg (Doubles.nearest_nonneg hproduct) hpos.le) hcredits hcredits' hquotient)
    _ = credits := mathRound_intCast credits

/-! ## Totals -/

variable {a b : Int}

theorem addNumbers_nonneg (ha : 0 ≤ a) (hb : 0 ≤ b) : 0 ≤ addNumbers a b := by
  rw [addNumbers, Int.floor_nonneg]
  exact Doubles.nearest_nonneg (by exact_mod_cast add_nonneg ha hb)

theorem addNumbers_eq (hnonneg : 0 ≤ a + b) (hlt : a + b < 2 ^ 53) : addNumbers a b = a + b := by
  rw [addNumbers, Doubles.nearest_intCast hnonneg hlt, Int.floor_intCast]

/-- A sum of `2 ^ 53` or more stays there. -/
theorem le_addNumbers (hle : 2 ^ 53 ≤ a + b) : 2 ^ 53 ≤ addNumbers a b := by
  have hle' : (2 : ℚ) ^ 53 ≤ ((a + b : Int) : ℚ) := by exact_mod_cast hle
  have hpos : (0 : ℚ) < ((a + b : Int) : ℚ) := lt_of_lt_of_le (by positivity) hle'
  have hlog : (53 : Int) ≤ Int.log 2 ((a + b : Int) : ℚ) := by
    refine (Int.zpow_le_iff_le_log one_lt_two hpos).mp ?_
    exact_mod_cast hle'
  rw [addNumbers, Int.le_floor]
  refine le_trans ?_ (Doubles.nearest_bounds hpos).1
  exact_mod_cast zpow_le_zpow_right₀ (one_le_two (α := ℚ)) hlog

/-- Something added to what is not negative leaves something. -/
theorem addNumbers_pos (h : 0 < a + b) : 0 < addNumbers a b := by
  have hone : Doubles.nearest ((1 : Int) : ℚ) = (1 : Int) :=
    Doubles.nearest_intCast zero_le_one (by norm_num)
  rw [addNumbers, ← Int.add_one_le_iff, zero_add, Int.le_floor, ← hone]
  exact Doubles.nearest_mono (by norm_num) (by exact_mod_cast h)

variable {numbers : List Int}

theorem foldl_addNumbers_nonneg (h : ∀ n ∈ numbers, 0 ≤ n) (ha : 0 ≤ a) :
    0 ≤ numbers.foldl addNumbers a := by
  induction numbers generalizing a with
  | nil => exact ha
  | cons n numbers ih =>
    obtain ⟨hn, hrest⟩ := List.forall_mem_cons.mp h
    exact ih hrest (addNumbers_nonneg ha hn)

theorem foldl_addNumbers_pos (h : ∀ n ∈ numbers, 0 ≤ n) (ha : 0 < a) :
    0 < numbers.foldl addNumbers a := by
  induction numbers generalizing a with
  | nil => exact ha
  | cons n numbers ih =>
    obtain ⟨hn, hrest⟩ := List.forall_mem_cons.mp h
    exact ih hrest (addNumbers_pos (by omega))

/-- **A total below `2 ^ 53` is exact.** -/
theorem foldl_addNumbers (h : ∀ n ∈ numbers, 0 ≤ n) (ha : 0 ≤ a) (hlt : a + numbers.sum < 2 ^ 53) :
    numbers.foldl addNumbers a = a + numbers.sum := by
  induction numbers generalizing a with
  | nil => rw [List.foldl_nil, List.sum_nil, add_zero]
  | cons n numbers ih =>
    obtain ⟨hn, hrest⟩ := List.forall_mem_cons.mp h
    have hsum : 0 ≤ numbers.sum := List.sum_nonneg hrest
    rw [List.sum_cons, ← add_assoc] at hlt ⊢
    rw [List.foldl_cons, addNumbers_eq (by omega) (by omega)]
    exact ih hrest (by omega) hlt

/-- A total of `2 ^ 53` or more stays there. -/
theorem le_foldl_addNumbers (h : ∀ n ∈ numbers, 0 ≤ n) (ha : 2 ^ 53 ≤ a) :
    2 ^ 53 ≤ numbers.foldl addNumbers a := by
  induction numbers generalizing a with
  | nil => exact ha
  | cons n numbers ih =>
    obtain ⟨hn, hrest⟩ := List.forall_mem_cons.mp h
    exact ih hrest (le_addNumbers (by omega))

/-- **A total that comes out below `2 ^ 53` is exact**: rounding never brings one back below. -/
theorem foldl_addNumbers_of_lt (h : ∀ n ∈ numbers, 0 ≤ n) (ha : 0 ≤ a)
    (hlt : numbers.foldl addNumbers a < 2 ^ 53) : numbers.foldl addNumbers a = a + numbers.sum := by
  induction numbers generalizing a with
  | nil => rw [List.foldl_nil, List.sum_nil, add_zero]
  | cons n numbers ih =>
    obtain ⟨hn, hrest⟩ := List.forall_mem_cons.mp h
    rw [List.foldl_cons] at hlt ⊢
    have hstep : a + n < 2 ^ 53 := by
      by_contra hge
      exact absurd hlt (not_lt.mpr (le_foldl_addNumbers hrest (le_addNumbers (not_lt.mp hge))))
    rw [addNumbers_eq (by omega) hstep] at hlt ⊢
    rw [ih hrest (by omega) hlt, List.sum_cons, add_assoc]

end MeiyeAgent
