import Mathlib.Data.Int.ConditionallyCompleteOrder
import Mathlib.Data.Int.Log
import Mathlib.Data.Rat.Floor
import Mathlib.Tactic.GCongr
import Mathlib.Tactic.Linarith

/-!
# Machinery/Doubles — rationals rounded to doubles

* `nearest` — the double nearest a positive rational of normal range, which is off by a
  half-spacing at most (`abs_nearest_sub_le`).
* `nearest_mono`, `nearest_intCast` — rounding keeps the order, and the integers of 53 bits.
* `rounded`, `IsDouble` — rounding of any rational, of either sign and however small.
-/

namespace Doubles

/-- The integer nearest a rational, the even one of two. -/
def roundHalfEven (q : ℚ) : ℤ :=
  if Int.fract q < 1 / 2 ∨ (Int.fract q = 1 / 2 ∧ ⌊q⌋ % 2 = 0) then ⌊q⌋ else ⌊q⌋ + 1

theorem abs_roundHalfEven_sub_le (q : ℚ) : |roundHalfEven q - q| ≤ 1 / 2 := by
  have hsplit : q - ⌊q⌋ = Int.fract q := Int.self_sub_floor q
  have hnonneg := Int.fract_nonneg q
  have hlt := Int.fract_lt_one q
  rw [roundHalfEven, abs_le]
  split
  · next h =>
    have hle : Int.fract q ≤ 1 / 2 := h.elim le_of_lt fun h => h.1.le
    constructor <;> linarith
  · next h =>
    have hle : 1 / 2 ≤ Int.fract q := not_lt.mp (not_or.mp h).1
    push_cast
    constructor <;> linarith

/-- The distance between the doubles about a positive rational: 53 bits are kept. -/
def spacing (q : ℚ) : ℚ := 2 ^ (Int.log 2 q - 52)

/-- **The nearest double.** -/
def nearest (q : ℚ) : ℚ := roundHalfEven (q / spacing q) * spacing q

variable {q : ℚ}

theorem spacing_pos (q : ℚ) : 0 < spacing q := zpow_pos two_pos _

theorem spacing_le (hq : 0 < q) : spacing q ≤ q / 2 ^ 52 := by
  have hlog : (2 : ℚ) ^ Int.log 2 q ≤ q := by
    exact_mod_cast Int.zpow_log_le_self one_lt_two hq
  have hsplit : spacing q = 2 ^ Int.log 2 q / 2 ^ 52 := zpow_sub₀ two_ne_zero _ _
  rw [hsplit]
  gcongr

/-- **A rational is a half-spacing at most from its double.** -/
theorem abs_nearest_sub_le (hq : 0 < q) : |nearest q - q| ≤ q / 2 ^ 53 := by
  have hpos := spacing_pos q
  have hsplit : nearest q - q = (roundHalfEven (q / spacing q) - q / spacing q) * spacing q := by
    rw [sub_mul, div_mul_cancel₀ q hpos.ne']
    rfl
  calc |nearest q - q|
      = |roundHalfEven (q / spacing q) - q / spacing q| * spacing q := by
        rw [hsplit, abs_mul, abs_of_pos hpos]
    _ ≤ 1 / 2 * (q / 2 ^ 52) := by
        gcongr
        · exact abs_roundHalfEven_sub_le _
        · exact spacing_le hq
    _ = q / 2 ^ 53 := by ring

/-! ## The order, and the integers -/

theorem roundHalfEven_intCast (n : ℤ) : roundHalfEven n = n := by
  rw [roundHalfEven, Int.fract_intCast, Int.floor_intCast, if_pos (.inl (by norm_num))]

/-- **Rounding keeps the order**: were the smaller rounded up past the larger, the two would be one
half. -/
theorem roundHalfEven_mono : Monotone roundHalfEven := by
  intro q q' hle
  by_contra hlt
  obtain ⟨-, hq⟩ := abs_le.mp (abs_roundHalfEven_sub_le q)
  obtain ⟨hq', -⟩ := abs_le.mp (abs_roundHalfEven_sub_le q')
  have hstep : (roundHalfEven q' : ℚ) + 1 ≤ roundHalfEven q := by exact_mod_cast not_le.mp hlt
  have hsame : q = q' := le_antisymm hle (by linarith)
  exact hlt (le_of_eq (by rw [hsame]))

theorem nearest_zero : nearest 0 = 0 := by
  have hzero : roundHalfEven ((0 : ℤ) : ℚ) = 0 := roundHalfEven_intCast 0
  rw [nearest, zero_div, ← Int.cast_zero, hzero, Int.cast_zero, zero_mul]

/-- The significand of a positive rational has 53 bits. -/
theorem significand_bounds (hq : 0 < q) : 2 ^ 52 ≤ q / spacing q ∧ q / spacing q < 2 ^ 53 := by
  have hlow : (2 : ℚ) ^ Int.log 2 q ≤ q := by
    exact_mod_cast Int.zpow_log_le_self one_lt_two hq
  have hhigh : q < (2 : ℚ) ^ (Int.log 2 q + 1) := by
    exact_mod_cast Int.lt_zpow_succ_log_self one_lt_two q
  have hstep : (2 : ℚ) ^ Int.log 2 q = 2 ^ 52 * spacing q := by
    rw [spacing, zpow_sub₀ two_ne_zero, zpow_ofNat]
    field_simp
  rw [le_div_iff₀ (spacing_pos q), div_lt_iff₀ (spacing_pos q)]
  rw [zpow_add_one₀ two_ne_zero] at hhigh
  constructor <;> linarith

/-- The double of a positive rational keeps to its binade. -/
theorem nearest_bounds (hq : 0 < q) : (2 : ℚ) ^ Int.log 2 q ≤ nearest q ∧
    nearest q ≤ (2 : ℚ) ^ (Int.log 2 q + 1) := by
  obtain ⟨hlow, hhigh⟩ := significand_bounds hq
  have hpos := spacing_pos q
  have hlow' : ((2 ^ 52 : ℤ) : ℚ) ≤ roundHalfEven (q / spacing q) := by
    rw [← roundHalfEven_intCast (2 ^ 52)]
    exact_mod_cast roundHalfEven_mono (by exact_mod_cast hlow)
  have hhigh' : (roundHalfEven (q / spacing q) : ℚ) ≤ ((2 ^ 53 : ℤ) : ℚ) := by
    rw [← roundHalfEven_intCast (2 ^ 53)]
    exact_mod_cast roundHalfEven_mono (by exact_mod_cast hhigh.le)
  have hstep : (2 : ℚ) ^ Int.log 2 q = 2 ^ 52 * spacing q := by
    rw [spacing, zpow_sub₀ two_ne_zero, zpow_ofNat]
    field_simp
  rw [zpow_add_one₀ two_ne_zero, hstep, nearest]
  push_cast at hlow' hhigh'
  constructor <;> nlinarith

theorem nearest_nonneg (hq : 0 ≤ q) : 0 ≤ nearest q := by
  rcases hq.eq_or_lt with rfl | hq
  · rw [nearest_zero]
  · exact (zpow_pos two_pos _).le.trans (nearest_bounds hq).1

/-- **The nearest double keeps the order.** -/
theorem nearest_mono {q' : ℚ} (hq : 0 ≤ q) (hle : q ≤ q') : nearest q ≤ nearest q' := by
  rcases hq.eq_or_lt with rfl | hq
  · rw [nearest_zero]
    exact nearest_nonneg hle
  have hlog : Int.log 2 q ≤ Int.log 2 q' := Int.log_mono_right hq hle
  rcases hlog.eq_or_lt with hsame | hless
  · have hspacing : spacing q' = spacing q := by rw [spacing, spacing, hsame]
    rw [nearest, nearest, hspacing]
    have hpos := spacing_pos q
    gcongr
    exact roundHalfEven_mono (by gcongr)
  · calc nearest q ≤ 2 ^ (Int.log 2 q + 1) := (nearest_bounds hq).2
      _ ≤ 2 ^ Int.log 2 q' := zpow_le_zpow_right₀ one_le_two hless
      _ ≤ nearest q' := (nearest_bounds (hq.trans_le hle)).1

/-- **An integer of 53 bits is a double.** -/
theorem nearest_intCast {n : ℤ} (hn : 0 ≤ n) (hlt : n < 2 ^ 53) : nearest n = n := by
  rcases hn.eq_or_lt with rfl | hn
  · rw [Int.cast_zero, nearest_zero]
  have hpos : (0 : ℚ) < n := by exact_mod_cast hn
  have hlog : Int.log 2 (n : ℚ) < 53 := by
    refine (Int.lt_zpow_iff_log_lt one_lt_two hpos).mp ?_
    exact_mod_cast hlt
  -- the spacing is a power of one half, so the significand is an integer
  obtain ⟨k, hk⟩ : ∃ k : ℕ, (k : ℤ) = 52 - Int.log 2 (n : ℚ) :=
    ⟨(52 - Int.log 2 (n : ℚ)).toNat, by omega⟩
  have hspacing : spacing (n : ℚ) = (2 ^ k)⁻¹ := by
    rw [spacing, ← zpow_natCast, ← zpow_neg, hk, neg_sub]
  have hinteger : (n : ℚ) / spacing n = ((n * 2 ^ k : ℤ) : ℚ) := by
    rw [hspacing, div_inv_eq_mul]
    push_cast
    rfl
  rw [nearest, hinteger, roundHalfEven_intCast, ← hinteger, div_mul_cancel₀ _ (spacing_pos _).ne']

/-- What is at most an integer of 53 bits stays so. -/
theorem nearest_le_intCast {n : ℤ} (hq : 0 ≤ q) (hn : 0 ≤ n) (hlt : n < 2 ^ 53) (hle : q ≤ n) :
    nearest q ≤ n := (nearest_mono hq hle).trans_eq (nearest_intCast hn hlt)

/-! ## Every rational -/

/-- The distance between the doubles about any rational: below the normal range it stays the
same. -/
def gap (q : ℚ) : ℚ := 2 ^ max (Int.log 2 |q| - 52) (-1074)

/-- **The double of a rational**, if its size is at most `largest`. -/
def rounded (q : ℚ) : ℚ := roundHalfEven (q / gap q) * gap q

/-- The largest finite double. -/
def largest : ℚ := (2 ^ 53 - 1) * 2 ^ 971

/-- **A finite double.** -/
def IsDouble (q : ℚ) : Prop := |q| ≤ largest ∧ rounded q = q

instance (q : ℚ) : Decidable (IsDouble q) := inferInstanceAs (Decidable (_ ∧ _))

theorem rounded_zero : rounded 0 = 0 := by
  have hzero : roundHalfEven ((0 : ℤ) : ℚ) = 0 := roundHalfEven_intCast 0
  rw [rounded, zero_div, ← Int.cast_zero, hzero, Int.cast_zero, zero_mul]

theorem rounded_nonneg (hq : 0 ≤ q) : 0 ≤ rounded q := by
  have hpos : 0 < gap q := zpow_pos two_pos _
  have hle : roundHalfEven ((0 : ℤ) : ℚ) ≤ roundHalfEven (q / gap q) :=
    roundHalfEven_mono (by rw [Int.cast_zero]; exact div_nonneg hq hpos.le)
  rw [roundHalfEven_intCast] at hle
  exact mul_nonneg (by exact_mod_cast hle) hpos.le

end Doubles
