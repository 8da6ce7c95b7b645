import Mathlib.Data.Int.Log
import Mathlib.Data.Rat.Floor

/-! Rounding of a rational number to the 53 significant bits of a double. The numbers that are
rounded here lie far inside the range of the exponents. -/

namespace Binary64

/-- The nearest whole number, the even one of two that are equally near. -/
def nearest (x : ℚ) : ℤ :=
  if x - ⌊x⌋ < 1 / 2 ∨ x - ⌊x⌋ = 1 / 2 ∧ ⌊x⌋ % 2 = 0 then ⌊x⌋ else ⌊x⌋ + 1

/-- The distance of the doubles around a number. -/
def ulp (x : ℚ) : ℚ := 2 ^ (Int.log 2 |x| - 52)

def rounded (x : ℚ) : ℚ := nearest (x / ulp x) * ulp x

theorem nearest_le {x : ℚ} {n : ℤ} (h : x ≤ n) : nearest x ≤ n := by
  unfold nearest
  split
  · exact Int.floor_le_iff.mpr (h.trans_lt (lt_add_one _))
  · rename_i hfar
    by_contra hlt
    -- a whole number above `x` that is not above its floor is `x` itself
    have hle : n ≤ ⌊x⌋ := by omega
    have heq : x = ⌊x⌋ := le_antisymm (h.trans (Int.cast_le.mpr hle)) (Int.floor_le x)
    refine hfar (.inl ?_)
    rw [← heq, sub_self]
    norm_num

theorem lt_nearest {x : ℚ} {n : ℤ} (h : n + 1 / 2 < x) : n < nearest x := by
  have hfloor : n ≤ ⌊x⌋ := Int.le_floor.mpr (by linarith)
  unfold nearest
  split
  · rename_i hnear
    rcases hfloor.lt_or_eq with hlt | heq
    · exact hlt
    · rw [← heq] at hnear
      rcases hnear with hnear | ⟨hnear, -⟩ <;> linarith
  · omega

theorem ulp_pos (x : ℚ) : 0 < ulp x := zpow_pos two_pos _

theorem nearest_intCast (n : ℤ) : nearest n = n := by
  unfold nearest
  rw [Int.floor_intCast, sub_self, if_pos (.inl (by norm_num))]

/-- A number below `2^53` lies among doubles that every whole number is one of. -/
theorem exists_eq_mul_ulp (hu : Int.log 2 |x| ≤ 52) (n : ℤ) : ∃ m : ℤ, n = m * ulp x := by
  obtain ⟨k, hk⟩ := Int.eq_ofNat_of_zero_le (sub_nonneg.mpr hu)
  refine ⟨n * 2 ^ k, ?_⟩
  unfold ulp
  rw [show Int.log 2 |x| - 52 = -(k : ℤ) by omega, zpow_neg, zpow_natCast, Int.cast_mul,
    Int.cast_pow, Int.cast_ofNat, mul_inv_cancel_right₀ (by positivity)]

theorem rounded_le {x : ℚ} (hu : Int.log 2 |x| ≤ 52) {n : ℤ} (h : x ≤ n) : rounded x ≤ n := by
  obtain ⟨m, hm⟩ := exists_eq_mul_ulp hu n
  rw [hm] at h ⊢
  exact mul_le_mul_of_nonneg_right
    (Int.cast_le.mpr (nearest_le ((div_le_iff₀ (ulp_pos x)).mpr h))) (ulp_pos x).le

theorem lt_rounded (hu : Int.log 2 |x| ≤ 52) {n : ℤ} (h : n + ulp x / 2 < x) :
    n < rounded x := by
  obtain ⟨m, hm⟩ := exists_eq_mul_ulp hu n
  rw [hm] at h ⊢
  refine mul_lt_mul_of_pos_right (Int.cast_lt.mpr (lt_nearest ?_)) (ulp_pos x)
  rw [lt_div_iff₀ (ulp_pos x)]
  linarith

theorem log_le {x : ℚ} (h₀ : 0 < x) (h : x < 2 ^ 53) : Int.log 2 |x| ≤ 52 := by
  rw [abs_of_pos h₀]
  have hlog := (Int.zpow_log_le_self one_lt_two h₀).trans_lt h
  rw [Nat.cast_ofNat, ← zpow_natCast, zpow_lt_zpow_iff_right₀ one_lt_two] at hlog
  omega

theorem rounded_natCast {n : ℕ} (h : n < 2 ^ 53) : rounded n = n := by
  rcases n.eq_zero_or_pos with rfl | hpos
  · unfold rounded
    rw [Nat.cast_zero, zero_div, show nearest 0 = 0 from nearest_intCast 0, Int.cast_zero, zero_mul]
  have hu : Int.log 2 |(n : ℚ)| ≤ 52 := log_le (Nat.cast_pos.mpr hpos) (by exact_mod_cast h)
  obtain ⟨m, hm⟩ := exists_eq_mul_ulp hu n
  rw [Int.cast_natCast] at hm
  unfold rounded
  rw [(div_eq_iff (ulp_pos _).ne').mpr hm, nearest_intCast, ← hm]

/-- The quotient of whole numbers below `2^53` is rounded to no other side of a whole number. -/
theorem ceil_rounded_div {a b : ℕ} (ha : 0 < a) (h : a < 2 ^ 53) (hb : 0 < b) :
    ⌈rounded (a / b)⌉ = ⌈(a / b : ℚ)⌉ := by
  have ha' : (0 : ℚ) < a := Nat.cast_pos.mpr ha
  have hb' : (0 : ℚ) < b := Nat.cast_pos.mpr hb
  have hx : (0 : ℚ) < a / b := div_pos ha' hb'
  have hlt : (a : ℚ) < 2 ^ 53 := by exact_mod_cast h
  have hle : (a / b : ℚ) ≤ a := div_le_self ha'.le (by exact_mod_cast hb)
  have hu := log_le hx (hle.trans_lt hlt)
  rw [Int.ceil_eq_iff]
  refine ⟨?_, rounded_le hu (Int.le_ceil _)⟩
  have hulp : ulp (a / b : ℚ) * b < 2 := by
    have hlog := Int.zpow_log_le_self one_lt_two hx
    rw [Nat.cast_ofNat, le_div_iff₀ hb'] at hlog
    unfold ulp
    rw [abs_of_pos hx, zpow_sub₀ two_ne_zero, div_mul_eq_mul_div, div_lt_iff₀ (by positivity)]
    calc _ ≤ (a : ℚ) := hlog
      _ < 2 ^ 53 := hlt
      _ = 2 * 2 ^ (52 : ℤ) := by norm_num
  -- the next whole number below the quotient is at least one part in `b` away
  have hceil := Int.ceil_lt_add_one (a / b : ℚ)
  rw [← sub_lt_iff_lt_add, lt_div_iff₀ hb'] at hceil
  have hstep : (⌈(a / b : ℚ)⌉ - 1) * (b : ℤ) + 1 ≤ a :=
    Int.add_one_le_iff.mpr (by exact_mod_cast hceil)
  have hstep' : ((⌈(a / b : ℚ)⌉ : ℚ) - 1) * b + 1 ≤ a := by exact_mod_cast hstep
  have hlow : ((⌈(a / b : ℚ)⌉ - 1 : ℤ) : ℚ) + ulp (a / b : ℚ) / 2 < a / b := by
    rw [lt_div_iff₀ hb']
    push_cast
    linarith
  have hgt := lt_rounded hu hlow
  push_cast at hgt
  exact hgt

end Binary64
