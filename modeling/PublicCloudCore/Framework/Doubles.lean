import Mathlib

/-!
# Doubles

A rational number is rounded to a multiple of the last of the 53 bits that its size leaves it, or of
the smallest double. Integers are divided by rounding their quotient once.
-/

namespace PublicCloudCore.Framework.Doubles

/-- The nearest integer, and the even one of two. -/
def roundHalfEven (x : ℚ) : ℤ :=
  if Int.fract x < 1 / 2 then ⌊x⌋
  else if 1 / 2 < Int.fract x then ⌊x⌋ + 1
  else if ⌊x⌋ % 2 = 0 then ⌊x⌋ else ⌊x⌋ + 1

/-- The exponent of the last bit. -/
def lastBit (x : ℚ) : ℤ := max (Int.log 2 |x| - 52) (-1074)

/-- The nearest double, as long as there are exponents for it. -/
def toDouble (x : ℚ) : ℚ := roundHalfEven (x / 2 ^ lastBit x) * 2 ^ lastBit x

/-- The quotient of two integers; `none` where the divisor is zero or the quotient too large. -/
def trueDivide (a b : ℤ) : Option ℚ :=
  if b = 0 ∨ 2 ^ 1024 ≤ |toDouble (a / b)| then none else some (toDouble (a / b))

theorem roundHalfEven_cases (x : ℚ) :
    roundHalfEven x = ⌊x⌋ ∧ Int.fract x ≤ 1 / 2 ∨
      roundHalfEven x = ⌊x⌋ + 1 ∧ 1 / 2 ≤ Int.fract x := by
  rw [roundHalfEven]
  split
  · next h => exact .inl ⟨rfl, h.le⟩
  split
  · next h => exact .inr ⟨rfl, h.le⟩
  · next hlow hhigh =>
    split
    · exact .inl ⟨rfl, not_lt.mp hhigh⟩
    · exact .inr ⟨rfl, not_lt.mp hlow⟩

theorem sub_half_le_roundHalfEven (x : ℚ) : x - 1 / 2 ≤ roundHalfEven x := by
  have hparts := Int.floor_add_fract x
  have hfract := Int.fract_lt_one x
  rcases roundHalfEven_cases x with ⟨h, hle⟩ | ⟨h, hle⟩
  · rw [h]
    linarith
  · rw [h]
    push_cast
    linarith

theorem roundHalfEven_le {x : ℚ} {n : ℤ} (h : x ≤ n) : roundHalfEven x ≤ n := by
  have hparts := Int.floor_add_fract x
  have hfloor : ⌊x⌋ ≤ n := Int.floor_le_iff.mpr (h.trans_lt (lt_add_one _))
  rcases roundHalfEven_cases x with ⟨h', -⟩ | ⟨h', hle⟩
  · rwa [h']
  · rw [h']
    refine Int.add_one_le_iff.mpr (lt_of_le_of_ne hfloor fun heq => ?_)
    rw [heq] at hparts
    linarith

theorem roundHalfEven_intCast (n : ℤ) : roundHalfEven (n : ℚ) = n := by
  rcases roundHalfEven_cases (n : ℚ) with ⟨h, -⟩ | ⟨-, h⟩
  · rw [h, Int.floor_intCast]
  · rw [Int.fract_intCast] at h
    norm_num at h

section

variable {x : ℚ}

theorem zpow_lastBit_pos (x : ℚ) : (0 : ℚ) < 2 ^ lastBit x := zpow_pos two_pos _

/-- A multiple of the last bit above the number is above its double. -/
theorem toDouble_le {n m : ℤ} (h : x ≤ n) (hm : (n : ℚ) = m * 2 ^ lastBit x) :
    toDouble x ≤ n := by
  have hpos := zpow_lastBit_pos x
  have hround : roundHalfEven (x / 2 ^ lastBit x) ≤ m := by
    apply roundHalfEven_le
    rw [div_le_iff₀ hpos, ← hm]
    exact h
  rw [toDouble, hm]
  exact mul_le_mul_of_nonneg_right (Int.cast_le.mpr hround) hpos.le

/-- Half of the last bit is all that can get lost. -/
theorem sub_le_toDouble (x : ℚ) : x - 2 ^ lastBit x / 2 ≤ toDouble x := by
  have hpos := zpow_lastBit_pos x
  have hround := mul_le_mul_of_nonneg_right (sub_half_le_roundHalfEven (x / 2 ^ lastBit x)) hpos.le
  rw [toDouble]
  calc x - 2 ^ lastBit x / 2 = (x / 2 ^ lastBit x - 1 / 2) * 2 ^ lastBit x := by
        field_simp
    _ ≤ _ := hround

theorem toDouble_eq {m : ℤ} (hm : x = m * 2 ^ lastBit x) : toDouble x = x := by
  have hquotient : x / 2 ^ lastBit x = m := by
    rw [div_eq_iff (zpow_lastBit_pos x).ne']
    exact hm
  rw [toDouble, hquotient, roundHalfEven_intCast, ← hm]

theorem exists_multiple (hx : 0 < x) (h : x < 2 ^ 53) (n : ℤ) :
    ∃ m : ℤ, (n : ℚ) = m * 2 ^ lastBit x := by
  have hlog : Int.log 2 |x| < 53 := by
    rw [abs_of_pos hx]
    refine (Int.lt_zpow_iff_log_lt one_lt_two hx).mp ?_
    exact_mod_cast h
  have hbit : lastBit x ≤ 0 := max_le (by omega) (by decide)
  obtain ⟨k, hk⟩ := Int.exists_eq_neg_ofNat hbit
  refine ⟨n * 2 ^ k, ?_⟩
  rw [hk]
  push_cast
  rw [zpow_neg, zpow_natCast, mul_assoc, mul_inv_cancel₀ (by positivity), mul_one]

/-- A quotient above one that is no integer is no power of two. -/
theorem zpow_log_lt {j r b : ℕ} (hj : 0 < j) (hr : 0 < r) (hrb : r < b) (hx : x = j + r / b) :
    (2 : ℚ) ^ Int.log 2 x < x := by
  have hbpos : (0 : ℚ) < b := by exact_mod_cast hr.trans hrb
  have hge : (1 : ℚ) ≤ x := by
    have hj' : (1 : ℚ) ≤ j := by exact_mod_cast hj
    have hfract : (0 : ℚ) ≤ r / b := by positivity
    linarith
  refine lt_of_le_of_ne (Int.zpow_log_le_self one_lt_two (zero_lt_one.trans_le hge)) fun heq => ?_
  rw [Int.log_of_one_le_right 2 hge, zpow_natCast] at heq
  obtain ⟨k, hk⟩ : ∃ k, Nat.log 2 ⌊x⌋₊ = k := ⟨_, rfl⟩
  rw [hk, hx] at heq
  have hwhole : j * b + r = 2 ^ k * b := by
    field_simp at heq
    exact_mod_cast heq.symm
  have hdvd : b ∣ r := (Nat.dvd_add_right (Nat.dvd_mul_left b j)).mp (hwhole ▸ Nat.dvd_mul_left _ _)
  exact absurd (Nat.le_of_dvd hr hdvd) (not_le.mpr hrb)

/-- Half of the last bit of a quotient is less than what the quotient is above an integer. -/
theorem half_lastBit_lt {j r b : ℕ} (hr : 0 < r) (hrb : r < b) (ha : j * b + r ≤ 2 ^ 53)
    (hb : (2 : ℚ) ^ (-1074 : ℤ) / 2 < 1 / b) (hx : x = j + r / b) :
    (2 : ℚ) ^ lastBit x / 2 < r / b := by
  have hbpos : (0 : ℚ) < b := by exact_mod_cast hr.trans hrb
  have hone : (1 : ℚ) ≤ r := by exact_mod_cast hr
  have hgap : 1 / (b : ℚ) ≤ r / b := by gcongr
  have hxpos : 0 < x := by
    rw [hx]
    positivity
  have hlog : (2 : ℚ) ^ Int.log 2 x ≤ x := Int.zpow_log_le_self one_lt_two hxpos
  have hbound : x / 2 ^ 53 ≤ 1 / b := by
    have hcast : ((j * b + r : ℕ) : ℚ) ≤ 2 ^ 53 := by exact_mod_cast ha
    have hsum : x * b = ((j * b + r : ℕ) : ℚ) := by
      rw [hx]
      push_cast
      field_simp
    rw [div_le_div_iff₀ (by positivity) hbpos, hsum, one_mul]
    exact hcast
  rw [lastBit, abs_of_pos hxpos]
  rcases max_cases (Int.log 2 x - 52) (-1074) with ⟨hmax, -⟩ | ⟨hmax, -⟩
  · rw [hmax, zpow_sub₀ two_ne_zero]
    have hsplit : (2 : ℚ) ^ Int.log 2 x / 2 ^ (52 : ℤ) / 2 = 2 ^ Int.log 2 x / 2 ^ 53 := by
      norm_num
      ring
    rw [hsplit]
    rcases Nat.eq_zero_or_pos j with rfl | hj
    · -- below one the number itself is the distance
      have hself : x = r / b := by rw [hx, Nat.cast_zero, zero_add]
      rw [← hself]
      calc (2 : ℚ) ^ Int.log 2 x / 2 ^ 53 ≤ x / 2 ^ 53 := by gcongr
        _ < x := div_lt_self hxpos (by norm_num)
    · have hstrict := zpow_log_lt hj hr hrb hx
      have hlost : (2 : ℚ) ^ Int.log 2 x / 2 ^ 53 < x / 2 ^ 53 := by gcongr
      exact hlost.trans_le (hbound.trans hgap)
  · rw [hmax]
    exact hb.trans_le hgap

theorem ceil_toDouble_between {j r b : ℕ} (hr : 0 < r) (hrb : r < b) (ha : j * b + r ≤ 2 ^ 53)
    (hb : (2 : ℚ) ^ (-1074 : ℤ) / 2 < 1 / b) (hx : x = j + r / b) : ⌈toDouble x⌉ = j + 1 := by
  have hbpos : (0 : ℚ) < b := by exact_mod_cast hr.trans hrb
  have hfract : (r : ℚ) / b < 1 := by
    rw [div_lt_one hbpos]
    exact_mod_cast hrb
  have hrpos : (0 : ℚ) < r / b := by positivity
  have hxpos : 0 < x := by
    rw [hx]
    positivity
  have hsmall : x < 2 ^ 53 := by
    have hj : j < 2 ^ 53 := by nlinarith
    have hj' : (j : ℚ) + 1 ≤ 2 ^ 53 := by exact_mod_cast hj
    linarith
  obtain ⟨m, hm⟩ := exists_multiple hxpos hsmall (j + 1)
  have hhigh : toDouble x ≤ ((j + 1 : ℤ) : ℚ) := by
    apply toDouble_le _ hm
    push_cast
    linarith
  have hlow := sub_le_toDouble x
  have hlost := half_lastBit_lt hr hrb ha hb hx
  rw [Int.ceil_eq_iff]
  refine ⟨?_, hhigh⟩
  push_cast
  linarith

theorem toDouble_natCast {n : ℕ} (hpos : 0 < n) (hn : n ≤ 2 ^ 53) : toDouble (n : ℚ) = n := by
  rcases hn.eq_or_lt with rfl | hlt
  · have hbit : lastBit ((2 ^ 53 : ℕ) : ℚ) = 1 := by
      rw [lastBit, Nat.abs_cast, Int.log_natCast, Nat.log_pow one_lt_two]
      rfl
    apply toDouble_eq (m := 2 ^ 52)
    rw [hbit]
    norm_num
  · obtain ⟨m, hm⟩ := exists_multiple (x := (n : ℚ)) (by exact_mod_cast hpos)
      (by exact_mod_cast hlt) n
    exact toDouble_eq hm

/-- Up to `2 ^ 53` the rounded quotient has the ceiling of the exact one. -/
theorem ceil_toDouble_div {a b : ℕ} (hapos : 0 < a) (ha : a ≤ 2 ^ 53) (hbpos : 0 < b)
    (hb : (2 : ℚ) ^ (-1074 : ℤ) / 2 < 1 / b) : ⌈toDouble (a / b)⌉ = a ⌈/⌉ b := by
  have hcast : (b : ℚ) ≠ 0 := by exact_mod_cast hbpos.ne'
  have hparts := Nat.div_add_mod' a b
  obtain ⟨j, hj⟩ : ∃ j, a / b = j := ⟨_, rfl⟩
  obtain ⟨r, hr⟩ : ∃ r, a % b = r := ⟨_, rfl⟩
  have hlt : r < b := hr ▸ Nat.mod_lt a hbpos
  rw [hj, hr] at hparts
  rcases Nat.eq_zero_or_pos r with rfl | hrpos
  · have hexact : (a : ℚ) / b = j := by
      rw [div_eq_iff hcast, ← hparts]
      push_cast
      ring
    have hjpos : 0 < j := Nat.pos_of_ne_zero (by rintro rfl; omega)
    have hjle : j ≤ a := hj ▸ Nat.div_le_self a b
    have hceil : a ⌈/⌉ b = j := by
      rw [← hparts, add_zero, mul_comm]
      exact smul_ceilDiv hbpos j
    rw [hexact, toDouble_natCast hjpos (hjle.trans ha), Int.ceil_natCast, hceil]
  · have hbetween : (a : ℚ) / b = j + r / b := by
      rw [← hparts]
      push_cast
      field_simp
    have hceil : a ⌈/⌉ b = j + 1 := by
      apply le_antisymm
      · rw [ceilDiv_le_iff_le_mul hbpos]
        nlinarith
      · rw [Nat.add_one_le_iff, ← not_le, ceilDiv_le_iff_le_mul hbpos]
        nlinarith
    rw [ceil_toDouble_between hrpos hlt (hparts ▸ ha) hb hbetween, hceil]
    push_cast
    rfl

theorem trueDivide_natCast {a b : ℕ} (hapos : 0 < a) (ha : a ≤ 2 ^ 53) (hbpos : 0 < b)
    (hb : (2 : ℚ) ^ (-1074 : ℤ) / 2 < 1 / b) :
    (trueDivide a b).map (⌈·⌉) = some ((a ⌈/⌉ b : ℕ) : ℤ) := by
  have hceil := ceil_toDouble_div hapos ha hbpos hb
  have hquotient : a ⌈/⌉ b ≤ a := by
    rw [ceilDiv_le_iff_le_mul hbpos]
    exact Nat.le_mul_of_pos_left a hbpos
  have hpos : 0 < a ⌈/⌉ b := by
    rw [← not_le, ceilDiv_le_iff_le_mul hbpos]
    omega
  obtain ⟨hlow, hhigh⟩ := Int.ceil_eq_iff.mp hceil
  have hsize : |toDouble ((a : ℚ) / b)| < 2 ^ 1024 := by
    have hle : ((a ⌈/⌉ b : ℕ) : ℚ) ≤ 2 ^ 53 := by exact_mod_cast hquotient.trans ha
    have hone : (1 : ℚ) ≤ (a ⌈/⌉ b : ℕ) := by exact_mod_cast hpos
    have hpow : (2 : ℚ) ^ 53 < 2 ^ 1024 := pow_lt_pow_right₀ one_lt_two (by norm_num)
    rw [Int.cast_natCast] at hlow hhigh
    have hself : 0 < toDouble ((a : ℚ) / b) := by linarith
    rw [abs_of_pos hself]
    exact hhigh.trans_lt (hle.trans_lt hpow)
  have hfits : ¬ ((b : ℤ) = 0 ∨ 2 ^ 1024 ≤ |toDouble (((a : ℤ) : ℚ) / ((b : ℤ) : ℚ))|) := by
    rw [not_or, not_le, Int.cast_natCast, Int.cast_natCast]
    exact ⟨by omega, hsize⟩
  rw [trueDivide, if_neg hfits, Option.map_some, Int.cast_natCast, Int.cast_natCast, hceil]

theorem half_smallest_lt {b : ℕ} (hbpos : 0 < b) (hb : (b : ℤ) < 2 ^ 1075) :
    (2 : ℚ) ^ (-1074 : ℤ) / 2 < 1 / b := by
  have hcast : (0 : ℚ) < b := by exact_mod_cast hbpos
  have hlt : (b : ℚ) < 2 ^ 1075 := by exact_mod_cast hb
  have hhalf : ∀ k : ℕ, (2 : ℚ) ^ (-(k : ℤ)) / 2 = 1 / 2 ^ (k + 1) := by
    intro k
    rw [zpow_neg, zpow_natCast, pow_succ, one_div, mul_inv, div_eq_mul_inv]
  exact (hhalf 1074).trans_lt (one_div_lt_one_div_of_lt hcast hlt)

end

end PublicCloudCore.Framework.Doubles
