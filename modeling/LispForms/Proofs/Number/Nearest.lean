import LispForms.Number.Shortest
import Mathlib.Algebra.Order.Field.Power
import Mathlib.Data.Int.Log
import Mathlib.Data.Rat.Cast.Order
import Mathlib.Data.Rat.Floor
import Mathlib.Tactic.FieldSimp
import Mathlib.Tactic.Linarith
import Mathlib.Tactic.Positivity
import Mathlib.Tactic.Ring

/-! Rounding to the nearest magnitude. The result depends on nothing but the value that is rounded,
however it is written as a quotient or as a decimal, and a value that is a magnitude already stays
itself. -/

namespace LispForms.Number

/-- The value of a decimal. -/
def Decimal.value (d : Decimal) : ℚ := d.digits * 10 ^ d.exponent

/-- A power with the two signs of its exponent apart. -/
theorem zpow_mul_pow {b : ℚ} (hb : b ≠ 0) (e : ℤ) : b ^ e * b ^ (-e).toNat = b ^ e.toNat := by
  rw [← zpow_natCast, ← zpow_natCast, ← zpow_add₀ hb]
  congr 1
  omega

/-! ### Rounding a quotient to a whole number -/

theorem roundQuotient_mul {k : ℕ} (hk : 0 < k) (num den : ℕ) :
    roundQuotient (k * num) (k * den) = roundQuotient num den := by
  have hdiv : k * num / (k * den) = num / den := Nat.mul_div_mul_left num den hk
  have hmod : k * num % (k * den) = k * (num % den) := Nat.mul_mod_mul_left k num den
  have hcompare : compare (2 * (k * (num % den))) (k * den) = compare (2 * (num % den)) den := by
    have hleft : 2 * (k * (num % den)) = k * (2 * (num % den)) := by ring
    rw [hleft]
    simp only [compare, compareOfLessAndEq, Nat.mul_lt_mul_left hk, Nat.mul_right_inj hk.ne']
  simp only [roundQuotient, hdiv, hmod, hcompare]

/-- A whole number is rounded to itself. -/
theorem roundQuotient_mul_self {k : ℕ} (hk : 0 < k) (n : ℕ) : roundQuotient (n * k) k = n := by
  have hdiv : n * k / k = n := Nat.mul_div_cancel n hk
  have hmod : n * k % k = 0 := Nat.mul_mod_left n k
  have hcompare : compare (2 * 0) k = .lt := by
    rw [Nat.compare_eq_lt]
    omega
  simp only [roundQuotient, hdiv, hmod, hcompare]

theorem le_roundQuotient (num den : ℕ) : num / den ≤ roundQuotient num den := by
  unfold roundQuotient
  simp only
  split <;> omega

/-- Less than a half is rounded to nothing. -/
theorem roundQuotient_eq_zero {num den : ℕ} (h : 2 * num < den) : roundQuotient num den = 0 := by
  have hlt : num < den := by omega
  have hcompare : compare (2 * num) den = .lt := Nat.compare_eq_lt.2 h
  simp only [roundQuotient, Nat.div_eq_of_lt hlt, Nat.mod_eq_of_lt hlt, hcompare]

/-! ### The binary order -/

namespace Binary64

variable {num den : ℕ}

theorem lt_zpow_iff (hd : 0 < den) (e : ℤ) :
    num * 2 ^ (-e).toNat < den * 2 ^ e.toNat ↔ (num / den : ℚ) < 2 ^ e := by
  have hden : (0 : ℚ) < den := by exact_mod_cast hd
  have hpow : (0 : ℚ) < 2 ^ (-e).toNat := by positivity
  have he : (2 : ℚ) ^ e.toNat = 2 ^ e * 2 ^ (-e).toNat := (zpow_mul_pow (by norm_num) e).symm
  calc num * 2 ^ (-e).toNat < den * 2 ^ e.toNat
      ↔ (num * 2 ^ (-e).toNat : ℚ) < den * 2 ^ e.toNat := by exact_mod_cast Iff.rfl
    _ ↔ (num * 2 ^ (-e).toNat : ℚ) < (2 ^ e * den) * 2 ^ (-e).toNat := by
      rw [he, ← mul_assoc, mul_comm (den : ℚ)]
    _ ↔ (num : ℚ) < 2 ^ e * den := mul_lt_mul_iff_left₀ hpow
    _ ↔ (num / den : ℚ) < 2 ^ e := (div_lt_iff₀ hden).symm

theorem log_eq {x : ℚ} {e : ℤ} (hlow : 2 ^ e ≤ x) (hhigh : x < 2 ^ (e + 1)) : Int.log 2 x = e := by
  have hx : 0 < x := lt_of_lt_of_le (by positivity) hlow
  have hle : e ≤ Int.log 2 x := (Int.zpow_le_iff_le_log (by norm_num) hx).1 (by exact_mod_cast hlow)
  have hlt : Int.log 2 x < e + 1 :=
    (Int.lt_zpow_iff_log_lt (by norm_num) hx).1 (by exact_mod_cast hhigh)
  omega

theorem two_pow_log2_le (hn : 0 < num) : (2 : ℚ) ^ num.log2 ≤ num := by
  exact_mod_cast Nat.log2_self_le hn.ne'

theorem lt_two_pow_log2 (num : ℕ) : (num : ℚ) < 2 ^ (num.log2 + 1) := by
  exact_mod_cast Nat.lt_log2_self

/-- The binary order is the whole part of the binary logarithm. -/
theorem binaryOrder_eq_log (hn : 0 < num) (hd : 0 < den) :
    binaryOrder num den = Int.log 2 (num / den : ℚ) := by
  have hden : (0 : ℚ) < den := by exact_mod_cast hd
  have htwo : (2 : ℚ) ≠ 0 := by norm_num
  let e : ℤ := (num.log2 : ℤ) - den.log2
  have hlow : (2 : ℚ) ^ (e - 1) ≤ num / den := by
    have he : (2 : ℚ) ^ (e - 1) * 2 ^ (den.log2 + 1) = 2 ^ num.log2 := by
      rw [← zpow_natCast, ← zpow_natCast, ← zpow_add₀ htwo]
      congr 1
      push_cast
      omega
    rw [le_div_iff₀ hden]
    calc (2 : ℚ) ^ (e - 1) * den ≤ 2 ^ (e - 1) * 2 ^ (den.log2 + 1) :=
          mul_le_mul_of_nonneg_left (lt_two_pow_log2 den).le (by positivity)
      _ = 2 ^ num.log2 := he
      _ ≤ num := two_pow_log2_le hn
  have hhigh : (num / den : ℚ) < 2 ^ (e + 1) := by
    have he : (2 : ℚ) ^ (e + 1) * 2 ^ den.log2 = 2 ^ (num.log2 + 1) := by
      rw [← zpow_natCast, ← zpow_natCast, ← zpow_add₀ htwo]
      congr 1
      push_cast
      omega
    rw [div_lt_iff₀ hden]
    calc (num : ℚ) < 2 ^ (num.log2 + 1) := lt_two_pow_log2 num
      _ = 2 ^ (e + 1) * 2 ^ den.log2 := he.symm
      _ ≤ 2 ^ (e + 1) * den := mul_le_mul_of_nonneg_left (two_pow_log2_le hd) (by positivity)
  unfold binaryOrder
  by_cases hbelow : num * 2 ^ (-e).toNat < den * 2 ^ e.toNat
  · rw [if_pos hbelow]
    have hlt := (lt_zpow_iff hd e).1 hbelow
    exact (log_eq hlow (by rwa [sub_add_cancel])).symm
  · rw [if_neg hbelow]
    have hle : (2 : ℚ) ^ e ≤ num / den := by
      rw [← not_lt]
      exact fun hlt => hbelow ((lt_zpow_iff hd e).2 hlt)
    exact (log_eq hle hhigh).symm

/-! ### Rounding a quotient to a magnitude -/

theorem nearestQuotient_mul {k : ℕ} (hk : 0 < k) (hd : 0 < den) :
    nearestQuotient (k * num) (k * den) = nearestQuotient num den := by
  rcases Nat.eq_zero_or_pos num with rfl | hn
  · simp [nearestQuotient]
  · have hk' : (k : ℚ) ≠ 0 := by exact_mod_cast hk.ne'
    have horder : binaryOrder (k * num) (k * den) = binaryOrder num den := by
      rw [binaryOrder_eq_log (Nat.mul_pos hk hn) (Nat.mul_pos hk hd), binaryOrder_eq_log hn hd]
      push_cast
      rw [mul_div_mul_left _ _ hk']
    have hne : k * num ≠ 0 := (Nat.mul_pos hk hn).ne'
    simp only [nearestQuotient, hne, hn.ne', if_false, horder, mul_assoc]
    rw [roundQuotient_mul hk]

/-- Equal quotients are rounded to one magnitude. -/
theorem nearestQuotient_congr {num' den' : ℕ} (hd : 0 < den) (hd' : 0 < den')
    (h : num * den' = num' * den) : nearestQuotient num den = nearestQuotient num' den' := by
  calc nearestQuotient num den = nearestQuotient (den' * num) (den' * den) :=
        (nearestQuotient_mul hd' hd).symm
    _ = nearestQuotient (den * num') (den * den') := by
      rw [Nat.mul_comm den' num, h, Nat.mul_comm num' den, Nat.mul_comm den' den]
    _ = nearestQuotient num' den' := nearestQuotient_mul hd hd'

theorem nearestQuotient_le (num den : ℕ) : nearestQuotient num den ≤ infinity := by
  unfold nearestQuotient
  split
  · exact Nat.zero_le _
  · exact Nat.min_le_right _ _

/-- From `2 ^ 1024` on the nearest magnitude is infinity. -/
theorem nearestQuotient_of_le (hd : 0 < den) (h : (2 : ℚ) ^ 1024 ≤ num / den) :
    nearestQuotient num den = infinity := by
  have hden : (0 : ℚ) < den := by exact_mod_cast hd
  have hn : 0 < num := by
    rcases Nat.eq_zero_or_pos num with rfl | hn
    · rw [Nat.cast_zero, zero_div] at h
      exact absurd h (not_le.2 (by positivity))
    · exact hn
  have hx : (0 : ℚ) < num / den := div_pos (by exact_mod_cast hn) hden
  have horder : 1024 ≤ binaryOrder num den := by
    rw [binaryOrder_eq_log hn hd]
    exact (Int.zpow_le_iff_le_log (by norm_num) hx).1 (by exact_mod_cast h)
  have hlow : (2 : ℚ) ^ binaryOrder num den ≤ num / den := by
    rw [binaryOrder_eq_log hn hd]
    exact_mod_cast Int.zpow_log_le_self (by norm_num) hx
  have hmax : max (binaryOrder num den - 52) (-1074) = binaryOrder num den - 52 := by omega
  simp only [nearestQuotient, hn.ne', if_false, hmax]
  generalize binaryOrder num den = e at horder hlow ⊢
  have hneg : (-(e - 52)).toNat = 0 := by omega
  -- the significand has 53 bits
  have hbits : 2 ^ 52 ≤ roundQuotient (num * 2 ^ (-(e - 52)).toNat) (den * 2 ^ (e - 52).toNat) := by
    refine le_trans ?_ (le_roundQuotient _ _)
    rw [hneg, pow_zero, mul_one, Nat.le_div_iff_mul_le (by positivity)]
    have hpow : (2 : ℚ) ^ 52 * 2 ^ (e - 52).toNat = 2 ^ e := by
      rw [← zpow_natCast, ← zpow_natCast, ← zpow_add₀ (by norm_num)]
      congr 1
      omega
    have hle : (2 : ℚ) ^ 52 * (den * 2 ^ (e - 52).toNat) ≤ num := by
      calc (2 : ℚ) ^ 52 * (den * 2 ^ (e - 52).toNat) = 2 ^ e * den := by rw [← hpow]; ring
        _ ≤ num := (le_div_iff₀ hden).1 hlow
    exact_mod_cast hle
  have hexp : 2046 ≤ (e - 52 + 1074).toNat := by omega
  have hinf : infinity = 2046 * 2 ^ 52 + 2 ^ 52 := rfl
  have hmul := Nat.mul_le_mul_right (2 ^ 52) hexp
  omega

theorem two_mul_lt_of_lt (hd : 0 < den) {k : ℕ} (h : (num / den : ℚ) < 2 ^ (-(k + 2 : ℕ) : ℤ)) :
    2 * (num * 2 ^ k) < den := by
  have hden : (0 : ℚ) < den := by exact_mod_cast hd
  have hpow : (0 : ℚ) < 2 ^ (k + 2) := by positivity
  have hlt : (num * 2 ^ (k + 2) : ℚ) < den := by
    rw [zpow_neg, zpow_natCast, div_lt_iff₀ hden, inv_mul_eq_div, lt_div_iff₀ hpow] at h
    exact h
  have hnat : num * 2 ^ (k + 2) < den := by exact_mod_cast hlt
  have hsplit : num * 2 ^ (k + 2) = 4 * (num * 2 ^ k) := by ring
  omega

/-- What is below a quarter of the least magnitude is rounded to zero. -/
theorem nearestQuotient_of_lt (hd : 0 < den) (h : (num / den : ℚ) < 2 ^ (-(1074 + 2 : ℕ) : ℤ)) :
    nearestQuotient num den = 0 := by
  rcases Nat.eq_zero_or_pos num with rfl | hn
  · simp [nearestQuotient]
  have hx : (0 : ℚ) < num / den := div_pos (by exact_mod_cast hn) (by exact_mod_cast hd)
  have horder : binaryOrder num den < -(1074 + 2 : ℕ) := by
    rw [binaryOrder_eq_log hn hd]
    exact (Int.lt_zpow_iff_log_lt (by norm_num) hx).1 (by exact_mod_cast h)
  have hmax : max (binaryOrder num den - 52) (-1074) = -1074 := by omega
  have hlt : 2 * (num * 2 ^ 1074) < den := two_mul_lt_of_lt hd h
  have hzero : roundQuotient (num * 2 ^ (1074 : ℤ).toNat) (den * 2 ^ (-1074 : ℤ).toNat) = 0 := by
    have hpos : (1074 : ℤ).toNat = 1074 := rfl
    have hneg : (-1074 : ℤ).toNat = 0 := rfl
    rw [hpos, hneg, pow_zero, mul_one]
    exact roundQuotient_eq_zero hlt
  simp only [nearestQuotient, hn.ne', if_false, hmax, neg_neg, hzero]
  rfl

/-! ### Rounding a decimal -/

theorem two_pow_le_ten_pow (n : ℕ) : (2 : ℚ) ^ (3 * n) ≤ 10 ^ n := by
  rw [pow_mul]
  exact pow_le_pow_left₀ (by norm_num) (by norm_num) n

theorem le_mul_ten_pow {n k b : ℕ} (hn : 0 < n) (h : b ≤ n.log2 + 3 * k) :
    (2 : ℚ) ^ b ≤ n * 10 ^ k := by
  calc (2 : ℚ) ^ b ≤ 2 ^ (n.log2 + 3 * k) := pow_le_pow_right₀ (by norm_num) h
    _ = 2 ^ n.log2 * 2 ^ (3 * k) := pow_add _ _ _
    _ ≤ n * 10 ^ k := mul_le_mul (two_pow_log2_le hn) (two_pow_le_ten_pow k) (by positivity)
      (by positivity)

theorem div_ten_pow_lt {n k b : ℕ} (h : n.log2 + 1 + b ≤ 3 * k) :
    (n / 10 ^ k : ℚ) < 2 ^ (-b : ℤ) := by
  rw [zpow_neg, zpow_natCast, div_lt_iff₀ (by positivity), inv_mul_eq_div,
    lt_div_iff₀ (by positivity)]
  calc (n * 2 ^ b : ℚ) < 2 ^ (n.log2 + 1) * 2 ^ b :=
        mul_lt_mul_of_pos_right (lt_two_pow_log2 n) (by positivity)
    _ = 2 ^ (n.log2 + 1 + b) := (pow_add _ _ _).symm
    _ ≤ 2 ^ (3 * k) := pow_le_pow_right₀ (by norm_num) h
    _ ≤ 10 ^ k := two_pow_le_ten_pow k

/-- The cases that are settled before a power of ten is computed come to what the quotient would
come to. -/
theorem nearest_eq_nearestQuotient (d : Decimal) : nearest d =
    nearestQuotient (d.digits * 10 ^ d.exponent.toNat) (10 ^ (-d.exponent).toNat) := by
  obtain ⟨n, e⟩ := d
  simp only [nearest]
  rcases Nat.eq_zero_or_pos n with rfl | hn
  · simp [nearestQuotient]
  rw [if_neg hn.ne']
  by_cases he : 0 ≤ e
  · obtain ⟨k, rfl⟩ := Int.eq_ofNat_of_zero_le he
    have hneg : (-(k : ℤ)).toNat = 0 := by omega
    rw [if_pos he, hneg, pow_zero, Int.toNat_natCast]
    split
    next hlarge =>
      refine (nearestQuotient_of_le Nat.one_pos ?_).symm
      have hle := @le_mul_ten_pow n k 1024 hn (by omega)
      rw [Nat.cast_one, div_one]
      exact_mod_cast hle
    next => rfl
  · have hpos : e.toNat = 0 := by omega
    rw [if_neg he, hpos, pow_zero, mul_one]
    obtain ⟨k, hk⟩ : ∃ k : ℕ, e = -k := ⟨(-e).toNat, by omega⟩
    subst hk
    rw [neg_neg, Int.toNat_natCast]
    split
    next hsmall =>
      refine (nearestQuotient_of_lt (by positivity) ?_).symm
      have hlt := @div_ten_pow_lt n k (1074 + 2) (by omega)
      rw [Nat.cast_pow, Nat.cast_ofNat]
      exact hlt
    next => rfl

/-- A decimal is rounded as a quotient of the same value is. -/
theorem nearest_of_value {d : Decimal} (hd : 0 < den) (h : d.value = num / den) :
    nearest d = nearestQuotient num den := by
  rw [nearest_eq_nearestQuotient]
  refine nearestQuotient_congr (by positivity) hd ?_
  have hden : (den : ℚ) ≠ 0 := by exact_mod_cast hd.ne'
  have hnum : (d.digits * 10 ^ d.exponent.toNat : ℚ) = d.value * 10 ^ (-d.exponent).toNat := by
    rw [Decimal.value, mul_assoc, zpow_mul_pow (by norm_num)]
  have hcross : (d.digits * 10 ^ d.exponent.toNat * den : ℚ) = num * 10 ^ (-d.exponent).toNat := by
    rw [hnum, h]
    field_simp
  exact_mod_cast hcross

/-- Decimals of one value are rounded to one magnitude. -/
theorem nearest_congr {d d' : Decimal} (h : d.value = d'.value) : nearest d = nearest d' := by
  have hvalue : d.value =
      (d'.digits * 10 ^ d'.exponent.toNat : ℕ) / (10 ^ (-d'.exponent).toNat : ℕ) := by
    have hpow : (10 : ℚ) ^ (-d'.exponent).toNat ≠ 0 := by positivity
    rw [h, Decimal.value]
    push_cast
    rw [eq_div_iff hpow, mul_assoc, zpow_mul_pow (by norm_num)]
  rw [nearest_of_value (by positivity) hvalue, nearest_eq_nearestQuotient d']

theorem nearest_le (d : Decimal) : nearest d ≤ infinity := by
  rw [nearest_eq_nearestQuotient]
  exact nearestQuotient_le _ _

/-! ### Magnitudes are rounded to themselves -/

variable {b : ℕ}

theorem significand_pos (h0 : 0 < b) : 0 < significand b := by
  unfold significand
  split <;> omega

/-- A magnitude has its 53 bits, or fewer at the least exponent. -/
theorem max_log_significand (h0 : 0 < b) :
    max (Int.log 2 (significand b : ℚ) + exponent b - 52) (-1074) = exponent b := by
  have hlog : Int.log 2 (significand b : ℚ) = Nat.log 2 (significand b) := Int.log_natCast 2 _
  rw [hlog]
  by_cases hsub : b < 2 ^ 52
  · have hexp : exponent b = -1074 := by
      rw [exponent, Nat.div_eq_of_lt hsub]
      rfl
    have hlt : Nat.log 2 (significand b) < 52 := by
      rw [significand, if_pos hsub]
      exact Nat.log_lt_of_lt_pow h0.ne' hsub
    omega
  · have hexp : -1074 ≤ exponent b := by
      unfold exponent
      omega
    have hbits : Nat.log 2 (significand b) = 52 := by
      rw [significand, if_neg hsub]
      have hmod := Nat.mod_lt b (by positivity : 0 < 2 ^ 52)
      exact (Nat.log_eq_iff (.inl (by norm_num))).2 ⟨by omega, by omega⟩
    omega

/-- The place of a magnitude among all, from its significand and its exponent. -/
theorem place_eq (b : ℕ) : (exponent b + 1074).toNat * 2 ^ 52 + significand b = b := by
  unfold exponent significand
  by_cases hsub : b < 2 ^ 52
  · rw [if_pos hsub, Nat.div_eq_of_lt hsub]
    simp
  · have hdiv : 1 ≤ b / 2 ^ 52 := (Nat.one_le_div_iff (by positivity)).2 (by omega)
    have hexp : ((max (b / 2 ^ 52) 1 : ℕ) - 1075 + 1074 : ℤ).toNat = b / 2 ^ 52 - 1 := by omega
    have hmul : (b / 2 ^ 52 - 1) * 2 ^ 52 + 2 ^ 52 = b / 2 ^ 52 * 2 ^ 52 := by
      rw [← Nat.succ_mul]
      congr 1
      omega
    rw [if_neg hsub, hexp, ← Nat.add_assoc, hmul]
    exact Nat.div_add_mod' b (2 ^ 52)

theorem numerator_div_denominator (b : ℕ) :
    (numerator b / denominator b : ℚ) = significand b * 2 ^ exponent b := by
  have hpow : (2 : ℚ) ^ (-exponent b).toNat ≠ 0 := by positivity
  rw [numerator, denominator]
  push_cast
  rw [div_eq_iff hpow, mul_assoc, zpow_mul_pow (by norm_num)]

theorem log_mul_zpow {n : ℕ} (hn : 0 < n) (e : ℤ) :
    Int.log 2 (n * 2 ^ e : ℚ) = Int.log 2 (n : ℚ) + e := by
  have hpos : (0 : ℚ) < n := by exact_mod_cast hn
  have hzpow : (0 : ℚ) < 2 ^ e := by positivity
  have hlow : (2 : ℚ) ^ Int.log 2 (n : ℚ) ≤ n := by
    exact_mod_cast Int.zpow_log_le_self (by norm_num) hpos
  have hhigh : (n : ℚ) < 2 ^ (Int.log 2 (n : ℚ) + 1) := by
    exact_mod_cast Int.lt_zpow_succ_log_self (by norm_num) (n : ℚ)
  refine log_eq ?_ ?_
  · rw [zpow_add₀ (by norm_num)]
    exact mul_le_mul_of_nonneg_right hlow hzpow.le
  · rw [add_right_comm, zpow_add₀ (by norm_num)]
    exact mul_lt_mul_of_pos_right hhigh hzpow

theorem nearestQuotient_magnitude (h : b < infinity) (h0 : 0 < b) :
    nearestQuotient (numerator b) (denominator b) = b := by
  have hsig := significand_pos h0
  have hden : 0 < denominator b := by
    unfold denominator
    positivity
  have hnum : 0 < numerator b := by
    unfold numerator
    positivity
  have horder : max (binaryOrder (numerator b) (denominator b) - 52) (-1074) = exponent b := by
    rw [binaryOrder_eq_log hnum hden, numerator_div_denominator, log_mul_zpow hsig,
      max_log_significand h0]
  have hround : roundQuotient (numerator b * 2 ^ (-exponent b).toNat)
      (denominator b * 2 ^ (exponent b).toNat) = significand b := by
    have hmul : numerator b * 2 ^ (-exponent b).toNat =
        significand b * (denominator b * 2 ^ (exponent b).toNat) := by
      rw [numerator, denominator]
      ring
    rw [hmul]
    exact roundQuotient_mul_self (Nat.mul_pos hden (by positivity)) _
  simp only [nearestQuotient, hnum.ne', if_false, horder, hround, place_eq]
  exact Nat.min_eq_left h.le

theorem value_exactly (b : ℕ) : (exactly b).value = numerator b / denominator b := by
  have hmin : min (exponent b) 0 = -((-exponent b).toNat : ℤ) := by omega
  have hten :
      (10 : ℚ) ^ (-exponent b).toNat = 2 ^ (-exponent b).toNat * 5 ^ (-exponent b).toNat := by
    rw [← mul_pow]
    norm_num
  have hfive : (5 : ℚ) ^ (-exponent b).toNat ≠ 0 := by positivity
  rw [exactly, Decimal.value, numerator, denominator]
  simp only [hmin, zpow_neg, zpow_natCast]
  push_cast
  rw [hten, ← div_eq_mul_inv]
  exact mul_div_mul_right _ _ hfive

/-- The exact value of a magnitude is rounded to it. -/
theorem nearest_exactly (h : b < infinity) (h0 : 0 < b) : nearest (exactly b) = b := by
  have hden : 0 < denominator b := by
    unfold denominator
    positivity
  rw [nearest_of_value hden (value_exactly b), nearestQuotient_magnitude h h0]

/-- The digits of a magnitude are read as the magnitude. -/
theorem nearest_shortest (h : b < infinity) (h0 : 0 < b) : nearest (shortest b) = b := by
  unfold shortest
  simp only
  cases hfind : (List.range 17).findSome? fun n => onGrid b (decimalOrder b - (n + 1 : ℕ)) with
  | none => exact nearest_exactly h h0
  | some d =>
    obtain ⟨n, -, hn⟩ := List.exists_of_findSome?_eq_some hfind
    exact nearest_of_onGrid hn

end Binary64
end LispForms.Number
