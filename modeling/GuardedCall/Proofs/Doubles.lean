-- The laws of the nearest double. It depends on the fraction alone and not on
-- how the fraction is written, so zeros may move between the digits and the
-- exponent of a decimal, and the exact digits of a double name the double.
import GuardedCall.Number.Decimal
import Mathlib.Algebra.Order.Field.Rat
import Mathlib.Algebra.Order.Field.Power
import Mathlib.Tactic.Linarith
import Mathlib.Tactic.NormNum
import Mathlib.Tactic.Positivity
import Mathlib.Tactic.Ring

namespace GuardedCall.Double

/-! ## The scale of a fraction -/

theorem two_zpow (s : Int) :
    (2 : ℚ) ^ s = ((2 ^ s.toNat : ℕ) : ℚ) / ((2 ^ (-s).toNat : ℕ) : ℚ) := by
  rcases le_total 0 s with h | h
  · obtain ⟨n, rfl⟩ := Int.eq_ofNat_of_zero_le h
    simp
  · obtain ⟨n, hn⟩ := Int.eq_ofNat_of_zero_le (Int.neg_nonneg_of_nonpos h)
    obtain rfl : s = -n := by omega
    simp

/-- A power of two at which a double nearest to a fraction ends: the fraction has fifty-three bits
above it, or fewer if no smaller power is left. -/
structure IsScale (r : ℚ) (s : Int) : Prop where
  lowest : -1074 ≤ s
  lt : r < 2 ^ (s + 53)
  le : s = -1074 ∨ 2 ^ (s + 52) ≤ r

theorem IsScale.not_lt {r : ℚ} {s t : Int} (h : IsScale r s) (h' : IsScale r t) : ¬s < t := by
  intro hst
  have hlow := h.lowest
  rcases h'.le with heq | hle
  · omega
  · have hlt := lt_of_le_of_lt hle h.lt
    rw [zpow_lt_zpow_iff_right₀ (by norm_num)] at hlt
    omega

theorem IsScale.unique {r : ℚ} {s t : Int} (h : IsScale r s) (h' : IsScale r t) : s = t := by
  have h1 := h.not_lt h'
  have h2 := h'.not_lt h
  omega

/-- The quotient by a power of two is less than `n` when the fraction is less than its multiple. -/
theorem scaled_lt_iff (num den n : Nat) (hd : den ≠ 0) (s : Int) :
    num * 2 ^ (-s).toNat / (den * 2 ^ s.toNat) < n ↔ (num / den : ℚ) < n * 2 ^ s := by
  have hd' : (0 : ℚ) < den := by exact_mod_cast Nat.pos_of_ne_zero hd
  have hup : (0 : ℚ) < ((2 ^ s.toNat : ℕ) : ℚ) := by positivity
  have hdown : (0 : ℚ) < ((2 ^ (-s).toNat : ℕ) : ℚ) := by positivity
  rw [Nat.div_lt_iff_lt_mul (by positivity), two_zpow, ← mul_div_assoc,
    div_lt_div_iff₀ hd' hdown]
  rw [show (n : ℚ) * ((2 ^ s.toNat : ℕ) : ℚ) * den = ((n * (den * 2 ^ s.toNat) : ℕ) : ℚ) by
    push_cast; ring]
  rw [← Nat.cast_mul, Nat.cast_lt]

theorem log2_bounds {num den : Nat} (hn : num ≠ 0) (hd : den ≠ 0) :
    (2 : ℚ) ^ ((num.log2 : Int) - den.log2 - 1) ≤ num / den ∧
      (num / den : ℚ) < 2 ^ ((num.log2 : Int) - den.log2 + 1) := by
  have hd' : (0 : ℚ) < den := by exact_mod_cast Nat.pos_of_ne_zero hd
  have two_ne : (2 : ℚ) ≠ 0 := by norm_num
  have hn1 : (2 : ℚ) ^ (num.log2 : Int) ≤ num := by exact_mod_cast Nat.log2_self_le hn
  have hn2 : (num : ℚ) < 2 ^ ((num.log2 : Int) + 1) := by exact_mod_cast Nat.lt_log2_self
  have hd1 : (2 : ℚ) ^ (den.log2 : Int) ≤ den := by exact_mod_cast Nat.log2_self_le hd
  have hd2 : (den : ℚ) ≤ 2 ^ ((den.log2 : Int) + 1) := by
    exact_mod_cast (Nat.lt_log2_self (n := den)).le
  constructor
  · rw [le_div_iff₀ hd']
    calc (2 : ℚ) ^ ((num.log2 : Int) - den.log2 - 1) * den
        ≤ 2 ^ ((num.log2 : Int) - den.log2 - 1) * 2 ^ ((den.log2 : Int) + 1) :=
          mul_le_mul_of_nonneg_left hd2 (by positivity)
      _ = 2 ^ (num.log2 : Int) := by rw [← zpow_add₀ two_ne]; congr 1; omega
      _ ≤ num := hn1
  · rw [div_lt_iff₀ hd']
    calc (num : ℚ) < 2 ^ ((num.log2 : Int) + 1) := hn2
      _ = 2 ^ ((num.log2 : Int) - den.log2 + 1) * 2 ^ (den.log2 : Int) := by
          rw [← zpow_add₀ two_ne]; congr 1; omega
      _ ≤ 2 ^ ((num.log2 : Int) - den.log2 + 1) * den :=
          mul_le_mul_of_nonneg_left hd1 (by positivity)

/-- The scale that rounding computes is the scale of the fraction. -/
theorem isScale_scaleOf {num den : Nat} (hn : num ≠ 0) (hd : den ≠ 0) :
    IsScale (num / den) (scaleOf num den) := by
  have two_ne : (2 : ℚ) ≠ 0 := by norm_num
  obtain ⟨hlow, hhigh⟩ := log2_bounds hn hd
  unfold scaleOf
  extract_lets guess q
  have hguess : guess = max ((num.log2 : Int) - den.log2 - 53) (-1074) := rfl
  have hq : q < 2 * fractionSpan ↔ (num / den : ℚ) < 2 ^ (guess + 53) := by
    have h := scaled_lt_iff num den (2 * fractionSpan) hd guess
    rwa [show ((2 * fractionSpan : ℕ) : ℚ) = 2 ^ (53 : Int) by norm_num [fractionSpan],
      ← zpow_add₀ two_ne, add_comm (53 : Int)] at h
  have hmono {i j : Int} (h : i ≤ j) : (2 : ℚ) ^ i ≤ 2 ^ j := zpow_le_zpow_right₀ (by norm_num) h
  -- The bits of the two numbers leave two powers to choose from; the quotient decides.
  by_cases hlt : q < 2 * fractionSpan
  · rw [if_pos hlt]
    refine ⟨by omega, hq.mp hlt, ?_⟩
    by_cases hmin : guess = -1074
    · exact .inl hmin
    · exact .inr ((hmono (by omega)).trans hlow)
  · rw [if_neg hlt]
    have hge : (2 : ℚ) ^ (guess + 53) ≤ num / den := not_lt.mp (mt hq.mpr hlt)
    refine ⟨by omega, hhigh.trans_le (hmono (by omega)), .inr ?_⟩
    rwa [show guess + 1 + 52 = guess + 53 by ring]

/-! ## Fractions written in another way -/

theorem scaleOf_mul {num den k : Nat} (hn : num ≠ 0) (hd : den ≠ 0) (hk : k ≠ 0) :
    scaleOf (num * k) (den * k) = scaleOf num den := by
  have h := isScale_scaleOf (Nat.mul_ne_zero hn hk) (Nat.mul_ne_zero hd hk)
  have hk' : (k : ℚ) ≠ 0 := by exact_mod_cast hk
  rw [Nat.cast_mul, Nat.cast_mul, mul_div_mul_right _ _ hk'] at h
  exact h.unique (isScale_scaleOf hn hd)

theorem roundDiv_mul (num den : Nat) {k : Nat} (hk : k ≠ 0) :
    roundDiv (num * k) (den * k) = roundDiv num den := by
  have hpos := Nat.pos_of_ne_zero hk
  unfold roundDiv
  rw [Nat.mul_div_mul_right _ _ hpos, Nat.mul_mod_mul_right, ← Nat.mul_assoc]
  simp only [Nat.mul_lt_mul_right hpos]

theorem roundScaled_mul (num den : Nat) (s : Int) {k : Nat} (hk : k ≠ 0) :
    roundScaled (num * k) (den * k) s = roundScaled num den s := by
  unfold roundScaled
  rw [Nat.mul_right_comm num k, Nat.mul_right_comm den k, roundDiv_mul _ _ hk]

/-- The nearest double of a fraction is that of the expanded fraction. -/
theorem magnitudeNearest_mul (num : Nat) {den k : Nat} (hd : den ≠ 0) (hk : k ≠ 0) :
    magnitudeNearest (num * k) (den * k) = magnitudeNearest num den := by
  by_cases hn : num = 0
  · simp [hn, magnitudeNearest]
  · unfold magnitudeNearest
    rw [if_neg hn, if_neg (Nat.mul_ne_zero hn hk), scaleOf_mul hn hd hk]
    simp only [roundScaled_mul _ _ _ hk]

/-! ## The largest and the smallest fractions -/

theorem le_roundDiv (num den : Nat) : num / den ≤ roundDiv num den := by
  unfold roundDiv
  extract_lets q r
  split
  · exact Nat.le_refl q
  · split <;> omega

/-- From `2 ^ 1024` on there is no double. -/
theorem magnitudeNearest_eq_none {num den : Nat} (hn : num ≠ 0) (hd : den ≠ 0)
    (h : 2 ^ 1024 * den ≤ num) : magnitudeNearest num den = none := by
  have hd' : (0 : ℚ) < den := by exact_mod_cast Nat.pos_of_ne_zero hd
  have hr : (2 : ℚ) ^ (1024 : Int) ≤ num / den := by
    rw [le_div_iff₀ hd']
    exact_mod_cast h
  have hs := isScale_scaleOf hn hd
  unfold magnitudeNearest
  rw [if_neg hn]
  generalize scaleOf num den = s at hs
  have hlow : 1024 < s + 53 := by
    have hlt := hr.trans_lt hs.lt
    rwa [zpow_lt_zpow_iff_right₀ (by norm_num)] at hlt
  have hle : (2 : ℚ) ^ (s + 52) ≤ num / den := hs.le.resolve_left (by omega)
  have hround : 2 ^ 52 ≤ roundScaled num den s := by
    refine le_trans ?_ (le_roundDiv _ _)
    refine not_lt.mp (mt (scaled_lt_iff num den (2 ^ 52) hd s).mp (not_lt.mpr ?_))
    rwa [show ((2 ^ 52 : ℕ) : ℚ) = 2 ^ (52 : Int) by norm_num, ← zpow_add₀ (by norm_num),
      add_comm (52 : Int)]
  have hspan : fractionSpan = 2 ^ 52 := by decide
  have hinf : infinityBits = 2047 * 2 ^ 52 := by decide
  simp only [hspan, hinf]
  rw [if_neg]
  omega

/-! ## Zeros at the end of the digits -/

theorem digitCount_mul_ten {n : Nat} (h : n ≠ 0) : digitCount (n * 10) = digitCount n + 1 := by
  have happ := Nat.toDigits_append_toDigits (b := 10) (d := 0) (by decide) (Nat.pos_of_ne_zero h)
    (by decide)
  have hlen := congrArg List.length happ
  rw [List.length_append, Nat.add_zero, Nat.mul_comm 10] at hlen
  exact hlen.symm

theorem lt_pow_digitCount (n : Nat) : n < 10 ^ digitCount n :=
  (Nat.length_toDigits_le_iff (by decide) Nat.length_toDigits_pos).mp (Nat.le_refl _)

/-- Between its two bounds a decimal is the fraction that it says. -/
theorem ofDecimal_eq (negative : Bool) {digits : Nat} {exponent : Int} (hd : digits ≠ 0)
    (hhigh : ¬310 < exponent) (hlow : ¬exponent + digitCount digits < -400) :
    ofDecimal negative digits exponent =
      (magnitudeNearest (digits * 10 ^ exponent.toNat) (10 ^ (-exponent).toNat)).map
        (ofMagnitude negative) := by
  unfold ofDecimal
  rw [if_neg hd, if_neg hhigh, if_neg hlow, Nat.pow_eq, Nat.pow_eq]

/-- The fraction of a decimal does not change where a zero becomes part of the exponent. -/
theorem magnitudeNearest_shift (digits : Nat) (exponent : Int) :
    magnitudeNearest (digits * 10 * 10 ^ exponent.toNat) (10 ^ (-exponent).toNat) =
      magnitudeNearest (digits * 10 ^ (exponent + 1).toNat) (10 ^ (-(exponent + 1)).toNat) := by
  rcases Int.lt_or_le exponent 0 with hneg | hpos
  · have hdown : (-exponent).toNat = (-(exponent + 1)).toNat + 1 := by omega
    have hup : exponent.toNat = 0 := by omega
    have hup' : (exponent + 1).toNat = 0 := by omega
    rw [hdown, hup, hup', Nat.pow_zero, Nat.mul_one, Nat.mul_one, Nat.pow_succ]
    exact magnitudeNearest_mul digits (by positivity) (by decide)
  · have hdown : (-exponent).toNat = 0 := by omega
    have hdown' : (-(exponent + 1)).toNat = 0 := by omega
    have hup : (exponent + 1).toNat = exponent.toNat + 1 := by omega
    rw [hdown, hdown', hup, Nat.pow_succ, Nat.mul_assoc, Nat.mul_comm 10]

/-- No double is as large as a whole number of more than three hundred and eleven digits. -/
theorem magnitudeNearest_huge {digits : Nat} (hd : digits ≠ 0) :
    magnitudeNearest (digits * 10 ^ 311) 1 = none := by
  have hpow : 2 ^ 1024 ≤ 10 ^ 311 := by decide +kernel
  have hbig : 10 ^ 311 ≠ 0 := by positivity
  generalize 10 ^ 311 = big at hpow hbig
  apply magnitudeNearest_eq_none (Nat.mul_ne_zero hd hbig) (by decide)
  rw [Nat.mul_one]
  exact hpow.trans (Nat.le_mul_of_pos_left big (Nat.pos_of_ne_zero hd))

/-- A zero at the end of the digits counts as one more in the exponent. -/
theorem ofDecimal_mul_ten (negative : Bool) (digits : Nat) (exponent : Int) :
    ofDecimal negative (digits * 10) exponent = ofDecimal negative digits (exponent + 1) := by
  by_cases hd : digits = 0
  · simp [ofDecimal, hd]
  have hd' : digits * 10 ≠ 0 := Nat.mul_ne_zero hd (by decide)
  have hcount := digitCount_mul_ten hd
  by_cases hbig : 310 < exponent + 1
  · have hright : ofDecimal negative digits (exponent + 1) = none := by
      unfold ofDecimal
      rw [if_neg hd, if_pos hbig]
    rw [hright]
    by_cases hbig' : 310 < exponent
    · unfold ofDecimal
      rw [if_neg hd', if_pos hbig']
    · -- Only the digits before the shift are raised to a power here, and they are too large.
      obtain rfl : exponent = 310 := by omega
      rw [ofDecimal_eq negative hd' hbig' (by omega), magnitudeNearest_shift]
      rw [show ((310 : Int) + 1).toNat = 311 by decide,
        show (-((310 : Int) + 1)).toNat = 0 by decide, Nat.pow_zero, magnitudeNearest_huge hd]
      rfl
  by_cases hsmall : exponent + 1 + digitCount digits < -400
  · unfold ofDecimal
    rw [if_neg hd, if_neg hd', if_neg hbig, if_pos hsmall, if_neg (by omega), if_pos (by omega)]
  · rw [ofDecimal_eq negative hd hbig hsmall, ofDecimal_eq negative hd' (by omega) (by omega),
      magnitudeNearest_shift]

/-- Zeros at the end of the digits count in the exponent. -/
theorem ofDecimal_mul_pow (negative : Bool) (digits k : Nat) (exponent : Int) :
    ofDecimal negative (digits * 10 ^ k) exponent = ofDecimal negative digits (exponent + k) := by
  induction k generalizing exponent with
  | zero => simp
  | succ k ih =>
    rw [Nat.pow_succ, ← Nat.mul_assoc, ofDecimal_mul_ten, ih]
    congr 1
    omega

/-! ## The exact digits of a double -/

theorem fractionField_lt (x : Double) : x.fractionField < fractionSpan :=
  Nat.mod_lt _ (by decide)

/-- The sign, the exponent and the fraction make up the double. -/
theorem ofMagnitude_fields (x : Double) :
    ofMagnitude x.negative (x.exponentField * fractionSpan + x.fractionField) = x := by
  obtain ⟨bits⟩ := x
  have hlt := bits.toNat_lt
  unfold ofMagnitude negative exponentField fractionField fractionSpan exponentSpan signBit
  congr 1
  rw [← UInt64.toNat_inj, UInt64.toNat_ofNat']
  simp only [decide_eq_true_eq]
  split <;> omega

theorem significand_lt (x : Double) : x.significand < 2 * fractionSpan := by
  have h := x.fractionField_lt
  unfold significand
  split <;> omega

/-- The magnitude bits of a finite double, out of its significand and its scale. -/
theorem significand_fields {x : Double} (hx : x.isFinite = true) :
    (x.scale + 1074).toNat * fractionSpan + x.significand =
        x.exponentField * fractionSpan + x.fractionField ∧
      x.exponentField * fractionSpan + x.fractionField < infinityBits := by
  have hf := x.fractionField_lt
  have he : x.exponentField < exponentSpan := Nat.mod_lt _ (by decide)
  have hne : x.exponentField ≠ 2047 := by simpa [isFinite] using hx
  unfold scale significand
  unfold fractionSpan exponentSpan infinityBits at *
  split <;> omega

/-- The scale of a double is the scale of what it stands for. -/
theorem isScale_significand (x : Double) :
    IsScale ((x.significand * 2 ^ x.scale.toNat : ℕ) / (2 ^ (-x.scale).toNat : ℕ)) x.scale := by
  have two_ne : (2 : ℚ) ≠ 0 := by norm_num
  have hpos : (0 : ℚ) < 2 ^ x.scale := by positivity
  have hlt : (x.significand : ℚ) < 2 ^ (53 : Int) := by
    have h := x.significand_lt
    exact_mod_cast h
  rw [Nat.cast_mul, mul_div_assoc, ← two_zpow]
  refine ⟨?lowest, ?lt, ?le⟩
  case lowest =>
    unfold scale
    split <;> omega
  case lt =>
    rw [add_comm, zpow_add₀ two_ne]
    exact mul_lt_mul_of_pos_right hlt hpos
  case le =>
    by_cases he : x.exponentField = 0
    · exact .inl (by unfold scale; rw [if_pos he])
    · have hge : (2 : ℚ) ^ (52 : Int) ≤ x.significand := by
        have h : fractionSpan ≤ x.significand := by
          unfold significand
          rw [if_neg he]
          omega
        exact_mod_cast h
      rw [add_comm, zpow_add₀ two_ne]
      exact .inr (mul_le_mul_of_nonneg_right hge hpos.le)

theorem roundDiv_exact (m : Nat) {c : Nat} (hc : c ≠ 0) : roundDiv (m * c) c = m := by
  unfold roundDiv
  rw [Nat.mul_div_cancel _ (Nat.pos_of_ne_zero hc), Nat.mul_mod_left]
  simp [Nat.pos_of_ne_zero hc]

/-- The fraction that a finite double stands for has the double as its nearest one. -/
theorem magnitudeNearest_significand {x : Double} (hx : x.isFinite = true)
    (hm : x.significand ≠ 0) :
    magnitudeNearest (x.significand * 2 ^ x.scale.toNat) (2 ^ (-x.scale).toNat) =
      some (x.exponentField * fractionSpan + x.fractionField) := by
  have hfields := significand_fields hx
  have hscale := isScale_significand x
  have hup : 2 ^ x.scale.toNat ≠ 0 := by positivity
  have hdown : 2 ^ (-x.scale).toNat ≠ 0 := by positivity
  unfold magnitudeNearest
  rw [if_neg (Nat.mul_ne_zero hm hup)]
  rw [(isScale_scaleOf (Nat.mul_ne_zero hm hup) hdown).unique hscale]
  have hround : roundScaled (x.significand * 2 ^ x.scale.toNat) (2 ^ (-x.scale).toNat) x.scale =
      x.significand := by
    unfold roundScaled
    rw [Nat.pow_eq, Nat.pow_eq, Nat.mul_assoc, Nat.mul_comm (2 ^ (-x.scale).toNat)]
    exact roundDiv_exact x.significand (Nat.mul_ne_zero hup hdown)
  simp only [hround]
  rw [hfields.1, if_pos hfields.2]

/-- All digits of a fraction of `k` binary places are more than the bound for tiny decimals. -/
theorem exact_not_tiny {m k : Nat} (hm : m ≠ 0) (hk : k ≤ 1074) :
    ¬(-(k : Int)) + digitCount (m * 5 ^ k) < -400 := by
  intro hlt
  have hcount : digitCount (m * 5 ^ k) ≤ k - 401 := by omega
  have hdigits : 5 ^ k < 10 ^ (k - 401) :=
    calc 5 ^ k ≤ m * 5 ^ k := Nat.le_mul_of_pos_left _ (Nat.pos_of_ne_zero hm)
      _ < 10 ^ digitCount (m * 5 ^ k) := lt_pow_digitCount _
      _ ≤ 10 ^ (k - 401) := Nat.pow_le_pow_right (by decide) hcount
  have hsmall : 2 ^ k ≤ 10 ^ 401 :=
    calc 2 ^ k ≤ 2 ^ 1074 := Nat.pow_le_pow_right (by decide) hk
      _ ≤ 10 ^ 401 := by decide +kernel
  have hten : 10 ^ (k - 401) * 10 ^ 401 = 5 ^ k * 2 ^ k := by
    rw [← Nat.pow_add, ← Nat.mul_pow]
    congr 1
    omega
  have hprod : 5 ^ k * 10 ^ 401 < 10 ^ (k - 401) * 10 ^ 401 :=
    Nat.mul_lt_mul_of_pos_right hdigits (by positivity)
  rw [hten] at hprod
  exact absurd (Nat.mul_le_mul_left (5 ^ k) hsmall) (Nat.not_le.mpr hprod)

/-- All its digits written out, a finite double reads back. -/
theorem names_exact {x : Double} (hx : x.isFinite = true) (hm : x.significand ≠ 0) :
    Decimal.names x (Decimal.exact x) = true := by
  have hnearest := magnitudeNearest_significand hx hm
  have hlowest := (isScale_significand x).lowest
  unfold Decimal.names Decimal.exact
  rw [beq_iff_eq]
  by_cases hs : 0 ≤ x.scale
  · -- A whole number has no places behind the point.
    have hdown : (-x.scale).toNat = 0 := by omega
    rw [if_pos hs, Nat.pow_eq]
    dsimp only
    rw [ofDecimal_eq _ (Nat.mul_ne_zero hm (by positivity)) (by omega) (by omega)]
    rw [hdown, Nat.pow_zero] at hnearest
    rw [Int.neg_zero, Int.toNat_zero, Nat.pow_zero, Nat.mul_one, hnearest, Option.map_some,
      ofMagnitude_fields]
  · -- Each binary place becomes a decimal one by a factor of five above and below the bar.
    have hup : x.scale.toNat = 0 := by omega
    obtain ⟨k, hk⟩ := Int.eq_ofNat_of_zero_le (show 0 ≤ -x.scale by omega)
    obtain hscale : x.scale = -k := by omega
    have htiny := exact_not_tiny hm (k := k) (by omega)
    rw [hup, hscale, Nat.pow_zero, Nat.mul_one] at hnearest
    rw [if_neg hs, Nat.pow_eq, hscale]
    simp only [Int.neg_neg, Int.toNat_natCast] at hnearest ⊢
    rw [ofDecimal_eq _ (Nat.mul_ne_zero hm (by positivity)) (by omega) htiny]
    have hten : 10 ^ k = 2 ^ k * 5 ^ k := by rw [← Nat.mul_pow]
    have hzero : (-(k : Int)).toNat = 0 := by omega
    rw [hzero, Nat.pow_zero, Nat.mul_one, Int.neg_neg, Int.toNat_natCast, hten,
      magnitudeNearest_mul _ (by positivity) (by positivity), hnearest, Option.map_some,
      ofMagnitude_fields]

theorem exact_digits_eq_zero {x : Double} (h : (Decimal.exact x).digits = 0) :
    x.significand = 0 := by
  unfold Decimal.exact at h
  split at h
  · exact (Nat.mul_eq_zero.mp h).resolve_right (Nat.pow_pos (by decide)).ne'
  · exact (Nat.mul_eq_zero.mp h).resolve_right (Nat.pow_pos (by decide)).ne'

/-- A double that stands for zero has no bits but the sign. -/
theorem ofMagnitude_zero {x : Double} (h : x.significand = 0) : ofMagnitude x.negative 0 = x := by
  have hx := ofMagnitude_fields x
  have hspan : 0 < fractionSpan := by decide
  unfold significand at h
  split at h
  · rename_i he
    rwa [he, h, Nat.zero_mul] at hx
  · omega

/-! ## The shortest digits of a double -/

open Decimal

theorem names_dropZeros (x : Double) (fuel : Nat) (d : Decimal) :
    names x (dropZeros fuel d) = names x d := by
  induction fuel generalizing d with
  | zero => rfl
  | succ fuel ih =>
    unfold dropZeros
    by_cases h : d.digits ≠ 0 ∧ d.digits % 10 = 0
    · rw [if_pos h, ih]
      unfold names
      rw [← ofDecimal_mul_ten, Nat.div_mul_cancel (Nat.dvd_of_mod_eq_zero h.2)]
    · rw [if_neg h]

theorem names_of_nearestOf {x : Double} {d short : Decimal} {total count : Nat}
    (h : nearestOf x d total count = some short) : names x short = true := by
  unfold nearestOf at h
  extract_lets unit low high below at h
  cases hlow : names x low <;> cases hhigh : names x high <;> simp only [hlow, hhigh] at h
  · cases h
  · rwa [← Option.some.inj h]
  · rwa [← Option.some.inj h]
  · split at h
    · rwa [← Option.some.inj h]
    · rwa [← Option.some.inj h]

/-- If all digits read back, then so do those that the search stops at. -/
theorem names_search {x : Double} {d : Decimal} (h : names x d = true) (total fuel count : Nat) :
    names x (search x d total fuel count) = true := by
  induction fuel generalizing count with
  | zero => exact h
  | succ fuel ih =>
    unfold search
    cases hshort : nearestOf x d total count with
    | none => exact ih (count + 1)
    | some short => exact names_of_nearestOf hshort

/-- The shortest digits of a finite double read back as the double. -/
theorem names_shortest {x : Double} (hx : x.isFinite = true) : names x (shortest x) = true := by
  unfold shortest
  extract_lets d total
  by_cases hd : d.digits = 0
  · rw [if_pos hd]
    unfold names
    rw [beq_iff_eq]
    unfold ofDecimal
    rw [if_pos rfl, ofMagnitude_zero (exact_digits_eq_zero hd)]
  · rw [if_neg hd]
    have hm : x.significand ≠ 0 := by
      intro hm
      apply hd
      show (exact x).digits = 0
      unfold exact
      split <;> simp [hm]
    unfold trimmed
    rw [names_dropZeros]
    exact names_search (names_exact hx hm) total (total - 1) 1

/-- Only zero has no digits, and then its exponent is zero too. -/
theorem shortest_zero {x : Double} (hx : x.isFinite = true) (h : (shortest x).digits = 0) :
    (shortest x).exponent = 0 := by
  have hnames := names_shortest hx
  unfold names ofDecimal at hnames
  rw [beq_iff_eq, if_pos h, Option.some.injEq] at hnames
  have hm : x.significand = 0 := by
    rw [← hnames]
    cases x.negative <;> decide
  have hd : (exact x).digits = 0 := by
    unfold exact
    split <;> simp [hm]
  unfold shortest
  rw [if_pos hd]

end GuardedCall.Double
