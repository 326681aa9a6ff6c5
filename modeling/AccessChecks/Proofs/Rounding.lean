import Mathlib
import AccessChecks.Decimal.Double

/-!
# Rounded quotients

## Magnitudes

The magnitudes of finite numbers are those with a significand of at most 53 bits, of
which the first is set unless the exponent is the least one.  A number that is made
from such a magnitude is finite and has it again.

## Rounding

Under the exponent that is chosen for it a quotient has 53 bits before its point, or
fewer if that exponent is the least one.  Rounding adds at most one half, so the
rounded number is finite unless the quotient reaches the point halfway from the
largest finite number to the next power of two, and it is larger than the quotient by
at most one part in 2^53.
-/

namespace AccessChecks

theorem zpow_eq_pow_div_pow {b : ℚ} (hb : b ≠ 0) (k : ℤ) :
    b ^ k = b ^ k.toNat / b ^ (-k).toNat := by
  rw [div_eq_mul_inv, ← zpow_natCast, ← zpow_natCast, ← zpow_neg,
    ← zpow_add₀ hb]
  congr 1
  omega

theorem two_zpow_pos (k : ℤ) : (0 : ℚ) < 2 ^ k :=
  zpow_pos (by norm_num) k

namespace Magnitude

def value (v : Magnitude) : ℚ :=
  v.significand * 2 ^ v.exponent

theorem num_div_den (v : Magnitude) : (v.num : ℚ) / v.den = v.value := by
  have hnum : (v.num : ℚ) = v.significand * 2 ^ v.exponent.toNat := by
    rw [num, Nat.pow_eq]
    push_cast
    rfl
  have hden : (v.den : ℚ) = 2 ^ (-v.exponent).toNat := by
    rw [den, Nat.pow_eq]
    push_cast
    rfl
  rw [hnum, hden, value, zpow_eq_pow_div_pow (by norm_num), mul_div_assoc]

structure IsFinite (v : Magnitude) : Prop where
  significand : v.significand < 2 ^ 53
  least : Double.leastExponent ≤ v.exponent
  greatest : v.exponent ≤ 971
  leading : v.significand < 2 ^ 52 → v.exponent = Double.leastExponent

end Magnitude

namespace Double

def code (v : Magnitude) : Nat :=
  if v.significand < 2 ^ 52 then v.significand
  else (v.exponent + 1075).toNat * 2 ^ 52 + (v.significand - 2 ^ 52)

theorem code_lt {v : Magnitude} (h : v.IsFinite) : code v < 2047 * 2 ^ 52 := by
  have hsig := h.significand
  have hexp := h.greatest
  rw [code]
  split
  · omega
  · have hfield : (v.exponent + 1075).toNat ≤ 2046 := by omega
    omega

theorem toNat_bits_ofMagnitude (negative : Bool) {v : Magnitude}
    (h : v.IsFinite) :
    (ofMagnitude negative v).bits.toNat =
      (if negative then 2 ^ 63 else 0) + code v := by
  have hcode := code_lt h
  have hmin : min (code v) (2047 * 2 ^ 52) = code v :=
    Nat.min_eq_left (Nat.le_of_lt hcode)
  change (UInt64.ofNat ((if negative then 2 ^ 63 else 0) +
    min (code v) (2047 * 2 ^ 52))).toNat = _
  rw [hmin, UInt64.toNat_ofNat', Nat.mod_eq_of_lt]
  cases negative with
  | true => simp; omega
  | false => simp; omega

theorem fields_ofMagnitude (negative : Bool) {v : Magnitude}
    (h : v.IsFinite) :
    (ofMagnitude negative v).exponentField = code v / 2 ^ 52 ∧
      (ofMagnitude negative v).fraction = code v % 2 ^ 52 := by
  have hcode := code_lt h
  have hbits := toNat_bits_ofMagnitude negative h
  have hsign : (ofMagnitude negative v).bits.toNat = code v ∨
      (ofMagnitude negative v).bits.toNat = 2 ^ 63 + code v := by
    cases negative with
    | true => exact Or.inr hbits
    | false => exact Or.inl (by rw [hbits]; simp)
  constructor
  · change (ofMagnitude negative v).bits.toNat / 2 ^ 52 % 2 ^ 11 = _
    rcases hsign with heq | heq
    · rw [heq]
      omega
    · rw [heq]
      omega
  · change (ofMagnitude negative v).bits.toNat % 2 ^ 52 = _
    rcases hsign with heq | heq
    · rw [heq]
    · rw [heq]
      omega

theorem isFinite_ofMagnitude (negative : Bool) {v : Magnitude}
    (h : v.IsFinite) : (ofMagnitude negative v).isFinite = true := by
  have hcode := code_lt h
  have hne : code v / 2 ^ 52 ≠ 2047 := by omega
  rw [isFinite, (fields_ofMagnitude negative h).1]
  exact bne_iff_ne.mpr hne

theorem magnitude_ofMagnitude (negative : Bool) {v : Magnitude}
    (h : v.IsFinite) : (ofMagnitude negative v).magnitude = v := by
  obtain ⟨m, q⟩ := v
  have hsig : m < 2 ^ 53 := h.significand
  have hleast : -1074 ≤ q := h.least
  rw [magnitude, (fields_ofMagnitude negative h).1,
    (fields_ofMagnitude negative h).2, code]
  by_cases hsmall : m < 2 ^ 52
  · have hq : q = leastExponent := h.leading hsmall
    have hfield : m / 2 ^ 52 = 0 := Nat.div_eq_of_lt hsmall
    simp only [hsmall, if_true, hfield, Nat.mod_eq_of_lt hsmall, hq]
  · have hfield : ((q + 1075).toNat * 2 ^ 52 + (m - 2 ^ 52)) / 2 ^ 52 =
        (q + 1075).toNat := by omega
    have hfraction : ((q + 1075).toNat * 2 ^ 52 + (m - 2 ^ 52)) % 2 ^ 52 =
        m - 2 ^ 52 := by omega
    have hpos : (q + 1075).toNat ≠ 0 := by omega
    have hsum : 2 ^ 52 + (m - 2 ^ 52) = m := by omega
    have hexp : ((q + 1075).toNat : ℤ) - 1075 = q := by omega
    simp only [hsmall, if_false, hfield, hfraction, hpos, Nat.pow_eq, hsum,
      hexp]

/-!
## Rounding to a natural
-/

theorem div_le_roundDiv (num den : Nat) : num / den ≤ roundDiv num den := by
  rw [roundDiv]
  split
  · exact Nat.le_refl _
  · split
    · exact Nat.le_succ _
    · split
      · exact Nat.le_refl _
      · exact Nat.le_succ _

theorem roundDiv_le {num den : Nat} (h : 0 < den) :
    (roundDiv num den : ℚ) ≤ num / den + 1 / 2 := by
  have hdivision : den * (num / den) + num % den = num := Nat.div_add_mod num den
  have hmul : 2 * (roundDiv num den * den) ≤ 2 * num + den := by
    have hsucc : (num / den + 1) * den = den * (num / den) + den := by
      rw [Nat.succ_mul, Nat.mul_comm]
    have hsame : num / den * den = den * (num / den) := Nat.mul_comm _ _
    rw [roundDiv]
    split
    · omega
    · split
      · omega
      · split <;> omega
  have hcast : 2 * ((roundDiv num den : ℚ) * den) ≤ 2 * num + den := by
    exact_mod_cast hmul
  have hden : (0 : ℚ) < den := by exact_mod_cast h
  rw [← sub_le_iff_le_add, le_div_iff₀ hden]
  linarith

/-!
## The exponent of a quotient
-/

theorem scaled_div (num den : Nat) (q : ℤ) :
    ((num * Nat.pow 2 (-q).toNat : ℕ) : ℚ) / (den * Nat.pow 2 q.toNat : ℕ) =
      (num / den : ℚ) / 2 ^ q := by
  rw [zpow_eq_pow_div_pow (by norm_num) q, Nat.pow_eq, Nat.pow_eq]
  push_cast
  field_simp

theorem scaled_den_pos {den : Nat} (h : 0 < den) (q : ℤ) :
    0 < den * Nat.pow 2 q.toNat :=
  Nat.mul_pos h (Nat.pow_pos (by decide))

theorem quotient_bounds {num den : Nat} (hnum : 0 < num) (hden : 0 < den) :
    (2 : ℚ) ^ ((num.log2 : ℤ) - den.log2 - 1) ≤ num / den ∧
      (num / den : ℚ) < 2 ^ ((num.log2 : ℤ) - den.log2 + 1) := by
  have hd : (0 : ℚ) < den := by exact_mod_cast hden
  have hnumLow : (2 : ℚ) ^ (num.log2 : ℤ) ≤ num := by
    rw [zpow_natCast]
    exact_mod_cast Nat.log2_self_le (Nat.ne_of_gt hnum)
  have hnumHigh : (num : ℚ) < 2 ^ ((num.log2 : ℤ) + 1) := by
    have hlt : num < 2 ^ (num.log2 + 1) := Nat.lt_log2_self
    exact_mod_cast hlt
  have hdenLow : (2 : ℚ) ^ (den.log2 : ℤ) ≤ den := by
    rw [zpow_natCast]
    exact_mod_cast Nat.log2_self_le (Nat.ne_of_gt hden)
  have hdenHigh : (den : ℚ) < 2 ^ ((den.log2 : ℤ) + 1) := by
    have hlt : den < 2 ^ (den.log2 + 1) := Nat.lt_log2_self
    exact_mod_cast hlt
  constructor
  · rw [le_div_iff₀ hd]
    calc (2 : ℚ) ^ ((num.log2 : ℤ) - den.log2 - 1) * den
        ≤ 2 ^ ((num.log2 : ℤ) - den.log2 - 1) * 2 ^ ((den.log2 : ℤ) + 1) := by
          gcongr
      _ = 2 ^ (num.log2 : ℤ) := by
          rw [← zpow_add₀ (by norm_num)]
          congr 1
          omega
      _ ≤ num := hnumLow
  · rw [div_lt_iff₀ hd]
    calc (num : ℚ) < 2 ^ ((num.log2 : ℤ) + 1) := hnumHigh
      _ = 2 ^ ((num.log2 : ℤ) - den.log2 + 1) * 2 ^ (den.log2 : ℤ) := by
          rw [← zpow_add₀ (by norm_num)]
          congr 1
          omega
      _ ≤ 2 ^ ((num.log2 : ℤ) - den.log2 + 1) * den := by
          gcongr

theorem exponentFor_bounds {num den : Nat} (hnum : 0 < num) (hden : 0 < den) :
    (num / den : ℚ) < 2 ^ (53 + exponentFor num den) ∧
      (exponentFor num den = leastExponent ∨
        (2 : ℚ) ^ (52 + exponentFor num den) ≤ num / den) := by
  rcases quotient_bounds hnum hden with ⟨hlow, hhigh⟩
  let guess : ℤ := (num.log2 : ℤ) - den.log2 - 52
  let scaled := num * Nat.pow 2 (-guess).toNat / (den * Nat.pow 2 guess.toNat)
  have hscaled : scaled < 2 ^ 52 ↔ (num / den : ℚ) < 2 ^ (52 + guess) := by
    have hpos := scaled_den_pos hden guess
    have hcast : (0 : ℚ) < (den * Nat.pow 2 guess.toNat : ℕ) := by
      exact_mod_cast hpos
    rw [Nat.div_lt_iff_lt_mul hpos, zpow_add₀ (by norm_num),
      ← div_lt_iff₀ (two_zpow_pos guess), ← scaled_div, div_lt_iff₀ hcast]
    norm_cast
  have hchoice : ∃ e : ℤ, exponentFor num den = max e leastExponent ∧
      (num / den : ℚ) < 2 ^ (53 + e) ∧ (2 : ℚ) ^ (52 + e) ≤ num / den := by
    by_cases hsmall : scaled < 2 ^ 52
    · refine ⟨guess - 1, ?_, ?_, ?_⟩
      · change max (if scaled < 2 ^ 52 then guess - 1 else guess) leastExponent = _
        rw [if_pos hsmall]
      · rw [show (53 : ℤ) + (guess - 1) = 52 + guess by ring]
        exact hscaled.mp hsmall
      · rw [show (52 : ℤ) + (guess - 1) = (num.log2 : ℤ) - den.log2 - 1 by
          simp only [guess]; ring]
        exact hlow
    · refine ⟨guess, ?_, ?_, ?_⟩
      · change max (if scaled < 2 ^ 52 then guess - 1 else guess) leastExponent = _
        rw [if_neg hsmall]
      · rw [show (53 : ℤ) + guess = (num.log2 : ℤ) - den.log2 + 1 by
          simp only [guess]; ring]
        exact hhigh
      · exact not_lt.mp fun hlt => hsmall (hscaled.mpr hlt)
  rcases hchoice with ⟨e, heq, hlt, hle⟩
  rw [heq]
  constructor
  · apply lt_of_lt_of_le hlt
    apply zpow_le_zpow_right₀ (by norm_num)
    have := le_max_left e leastExponent
    omega
  · rcases le_total e leastExponent with hleast | hleast
    · exact Or.inl (max_eq_right hleast)
    · rw [max_eq_left hleast]
      exact Or.inr hle

/-!
## Rounded magnitudes
-/

def rounded (num den : Nat) : Magnitude :=
  let q := exponentFor num den
  let m := roundDiv (num * Nat.pow 2 (-q).toNat) (den * Nat.pow 2 q.toNat)
  if m = Nat.pow 2 53 then ⟨Nat.pow 2 52, q + 1⟩ else ⟨m, q⟩

theorem ofQuotient_of_pos (negative : Bool) {num den : Nat} (h : 0 < num) :
    ofQuotient negative num den = ofMagnitude negative (rounded num den) := by
  rw [ofQuotient, if_neg (Nat.ne_of_gt h)]
  rfl

/-- The point from which on quotients are rounded to infinity. -/
def overflow : ℚ :=
  2 ^ (1024 : ℤ) - 2 ^ (970 : ℤ)

theorem overflow_eq : overflow = (2 ^ 53 - 1 / 2) * 2 ^ (971 : ℤ) := by
  have hpow : (2 : ℚ) ^ (1024 : ℤ) = 2 ^ 53 * 2 ^ (971 : ℤ) := by
    rw [← zpow_natCast, ← zpow_add₀ (by norm_num)]
    rfl
  have hhalf : (2 : ℚ) ^ (970 : ℤ) = 1 / 2 * 2 ^ (971 : ℤ) := by
    rw [show (971 : ℤ) = 1 + 970 by norm_num, zpow_add₀ (by norm_num)]
    ring
  rw [overflow, hpow, hhalf, sub_mul]

def roundedAt (num den : Nat) : Nat :=
  roundDiv (num * Nat.pow 2 (-exponentFor num den).toNat)
    (den * Nat.pow 2 (exponentFor num den).toNat)

theorem rounded_eq (num den : Nat) : rounded num den =
    if roundedAt num den = 2 ^ 53 then ⟨2 ^ 52, exponentFor num den + 1⟩
    else ⟨roundedAt num den, exponentFor num den⟩ := by
  simp only [rounded, roundedAt, Nat.pow_eq]
  rfl

theorem roundedAt_le (num : Nat) {den : Nat} (hden : 0 < den) :
    (roundedAt num den : ℚ) ≤
      (num / den : ℚ) / 2 ^ exponentFor num den + 1 / 2 := by
  rw [← scaled_div]
  exact roundDiv_le (scaled_den_pos hden _)

section

variable {num den : Nat}

theorem roundedAt_le_pow (hnum : 0 < num) (hden : 0 < den) :
    roundedAt num den ≤ 2 ^ 53 := by
  have hlt := (exponentFor_bounds hnum hden).1
  rw [zpow_add₀ (by norm_num), ← div_lt_iff₀ (two_zpow_pos _)] at hlt
  have hle := roundedAt_le num hden
  have hbound : (roundedAt num den : ℚ) < (2 ^ 53 + 1 : ℕ) := by
    norm_num at hlt
    push_cast
    linarith
  exact Nat.le_of_lt_succ (by exact_mod_cast hbound)

theorem pow_le_roundedAt (hnum : 0 < num) (hden : 0 < den)
    (h : exponentFor num den ≠ leastExponent) : 2 ^ 52 ≤ roundedAt num den := by
  have hle := (exponentFor_bounds hnum hden).2.resolve_left h
  rw [zpow_add₀ (by norm_num), ← le_div_iff₀ (two_zpow_pos _), ← scaled_div,
    le_div_iff₀ (by exact_mod_cast scaled_den_pos hden _)] at hle
  apply le_trans _ (div_le_roundDiv _ _)
  rw [Nat.le_div_iff_mul_le (scaled_den_pos hden _)]
  exact_mod_cast hle

theorem exponentFor_le (hnum : 0 < num) (hden : 0 < den)
    (h : (num / den : ℚ) < overflow) : exponentFor num den ≤ 971 := by
  by_contra hlarge
  rcases (exponentFor_bounds hnum hden).2 with hleast | hle
  · rw [hleast, leastExponent] at hlarge
    omega
  · have hpow : (2 : ℚ) ^ (1024 : ℤ) ≤ 2 ^ (52 + exponentFor num den) :=
      zpow_le_zpow_right₀ (by norm_num) (by omega)
    have hoverflow : overflow ≤ 2 ^ (1024 : ℤ) :=
      sub_le_self _ (two_zpow_pos 970).le
    exact absurd h (not_lt.mpr (hoverflow.trans (hpow.trans hle)))

theorem isFinite_rounded (hnum : 0 < num) (hden : 0 < den)
    (h : (num / den : ℚ) < overflow) : (rounded num den).IsFinite := by
  have hle := exponentFor_le hnum hden h
  have hleast : leastExponent ≤ exponentFor num den := le_max_right _ _
  rw [rounded_eq]
  by_cases hcarry : roundedAt num den = 2 ^ 53
  · rw [if_pos hcarry]
    have hne : exponentFor num den ≠ 971 := by
      intro heq
      have hbound := roundedAt_le num hden
      have hlt : (num / den : ℚ) / 2 ^ (971 : ℤ) < 2 ^ 53 - 1 / 2 := by
        rw [div_lt_iff₀ (two_zpow_pos _), ← overflow_eq]
        exact h
      rw [hcarry, heq] at hbound
      generalize (num / den : ℚ) / 2 ^ (971 : ℤ) = scaled at hbound hlt
      push_cast at hbound
      linarith
    exact
      { significand := by norm_num
        least := by
          change leastExponent ≤ exponentFor num den + 1
          omega
        greatest := by
          change exponentFor num den + 1 ≤ 971
          omega
        leading := fun hlt => absurd hlt (by norm_num) }
  · rw [if_neg hcarry]
    exact
      { significand := lt_of_le_of_ne (roundedAt_le_pow hnum hden) hcarry
        least := hleast
        greatest := hle
        leading := by
          intro hlt
          by_contra hne
          exact absurd hlt (not_lt.mpr (pow_le_roundedAt hnum hden hne)) }

theorem value_rounded (num den : Nat) :
    (rounded num den).value =
      roundedAt num den * 2 ^ exponentFor num den := by
  rw [rounded_eq]
  split
  · rename_i hcarry
    rw [hcarry, Magnitude.value, zpow_add₀ (by norm_num)]
    push_cast
    ring
  · rfl

theorem value_rounded_le (hden : 0 < den) (h : den ≤ num) :
    (rounded num den).value ≤ (num / den : ℚ) * (1 + 1 / 2 ^ 53) := by
  have hnum : 0 < num := lt_of_lt_of_le hden h
  have hone : (1 : ℚ) ≤ num / den := by
    rw [one_le_div (by exact_mod_cast hden)]
    exact_mod_cast h
  rcases exponentFor_bounds hnum hden with ⟨hlt, hleast | hle⟩
  · rw [hleast, leastExponent] at hlt
    have hsmall : (2 : ℚ) ^ ((53 : ℤ) + -1074) ≤ 2 ^ (0 : ℤ) :=
      zpow_le_zpow_right₀ (by norm_num) (by norm_num)
    rw [zpow_zero] at hsmall
    exact absurd (hlt.trans_le hsmall) (not_lt.mpr hone)
  · rw [zpow_add₀ (by norm_num)] at hle
    have hround : (roundedAt num den : ℚ) * 2 ^ exponentFor num den ≤
        num / den + 1 / 2 * 2 ^ exponentFor num den := by
      rw [← sub_le_iff_le_add, ← sub_mul, ← le_div_iff₀ (two_zpow_pos _)]
      linarith [roundedAt_le num hden]
    rw [value_rounded]
    norm_num at hle ⊢
    linarith

end

theorem isFinite_zero : (⟨0, leastExponent⟩ : Magnitude).IsFinite :=
  { significand := by norm_num
    least := le_refl _
    greatest := by decide
    leading := fun _ => rfl }

theorem isFinite_ofQuotient (negative : Bool) {num den : Nat} (hden : 0 < den)
    (h : (num / den : ℚ) < overflow) :
    (ofQuotient negative num den).isFinite = true := by
  rcases Nat.eq_zero_or_pos num with rfl | hnum
  · rw [ofQuotient, if_pos rfl]
    exact isFinite_ofMagnitude negative isFinite_zero
  · rw [ofQuotient_of_pos negative hnum]
    exact isFinite_ofMagnitude negative (isFinite_rounded hnum hden h)

/-!
## Products of naturals
-/

theorem magnitude_ofNat_zero : (ofNat 0).magnitude = ⟨0, leastExponent⟩ :=
  magnitude_ofMagnitude false isFinite_zero

theorem value_magnitude_ofNat_le {n : Nat} (h : (n : ℚ) < overflow) :
    (ofNat n).magnitude.value ≤ n * (1 + 1 / 2 ^ 53) := by
  rcases Nat.eq_zero_or_pos n with rfl | hpos
  · rw [magnitude_ofNat_zero, Magnitude.value]
    norm_num
  · have hquotient : (n / (1 : ℕ) : ℚ) = n := by norm_num
    have hfinite : (rounded n 1).IsFinite := by
      apply isFinite_rounded hpos Nat.one_pos
      rw [hquotient]
      exact h
    rw [ofNat, ofQuotient_of_pos false hpos, magnitude_ofMagnitude false hfinite,
      ← hquotient]
    exact value_rounded_le Nat.one_pos hpos

theorem value_nonneg (v : Magnitude) : 0 ≤ v.value :=
  mul_nonneg (Nat.cast_nonneg _) (two_zpow_pos _).le

/-- The product of two naturals is finite even if each of them is rounded before. -/
theorem isFinite_mul_ofNat {m n : Nat} (hn : 0 < n)
    (h : (m * n : ℚ) * (1 + 1 / 2 ^ 53) ^ 2 < overflow) :
    ((ofNat m).mul (ofNat n)).isFinite = true := by
  have hden : 0 < (ofNat m).magnitude.den * (ofNat n).magnitude.den :=
    Nat.mul_pos (Magnitude.den_pos _) (Magnitude.den_pos _)
  rw [mul]
  apply isFinite_ofQuotient _ hden
  have hvalue : (((ofNat m).magnitude.num * (ofNat n).magnitude.num : ℕ) : ℚ) /
      ((ofNat m).magnitude.den * (ofNat n).magnitude.den : ℕ) =
        (ofNat m).magnitude.value * (ofNat n).magnitude.value := by
    rw [← Magnitude.num_div_den, ← Magnitude.num_div_den]
    push_cast
    rw [mul_div_mul_comm]
  rw [hvalue]
  have hgrow : (1 : ℚ) ≤ (1 + 1 / 2 ^ 53) ^ 2 := by norm_num
  have hproduct : (m * n : ℚ) < overflow :=
    lt_of_le_of_lt (le_mul_of_one_le_right (by positivity) hgrow) h
  rcases Nat.eq_zero_or_pos m with rfl | hm
  · rw [magnitude_ofNat_zero]
    simpa [Magnitude.value] using hproduct
  · have hmq : (1 : ℚ) ≤ m := by exact_mod_cast hm
    have hnq : (1 : ℚ) ≤ n := by exact_mod_cast hn
    have hmBound : (m : ℚ) < overflow :=
      lt_of_le_of_lt (le_mul_of_one_le_right (by positivity) hnq) hproduct
    have hnBound : (n : ℚ) < overflow :=
      lt_of_le_of_lt (le_mul_of_one_le_left (by positivity) hmq) hproduct
    calc (ofNat m).magnitude.value * (ofNat n).magnitude.value
        ≤ (m * (1 + 1 / 2 ^ 53)) * (n * (1 + 1 / 2 ^ 53)) :=
          mul_le_mul (value_magnitude_ofNat_le hmBound)
            (value_magnitude_ofNat_le hnBound) (value_nonneg _) (by positivity)
      _ = (m * n) * (1 + 1 / 2 ^ 53) ^ 2 := by ring
      _ < overflow := h

end Double

end AccessChecks
