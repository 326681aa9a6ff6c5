import Mathlib
import AccessChecks.Proofs.DecimalText
import AccessChecks.Proofs.Rounding

/-!
# Values of decimals

## Composition

The leading digits of a number are composed with the power of ten that is left for
them.  Under a negative power this is a quotient, which is always finite.  Otherwise
it is a product, which is finite if it stays far enough below the point from which on
numbers are rounded to infinity.

## Decimals

A decimal that is written with its point has digits behind the point that fit, so it
is read as a quotient.  One that is written with an exponent is read as the quotient
or product of leading digits that do not exceed it.
-/

namespace AccessChecks

def Decimal.value (d : Decimal) : ℚ :=
  d.digits * 10 ^ d.exponent

namespace Json

/-!
## Digits as numbers
-/

theorem digitValue_le {c : Char} (h : c.isDigit = true) : digitValue c ≤ 9 := by
  rw [Char.isDigit, Bool.and_eq_true, decide_eq_true_iff, decide_eq_true_iff,
    UInt32.le_iff_toNat_le] at h
  have hnine : c.toNat ≤ 57 := h.2
  have hzero : '0'.toNat = 48 := rfl
  rw [digitValue]
  omega

theorem numberOf_lt {ds : List Char} (hds : ∀ c ∈ ds, c.isDigit = true)
    (n : Nat) : numberOf ds n < (n + 1) * 10 ^ ds.length := by
  induction ds generalizing n with
  | nil =>
      rw [List.length_nil, pow_zero, Nat.mul_one]
      exact Nat.lt_succ_self n
  | cons c ds ih =>
      have hdigit := digitValue_le (hds c List.mem_cons_self)
      have hrest := ih (fun d hd => hds d (List.mem_cons_of_mem c hd))
        (n * 10 + digitValue c)
      rw [numberOf_cons]
      calc numberOf ds (n * 10 + digitValue c)
          < (n * 10 + digitValue c + 1) * 10 ^ ds.length := hrest
        _ ≤ ((n + 1) * 10) * 10 ^ ds.length :=
            Nat.mul_le_mul_right _ (by omega)
        _ = (n + 1) * 10 ^ (c :: ds).length := by
            rw [List.length_cons, pow_succ]
            ring

theorem mul_pow_le_numberOf (ds : List Char) (n : Nat) :
    n * 10 ^ ds.length ≤ numberOf ds n := by
  induction ds generalizing n with
  | nil => rw [List.length_nil, pow_zero, Nat.mul_one]; exact Nat.le_refl n
  | cons c ds ih =>
      rw [numberOf_cons]
      calc n * 10 ^ (c :: ds).length = (n * 10) * 10 ^ ds.length := by
            rw [List.length_cons, pow_succ]
            ring
        _ ≤ (n * 10 + digitValue c) * 10 ^ ds.length :=
            Nat.mul_le_mul_right _ (Nat.le_add_right _ _)
        _ ≤ numberOf ds (n * 10 + digitValue c) := ih _

theorem numberOf_append (ds es : List Char) (n : Nat) :
    numberOf (ds ++ es) n = numberOf es (numberOf ds n) :=
  Nat.ofDigitChars_append n

theorem length_ignored_lt {n : Nat} {c : Char} (ds : List Char)
    (hc : c.isDigit = true) (hn : n < 10 ^ 16) :
    (appendDigits n (c :: ds)).2.length < (c :: ds).length := by
  have hdigit := digitValue_le hc
  -- the first digit still fits a word, whatever is left over behind it
  have hword : ¬ n * 10 + digitValue c > largestWord := by
    have hlargest : largestWord = 2 ^ 64 - 1 := rfl
    omega
  rcases exists_appendDigits (n * 10 + digitValue c) ds with ⟨kept, hsplit, _⟩
  have hlength := congrArg List.length hsplit
  rw [List.length_append] at hlength
  rw [appendDigits, if_neg hword, List.length_cons]
  omega

/-!
## Composed numbers
-/

theorem isSome_compose?_of_neg {negative : Bool} {n : Nat} {e : Int}
    (h : e < 0) : (compose? negative n e).isSome = true := by
  rw [compose?, if_pos h]
  rfl

theorem isSome_compose?_of_lt {negative : Bool} {n : Nat} {e : Int}
    (hexp : e.toNat ≤ largestPower)
    (h : (n * 10 ^ e.toNat : ℚ) * (1 + 1 / 2 ^ 53) ^ 2 < Double.overflow) :
    (compose? negative n e).isSome = true := by
  rcases Int.lt_or_le e 0 with hneg | hpos
  · exact isSome_compose?_of_neg hneg
  · have hfinite : ((Double.ofNat n).mul (powerOfTen e.toNat)).isFinite =
        true := by
      rw [powerOfTen]
      apply Double.isFinite_mul_ofNat (Nat.pow_pos (by decide))
      push_cast
      exact h
    rw [compose?, if_neg (Int.not_lt.mpr hpos), if_pos hexp]
    dsimp only
    rw [if_pos hfinite]
    rfl

theorem isSome_floatValue?_of_short {p : NumberParts} (hp : p.WellFormed)
    (hwhole : p.whole.length ≤ 16) (hfraction : p.fraction.isSome = true)
    (hexponent : p.exponent = none) : (floatValue? p).isSome = true := by
  rcases Option.isSome_iff_exists.mp hfraction with ⟨ds, hds⟩
  have hdigits := hp.fraction ds hds
  have hnumber : numberOf p.whole 0 < 10 ^ 16 := by
    calc numberOf p.whole 0 < (0 + 1) * 10 ^ p.whole.length :=
          numberOf_lt hp.whole.digits 0
      _ ≤ 10 ^ 16 := by
          rw [Nat.zero_add, Nat.one_mul]
          exact Nat.pow_le_pow_right (by decide) hwhole
  have hword : numberOf p.whole 0 ≤ largestWord := by
    have hlargest : largestWord = 2 ^ 64 - 1 := rfl
    omega
  rw [floatValue?, appendDigits_of_le hword, hds, hexponent]
  apply isSome_compose?_of_neg
  cases ds with
  | nil => exact absurd rfl hdigits.nonempty
  | cons c rest =>
      have hlength := length_ignored_lt rest
        (hdigits.digits c List.mem_cons_self) hnumber
      simp only [List.length_nil, Option.getD_some]
      omega

/-!
## Exponents
-/

theorem foldl_eq_numberOf (ds : List Char) (n : Nat) :
    ds.foldl (fun n c => n * 10 + digitValue c) n = numberOf ds n := by
  induction ds generalizing n with
  | nil => rfl
  | cons c ds ih => rw [List.foldl_cons, ih, numberOf_cons]

theorem exponentValue?_digitChars {n : Nat} (h : n ≤ largestExponent) :
    exponentValue? (digitChars n) = some n := by
  rw [exponentValue?, foldl_eq_numberOf, numberOf_digitChars]
  exact if_pos h

theorem clampExponent_of_neg {e : Int} (h : e < 0) : clampExponent e < 0 := by
  have hpow : Int.pow 2 31 = 2147483648 := rfl
  rw [clampExponent, hpow]
  omega

theorem clampExponent_of_small {e : Int} (hpos : 0 ≤ e) (h : e ≤ 1000) :
    clampExponent e = e := by
  have hpow : Int.pow 2 31 = 2147483648 := rfl
  rw [clampExponent, hpow]
  omega

theorem pow_leadingExponent_le {d : Decimal} (h : 0 < d.digits) :
    (10 : ℚ) ^ d.leadingExponent ≤ d.value := by
  have hlength := length_digitChars_pos d.digits
  have hdigits : 10 ^ ((digitChars d.digits).length - 1) ≤ d.digits := by
    by_contra hlt
    rcases Nat.eq_zero_or_pos ((digitChars d.digits).length - 1) with hone | hmore
    · rw [hone, pow_zero] at hlt
      exact hlt h
    · have hle := (Nat.length_toDigits_le_iff (by decide) hmore).mpr
        (Nat.lt_of_not_le hlt)
      rw [← digitChars] at hle
      omega
  have hlead : d.leadingExponent =
      (((digitChars d.digits).length - 1 : ℕ) : ℤ) + d.exponent := by
    rw [Decimal.leadingExponent]
    omega
  rw [hlead, zpow_add₀ (by norm_num), zpow_natCast, Decimal.value]
  apply mul_le_mul_of_nonneg_right _ (zpow_pos (by norm_num) _).le
  exact_mod_cast hdigits

theorem leadingExponent_le {d : Decimal} (h : 0 < d.digits)
    (hsize : d.value < Double.overflow) : d.leadingExponent ≤ 308 := by
  by_contra hlarge
  have hpow : (10 : ℚ) ^ (309 : ℤ) ≤ 10 ^ d.leadingExponent :=
    zpow_le_zpow_right₀ (by norm_num) (by omega)
  have hbound : Double.overflow ≤ (10 : ℚ) ^ (309 : ℤ) := by
    have hnat : (2 : ℕ) ^ 1024 ≤ 10 ^ 309 := by decide +kernel
    have hcast : (2 : ℚ) ^ (1024 : ℤ) ≤ 10 ^ (309 : ℤ) := by
      exact_mod_cast hnat
    exact (sub_le_self _ (two_zpow_pos 970).le).trans hcast
  exact absurd hsize
    (not_lt.mpr (hbound.trans (hpow.trans (pow_leadingExponent_le h))))

theorem kept_mul_pow_le_value {d : Decimal} {c : Char}
    {kept ignored : List Char}
    (hsplit : digitChars d.digits = c :: (kept ++ ignored))
    (h : 0 ≤ d.exponent + ignored.length) :
    (numberOf kept (digitValue c) : ℚ) *
      10 ^ (d.exponent + ignored.length).toNat ≤ d.value := by
  have hnumber : numberOf ignored (numberOf kept (digitValue c)) = d.digits := by
    have hall := numberOf_digitChars d.digits
    rw [hsplit, numberOf_cons, Nat.zero_mul, Nat.zero_add, numberOf_append] at hall
    exact hall
  have hdigits : numberOf kept (digitValue c) * 10 ^ ignored.length ≤
      d.digits := by
    rw [← hnumber]
    exact mul_pow_le_numberOf ignored _
  have hpow : (10 : ℚ) ^ (d.exponent + ignored.length).toNat =
      10 ^ ignored.length * 10 ^ d.exponent := by
    rw [← zpow_natCast, Int.toNat_of_nonneg h, zpow_add₀ (by norm_num),
      zpow_natCast, mul_comm]
  rw [hpow, ← mul_assoc, Decimal.value]
  apply mul_le_mul_of_nonneg_right _ (zpow_pos (by norm_num) _).le
  exact_mod_cast hdigits

theorem numberOf_singleton (c : Char) : numberOf [c] 0 = digitValue c := by
  rw [numberOf_cons, numberOf, Nat.ofDigitChars_nil]
  omega

theorem decimalParts_of_scientific (negative : Bool) {d : Decimal} {c : Char}
    {rest : List Char} (hscientific : isPositional d.leadingExponent = false)
    (hchars : digitChars d.digits = c :: rest) :
    decimalParts negative d =
      ⟨negative, [c], if rest.isEmpty then none else some rest,
        some (decide (d.leadingExponent < 0),
          digitChars d.leadingExponent.natAbs)⟩ := by
  rw [decimalParts, hscientific, if_neg (by decide), hchars]
  rfl

theorem floatValue?_scientific (negative : Bool) {d : Decimal} {c : Char}
    {rest : List Char} (hscientific : isPositional d.leadingExponent = false)
    (hchars : digitChars d.digits = c :: rest)
    (hcounted : d.leadingExponent.natAbs ≤ largestExponent) :
    floatValue? (decimalParts negative d) =
      compose? negative (appendDigits (digitValue c) rest).1
        (clampExponent
          (d.exponent + (appendDigits (digitValue c) rest).2.length)) := by
  have hfirst : c.isDigit = true :=
    (isDigits_digitChars d.digits).digits c (by simp [hchars])
  have hword : numberOf [c] 0 ≤ largestWord := by
    have hvalue := digitValue_le hfirst
    have hlargest : largestWord = 2 ^ 64 - 1 := rfl
    rw [numberOf_singleton]
    omega
  -- the written exponent is that of the first digit, so what is left for the digits that
  -- are read is the exponent of the decimal and the digits behind them
  have hlead : d.leadingExponent = d.exponent + rest.length := by
    rw [Decimal.leadingExponent, hchars, List.length_cons]
    omega
  have hfraction : (if rest.isEmpty then none else some rest).getD [] =
      rest := by
    cases rest <;> rfl
  rw [decimalParts_of_scientific negative hscientific hchars, floatValue?,
    appendDigits_of_le hword, numberOf_singleton]
  simp only [hfraction, exponentValue?_digitChars hcounted, List.length_nil]
  by_cases hdown : d.leadingExponent < 0
  · rw [decide_eq_true hdown, if_pos rfl]
    congr 2
    omega
  · rw [decide_eq_false hdown, if_neg (by decide)]
    congr 2
    omega

theorem isSome_floatValue?_scientific (negative : Bool) {d : Decimal}
    (hdigits : 0 < d.digits) (hscientific : isPositional d.leadingExponent = false)
    (hsize : d.value * (1 + 1 / 2 ^ 53) ^ 2 < Double.overflow)
    (hleast : -1000 ≤ d.leadingExponent) :
    (floatValue? (decimalParts negative d)).isSome = true := by
  have hgrow : (1 : ℚ) ≤ (1 + 1 / 2 ^ 53) ^ 2 := by norm_num
  have hnonneg : 0 ≤ d.value :=
    mul_nonneg (Nat.cast_nonneg _) (zpow_pos (by norm_num) _).le
  have hle : d.leadingExponent ≤ 308 :=
    leadingExponent_le hdigits
      (lt_of_le_of_lt (le_mul_of_one_le_right hnonneg hgrow) hsize)
  have hcounted : d.leadingExponent.natAbs ≤ largestExponent := by
    have hlargest : largestExponent = 2 ^ 31 - 1 := rfl
    omega
  cases hchars : digitChars d.digits with
  | nil => exact absurd hchars Nat.toDigits_ne_nil
  | cons c rest =>
      rw [floatValue?_scientific negative hscientific hchars hcounted]
      rcases exists_appendDigits (digitValue c) rest with ⟨kept, hsplit, hnumber⟩
      rcases Int.lt_or_le
        (d.exponent + (appendDigits (digitValue c) rest).2.length) 0 with
        hneg | hpos
      · exact isSome_compose?_of_neg (clampExponent_of_neg hneg)
      · have hsmall :
            d.exponent + (appendDigits (digitValue c) rest).2.length ≤ 308 := by
          have hlength := congrArg List.length hsplit
          rw [List.length_append] at hlength
          rw [Decimal.leadingExponent, hchars, List.length_cons] at hle
          omega
        rw [clampExponent_of_small hpos (by omega)]
        apply isSome_compose?_of_lt
        · have hlargest : largestPower = 308 := rfl
          omega
        · have hkept := kept_mul_pow_le_value
            (hchars.trans (congrArg (c :: ·) hsplit)) hpos
          rw [← hnumber] at hkept
          exact lt_of_le_of_lt
            (mul_le_mul_of_nonneg_right hkept (by positivity)) hsize

theorem isSome_floatValue?_decimalParts (negative : Bool) {d : Decimal}
    (plain : d.IsPlain)
    (hsize : d.value * (1 + 1 / 2 ^ 53) ^ 2 < Double.overflow)
    (hleast : -1000 ≤ d.leadingExponent) :
    (floatValue? (decimalParts negative d)).isSome = true := by
  have hwell := wellFormed_decimalParts negative plain
  cases hpositional : isPositional d.leadingExponent with
  | false =>
      have hpos : 0 < d.digits := by
        rcases plain with hpos | rfl
        · exact hpos
        · cases hpositional
      exact isSome_floatValue?_scientific negative hpos hpositional hsize hleast
  | true =>
      have hrange : -5 ≤ d.leadingExponent ∧ d.leadingExponent ≤ 15 := by
        simpa [isPositional] using hpositional
      have hlead : d.leadingExponent =
          d.exponent + (digitChars d.digits).length - 1 := rfl
      rw [decimalParts, if_pos hpositional] at hwell ⊢
      split at hwell
      · rename_i hexp
        rw [if_pos hexp]
        apply isSome_floatValue?_of_short hwell _ rfl rfl
        rw [List.length_append, List.length_replicate]
        omega
      · rename_i hexp
        rw [if_neg hexp]
        split at hwell
        · rename_i hle
          rw [if_pos hle]
          apply isSome_floatValue?_of_short hwell _ rfl rfl
          rw [List.length_take]
          omega
        · rename_i hle
          rw [if_neg hle]
          exact isSome_floatValue?_of_short hwell (show 1 ≤ 16 by decide) rfl rfl

end Json

end AccessChecks
