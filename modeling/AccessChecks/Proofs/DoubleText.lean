import AccessChecks.Proofs.DecimalValues

/-!
# Finite numbers and their texts

## The shortest decimal

What the search finds lies between the points that bound the decimals of a number, so
it is not larger than the point halfway to the next number.

## Reading back

The spelling of a finite number always has a value.  Far from the largest number this
follows from the bound on the decimal; the three largest magnitudes are decided one by
one.
-/

namespace AccessChecks

namespace Decimal

theorem eq_of_nearer (i : Interval) (below above : Decimal) :
    nearer i below above = below ∨ nearer i below above = above := by
  rw [nearer]
  dsimp only
  split
  · exact Or.inl rfl
  · split
    · exact Or.inr rfl
    · split
      · exact Or.inl rfl
      · exact Or.inr rfl

theorem onGrid_eq_some {i : Interval} {k : Int} {d : Decimal}
    (h : onGrid i k = some d) : i.contains d = true ∧ d.exponent = k := by
  rw [onGrid] at h
  cases hbelow : i.contains (around i k).1 with
  | true =>
      cases habove : i.contains (around i k).2 with
      | true =>
          simp only [hbelow, habove, Option.some.injEq] at h
          rcases eq_of_nearer i (around i k).1 (around i k).2 with heq | heq
          · rw [← h, heq]
            exact ⟨hbelow, rfl⟩
          · rw [← h, heq]
            exact ⟨habove, rfl⟩
      | false =>
          simp only [hbelow, habove, Option.some.injEq] at h
          rw [← h]
          exact ⟨hbelow, rfl⟩
  | false =>
      cases habove : i.contains (around i k).2 with
      | true =>
          simp only [hbelow, habove, Option.some.injEq] at h
          rw [← h]
          exact ⟨habove, rfl⟩
      | false => simp only [hbelow, habove, reduceCtorEq] at h

theorem search_eq_some {i : Interval} {k : Int} {steps : Nat} {d : Decimal}
    (h : search i k steps = some d) :
    i.contains d = true ∧ k - steps < d.exponent := by
  induction steps generalizing k with
  | zero => cases h
  | succ steps ih =>
      rw [search] at h
      cases hgrid : onGrid i k with
      | some found =>
          rw [hgrid] at h
          cases h
          rcases onGrid_eq_some hgrid with ⟨hcontains, hexp⟩
          exact ⟨hcontains, by omega⟩
      | none =>
          rw [hgrid] at h
          rcases ih h with ⟨hcontains, hexp⟩
          exact ⟨hcontains, by omega⟩

section

variable {i : Interval} {d : Decimal}

theorem digits_pos_of_contains (hlower : 0 < i.lower) (hunit : 0 < i.unitNum)
    (h : i.contains d = true) : 0 < d.digits := by
  have hscale : 0 < (scale d.exponent).2 := Nat.pow_pos (by decide)
  have hbound : 0 < i.lower * i.unitNum * (scale d.exponent).2 :=
    Nat.mul_pos (Nat.mul_pos hlower hunit) hscale
  by_contra hzero
  have hdigits : d.digits = 0 := Nat.eq_zero_of_not_pos hzero
  have hpoint : d.digits * (scale d.exponent).1 * i.unitDen = 0 := by
    rw [hdigits, Nat.zero_mul, Nat.zero_mul]
  rw [Interval.contains] at h
  dsimp only at h
  rw [hpoint] at h
  cases hclosed : i.closed with
  | true =>
      rw [hclosed, if_pos rfl, Bool.and_eq_true, decide_eq_true_iff] at h
      omega
  | false =>
      rw [hclosed, if_neg (by decide), Bool.and_eq_true, decide_eq_true_iff] at h
      omega

theorem point_le_of_contains (h : i.contains d = true) :
    d.digits * (scale d.exponent).1 * i.unitDen ≤
      i.upper * i.unitNum * (scale d.exponent).2 := by
  rw [Interval.contains] at h
  dsimp only at h
  cases hclosed : i.closed with
  | true =>
      rw [hclosed, if_pos rfl, Bool.and_eq_true, decide_eq_true_iff,
        decide_eq_true_iff] at h
      exact h.2
  | false =>
      rw [hclosed, if_neg (by decide), Bool.and_eq_true, decide_eq_true_iff,
        decide_eq_true_iff] at h
      exact Nat.le_of_lt h.2

theorem value_le_of_contains (hden : 0 < i.unitDen) (h : i.contains d = true) :
    d.value ≤ i.upper * (i.unitNum / i.unitDen : ℚ) := by
  have hpoint : (d.digits : ℚ) * (scale d.exponent).1 * i.unitDen ≤
      i.upper * i.unitNum * (scale d.exponent).2 := by
    exact_mod_cast point_le_of_contains h
  have hdown : (0 : ℚ) < (scale d.exponent).2 := by
    have hpos : 0 < (scale d.exponent).2 := Nat.pow_pos (by decide)
    exact_mod_cast hpos
  have hdenq : (0 : ℚ) < i.unitDen := by exact_mod_cast hden
  have hpow : (10 : ℚ) ^ d.exponent =
      (scale d.exponent).1 / (scale d.exponent).2 := by
    rw [zpow_eq_pow_div_pow (by norm_num), scale, Nat.pow_eq, Nat.pow_eq]
    push_cast
    rfl
  rw [value, hpow, mul_div_assoc', mul_div_assoc', div_le_div_iff₀ hdown hdenq]
  exact hpoint

end

end Decimal

namespace Double

theorem fraction_lt (x : Double) : x.fraction < 2 ^ 52 :=
  Nat.mod_lt _ (by decide)

theorem isFinite_magnitude {x : Double} (h : x.isFinite = true) :
    x.magnitude.IsFinite := by
  have hfraction := x.fraction_lt
  have hfield : x.exponentField < 2048 := Nat.mod_lt _ (by decide)
  have hne : x.exponentField ≠ 2047 := bne_iff_ne.mp h
  rw [magnitude]
  split
  · exact
      { significand := by
          change x.fraction < 2 ^ 53
          omega
        least := le_refl _
        greatest := by
          change (-1074 : ℤ) ≤ 971
          omega
        leading := fun _ => rfl }
  · exact
      { significand := by
          change 2 ^ 52 + x.fraction < 2 ^ 53
          omega
        least := by
          change (-1074 : ℤ) ≤ (x.exponentField : ℤ) - 1075
          omega
        greatest := by
          change (x.exponentField : ℤ) - 1075 ≤ 971
          omega
        leading := by
          intro hsmall
          change 2 ^ 52 + x.fraction < 2 ^ 52 at hsmall
          omega }

theorem significand_pos {x : Double} (h : x.isZero = false) :
    0 < x.magnitude.significand := by
  rw [magnitude]
  split
  · rename_i hfield
    have hfraction : x.fraction ≠ 0 := by
      intro hzero
      rw [isZero, hfield, hzero] at h
      cases h
    exact Nat.pos_of_ne_zero hfraction
  · exact Nat.lt_of_lt_of_le (Nat.pow_pos (by decide)) (Nat.le_add_right _ _)

end Double

namespace Decimal

variable {x : Double}

theorem isPlain_shortest (h : x.isZero = false) : (shortest x).IsPlain := by
  have hsig := Double.significand_pos h
  rw [shortest]
  cases hsearch : search (Interval.of x) coarsest grids with
  | none => exact Or.inr rfl
  | some d =>
      refine Or.inl (digits_pos_of_contains ?_ ?_ (search_eq_some hsearch).1)
      · change 0 < 4 * x.magnitude.significand - (if _ then 1 else 2)
        split <;> omega
      · change 0 < 1 * Nat.pow 2 (x.magnitude.exponent - 2).toNat
        exact Nat.mul_pos Nat.one_pos (Nat.pow_pos (by decide))

theorem leadingExponent_shortest (x : Double) :
    -1000 ≤ (shortest x).leadingExponent := by
  have hlength := Json.length_digitChars_pos (shortest x).digits
  have hexp : -1000 ≤ (shortest x).exponent := by
    rw [shortest]
    cases hsearch : search (Interval.of x) coarsest grids with
    | none => decide
    | some d =>
        have hfound := (search_eq_some hsearch).2
        have hcoarsest : coarsest = 309 := rfl
        have hgrids : grids = 640 := rfl
        change -1000 ≤ d.exponent
        omega
  rw [leadingExponent]
  omega

theorem value_shortest_le (x : Double) :
    (shortest x).value ≤
      (x.magnitude.significand + 1 / 2) * 2 ^ x.magnitude.exponent := by
  have hhalf : (0 : ℚ) ≤
      (x.magnitude.significand + 1 / 2) * 2 ^ x.magnitude.exponent :=
    mul_nonneg (by positivity) (two_zpow_pos _).le
  rw [shortest]
  cases hsearch : search (Interval.of x) coarsest grids with
  | none =>
      change ((0 : ℕ) : ℚ) * _ ≤ _
      rw [Nat.cast_zero, zero_mul]
      exact hhalf
  | some d =>
      let quarter : Magnitude := ⟨1, x.magnitude.exponent - 2⟩
      have hunit : ((Interval.of x).unitNum : ℚ) / (Interval.of x).unitDen =
          2 ^ (x.magnitude.exponent - 2) := by
        change (quarter.num : ℚ) / quarter.den = _
        rw [Magnitude.num_div_den, Magnitude.value, Nat.cast_one, one_mul]
      have hupper : ((Interval.of x).upper : ℚ) =
          4 * x.magnitude.significand + 2 := by
        change ((4 * x.magnitude.significand + 2 : ℕ) : ℚ) = _
        push_cast
        rfl
      have hle := value_le_of_contains quarter.den_pos
        (search_eq_some hsearch).1
      rw [hunit, hupper, zpow_sub₀ (by norm_num)] at hle
      apply hle.trans_eq
      norm_num
      ring

end Decimal

/-!
## Reading finite numbers
-/

namespace Json

def doubleParts (x : Double) : NumberParts :=
  if x.isZero then ⟨x.isNegative, ['0'], some ['0'], none⟩
  else decimalParts x.isNegative (Decimal.shortest x)

theorem spelling_doubleParts (x : Double) :
    (doubleParts x).spelling = doubleSpelling x := by
  rw [doubleParts, doubleSpelling]
  cases x.isZero with
  | true => rfl
  | false =>
      change (decimalParts x.isNegative (Decimal.shortest x)).spelling =
        (if x.isNegative then ['-'] else []) ++
          decimalSpelling (Decimal.shortest x)
      exact spelling_decimalParts _ _

theorem wellFormed_doubleParts (x : Double) : (doubleParts x).WellFormed := by
  rw [doubleParts]
  cases hzero : x.isZero with
  | true =>
      exact
        { whole := isDigits_digitChars 0
          leading := Or.inl rfl
          fraction := fun _ h => Option.some.inj h ▸ isDigits_digitChars 0
          exponent := fun _ h => by cases h }
  | false =>
      exact wellFormed_decimalParts _ (Decimal.isPlain_shortest hzero)

theorem value?_eq_float {p : NumberParts}
    (h : p.fraction.isSome = true ∨ p.exponent.isSome = true) :
    p.value? = (floatValue? p).map .float := by
  have htest : (p.fraction.isNone && p.exponent.isNone) = false := by
    rcases h with hfraction | hexponent
    · rcases Option.isSome_iff_exists.mp hfraction with ⟨ds, hds⟩
      rw [hds]
      rfl
    · rcases Option.isSome_iff_exists.mp hexponent with ⟨e, he⟩
      rw [he, Bool.and_comm]
      rfl
  rw [NumberParts.value?]
  dsimp only
  rw [htest, Bool.false_and, if_neg (by decide)]

theorem decimalParts_fraction_or_exponent (negative : Bool) (d : Decimal) :
    (decimalParts negative d).fraction.isSome = true ∨
      (decimalParts negative d).exponent.isSome = true := by
  rw [decimalParts]
  split
  · split
    · exact Or.inl rfl
    · split
      · exact Or.inl rfl
      · exact Or.inl rfl
  · exact Or.inr rfl

theorem doubleParts_fraction_or_exponent (x : Double) :
    (doubleParts x).fraction.isSome = true ∨
      (doubleParts x).exponent.isSome = true := by
  rw [doubleParts]
  split
  · exact Or.inl rfl
  · exact decimalParts_fraction_or_exponent _ _

def largestDoubles : List Double :=
  [⟨0x7FEFFFFFFFFFFFFF⟩, ⟨0x7FEFFFFFFFFFFFFE⟩, ⟨0x7FEFFFFFFFFFFFFD⟩,
    ⟨0xFFEFFFFFFFFFFFFF⟩, ⟨0xFFEFFFFFFFFFFFFE⟩, ⟨0xFFEFFFFFFFFFFFFD⟩]

theorem isSome_floatValue?_largest :
    ∀ x ∈ largestDoubles, (floatValue? (doubleParts x)).isSome = true := by
  decide +kernel

theorem mem_largestDoubles {x : Double} (hexp : x.magnitude.exponent = 971)
    (hsig : 2 ^ 53 - 3 ≤ x.magnitude.significand) : x ∈ largestDoubles := by
  obtain ⟨bits⟩ := x
  have hbits : bits.toNat < 2 ^ 64 := bits.toNat_lt
  have hfield : bits.toNat / 2 ^ 52 % 2 ^ 11 = 2046 ∧
      2 ^ 52 - 3 ≤ bits.toNat % 2 ^ 52 := by
    rw [Double.magnitude] at hexp hsig
    split at hexp
    · cases hexp
    · rename_i hne
      rw [if_neg hne] at hsig
      change ((bits.toNat / 2 ^ 52 % 2 ^ 11 : ℕ) : ℤ) - 1075 = 971 at hexp
      change 2 ^ 53 - 3 ≤ 2 ^ 52 + bits.toNat % 2 ^ 52 at hsig
      omega
  have hcases : bits.toNat = 0x7FEFFFFFFFFFFFFF ∨
      bits.toNat = 0x7FEFFFFFFFFFFFFE ∨ bits.toNat = 0x7FEFFFFFFFFFFFFD ∨
      bits.toNat = 0xFFEFFFFFFFFFFFFF ∨ bits.toNat = 0xFFEFFFFFFFFFFFFE ∨
      bits.toNat = 0xFFEFFFFFFFFFFFFD := by
    omega
  have hmem : ∀ n : Nat, bits.toNat = n →
      (⟨UInt64.ofNat n⟩ : Double) ∈ largestDoubles →
        (⟨bits⟩ : Double) ∈ largestDoubles := by
    intro n hn hlargest
    rw [← hn, UInt64.ofNat_toNat] at hlargest
    exact hlargest
  rcases hcases with h | h | h | h | h | h
  all_goals exact hmem _ h (by decide)

theorem shortest_lt_overflow {x : Double} (hfinite : x.isFinite = true)
    (h : x.magnitude.exponent = 971 →
      x.magnitude.significand ≤ 2 ^ 53 - 4) :
    (Decimal.shortest x).value * (1 + 1 / 2 ^ 53) ^ 2 < Double.overflow := by
  -- reading rounds two more times, and there has to be room for both
  have hmagnitude := Double.isFinite_magnitude hfinite
  have hsig : (x.magnitude.significand : ℚ) ≤ 2 ^ 53 - 1 := by
    have hle : x.magnitude.significand ≤ 2 ^ 53 - 1 :=
      Nat.le_pred_of_lt hmagnitude.significand
    have hcast : (x.magnitude.significand : ℚ) ≤ (2 ^ 53 - 1 : ℕ) := by
      exact_mod_cast hle
    norm_num at hcast ⊢
    exact hcast
  have hpos := two_zpow_pos 971
  have hbound := Decimal.value_shortest_le x
  rw [Double.overflow_eq]
  rcases Int.lt_or_eq_of_le hmagnitude.greatest with hlt | heq
  · have hpow : (2 : ℚ) ^ x.magnitude.exponent ≤ 1 / 2 * 2 ^ (971 : ℤ) := by
      calc (2 : ℚ) ^ x.magnitude.exponent ≤ 2 ^ (970 : ℤ) :=
            zpow_le_zpow_right₀ (by norm_num) (by omega)
        _ = 1 / 2 * 2 ^ (971 : ℤ) := by
            rw [show (971 : ℤ) = 1 + 970 by norm_num, zpow_add₀ (by norm_num)]
            ring
    have hvalue : (Decimal.shortest x).value ≤
        (2 ^ 53 - 1 + 1 / 2) * (1 / 2 * 2 ^ (971 : ℤ)) :=
      hbound.trans (mul_le_mul (by linarith) hpow (two_zpow_pos _).le
        (by norm_num))
    generalize (2 : ℚ) ^ (971 : ℤ) = unit at hpos hvalue
    norm_num at hvalue ⊢
    linarith
  · have hle : (x.magnitude.significand : ℚ) ≤ 2 ^ 53 - 4 := by
      have hcast : (x.magnitude.significand : ℚ) ≤ (2 ^ 53 - 4 : ℕ) := by
        exact_mod_cast h heq
      norm_num at hcast ⊢
      exact hcast
    rw [heq] at hbound
    have hvalue : (Decimal.shortest x).value ≤
        (2 ^ 53 - 4 + 1 / 2) * 2 ^ (971 : ℤ) :=
      hbound.trans (mul_le_mul_of_nonneg_right (by linarith) hpos.le)
    generalize (2 : ℚ) ^ (971 : ℤ) = unit at hpos hvalue
    norm_num at hvalue ⊢
    linarith

theorem isSome_floatValue?_doubleParts {x : Double} (h : x.isFinite = true) :
    (floatValue? (doubleParts x)).isSome = true := by
  by_cases hlarge : x.magnitude.exponent = 971 ∧
      2 ^ 53 - 3 ≤ x.magnitude.significand
  · exact isSome_floatValue?_largest x (mem_largestDoubles hlarge.1 hlarge.2)
  · have hwell := wellFormed_doubleParts x
    rw [doubleParts] at hwell ⊢
    cases hzero : x.isZero with
    | true =>
        rw [hzero] at hwell
        exact isSome_floatValue?_of_short hwell (show 1 ≤ 16 by decide) rfl rfl
    | false =>
        apply isSome_floatValue?_decimalParts x.isNegative
          (Decimal.isPlain_shortest hzero) _
          (Decimal.leadingExponent_shortest x)
        apply shortest_lt_overflow h
        omega

theorem exists_ofSpelling?_double {x : Double} (h : x.isFinite = true) :
    ∃ y, Number.ofSpelling? (doubleSpelling x) = some (.float y) := by
  rcases Option.isSome_iff_exists.mp (isSome_floatValue?_doubleParts h) with
    ⟨y, hy⟩
  refine ⟨y, ?_⟩
  rw [← spelling_doubleParts, ofSpelling?_spelling (wellFormed_doubleParts x),
    value?_eq_float (doubleParts_fraction_or_exponent x), hy]
  rfl

end Json

end AccessChecks
