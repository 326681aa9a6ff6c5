import AccessChecks.Proofs.NumberText

/-!
# Values of numbers

## Digits

The digits of a natural have no leading zero, and they are read back one after the
other as long as the number so far fits a word.

## Integers

An integer of 64 bits reads back from its digits, a natural as one without a sign.
-/

namespace AccessChecks

namespace Json

theorem isDigits_digitChars (n : Nat) : IsDigits (digitChars n) :=
  { nonempty := Nat.toDigits_ne_nil
    digits := fun _ hc =>
      Nat.isDigit_of_mem_toDigits (by decide) (by decide) hc }

theorem head?_digitChars_of_pos {n : Nat} (h : 0 < n) :
    (digitChars n).head? ≠ some '0' := by
  induction n using Nat.strongRecOn with
  | ind n ih =>
      by_cases hsmall : n < 10
      · have hdigit : ∀ d < 10, 0 < d → d.digitChar ≠ '0' := by
          decide
        rw [digitChars, Nat.toDigits_of_lt_base hsmall, List.head?_cons]
        intro heq
        exact hdigit n hsmall h (Option.some.inj heq)
      · have hlarge : 10 ≤ n := Nat.le_of_not_lt hsmall
        have hquotient : 0 < n / 10 := Nat.div_pos hlarge (by decide)
        have hfirst := ih (n / 10) (Nat.div_lt_self h (by decide)) hquotient
        rw [digitChars, Nat.toDigits_of_base_le (by decide) hlarge]
        rw [digitChars] at hfirst
        cases hdigits : Nat.toDigits 10 (n / 10) with
        | nil => exact absurd hdigits Nat.toDigits_ne_nil
        | cons c rest =>
            rw [hdigits] at hfirst
            exact hfirst

theorem digitChars_leading (n : Nat) :
    digitChars n = ['0'] ∨ (digitChars n).head? ≠ some '0' := by
  rcases Nat.eq_zero_or_pos n with rfl | hpos
  · exact Or.inl (Nat.toDigits_zero 10)
  · exact Or.inr (head?_digitChars_of_pos hpos)

/-!
## Reading digits
-/

abbrev numberOf (ds : List Char) (n : Nat) : Nat :=
  Nat.ofDigitChars 10 ds n

theorem numberOf_cons (c : Char) (ds : List Char) (n : Nat) :
    numberOf (c :: ds) n = numberOf ds (n * 10 + digitValue c) := by
  rw [numberOf, Nat.ofDigitChars_cons, Nat.mul_comm]
  rfl

theorem le_numberOf (ds : List Char) (n : Nat) : n ≤ numberOf ds n := by
  induction ds generalizing n with
  | nil => exact Nat.le_refl n
  | cons c ds ih =>
      rw [numberOf_cons]
      have := ih (n * 10 + digitValue c)
      omega

theorem appendDigits_of_le {ds : List Char} {n : Nat}
    (h : numberOf ds n ≤ largestWord) :
    appendDigits n ds = (numberOf ds n, []) := by
  induction ds generalizing n with
  | nil => rfl
  | cons c ds ih =>
      rw [numberOf_cons] at h ⊢
      have hnext : ¬ n * 10 + digitValue c > largestWord := by
        have := le_numberOf ds (n * 10 + digitValue c)
        omega
      rw [appendDigits, if_neg hnext, ih h]

theorem exists_appendDigits (n : Nat) (ds : List Char) :
    ∃ kept, ds = kept ++ (appendDigits n ds).2 ∧
      (appendDigits n ds).1 = numberOf kept n := by
  induction ds generalizing n with
  | nil => exact ⟨[], rfl, rfl⟩
  | cons c ds ih =>
      rw [appendDigits]
      split
      · exact ⟨[], rfl, rfl⟩
      · rcases ih (n * 10 + digitValue c) with ⟨kept, hsplit, hnumber⟩
        refine ⟨c :: kept, ?_, ?_⟩
        · rw [List.cons_append, ← hsplit]
        · rw [numberOf_cons]
          exact hnumber

theorem numberOf_digitChars (n : Nat) : numberOf (digitChars n) 0 = n :=
  Nat.ofDigitChars_ten_toDigits

/-!
## Integers
-/

def integerParts (negative : Bool) (n : Nat) : NumberParts :=
  ⟨negative, digitChars n, none, none⟩

theorem wellFormed_integerParts (negative : Bool) (n : Nat) :
    (integerParts negative n).WellFormed :=
  { whole := isDigits_digitChars n
    leading := digitChars_leading n
    fraction := fun _ h => by cases h
    exponent := fun _ h => by cases h }

theorem naturalSpelling_eq (n : Nat) :
    naturalSpelling n = (integerParts false n).spelling :=
  (List.append_nil (digitChars n)).symm

theorem integerSpelling_eq (i : Int) :
    integerSpelling i = (integerParts (decide (i < 0)) i.natAbs).spelling := by
  rw [integerSpelling]
  by_cases hi : i < 0
  · rw [if_pos hi, decide_eq_true hi]
    exact congrArg ('-' :: ·) (naturalSpelling_eq i.natAbs)
  · rw [if_neg hi, decide_eq_false hi]
    exact naturalSpelling_eq i.natAbs

theorem ofSpelling?_spelling {p : NumberParts} (hp : p.WellFormed) :
    Number.ofSpelling? p.spelling = p.value? := by
  have htake := takeNumber_append hp endsNumber_nil
  rw [List.append_nil] at htake
  rw [Number.ofSpelling?, htake]

theorem appendDigits_digitChars {n : Nat} (h : n ≤ largestWord) :
    appendDigits 0 (digitChars n) = (n, []) := by
  rw [appendDigits_of_le, numberOf_digitChars]
  rw [numberOf_digitChars]
  exact h

theorem value?_natural {n : Nat} (h : n ≤ largestWord) :
    (integerParts false n).value? = some (.unsigned (UInt64.ofNat n)) := by
  rw [NumberParts.value?, integerParts, appendDigits_digitChars h]
  rfl

theorem value?_negative {n : Nat} (hpos : 0 < n) (h : n ≤ Nat.pow 2 63) :
    (integerParts true n).value? =
      some (.negative (Int64.ofInt (-(n : Int)))) := by
  have hword : n ≤ largestWord := Nat.le_trans h (by decide)
  rw [NumberParts.value?, integerParts, appendDigits_digitChars hword]
  simp [hpos, h]

theorem ofSpelling?_natural (n : UInt64) :
    Number.ofSpelling? (naturalSpelling n.toNat) = some (.unsigned n) := by
  have hword : n.toNat ≤ largestWord := Nat.le_pred_of_lt n.toNat_lt
  rw [naturalSpelling_eq, ofSpelling?_spelling (wellFormed_integerParts _ _),
    value?_natural hword, UInt64.ofNat_toNat]

theorem ofSpelling?_nonnegative {i : Int64} (h : 0 ≤ i.toInt) :
    Number.ofSpelling? (integerSpelling i.toInt) =
      some (.unsigned (UInt64.ofNat i.toInt.natAbs)) := by
  have hlt : i.toInt < 2 ^ 63 := i.toInt_lt
  have hword : i.toInt.natAbs ≤ largestWord := by
    have hlargest : largestWord = 2 ^ 64 - 1 := rfl
    omega
  rw [integerSpelling_eq, decide_eq_false (Int.not_lt.mpr h),
    ofSpelling?_spelling (wellFormed_integerParts _ _), value?_natural hword]

theorem ofSpelling?_negative {i : Int64} (h : i.toInt < 0) :
    Number.ofSpelling? (integerSpelling i.toInt) = some (.negative i) := by
  have hle : -2 ^ 63 ≤ i.toInt := i.le_toInt
  have hpos : 0 < i.toInt.natAbs := Int.natAbs_pos.mpr (Int.ne_of_lt h)
  have hbound : i.toInt.natAbs ≤ Nat.pow 2 63 := by
    have hpow : Nat.pow 2 63 = 2 ^ 63 := rfl
    omega
  have hneg : -(i.toInt.natAbs : Int) = i.toInt := by omega
  rw [integerSpelling_eq, decide_eq_true h,
    ofSpelling?_spelling (wellFormed_integerParts _ _),
    value?_negative hpos hbound, hneg, Int64.ofInt_toInt]

end Json

end AccessChecks
