import AccessChecks.Proofs.NumberValues

/-!
# Decimals and their texts

## Digits

Digits stay digits when zeros are put before or behind them, and when they are cut.

## Parts

The spelling of a decimal splits into parts whose digits are those of the decimal,
filled up with zeros where the point needs them.
-/

namespace AccessChecks

namespace Decimal

def IsPlain (d : Decimal) : Prop :=
  0 < d.digits ∨ d = ⟨0, 0⟩

def leadingExponent (d : Decimal) : Int :=
  d.exponent + (Json.digitChars d.digits).length - 1

end Decimal

namespace Json

theorem length_digitChars_pos (n : Nat) : 0 < (digitChars n).length :=
  Nat.length_toDigits_pos

theorem IsDigits.append {ds es : List Char} (hds : IsDigits ds)
    (hes : ∀ c ∈ es, c.isDigit = true) : IsDigits (ds ++ es) :=
  { nonempty := fun h => hds.nonempty (List.append_eq_nil_iff.mp h).1
    digits := by
      intro c hc
      rcases List.mem_append.mp hc with h | h
      · exact hds.digits c h
      · exact hes c h }

theorem isDigit_of_mem_zeros {n : Nat} {c : Char}
    (h : c ∈ List.replicate n '0') : c.isDigit = true := by
  rw [List.eq_of_mem_replicate h]
  rfl

theorem IsDigits.zeros_append {ds : List Char} (hds : IsDigits ds) (n : Nat) :
    IsDigits (List.replicate n '0' ++ ds) :=
  { nonempty := fun h => hds.nonempty (List.append_eq_nil_iff.mp h).2
    digits := by
      intro c hc
      rcases List.mem_append.mp hc with h | h
      · exact isDigit_of_mem_zeros h
      · exact hds.digits c h }

theorem IsDigits.take {ds : List Char} (hds : IsDigits ds) {n : Nat}
    (hn : 0 < n) : IsDigits (ds.take n) :=
  { nonempty := by
      cases ds with
      | nil => exact absurd rfl hds.nonempty
      | cons c rest =>
          cases n with
          | zero => cases hn
          | succ n => simp
    digits := fun c hc => hds.digits c (List.mem_of_mem_take hc) }

theorem IsDigits.drop {ds : List Char} (hds : IsDigits ds) {n : Nat}
    (hn : n < ds.length) : IsDigits (ds.drop n) :=
  { nonempty := fun h => absurd (List.drop_eq_nil_iff.mp h) (by omega)
    digits := fun c hc => hds.digits c (List.mem_of_mem_drop hc) }

theorem isDigits_zero : IsDigits ['0'] :=
  isDigits_digitChars 0

theorem head?_take_of_pos {ds : List Char} {n : Nat} (hn : 0 < n) :
    (ds.take n).head? = ds.head? := by
  cases ds with
  | nil => simp
  | cons c rest =>
      cases n with
      | zero => cases hn
      | succ n => rfl

theorem head?_append_of_isDigits {ds : List Char} (hds : IsDigits ds)
    (es : List Char) : (ds ++ es).head? = ds.head? := by
  cases ds with
  | nil => exact absurd rfl hds.nonempty
  | cons c rest => rfl

/-!
## Parts of decimals
-/

def decimalParts (negative : Bool) (d : Decimal) : NumberParts :=
  let digits := digitChars d.digits
  if isPositional d.leadingExponent then
    if 0 ≤ d.exponent then
      ⟨negative, digits ++ List.replicate d.exponent.toNat '0', some ['0'], none⟩
    else if 0 ≤ d.leadingExponent then
      let whole := d.leadingExponent.toNat + 1
      ⟨negative, digits.take whole, some (digits.drop whole), none⟩
    else
      let zeros := List.replicate (-d.leadingExponent - 1).toNat '0'
      ⟨negative, ['0'], some (zeros ++ digits), none⟩
  else
    let rest := digits.drop 1
    ⟨negative, digits.take 1, if rest.isEmpty then none else some rest,
      some (decide (d.leadingExponent < 0),
        digitChars d.leadingExponent.natAbs)⟩

theorem spelling_decimalParts (negative : Bool) (d : Decimal) :
    (decimalParts negative d).spelling =
      (if negative then ['-'] else []) ++ decimalSpelling d := by
  rw [decimalParts, decimalSpelling, ← Decimal.leadingExponent]
  split
  · split
    · simp [NumberParts.spelling, NumberParts.signText,
        NumberParts.fractionText, NumberParts.exponentText]
    · split
      · simp [NumberParts.spelling, NumberParts.signText,
          NumberParts.fractionText, NumberParts.exponentText]
      · simp [NumberParts.spelling, NumberParts.signText,
          NumberParts.fractionText, NumberParts.exponentText]
  · cases hrest : (digitChars d.digits).drop 1 with
    | nil =>
        simp [NumberParts.spelling, NumberParts.signText,
          NumberParts.fractionText, NumberParts.exponentText, exponentSpelling]
    | cons c rest =>
        simp [NumberParts.spelling, NumberParts.signText,
          NumberParts.fractionText, NumberParts.exponentText, exponentSpelling]

theorem digits_pos_of_exponent_ne {d : Decimal} (plain : d.IsPlain)
    (h : d.exponent ≠ 0) : 0 < d.digits := by
  rcases plain with hpos | rfl
  · exact hpos
  · exact absurd rfl h

theorem head?_take_digitChars {n k : Nat} (hn : 0 < n) (hk : 0 < k) :
    ((digitChars n).take k).head? ≠ some '0' := by
  rw [head?_take_of_pos hk]
  exact head?_digitChars_of_pos hn

theorem wellFormed_decimalParts (negative : Bool) {d : Decimal}
    (plain : d.IsPlain) : (decimalParts negative d).WellFormed := by
  have hdigits := isDigits_digitChars d.digits
  have hlength := length_digitChars_pos d.digits
  have hlead : d.leadingExponent =
      d.exponent + (digitChars d.digits).length - 1 := rfl
  rw [decimalParts]
  split
  · split
    · exact
        { whole := hdigits.append fun c hc => isDigit_of_mem_zeros hc
          leading := by
            rcases plain with hpos | rfl
            · apply Or.inr
              change (_ ++ _ : List Char).head? ≠ some '0'
              rw [head?_append_of_isDigits hdigits]
              exact head?_digitChars_of_pos hpos
            · exact Or.inl rfl
          fraction := fun ds h => Option.some.inj h ▸ isDigits_zero
          exponent := fun e h => by cases h }
    · rename_i hexp
      have hpos := digits_pos_of_exponent_ne plain (by omega)
      split
      · exact
          { whole := hdigits.take (Nat.succ_pos _)
            leading := Or.inr (head?_take_digitChars hpos (Nat.succ_pos _))
            fraction := fun ds h =>
              Option.some.inj h ▸ hdigits.drop (by omega)
            exponent := fun e h => by cases h }
      · exact
          { whole := isDigits_zero
            leading := Or.inl rfl
            fraction := fun ds h => Option.some.inj h ▸ hdigits.zeros_append _
            exponent := fun e h => by cases h }
  · rename_i hpositional
    have hpos : 0 < d.digits := by
      rcases plain with hpos | rfl
      · exact hpos
      · exact absurd rfl hpositional
    exact
      { whole := hdigits.take Nat.one_pos
        leading := Or.inr (head?_take_digitChars hpos Nat.one_pos)
        fraction := by
          intro ds h
          change ds ∈ (if _ then none else some _ : Option (List Char)) at h
          split at h
          · cases h
          · rename_i hrest
            refine Option.some.inj h ▸ hdigits.drop ?_
            rw [List.isEmpty_iff, List.drop_eq_nil_iff] at hrest
            omega
        exponent := fun e h => Option.some.inj h ▸ isDigits_digitChars _ }

end Json

end AccessChecks
