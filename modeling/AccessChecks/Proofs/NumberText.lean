import AccessChecks.Json.Number

/-!
# Numbers and their parts

## Spelling the parts

The parts of a number are digits: at least one before a point, and at least one
behind a point or an exponent mark that is there.  What such parts are spelled as
splits into them again, whatever stands behind, unless it goes on as a number does.

## Spellings of numbers

Naturals and integers are spelled by their digits alone.  The digits of a decimal
are split at its point, or have an exponent behind them.
-/

namespace AccessChecks

namespace Json

structure IsDigits (ds : List Char) : Prop where
  nonempty : ds ≠ []
  digits : ∀ c ∈ ds, c.isDigit = true

namespace NumberParts

def signText (p : NumberParts) : List Char :=
  if p.negative then ['-'] else []

def fractionText (p : NumberParts) : List Char :=
  match p.fraction with
  | some ds => '.' :: ds
  | none => []

def exponentText (p : NumberParts) : List Char :=
  match p.exponent with
  | some (down, ds) => 'e' :: (if down then '-' else '+') :: ds
  | none => []

def spelling (p : NumberParts) : List Char :=
  p.signText ++ (p.whole ++ (p.fractionText ++ p.exponentText))

structure WellFormed (p : NumberParts) : Prop where
  whole : IsDigits p.whole
  leading : p.whole = ['0'] ∨ p.whole.head? ≠ some '0'
  fraction : ∀ ds ∈ p.fraction, IsDigits ds
  exponent : ∀ e ∈ p.exponent, IsDigits e.2

end NumberParts

/-- The text does not go on as a number does. -/
def EndsNumber (rest : List Char) : Prop :=
  ∀ c ∈ rest.head?, c.isDigit = false ∧ c ≠ '.' ∧ c ≠ 'e' ∧ c ≠ 'E'

theorem endsNumber_nil : EndsNumber [] := by
  intro c hc
  cases hc

theorem takeDigits_append {ds rest : List Char} (hds : IsDigits ds)
    (hrest : ∀ c ∈ rest.head?, c.isDigit = false) :
    takeDigits (ds ++ rest) = (ds, rest) := by
  have htake : rest.takeWhile Char.isDigit = [] := by
    cases rest with
    | nil => rfl
    | cons c rest => rw [List.takeWhile_cons, hrest c rfl]; rfl
  have hdrop : rest.dropWhile Char.isDigit = rest := by
    cases rest with
    | nil => rfl
    | cons c rest => rw [List.dropWhile_cons, hrest c rfl]; rfl
  rw [takeDigits, List.takeWhile_append_of_pos hds.digits,
    List.dropWhile_append_of_pos hds.digits, htake, hdrop, List.append_nil]

theorem takeFraction_append {p : NumberParts} (hp : p.WellFormed)
    {rest : List Char} (hrest : ∀ c ∈ rest.head?, c.isDigit = false ∧ c ≠ '.') :
    takeFraction (p.fractionText ++ rest) = (p.fraction, rest) := by
  rw [NumberParts.fractionText]
  cases hfraction : p.fraction with
  | none =>
      rw [List.nil_append]
      cases rest with
      | nil => rfl
      | cons c rest =>
          have hc := (hrest c rfl).2
          simp [takeFraction, hc]
  | some ds =>
      have hds := hp.fraction ds hfraction
      have hempty : ds.isEmpty = false := by
        simpa using hds.nonempty
      change takeFraction ('.' :: (ds ++ rest)) = _
      simp only [takeFraction, takeDigits_append hds fun c hc => (hrest c hc).1,
        hempty, Bool.false_eq_true, if_false]

theorem takeExponent_append {p : NumberParts} (hp : p.WellFormed)
    {rest : List Char} (hrest : EndsNumber rest) :
    takeExponent (p.exponentText ++ rest) = (p.exponent, rest) := by
  rw [NumberParts.exponentText]
  cases hexponent : p.exponent with
  | none =>
      rw [List.nil_append]
      cases rest with
      | nil => rfl
      | cons c rest =>
          have hc := hrest c rfl
          have hmark : (c == 'e' || c == 'E') = false := by
            simp [hc.2.2.1, hc.2.2.2]
          simp only [takeExponent, hmark, Bool.false_eq_true, if_false]
  | some e =>
      obtain ⟨down, ds⟩ := e
      have hds := hp.exponent _ hexponent
      have hempty : ds.isEmpty = false := by
        simpa using hds.nonempty
      have htake := takeDigits_append hds fun c hc => (hrest c hc).1
      cases down with
      | true =>
          change takeExponent ('e' :: '-' :: (ds ++ rest)) = _
          simp [takeExponent, htake, hempty]
      | false =>
          change takeExponent ('e' :: '+' :: (ds ++ rest)) = _
          simp [takeExponent, htake, hempty]

theorem isDigit_ne {c : Char} (hc : c.isDigit = true) {d : Char}
    (hd : d.isDigit = false) : c ≠ d := by
  intro heq
  rw [heq, hd] at hc
  cases hc

theorem not_isDigit_head_behind_whole {p : NumberParts} {rest : List Char}
    (hrest : EndsNumber rest) :
    ∀ c ∈ (p.fractionText ++ (p.exponentText ++ rest)).head?,
      c.isDigit = false := by
  intro c hc
  rw [NumberParts.fractionText, NumberParts.exponentText] at hc
  cases hfraction : p.fraction with
  | some ds =>
      rw [hfraction] at hc
      cases hc
      rfl
  | none =>
      cases hexponent : p.exponent with
      | some e =>
          rw [hfraction, hexponent] at hc
          cases hc
          rfl
      | none =>
          rw [hfraction, hexponent] at hc
          exact (hrest c hc).1

theorem not_isDigit_head_behind_fraction {p : NumberParts} {rest : List Char}
    (hrest : EndsNumber rest) :
    ∀ c ∈ (p.exponentText ++ rest).head?, c.isDigit = false ∧ c ≠ '.' := by
  intro c hc
  rw [NumberParts.exponentText] at hc
  cases hexponent : p.exponent with
  | some e =>
      rw [hexponent] at hc
      cases hc
      exact ⟨rfl, by decide⟩
  | none =>
      rw [hexponent] at hc
      exact ⟨(hrest c hc).1, (hrest c hc).2.1⟩

def takeSign (s : List Char) : Bool × List Char :=
  match s with
  | '-' :: rest => (true, rest)
  | _ => (false, s)

def takeWhole (s : List Char) : List Char × List Char :=
  match s with
  | '0' :: rest => (['0'], rest)
  | _ => takeDigits s

theorem takeNumber_eq (s : List Char) :
    takeNumber s =
      let unsigned := takeSign s
      let whole := takeWhole unsigned.2
      if whole.1.isEmpty then none
      else
        let fraction := takeFraction whole.2
        let exponent := takeExponent fraction.2
        some (⟨unsigned.1, whole.1, fraction.1, exponent.1⟩, exponent.2) :=
  rfl

theorem takeSign_append {p : NumberParts} (hp : p.WellFormed)
    (rest : List Char) :
    takeSign (p.signText ++ (p.whole ++ rest)) =
      (p.negative, p.whole ++ rest) := by
  rw [NumberParts.signText]
  cases p.negative with
  | true => rfl
  | false =>
      cases hwhole : p.whole with
      | nil => exact absurd hwhole hp.whole.nonempty
      | cons c ds =>
          have hc : c ≠ '-' :=
            isDigit_ne (hp.whole.digits c (by simp [hwhole])) rfl
          simp [takeSign, hc]

theorem takeWhole_append {p : NumberParts} (hp : p.WellFormed)
    {rest : List Char} (hrest : ∀ c ∈ rest.head?, c.isDigit = false) :
    takeWhole (p.whole ++ rest) = (p.whole, rest) := by
  have htake : takeDigits (p.whole ++ rest) = (p.whole, rest) :=
    takeDigits_append hp.whole hrest
  rcases hp.leading with hzero | hleading
  · rw [hzero]
    rfl
  · cases hdigits : p.whole with
    | nil => exact absurd hdigits hp.whole.nonempty
    | cons c ds =>
        rw [hdigits] at htake hleading
        have hc : c ≠ '0' := by
          intro heq
          exact hleading (by rw [heq]; rfl)
        rw [List.cons_append] at htake ⊢
        simp [takeWhole, hc, htake]

theorem takeNumber_append {p : NumberParts} (hp : p.WellFormed)
    {rest : List Char} (hrest : EndsNumber rest) :
    takeNumber (p.spelling ++ rest) = some (p, rest) := by
  have hempty : p.whole.isEmpty = false := by
    simpa using hp.whole.nonempty
  rw [takeNumber_eq, NumberParts.spelling, List.append_assoc,
    List.append_assoc, List.append_assoc, takeSign_append hp]
  dsimp only
  rw [takeWhole_append hp (not_isDigit_head_behind_whole hrest)]
  dsimp only
  rw [hempty, if_neg (by decide),
    takeFraction_append hp (not_isDigit_head_behind_fraction hrest)]
  dsimp only
  rw [takeExponent_append hp hrest]

end Json

end AccessChecks
