import AccessChecks.Decimal.Shortest

/-!
# Spellings of numbers

## Writing

A finite number is written with the fewest digits that read back.  Numbers of
moderate size are written positionally, with at least one digit on either side of
the point; others have an exponent with a sign and no leading zeros.

## Reading

A spelling without point and exponent is an integer if it fits a word of 64 bits.
Every other number is read in steps: its leading digits as long as they fit a
word, then a rounded product or quotient with a power of ten.
-/

namespace AccessChecks

namespace Json

def digitChars (n : Nat) : List Char :=
  Nat.toDigits 10 n

def naturalSpelling (n : Nat) : List Char :=
  digitChars n

def integerSpelling (i : Int) : List Char :=
  if i < 0 then '-' :: digitChars i.natAbs else digitChars i.natAbs

def isPositional (exponent : Int) : Bool :=
  -5 ≤ exponent && exponent ≤ 15

def exponentSpelling (exponent : Int) : List Char :=
  let sign := if exponent < 0 then '-' else '+'
  'e' :: sign :: digitChars exponent.natAbs

def decimalSpelling (d : Decimal) : List Char :=
  let digits := digitChars d.digits
  let exponent := d.exponent + digits.length - 1
  if isPositional exponent then
    if 0 ≤ d.exponent then
      digits ++ List.replicate d.exponent.toNat '0' ++ ['.', '0']
    else if 0 ≤ exponent then
      let whole := exponent.toNat + 1
      digits.take whole ++ '.' :: digits.drop whole
    else
      ['0', '.'] ++ List.replicate (-exponent - 1).toNat '0' ++ digits
  else
    let rest := digits.drop 1
    digits.take 1 ++ (if rest.isEmpty then [] else '.' :: rest) ++
      exponentSpelling exponent

def doubleSpelling (x : Double) : List Char :=
  let sign := if x.isNegative then ['-'] else []
  sign ++
    (if x.isZero then ['0', '.', '0'] else decimalSpelling (Decimal.shortest x))

/-!
## Parts of a spelling
-/

structure NumberParts where
  negative : Bool
  whole : List Char
  fraction : Option (List Char)
  exponent : Option (Bool × List Char)
deriving DecidableEq, Repr, Inhabited

def takeDigits (s : List Char) : List Char × List Char :=
  (s.takeWhile Char.isDigit, s.dropWhile Char.isDigit)

def takeFraction (s : List Char) : Option (List Char) × List Char :=
  match s with
  | '.' :: rest =>
      let (digits, behind) := takeDigits rest
      if digits.isEmpty then (none, s) else (some digits, behind)
  | _ => (none, s)

def takeExponent (s : List Char) : Option (Bool × List Char) × List Char :=
  let signed (s : List Char) : Bool × List Char :=
    match s with
    | '-' :: rest => (true, rest)
    | '+' :: rest => (false, rest)
    | _ => (false, s)
  match s with
  | c :: rest =>
      if c == 'e' || c == 'E' then
        let (negative, digits) := signed rest
        let (digits, behind) := takeDigits digits
        if digits.isEmpty then (none, s) else (some (negative, digits), behind)
      else (none, s)
  | [] => (none, s)

def takeNumber (s : List Char) : Option (NumberParts × List Char) :=
  let (negative, unsigned) :=
    match s with
    | '-' :: rest => (true, rest)
    | _ => (false, s)
  let (whole, rest) :=
    match unsigned with
    | '0' :: rest => (['0'], rest)
    | _ => takeDigits unsigned
  if whole.isEmpty then none
  else
    let (fraction, rest) := takeFraction rest
    let (exponent, rest) := takeExponent rest
    some (⟨negative, whole, fraction, exponent⟩, rest)

/-!
## Values of spellings
-/

inductive Number where
  | unsigned (n : UInt64)
  | negative (i : Int64)
  | float (x : Double)
deriving DecidableEq, Repr, Inhabited

def digitValue (c : Char) : Nat :=
  c.toNat - '0'.toNat

def largestWord : Nat := Nat.pow 2 64 - 1

/-- Appends leading digits to a significand as long as it fits a word, and returns
the digits that do not. -/
def appendDigits (significand : Nat) : List Char → Nat × List Char
  | [] => (significand, [])
  | c :: rest =>
      let next := significand * 10 + digitValue c
      if next > largestWord then (significand, c :: rest)
      else appendDigits next rest

def largestPower : Nat := 308

def powerOfTen (k : Nat) : Double :=
  Double.ofNat (Nat.pow 10 k)

def divideByPowers (x : Double) (k : Nat) : Double :=
  if k ≤ largestPower then x.div (powerOfTen k)
  else if x.isZero then x
  else divideByPowers (x.div (powerOfTen largestPower)) (k - largestPower)
termination_by k
decreasing_by
  unfold largestPower at *
  omega

/-- The number significand · 10^exponent, in rounded steps.  What is too large is
refused. -/
def compose? (negative : Bool) (significand : Nat) (exponent : Int) :
    Option Double :=
  let sign (x : Double) : Double := if negative then x.negate else x
  let x := Double.ofNat significand
  if exponent < 0 then some (sign (divideByPowers x exponent.natAbs))
  else if exponent.toNat ≤ largestPower then
    let product := x.mul (powerOfTen exponent.toNat)
    if product.isFinite then some (sign product) else none
  else if x.isZero then some (sign x)
  else none

def largestExponent : Nat := Nat.pow 2 31 - 1

def exponentValue? (digits : List Char) : Option Nat :=
  let n := digits.foldl (fun n c => n * 10 + digitValue c) 0
  if n ≤ largestExponent then some n else none

def clampExponent (e : Int) : Int :=
  max (-Int.pow 2 31) (min e (Int.pow 2 31 - 1))

def floatValue? (p : NumberParts) : Option Double :=
  let (significand, dropped) := appendDigits 0 p.whole
  let fraction := p.fraction.getD []
  let (significand, ignored) := appendDigits significand fraction
  let start : Int :=
    (dropped.length : Int) - ((fraction.length : Int) - ignored.length)
  match p.exponent with
  | none => compose? p.negative significand start
  | some (down, digits) =>
      match exponentValue? digits with
      | some e =>
          compose? p.negative significand
            (clampExponent (if down then start - e else start + e))
      | none =>
          if significand = 0 || down then some (Double.zero p.negative)
          else none

/-- The value of a number.  A negative zero is not an integer. -/
def NumberParts.value? (p : NumberParts) : Option Number :=
  let (significand, dropped) := appendDigits 0 p.whole
  if p.fraction.isNone && p.exponent.isNone && dropped.isEmpty then
    if !p.negative then some (.unsigned (UInt64.ofNat significand))
    else if 0 < significand && significand ≤ Nat.pow 2 63 then
      some (.negative (Int64.ofInt (-(significand : Int))))
    else some (.float (Double.ofNat significand).negate)
  else (floatValue? p).map .float

def Number.ofSpelling? (spelling : List Char) : Option Number :=
  match takeNumber spelling with
  | some (parts, []) => parts.value?
  | _ => none

end Json

end AccessChecks
