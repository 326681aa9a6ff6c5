/-!
# Binary floating-point numbers

## Bits

A number of 64 bits has a sign, an exponent of 11 bits and a fraction of 52 bits.
A finite number is its sign and a magnitude of the form m · 2^q with whole m and
q.

## Rounding

A quotient of naturals is rounded to the nearest number, and to the one with an
even m if two are equally near.  What is too large becomes infinite.
-/

namespace AccessChecks

structure Double where
  bits : UInt64
deriving DecidableEq, Repr, Inhabited

/-- The magnitude m · 2^q of a finite number. -/
structure Magnitude where
  significand : Nat
  exponent : Int
deriving DecidableEq, Repr, Inhabited

namespace Magnitude

def num (v : Magnitude) : Nat :=
  v.significand * Nat.pow 2 v.exponent.toNat

def den (v : Magnitude) : Nat :=
  Nat.pow 2 (-v.exponent).toNat

theorem den_pos (v : Magnitude) : 0 < v.den :=
  Nat.pow_pos (by decide)

end Magnitude

namespace Double

def isNegative (x : Double) : Bool :=
  x.bits.toNat ≥ Nat.pow 2 63

def exponentField (x : Double) : Nat :=
  x.bits.toNat / Nat.pow 2 52 % Nat.pow 2 11

def fraction (x : Double) : Nat :=
  x.bits.toNat % Nat.pow 2 52

def isFinite (x : Double) : Bool :=
  x.exponentField != 2047

def leastExponent : Int := -1074

def magnitude (x : Double) : Magnitude :=
  if x.exponentField = 0 then ⟨x.fraction, leastExponent⟩
  else ⟨Nat.pow 2 52 + x.fraction, (x.exponentField : Int) - 1075⟩

/-- The number with a sign and a magnitude, which has either a significand from
2^52 up to 2^53 or the least exponent. -/
def ofMagnitude (negative : Bool) (v : Magnitude) : Double :=
  let sign := if negative then Nat.pow 2 63 else 0
  let field := (v.exponent + 1075).toNat
  let infinite := 2047 * Nat.pow 2 52
  let code :=
    if v.significand < Nat.pow 2 52 then v.significand
    else field * Nat.pow 2 52 + (v.significand - Nat.pow 2 52)
  ⟨UInt64.ofNat (sign + min code infinite)⟩

def zero (negative : Bool) : Double :=
  ofMagnitude negative ⟨0, leastExponent⟩

/-- The quotient rounded to a natural, a half to the even neighbour. -/
def roundDiv (num den : Nat) : Nat :=
  let below := num / den
  let rest := num % den
  if 2 * rest < den then below
  else if 2 * rest > den then below + 1
  else if below % 2 = 0 then below
  else below + 1

/-- The exponent under which a positive quotient has 53 significant bits, but not
less than the least one. -/
def exponentFor (num den : Nat) : Int :=
  let guess : Int := (num.log2 : Int) - (den.log2 : Int) - 52
  let scaled :=
    num * Nat.pow 2 (-guess).toNat / (den * Nat.pow 2 guess.toNat)
  max (if scaled < Nat.pow 2 52 then guess - 1 else guess) leastExponent

def ofQuotient (negative : Bool) (num den : Nat) : Double :=
  if num = 0 then zero negative
  else
    let q := exponentFor num den
    let m := roundDiv (num * Nat.pow 2 (-q).toNat) (den * Nat.pow 2 q.toNat)
    ofMagnitude negative
      (if m = Nat.pow 2 53 then ⟨Nat.pow 2 52, q + 1⟩ else ⟨m, q⟩)

def ofNat (n : Nat) : Double :=
  ofQuotient false n 1

def mul (x y : Double) : Double :=
  let a := x.magnitude
  let b := y.magnitude
  ofQuotient (x.isNegative != y.isNegative) (a.num * b.num) (a.den * b.den)

def div (x y : Double) : Double :=
  let a := x.magnitude
  let b := y.magnitude
  ofQuotient (x.isNegative != y.isNegative) (a.num * b.den) (a.den * b.num)

def negate (x : Double) : Double :=
  ⟨x.bits ^^^ UInt64.ofNat (Nat.pow 2 63)⟩

def isZero (x : Double) : Bool :=
  x.exponentField == 0 && x.fraction == 0

end Double

end AccessChecks
