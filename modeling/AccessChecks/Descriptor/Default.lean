import AccessChecks.Descriptor.Pool

/-!
# Default values

## Spellings

A default is kept as text, whatever the kind of the field is.  The text has to be a
spelling of a value of the kind: digits with a sign, a decimal number, a flag, bytes
with escapes, or the name of an enum value.  Every text spells itself.

## Fields

Messages have no spelling, so a field that holds one has no default.
-/

namespace AccessChecks

namespace Descriptor

namespace DefaultText

def isDigits (text : List Char) : Bool :=
  !text.isEmpty && text.all Char.isDigit

def unsigned : List Char → List Char
  | '-' :: rest | '+' :: rest => rest
  | text => text

def wholeNumber? (signed : Bool) (text : List Char) : Option Int :=
  let digits := unsigned text
  let negative := text.head? == some '-'
  if isDigits digits && (signed || !negative) then
    let size : Int := Nat.ofDigitChars 10 digits 0
    some (if negative then -size else size)
  else none

def isExponent : List Char → Bool
  | [] => true
  | mark :: rest => (mark == 'e' || mark == 'E') && isDigits (unsigned rest)

/-- The text spells a decimal number: digits, of which some may be behind a point,
and an exponent if there is one. -/
def isDecimal (text : List Char) : Bool :=
  let rest := text.dropWhile Char.isDigit
  let fraction :=
    match rest with
    | '.' :: behind => behind
    | _ => []
  let hasDigits :=
    text.head?.any Char.isDigit || fraction.head?.any Char.isDigit
  let behind :=
    if rest.head? == some '.' then fraction.dropWhile Char.isDigit else rest
  hasDigits && isExponent behind

def numberWords : List String :=
  ["inf", "infinity", "nan"]

def isNumber (text : List Char) : Bool :=
  let size := unsigned text
  isDecimal size ||
    numberWords.contains (String.ofList (size.map Char.toLower))

def isHexDigit (c : Char) : Bool :=
  c.isDigit || ('a' ≤ c && c ≤ 'f') || ('A' ≤ c && c ≤ 'F')

def isHexByte (high low : Char) : Bool :=
  (high == '+' || isHexDigit high) && isHexDigit low

/-- The character behind a backslash is an escape by itself, or the first digit of
an octal one. -/
def isEscape (c : Char) : Bool :=
  "abfnrtv\\?'\"".toList.contains c || ('0' ≤ c && c ≤ '7')

def isEscaped : List Char → Bool
  | [] => true
  | ['\\'] => false
  | '\\' :: mark :: high :: low :: rest =>
      if mark == 'x' || mark == 'X' then isHexByte high low && isEscaped rest
      else isEscape mark && isEscaped (high :: low :: rest)
  | '\\' :: mark :: rest => isEscape mark && isEscaped rest
  | _ :: rest => isEscaped rest

end DefaultText

def ScalarKind.isSpelling (kind : ScalarKind) (text : String) : Bool :=
  match kind.bounds? with
  | some (least, greatest) =>
      (DefaultText.wholeNumber? (least < 0) text.toList).any fun value =>
        least ≤ value && value ≤ greatest
  | none =>
      match kind with
      | bool => text == "true" || text == "false"
      | bytes => DefaultText.isEscaped text.toList
      | string => true
      | _ => DefaultText.isNumber text.toList

def Pool.isSpelling (p : Pool) (kind : ResolvedKind) (text : String) : Bool :=
  match kind with
  | .scalar kind => kind.isSpelling text
  | .enum fullName =>
      (p.enum? fullName).any fun e => e.values.any fun v => v.name == text
  | .message _ | .group _ => false

end Descriptor

end AccessChecks
