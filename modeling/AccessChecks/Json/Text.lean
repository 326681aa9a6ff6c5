/-!
# Spellings of texts

## Escapes

Quotes, backslashes and control characters are escaped, nothing else.  Five
controls have letters of their own.

## Reading

A spelling may escape any character by its code unit.  Characters beyond the first
plane take two units, and a unit of such a pair may not stand alone.
-/

namespace AccessChecks

namespace Json

def hexDigit (n : Nat) : Char :=
  if n < 10 then Char.ofNat ('0'.toNat + n) else Char.ofNat ('a'.toNat + (n - 10))

def spellChar (c : Char) : List Char :=
  if c == '"' then ['\\', '"']
  else if c == '\\' then ['\\', '\\']
  else if c == '\x08' then ['\\', 'b']
  else if c == '\x0c' then ['\\', 'f']
  else if c == '\n' then ['\\', 'n']
  else if c == '\r' then ['\\', 'r']
  else if c == '\t' then ['\\', 't']
  else if c.toNat < 0x20 then
    ['\\', 'u', '0', '0', hexDigit (c.toNat / 16), hexDigit (c.toNat % 16)]
  else [c]

def spell (s : List Char) : List Char :=
  s.flatMap spellChar

def hexValue? (c : Char) : Option Nat :=
  if '0' ≤ c && c ≤ '9' then some (c.toNat - '0'.toNat)
  else if 'a' ≤ c && c ≤ 'f' then some (c.toNat - 'a'.toNat + 10)
  else if 'A' ≤ c && c ≤ 'F' then some (c.toNat - 'A'.toNat + 10)
  else none

def unit? (a b c d : Char) : Option Nat := do
  let a ← hexValue? a
  let b ← hexValue? b
  let c ← hexValue? c
  let d ← hexValue? d
  return ((a * 16 + b) * 16 + c) * 16 + d

def escaped? (c : Char) : Option Char :=
  if c == '"' || c == '\\' || c == '/' then some c
  else if c == 'b' then some '\x08'
  else if c == 'f' then some '\x0c'
  else if c == 'n' then some '\n'
  else if c == 'r' then some '\r'
  else if c == 't' then some '\t'
  else none

def isHighUnit (n : Nat) : Bool :=
  0xd800 ≤ n && n ≤ 0xdbff

def isLowUnit (n : Nat) : Bool :=
  0xdc00 ≤ n && n ≤ 0xdfff

def unspell? : List Char → Option (List Char)
  | [] => some []
  | '\\' :: 'u' :: a :: b :: c :: d :: '\\' :: 'u' :: e :: f :: g :: h :: rest =>
      match unit? a b c d with
      | none => none
      | some n =>
          if isHighUnit n then
            match unit? e f g h with
            | none => none
            | some m =>
                if isLowUnit m then
                  let code := 0x10000 + (n - 0xd800) * 0x400 + (m - 0xdc00)
                  (unspell? rest).map (Char.ofNat code :: ·)
                else none
          else if isLowUnit n then none
          else
            (unspell? ('\\' :: 'u' :: e :: f :: g :: h :: rest)).map
              (Char.ofNat n :: ·)
  | '\\' :: 'u' :: a :: b :: c :: d :: rest =>
      match unit? a b c d with
      | none => none
      | some n =>
          if isHighUnit n || isLowUnit n then none
          else (unspell? rest).map (Char.ofNat n :: ·)
  | '\\' :: c :: rest =>
      match escaped? c with
      | none => none
      | some c => (unspell? rest).map (c :: ·)
  | c :: rest =>
      if c == '\\' || c == '"' || c.toNat < 0x20 then none
      else (unspell? rest).map (c :: ·)

end Json

end AccessChecks
