import AccessChecks.Text.Hidden

/-!
# Text literals

A text is written between quotes.  Quotes, backslashes, tabs and line ends are
escaped by a letter, other hidden characters by their code point.  The null
character has a short form, which is lengthened in front of an octal digit.
-/

namespace AccessChecks

namespace Literal

def hex (n : Nat) : List Char :=
  Nat.toDigits 16 n

def isOctalDigit (c : Char) : Bool :=
  '0' ≤ c && c ≤ '7'

/-- The written form of a character in front of the given rest. -/
def escapeBefore (c : Char) (rest : List Char) : List Char :=
  if c == '\x00' then
    if rest.head?.any isOctalDigit then ['\\', 'x', '0', '0'] else ['\\', '0']
  else if c == '\t' then ['\\', 't']
  else if c == '\r' then ['\\', 'r']
  else if c == '\n' then ['\\', 'n']
  else if c == '"' || c == '\\' then ['\\', c]
  else if isHidden c then ['\\', 'u', '\x7b'] ++ hex c.toNat ++ ['\x7d']
  else [c]

def escape : List Char → List Char
  | [] => []
  | c :: rest => escapeBefore c rest ++ escape rest

end Literal

def literal (s : String) : String :=
  "\"" ++ String.ofList (Literal.escape s.toList) ++ "\""

end AccessChecks
