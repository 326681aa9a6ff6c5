import AccessChecks.Json.Basic
import AccessChecks.Json.Number
import AccessChecks.Json.Text

/-!
# Reading JSON

## White space and scalars

White space may stand around every token.  Numbers and texts are taken over as they
are spelled.

## Values

Reading returns the value and the rest behind it.  Each value takes at least one
character, so the number of characters bounds the depth of the reader.
-/

namespace AccessChecks

namespace Json

def isSpace (c : Char) : Bool :=
  c == ' ' || c == '\n' || c == '\t' || c == '\r'

def skipSpace (s : List Char) : List Char :=
  s.dropWhile isSpace

/-- Takes a spelling up to the closing quote.  An escape is a letter or four
hexadecimal digits; controls have to be escaped. -/
def takeText : List Char → Option (List Char × List Char)
  | [] => none
  | '"' :: rest => some ([], rest)
  | '\\' :: 'u' :: a :: b :: c :: d :: rest =>
      if (unit? a b c d).isSome then
        (takeText rest).map fun taken =>
          ('\\' :: 'u' :: a :: b :: c :: d :: taken.1, taken.2)
      else none
  | '\\' :: c :: rest =>
      if (escaped? c).isSome then
        (takeText rest).map fun taken => ('\\' :: c :: taken.1, taken.2)
      else none
  | c :: rest =>
      if c == '\\' || c.toNat < 0x20 then none
      else (takeText rest).map fun taken => (c :: taken.1, taken.2)

def takeLiteral (expected : List Char) (s : List Char) : Option (List Char) :=
  if expected.isPrefixOf s then some (s.drop expected.length) else none

def takeNumberSpelling (s : List Char) : Option (List Char × List Char) :=
  (takeNumber s).map fun taken =>
    (s.take (s.length - taken.2.length), taken.2)

mutual

def takeValue : (fuel : Nat) → List Char → Option (Json × List Char)
  | 0, _ => none
  | fuel + 1, s =>
      match skipSpace s with
      | [] => none
      | '"' :: rest =>
          (takeText rest).map fun taken => (.text taken.1, taken.2)
      | '[' :: rest =>
          match skipSpace rest with
          | ']' :: behind => some (.array [], behind)
          | inside =>
              (takeItems fuel inside).map fun taken =>
                (.array taken.1, taken.2)
      | '\x7b' :: rest =>
          match skipSpace rest with
          | '\x7d' :: behind => some (.object [], behind)
          | inside =>
              (takeMembers fuel inside).map fun taken =>
                (.object taken.1, taken.2)
      | 'n' :: rest => (takeLiteral "ull".toList rest).map (null, ·)
      | 't' :: rest => (takeLiteral "rue".toList rest).map (bool true, ·)
      | 'f' :: rest => (takeLiteral "alse".toList rest).map (bool false, ·)
      | s =>
          (takeNumberSpelling s).map fun taken => (.number taken.1, taken.2)

def takeItems : (fuel : Nat) → List Char → Option (List Json × List Char)
  | 0, _ => none
  | fuel + 1, s =>
      match takeValue fuel s with
      | none => none
      | some (item, rest) =>
          match skipSpace rest with
          | ']' :: behind => some ([item], behind)
          | ',' :: more =>
              (takeItems fuel more).map fun taken => (item :: taken.1, taken.2)
          | _ => none

def takeMembers :
    (fuel : Nat) → List Char → Option (List (List Char × Json) × List Char)
  | 0, _ => none
  | fuel + 1, s =>
      match skipSpace s with
      | '"' :: rest =>
          match takeText rest with
          | none => none
          | some (key, rest) =>
              match skipSpace rest with
              | ':' :: rest =>
                  match takeValue fuel rest with
                  | none => none
                  | some (value, rest) =>
                      match skipSpace rest with
                      | '\x7d' :: behind => some ([(key, value)], behind)
                      | ',' :: more =>
                          (takeMembers fuel more).map fun taken =>
                            ((key, value) :: taken.1, taken.2)
                      | _ => none
              | _ => none
      | _ => none

end

def read? (s : List Char) : Option Json :=
  match takeValue (2 * s.length + 2) s with
  | some (value, rest) =>
      if (skipSpace rest).isEmpty then some value else none
  | none => none

end Json

end AccessChecks
