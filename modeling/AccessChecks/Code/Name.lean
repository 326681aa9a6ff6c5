import AccessChecks.Schema.Basic
import AccessChecks.Text.Words

/-!
# Names in emitted code

## Identifiers

An identifier starts with a letter or an underscore and goes on with letters,
digits and underscores.  A keyword is written as a raw identifier; the few words
that have no raw form take a trailing underscore instead.

## Names of schema items

Fields keep names that are in snake case already and take their snake case
otherwise.  A message type is named in Pascal case, inside one module in snake
case for each enclosing message.
-/

namespace AccessChecks

structure IllegalName where
  text : String
deriving DecidableEq, Repr, Inhabited

namespace Name

def keywords : List String :=
  ["abstract", "as", "async", "await", "become", "box", "break", "const",
    "continue", "do", "dyn", "else", "enum", "false", "final", "fn", "for",
    "gen", "if", "impl", "in", "let", "loop", "macro", "match", "mod", "move",
    "mut", "override", "priv", "pub", "ref", "return", "static", "struct",
    "trait", "true", "try", "type", "typeof", "unsafe", "unsized", "use",
    "virtual", "where", "while", "yield"]

def reserved : List String :=
  ["self", "super", "extern", "crate", "Self"]

def isStart (c : Char) : Bool :=
  c.isAlpha || c == '_'

def isContinue (c : Char) : Bool :=
  c.isAlphanum || c == '_'

def isIdentifier (text : String) : Bool :=
  match text.toList with
  | [] => false
  | c :: rest => isStart c && rest.all isContinue

def escape (name : String) : Except IllegalName String :=
  if reserved.contains name then .ok (name ++ "_")
  else if keywords.contains name then .ok ("r#" ++ name)
  else if isIdentifier name then .ok name
  else .error ⟨name⟩

def isSnake (name : String) : Bool :=
  name.toList.all fun c => c.isLower || c.isDigit || c == '_'

def ofField (name : String) : Except IllegalName String :=
  escape (if isSnake name then name else Words.snake name)

/-- The path of a message type inside the module of its package. -/
def ofMessage (m : Message) : Except IllegalName (List String) := do
  let name ← escape (Words.pascal m.name)
  let modules ← m.parents.mapM fun parent => escape (Words.snake parent)
  return modules ++ [name]

def ofLoop (number : Nat) : String :=
  "v" ++ toString number

/-- The underscore is an identifier that names nothing. -/
def isPlaceholder (name : String) : Bool :=
  name == "_"

end Name

end AccessChecks
