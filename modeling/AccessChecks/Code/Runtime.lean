import AccessChecks.Code.Layout
import AccessChecks.Code.PathReader
import AccessChecks.Code.Readable
import AccessChecks.Code.Tokens

/-!
# The runtime path

## Paths

The path of the runtime library is one of names, or one with type arguments.  Code
that refers to a path of names is laid out here.  With type arguments it is up to a
reader of code whether the tokens make up a file, and how this is laid out.

## Readers

A runtime path is read from a text.  The reader is a parameter of all that depends
on it, and nothing is assumed of what it accepts or of what it says of other texts.
-/

namespace AccessChecks

inductive RuntimePath where
  | names (path : CodePath)
  /-- A path with its tokens, and what is made of the tokens of code that refers to
  it: a page, or what is wrong with them. -/
  | withArguments (tokens : List Token)
      (layOut : List Token → Except String String)

namespace RuntimePath

def tokens : RuntimePath → List Token
  | names path => Token.ofPath path
  | withArguments tokens _ => tokens

def page (runtime : RuntimePath) (items : List Implementation) :
    Except String String :=
  match runtime with
  | names path =>
      match items.findSome? (Implementation.unreadable? path) with
      | none => .ok (Implementation.page path items)
      | some reason => .error reason.message
  | withArguments tokens layOut =>
      layOut (items.flatMap (Implementation.tokens tokens))

end RuntimePath

/-- Reads a runtime path or says what is wrong with the text. -/
abbrev RuntimeReader := String → Except String RuntimePath

def RuntimeReader.names : RuntimeReader := fun text =>
  match CodePath.ofText? text with
  | some path => .ok (.names path)
  | none => .error "expected a path of names"

end AccessChecks
