import AccessChecks.Code.Basic
import AccessChecks.Code.Name

/-!
# Readable code

## Placeholders

An implementation is text that is read again before it is laid out.  The placeholder
is an identifier but names nothing, so no module and no field can have it as a name.
At the start of a type it stands for a type of its own.

## Order

Code is read from the front, so its first unreadable place is reported: the path of
the interface, then the path of the type, then the fields in the body.
-/

namespace AccessChecks

inductive Unreadable where
  | interfacePath
  | startOfType
  | nameInType
  | fieldName
deriving DecidableEq, Repr, Inhabited

namespace Unreadable

def message : Unreadable → String
  | interfacePath =>
      "expected one of: " ++
        ", ".intercalate
          ["`for`", "parentheses", "`fn`", "`unsafe`", "`extern`", "identifier",
            "`::`", "`<`", "`dyn`", "square brackets", "`*`", "`&`", "`!`",
            "`impl`", "`_`", "lifetime"]
  | startOfType => "expected curly braces"
  | nameInType => "expected identifier, found keyword `_`"
  | fieldName => "expected identifier or integer"

end Unreadable

namespace CodePath

def canStart (p : CodePath) : Bool :=
  p.isGlobal || p.segments.head? != some "try"

end CodePath

namespace Implementation

def unreadableType? : List String → Option Unreadable
  | [] => none
  | first :: rest =>
      if Name.isPlaceholder first && !rest.isEmpty then some .startOfType
      else if rest.any Name.isPlaceholder then some .nameInType
      else none

def unreadable? (runtime : CodePath) (i : Implementation) : Option Unreadable :=
  if !runtime.canStart then some .interfacePath
  else
    (unreadableType? i.type).or
      (if i.body.fieldNames.any Name.isPlaceholder then some .fieldName
        else none)

end Implementation

end AccessChecks
