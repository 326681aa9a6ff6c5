import AccessChecks.Schema.FieldType
import AccessChecks.Wire.Shape

/-!
# Descriptors

## Declarations

A descriptor lists what one schema file declares.  Nested messages are listed with
the names of the messages around them, outermost first, so all declarations of a
file stand side by side.

## Options

Options are kept as records, since what they mean depends on the extensions that
other files declare.  Options that were written by name are settings beside them.

## Full names

The full name of a declaration is its name behind the scope that it stands in.
-/

namespace AccessChecks

namespace Descriptor

def qualify (scope name : String) : String :=
  if scope.isEmpty then name else scope ++ "." ++ name

def nest (scope : String) (names : List String) : String :=
  names.foldl qualify scope

/-!
## Kinds of fields
-/

inductive Label where
  | optional
  | required
  | repeated
deriving DecidableEq, Repr, Inhabited

inductive WholeForm where
  | plain
  | zigzag
  | fixed
deriving DecidableEq, Repr, Inhabited

inductive ScalarKind where
  | double
  | float
  | int32 (form : WholeForm)
  | int64 (form : WholeForm)
  | uint32 (form : WholeForm)
  | uint64 (form : WholeForm)
  | bool
  | string
  | bytes
deriving DecidableEq, Repr, Inhabited

namespace ScalarKind

def scalar : ScalarKind → Scalar
  | double => .double
  | float => .float
  | int32 _ => .int32
  | int64 _ => .int64
  | uint32 _ => .uint32
  | uint64 _ => .uint64
  | bool => .bool
  | string => .string
  | bytes => .bytes

def bounds? : ScalarKind → Option (Int × Int)
  | int32 _ => some (-Int.pow 2 31, Int.pow 2 31 - 1)
  | int64 _ => some (-Int.pow 2 63, Int.pow 2 63 - 1)
  | uint32 _ => some (0, Int.pow 2 32 - 1)
  | uint64 _ => some (0, Int.pow 2 64 - 1)
  | double | float | bool | string | bytes => none

end ScalarKind

/-- What kind of value a field is declared with.  The type of an enum or a message
is named beside it. -/
inductive DeclaredKind where
  | scalar (kind : ScalarKind)
  | enum
  | message
  | group
deriving DecidableEq, Repr, Inhabited

/-!
## Options
-/

inductive OptionValue where
  | text (s : String)
  | flag (b : Bool)
  | choice (number : Int)
  | other
deriving DecidableEq, Repr, Inhabited

/-- An option that was written by name: the field numbers that lead to it. -/
structure Setting where
  path : List Nat
  value : OptionValue
deriving DecidableEq, Repr, Inhabited

structure OptionSet where
  records : List Wire.Record := []
  settings : List Setting := []
deriving Repr, Inhabited

/-!
## Declarations
-/

structure FieldDecl where
  name : String
  number : Nat
  label : Label
  kind : DeclaredKind
  typeName : Option String
  extendee : Option String
  /-- The position of the choice that the field is a member of. -/
  choice : Option Int
  jsonName : Option String
  default : Option String
  /-- Declared with the keyword `optional` where every field is optional. -/
  explicitOptional : Bool
  options : Option OptionSet
deriving Repr, Inhabited

structure ExtensionDecl where
  parents : List String
  field : FieldDecl
deriving Repr, Inhabited

structure NumberRange where
  start : Int
  stop : Int
deriving DecidableEq, Repr, Inhabited

namespace NumberRange

/-- The range has the number.  Its end does not belong to it. -/
def has (r : NumberRange) (n : Int) : Bool :=
  r.start ≤ n && n < r.stop

def hasClosed (r : NumberRange) (n : Int) : Bool :=
  r.start ≤ n && n ≤ r.stop

end NumberRange

structure ExtensionRange where
  range : NumberRange
  options : Option OptionSet
deriving Repr, Inhabited

structure EnumValueDecl where
  name : String
  number : Int
  options : Option OptionSet
deriving Repr, Inhabited

structure EnumDecl where
  parents : List String
  name : String
  values : List EnumValueDecl
  reserved : List NumberRange
  options : Option OptionSet
deriving Repr, Inhabited

structure OneofDecl where
  name : String
  options : Option OptionSet
deriving Repr, Inhabited

structure MessageDecl where
  parents : List String
  name : String
  fields : List FieldDecl
  oneofs : List OneofDecl
  extensible : List ExtensionRange
  reserved : List NumberRange
  options : Option OptionSet
deriving Repr, Inhabited

structure MethodDecl where
  name : String
  input : String
  output : String
  options : Option OptionSet
deriving Repr, Inhabited

structure ServiceDecl where
  name : String
  methods : List MethodDecl
  options : Option OptionSet
deriving Repr, Inhabited

/-- The rules on presence that a file is written under. -/
inductive Dialect where
  | proto2
  | proto3
deriving DecidableEq, Repr, Inhabited

structure FileDecl where
  name : String
  package : String
  imports : List String
  publicImports : List Int
  weakImports : List Int
  messages : List MessageDecl
  enums : List EnumDecl
  extensions : List ExtensionDecl
  services : List ServiceDecl
  dialect : Dialect
  options : Option OptionSet
deriving Repr, Inhabited

namespace OptionSet

def flag (o : OptionSet) (number : Nat) : Bool :=
  Wire.lastFlag number o.records ||
    o.settings.contains ⟨[number], .flag true⟩

end OptionSet

namespace MessageDecl

def isMapEntry (m : MessageDecl) : Bool :=
  m.options.any fun o => o.flag 7

end MessageDecl

namespace FileDecl

def scopeOf (f : FileDecl) (parents : List String) : String :=
  nest f.package parents

def messageName (f : FileDecl) (m : MessageDecl) : String :=
  qualify (f.scopeOf m.parents) m.name

def enumName (f : FileDecl) (e : EnumDecl) : String :=
  qualify (f.scopeOf e.parents) e.name

def extensionName (f : FileDecl) (e : ExtensionDecl) : String :=
  qualify (f.scopeOf e.parents) e.field.name

def serviceName (f : FileDecl) (s : ServiceDecl) : String :=
  qualify f.package s.name

end FileDecl

end Descriptor

end AccessChecks
