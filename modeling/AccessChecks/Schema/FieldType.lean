/-!
# Field types

## Scalars, kinds and shapes

A field of a message holds one value, a list of values or a map.  Each value is
a scalar, an enum or another message.  The searches and the emitter match these
three types exhaustively, so every shape is handled everywhere.
-/

namespace AccessChecks

/-- Scalar values, with the wire encodings of one integer width identified. -/
inductive Scalar where
  | bool
  | int32
  | int64
  | uint32
  | uint64
  | float
  | double
  | string
  | bytes
deriving DecidableEq, Repr, Inhabited

namespace Scalar

def all : List Scalar :=
  [bool, int32, int64, uint32, uint64, float, double, string, bytes]

def protoName : Scalar → String
  | bool => "bool"
  | int32 => "int32"
  | int64 => "int64"
  | uint32 => "uint32"
  | uint64 => "uint64"
  | float => "float"
  | double => "double"
  | string => "string"
  | bytes => "bytes"

def isId : Scalar → Bool
  | bool | float | double | bytes => false
  | int32 | int64 | uint32 | uint64 | string => true

def isInteger : Scalar → Bool
  | int32 | int64 | uint32 | uint64 => true
  | bool | float | double | string | bytes => false

def ofProtoName? (name : String) : Option Scalar :=
  all.find? fun s => s.protoName == name

end Scalar

/-!
## References to messages

A message is referred to by its full name.  One leading dot marks a name as
absolute and is not part of it.
-/

structure MessageRef where
  name : String
deriving DecidableEq, Repr, Inhabited

namespace MessageRef

/-- The reference that a schema text denotes: one leading dot is dropped. -/
def ofName (text : String) : MessageRef :=
  match text.toList with
  | '.' :: rest => ⟨String.ofList rest⟩
  | _ => ⟨text⟩

end MessageRef

inductive Kind where
  | scalar (s : Scalar)
  | enum (name : String)
  | message (target : MessageRef)
deriving DecidableEq, Repr, Inhabited

namespace Kind

def isId : Kind → Bool
  | scalar s => s.isId
  | enum _ => true
  | message _ => false

def message? : Kind → Option MessageRef
  | message target => some target
  | scalar _ | enum _ => none

def scalar? : Kind → Option Scalar
  | scalar s => some s
  | enum _ | message _ => none

def describe : Kind → String
  | scalar s => s.protoName
  | enum name => "enum " ++ name
  | message target => "message " ++ target.name

end Kind

inductive FieldType where
  | single (kind : Kind)
  | list (kind : Kind)
  | map (key : Scalar) (value : Kind)
deriving DecidableEq, Repr, Inhabited

namespace FieldType

def valueKind : FieldType → Kind
  | single kind | list kind | map _ kind => kind

def isCollection : FieldType → Bool
  | single _ => false
  | list _ | map _ _ => true

/-- The message that traversing a field of this type leads to. -/
def messageTarget (t : FieldType) : Option MessageRef :=
  t.valueKind.message?

def singleMessage : FieldType → Option MessageRef
  | single kind => kind.message?
  | list _ | map _ _ => none

def isAttributeType (t : FieldType) : Bool :=
  t.messageTarget.isNone

def describe : FieldType → String
  | single kind => kind.describe
  | list kind => "repeated " ++ kind.describe
  | map key value => "map<" ++ key.protoName ++ ", " ++ value.describe ++ ">"

theorem messageTarget_of_singleMessage {t : FieldType} {target : MessageRef}
    (h : t.singleMessage = some target) : t.messageTarget = some target := by
  cases t with
  | single kind => exact h
  | list kind => simp [singleMessage] at h
  | map key value => simp [singleMessage] at h

end FieldType

end AccessChecks
