import AccessChecks.Descriptor.Part

/-!
# Reading descriptors

## Parts

A descriptor is read from records that are known to be in form, so every part has
a meaning.  Of a singular part the last occurrence counts.

## Messages

A message is read together with what is declared in it.  Extensions that are
declared deeper inside come first.
-/

namespace AccessChecks

namespace Descriptor

open Wire (Record)

/-- The kind that a number stands for.  Numbers without a meaning stand for the
first one. -/
def DeclaredKind.ofNumber : Nat → DeclaredKind
  | 2 => .scalar .float
  | 3 => .scalar (.int64 .plain)
  | 4 => .scalar (.uint64 .plain)
  | 5 => .scalar (.int32 .plain)
  | 6 => .scalar (.uint64 .fixed)
  | 7 => .scalar (.uint32 .fixed)
  | 8 => .scalar .bool
  | 9 => .scalar .string
  | 10 => .group
  | 11 => .message
  | 12 => .scalar .bytes
  | 13 => .scalar (.uint32 .plain)
  | 14 => .enum
  | 15 => .scalar (.int32 .fixed)
  | 16 => .scalar (.int64 .fixed)
  | 17 => .scalar (.int32 .zigzag)
  | 18 => .scalar (.int64 .zigzag)
  | _ => .scalar .double

def Label.ofNumber : Nat → Label
  | 2 => .required
  | 3 => .repeated
  | _ => .optional

def Dialect.ofName? : String → Option Dialect
  | "" | "proto2" => some .proto2
  | "proto3" => some .proto3
  | _ => none

/-!
## Parts
-/

def nameIn (records : List Record) : String :=
  (Wire.lastText? 1 records).getD ""

def wordIn (field : Nat) (records : List Record) : Nat :=
  (Wire.lastNumber? field records).getD 0 % Nat.pow 2 32

def intIn (field : Nat) (records : List Record) : Int :=
  Wire.signed (wordIn field records)

def optionsIn (field : Nat) (records : List Record) : Option OptionSet :=
  if (Wire.messages field records).isEmpty then none
  else some { records := Wire.merged field records }

def readRange (records : List Record) : NumberRange :=
  ⟨intIn 1 records, intIn 2 records⟩

def readExtensionRange (records : List Record) : ExtensionRange :=
  ⟨readRange records, optionsIn 3 records⟩

def readField (records : List Record) : FieldDecl :=
  { name := nameIn records
    number := wordIn 3 records
    label := .ofNumber (wordIn 4 records)
    kind := .ofNumber (wordIn 5 records)
    typeName := Wire.lastText? 6 records
    extendee := Wire.lastText? 2 records
    choice := (Wire.lastNumber? 9 records).map Wire.signed
    jsonName := Wire.lastText? 10 records
    default := Wire.lastText? 7 records
    explicitOptional := Wire.lastFlag 17 records
    options := optionsIn 8 records }

def readOneof (records : List Record) : OneofDecl :=
  ⟨nameIn records, optionsIn 2 records⟩

def readEnumValue (records : List Record) : EnumValueDecl :=
  ⟨nameIn records, intIn 2 records, optionsIn 3 records⟩

def readEnum (parents : List String) (records : List Record) : EnumDecl :=
  { parents := parents
    name := nameIn records
    values := (Wire.messages 2 records).map readEnumValue
    reserved := (Wire.messages 4 records).map readRange
    options := optionsIn 3 records }

def readMethod (records : List Record) : MethodDecl :=
  { name := nameIn records
    input := (Wire.lastText? 2 records).getD ""
    output := (Wire.lastText? 3 records).getD ""
    options := optionsIn 4 records }

def readService (records : List Record) : ServiceDecl :=
  { name := nameIn records
    methods := (Wire.messages 2 records).map readMethod
    options := optionsIn 3 records }

/-!
## Messages
-/

structure Declarations where
  messages : List MessageDecl := []
  enums : List EnumDecl := []
  extensions : List ExtensionDecl := []
deriving Repr, Inhabited

namespace Declarations

def append (left right : Declarations) : Declarations :=
  { messages := left.messages ++ right.messages
    enums := left.enums ++ right.enums
    extensions := left.extensions ++ right.extensions }

def join (parts : List Declarations) : Declarations :=
  parts.foldl append {}

end Declarations

def readDeclared (parents : List String) (enumField extensionField : Nat)
    (records : List Record) : Declarations :=
  { enums := (Wire.messages enumField records).map (readEnum parents)
    extensions :=
      (Wire.messages extensionField records).map fun inside =>
        ⟨parents, readField inside⟩ }

/-- Reads a message together with what is declared in it, so many levels deep. -/
def readMessage : (depth : Nat) → (parents : List String) → List Record →
    Declarations
  | 0, _, _ => {}
  | depth + 1, parents, records =>
      let message : MessageDecl := {
        parents := parents
        name := nameIn records
        fields := (Wire.messages 2 records).map readField
        oneofs := (Wire.messages 8 records).map readOneof
        extensible := (Wire.messages 5 records).map readExtensionRange
        reserved := (Wire.messages 9 records).map readRange
        options := optionsIn 7 records }
      let inside := parents ++ [nameIn records]
      let nested := (Wire.messages 3 records).map (readMessage depth inside)
      .join
        ({ messages := [message] } :: nested ++ [readDeclared inside 4 6 records])

/-!
## Files
-/

def readFile (dialect : Dialect) (records : List Record) : FileDecl :=
  let messages := (Wire.messages 4 records).map (readMessage nestingLimit [])
  let declared :=
    Declarations.join (messages ++ [readDeclared [] 5 7 records])
  { name := nameIn records
    package := (Wire.lastText? 2 records).getD ""
    imports := Wire.texts 3 records
    publicImports := (Wire.packedNumbers 10 records).map Wire.signed
    weakImports := (Wire.packedNumbers 11 records).map Wire.signed
    messages := declared.messages
    enums := declared.enums
    extensions := declared.extensions
    services := (Wire.messages 6 records).map readService
    dialect := dialect
    options := optionsIn 8 records }

def readFile? (bytes : List UInt8) : Option FileDecl := do
  let records ← fileRecords? bytes
  let dialect ← Dialect.ofName? ((Wire.lastText? 12 records).getD "")
  return readFile dialect records

end Descriptor

end AccessChecks
