import AccessChecks.Descriptor.Standard

/-!
# Parts of a descriptor

## Kinds

A descriptor is a message with messages inside of it.  Each kind of them has known
fields; the comments of a file are checked as well, although they are not kept.

## Nesting

The messages of a descriptor may be nested up to a limit.
-/

namespace AccessChecks

namespace Descriptor

open Wire (Form Shape)

inductive Part where
  | file
  | message
  | extensionRange
  | reservedRange
  | field
  | oneof
  | enum
  | enumValue
  | service
  | method
  | comments
  | comment
  | options (target : OptionsTarget)
  | unresolvedOption
  | namePart
deriving DecidableEq, Repr, Inhabited

namespace ScalarKind

def form {κ : Type} : ScalarKind → Form κ
  | double | int64 .fixed | uint64 .fixed => .word64
  | float | int32 .fixed | uint32 .fixed => .word32
  | int32 _ | int64 _ | uint32 _ | uint64 _ | bool => .number
  | string => .text
  | bytes => .bytes

end ScalarKind

namespace OptionKind

def form {κ : Type} (messageKind : κ) : OptionKind → Form κ
  | scalar kind => kind.form
  | choice _ => .number
  | message _ => .message messageKind

end OptionKind

namespace Part

def fields : Part → List (Nat × Form Part)
  | file =>
      [(1, .text), (2, .text), (3, .text), (4, .message message),
        (5, .message enum), (6, .message service), (7, .message field),
        (8, .message (options .file)), (9, .message comments), (10, .numbers),
        (11, .numbers), (12, .text)]
  | message =>
      [(1, .text), (2, .message field), (3, .message message),
        (4, .message enum), (5, .message extensionRange), (6, .message field),
        (7, .message (options .message)), (8, .message oneof),
        (9, .message reservedRange), (10, .text)]
  | extensionRange =>
      [(1, .number), (2, .number), (3, .message (options .extensionRange))]
  | reservedRange => [(1, .number), (2, .number)]
  | field =>
      [(1, .text), (2, .text), (3, .number), (4, .number), (5, .number),
        (6, .text), (7, .text), (8, .message (options .field)), (9, .number),
        (10, .text), (17, .number)]
  | oneof => [(1, .text), (2, .message (options .oneof))]
  | enum =>
      [(1, .text), (2, .message enumValue), (3, .message (options .enum)),
        (4, .message reservedRange), (5, .text)]
  | enumValue =>
      [(1, .text), (2, .number), (3, .message (options .enumValue))]
  | service =>
      [(1, .text), (2, .message method), (3, .message (options .service))]
  | method =>
      [(1, .text), (2, .text), (3, .text), (4, .message (options .method)),
        (5, .number), (6, .number)]
  | comments => [(1, .message comment)]
  | comment =>
      [(1, .numbers), (2, .numbers), (3, .text), (4, .text), (6, .text)]
  | options target =>
      (OptionsTarget.unresolvedField, .message unresolvedOption) ::
        target.standardFields.map fun named =>
          (named.2.number, named.2.kind.form unresolvedOption)
  | unresolvedOption =>
      [(2, .message namePart), (3, .text), (4, .number), (5, .number),
        (6, .word64), (7, .bytes), (8, .text)]
  | namePart => [(1, .text), (2, .number)]

/-- The shape of a part.  Records of options are kept whatever they hold, so all of
them need room. -/
def shape : Part → Shape Part
  | options target => ⟨(options target).fields, true⟩
  | part => ⟨part.fields, false⟩

end Part

def nestingLimit : Nat := 99

def fileRecords? (bytes : List UInt8) : Option (List Wire.Record) :=
  Wire.readAs? Part.shape nestingLimit .file bytes

end Descriptor

end AccessChecks
