import AccessChecks.Descriptor.Basic

/-!
# Standard options

Options belong to a file or to a declaration in it.  Each kind of options is a
message with a few standard fields.  A file may bring its own version of such a
message, and other files may extend that.
-/

namespace AccessChecks

namespace Descriptor

inductive OptionsTarget where
  | file
  | message
  | field
  | oneof
  | enum
  | enumValue
  | service
  | method
  | extensionRange
deriving DecidableEq, Repr, Inhabited

inductive OptionKind where
  | scalar (kind : ScalarKind)
  | choice (values : List (String × Int))
  | message (fullName : String)
deriving DecidableEq, Repr, Inhabited

structure OptionField where
  number : Nat
  kind : OptionKind
  repeated : Bool := false
deriving DecidableEq, Repr, Inhabited

namespace OptionField

def string (number : Nat) : OptionField :=
  { number := number, kind := .scalar .string }

def bool (number : Nat) : OptionField :=
  { number := number, kind := .scalar .bool }

def choice (number : Nat) (values : List (String × Int)) : OptionField :=
  { number := number, kind := .choice values }

end OptionField

namespace OptionsTarget

def fullName : OptionsTarget → String
  | file => "google.protobuf.FileOptions"
  | message => "google.protobuf.MessageOptions"
  | field => "google.protobuf.FieldOptions"
  | oneof => "google.protobuf.OneofOptions"
  | enum => "google.protobuf.EnumOptions"
  | enumValue => "google.protobuf.EnumValueOptions"
  | service => "google.protobuf.ServiceOptions"
  | method => "google.protobuf.MethodOptions"
  | extensionRange => "google.protobuf.ExtensionRangeOptions"

/-- The field of options that are written by name and not resolved yet. -/
def unresolvedField : Nat := 999

open OptionField in
def standardFields : OptionsTarget → List (String × OptionField)
  | file =>
      [("java_package", string 1), ("java_outer_classname", string 8),
        ("optimize_for",
          choice 9 [("SPEED", 1), ("CODE_SIZE", 2), ("LITE_RUNTIME", 3)]),
        ("java_multiple_files", bool 10), ("go_package", string 11),
        ("cc_generic_services", bool 16), ("java_generic_services", bool 17),
        ("py_generic_services", bool 18),
        ("java_generate_equals_and_hash", bool 20), ("deprecated", bool 23),
        ("java_string_check_utf8", bool 27), ("cc_enable_arenas", bool 31),
        ("objc_class_prefix", string 36), ("csharp_namespace", string 37),
        ("swift_prefix", string 39), ("php_class_prefix", string 40),
        ("php_namespace", string 41), ("php_generic_services", bool 42),
        ("php_metadata_namespace", string 44), ("ruby_package", string 45)]
  | message =>
      [("message_set_wire_format", bool 1),
        ("no_standard_descriptor_accessor", bool 2), ("deprecated", bool 3),
        ("map_entry", bool 7)]
  | field =>
      [("ctype", choice 1 [("STRING", 0), ("CORD", 1), ("STRING_PIECE", 2)]),
        ("packed", bool 2), ("deprecated", bool 3), ("lazy", bool 5),
        ("jstype",
          choice 6 [("JS_NORMAL", 0), ("JS_STRING", 1), ("JS_NUMBER", 2)]),
        ("weak", bool 10)]
  | enum => [("allow_alias", bool 2), ("deprecated", bool 3)]
  | enumValue => [("deprecated", bool 1)]
  | service => [("deprecated", bool 33)]
  | method =>
      [("deprecated", bool 33),
        ("idempotency_level",
          choice 34
            [("IDEMPOTENCY_UNKNOWN", 0), ("NO_SIDE_EFFECTS", 1),
              ("IDEMPOTENT", 2)])]
  | oneof | extensionRange => []

end OptionsTarget

end Descriptor

end AccessChecks
