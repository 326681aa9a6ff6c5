import AccessChecks.Descriptor.Link
import AccessChecks.Schema.Basic

/-!
# Annotations in options

## Vocabulary

The annotations of a package are extensions that are declared under well-known
names.  Only the number of an extension counts, whatever it extends and whatever its
kind is: an annotation is the field that the options have at that number.

## Reading

A value of another kind than the annotation has annotates nothing, and an empty text
is the same as none.
-/

namespace AccessChecks

namespace Descriptor

structure Vocabulary where
  resourceType : Option OptionField
  resourceId : Option OptionField
  tenantId : Option OptionField
  attributeName : Option OptionField
  isPublic : Option OptionField
  permission : Option OptionField
  action : Option OptionField
  bulkMode : Option OptionField
deriving DecidableEq, Repr, Inhabited

namespace Pool

def annotation? (p : Pool) (target : OptionsTarget) (fullName : String) :
    Option OptionField :=
  (p.extension? fullName).bind fun e =>
    p.fieldAt? (p.holderOf target) e.decl.field.number

/-- The vocabulary of a package.  One dot in front of the package does not
count. -/
def vocabulary (p : Pool) (package : String) : Vocabulary :=
  let field (target : OptionsTarget) (name : String) : Option OptionField :=
    p.annotation? target (MessageRef.ofName (package ++ "." ++ name)).name
  { resourceType := field .message "resource_type"
    resourceId := field .field "resource_id"
    tenantId := field .field "tenant_id"
    attributeName := field .field "attribute_name"
    isPublic := field .method "public"
    permission := field .method "permission"
    action := field .method "action"
    bulkMode := field .method "bulk_check_mode" }

end Pool

/-!
## Reading
-/

def recordedValue? (field : OptionField) (records : List Wire.Record) :
    Option OptionValue :=
  let number := Wire.lastNumber? field.number records
  match field.kind with
  | .scalar .string => (Wire.lastText? field.number records).map .text
  | .scalar .bool => number.map fun n => .flag (n != 0)
  | .choice _ => number.map fun n => .choice (Wire.signed n)
  | .scalar _ | .message _ => none

namespace OptionSet

/-- The value at a singular field, which may be written by name. -/
def value? (o : OptionSet) (field : OptionField) : Option OptionValue :=
  if field.repeated then none
  else
    match o.settings.find? fun s => s.path == [field.number] with
    | some setting => some setting.value
    | none => recordedValue? field o.records

end OptionSet

def annotated? (options : Option OptionSet) (mark : Option OptionField) :
    Option OptionValue := do
  (← options).value? (← mark)

def textOf? (options : Option OptionSet) (mark : Option OptionField) :
    Option String :=
  match annotated? options mark with
  | some (.text s) => if s.isEmpty then none else some s
  | _ => none

def flagOf (options : Option OptionSet) (mark : Option OptionField) :
    Bool :=
  annotated? options mark == some (.flag true)

def modeOf? (options : Option OptionSet) (mark : Option OptionField) :
    Option BulkMode :=
  match annotated? options mark with
  | some (.choice 0) => some .allOf
  | some (.choice 1) => some .anyOf
  | _ => none

namespace Vocabulary

def resourceTypeOf (v : Vocabulary) (m : MessageDecl) : Option String :=
  textOf? m.options v.resourceType

def marksOf (v : Vocabulary) (d : FieldDecl) : Annotations :=
  { resourceId := flagOf d.options v.resourceId
    tenantId := flagOf d.options v.tenantId
    attributeName := textOf? d.options v.attributeName }

/-- The permission of a method, or else its action. -/
def permissionOf (v : Vocabulary) (m : MethodDecl) : Option String :=
  (textOf? m.options v.permission).or (textOf? m.options v.action)

end Vocabulary

end Descriptor

end AccessChecks
