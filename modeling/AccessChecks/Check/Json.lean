import AccessChecks.Check.Basic
import AccessChecks.Json.Reader

/-!
# Checks as JSON

## Writing

An attribute value is written as the bare JSON value of its content: bytes as a
list of numbers, and a number that is not finite as `null`.  Records are objects
with their fields in order, and names of kinds and modes are texts.

## Reading

The form of an attribute value is found from its JSON value alone.  The forms are
tried in the order of their declaration, so a list of small numbers reads as
bytes.  Records are read from objects or from lists of all fields.

## Nesting

A value may be nested to a fixed depth.  Members that a record does not know are
passed over, whatever they hold.
-/

namespace AccessChecks

namespace Json

def ofString (s : String) : Json :=
  .text (spell s.toList)

def ofNat (n : Nat) : Json :=
  .number (naturalSpelling n)

def ofInt (i : Int) : Json :=
  .number (integerSpelling i)

def ofDouble (x : Double) : Json :=
  if x.isFinite then .number (doubleSpelling x) else .null

def ofMembers (members : List (String × Json)) : Json :=
  .object (members.map fun m => (spell m.1.toList, m.2))

def asString? : Json → Option String
  | .text spelling => (unspell? spelling).map String.ofList
  | _ => none

end Json

namespace AttributeValue

mutual

def toJson : AttributeValue → Json
  | bool b => .bool b
  | int i => Json.ofInt i.toInt
  | uint n => Json.ofNat n.toNat
  | float x => Json.ofDouble x
  | string s => Json.ofString s
  | bytes bs => .array (bs.map fun b => Json.ofNat b.toNat)
  | list items => .array (toJsonAll items)
  | map entries => .object (toJsonEntries entries)

def toJsonAll : List AttributeValue → List Json
  | [] => []
  | v :: rest => v.toJson :: toJsonAll rest

def toJsonEntries : List (String × AttributeValue) → List (List Char × Json)
  | [] => []
  | (name, v) :: rest =>
      (Json.spell name.toList, v.toJson) :: toJsonEntries rest

end

end AttributeValue

namespace CheckedResource

def toJson (r : CheckedResource) : Json :=
  Json.ofMembers
    [("resource_type", Json.ofString r.resourceType),
      ("id", Json.ofString r.id),
      ("attributes", .object (AttributeValue.toJsonEntries r.attributes))]

end CheckedResource

namespace Check

def toJson (c : Check) : Json :=
  Json.ofMembers
    [("tenant_id", Json.ofString c.tenantId),
      ("permission", Json.ofString c.permission),
      ("resource", c.resource.toJson)]

end Check

namespace CheckConfig

def toJson (c : CheckConfig) : Json :=
  let mode :=
    match c.mode with
    | some m => Json.ofString m.name
    | none => .null
  Json.ofMembers
    [("kind", Json.ofString c.kind.name), ("mode", mode),
      ("checks", .array (c.checks.map Check.toJson))]

end CheckConfig

/-!
## Attribute values from JSON
-/

namespace AttributeValue

def depthLimit : Nat := 127

def ofNumber : Json.Number → AttributeValue
  | .unsigned n =>
      if n.toNat < Nat.pow 2 63 then int (Int64.ofInt n.toNat) else uint n
  | .negative i => int i
  | .float x => float x

def asByte? : AttributeValue → Option UInt8
  | int i =>
      if 0 ≤ i.toInt && i.toInt ≤ 255 then some (UInt8.ofNat i.toInt.toNat)
      else none
  | _ => none

/-- The bytes that the items make up, if each is one, and their list otherwise. -/
def ofItems (items : List AttributeValue) : AttributeValue :=
  match items.mapM asByte? with
  | some bs => bytes bs
  | none => list items

mutual

def ofJson? (depth : Nat) : Json → Option AttributeValue
  | .null => none
  | .bool b => some (bool b)
  | .number spelling => (Json.Number.ofSpelling? spelling).map ofNumber
  | .text spelling =>
      (Json.unspell? spelling).map fun s => string (String.ofList s)
  | .array items =>
      if depth = 0 then none else (ofJsonAll? (depth - 1) items).map ofItems
  | .object members =>
      if depth = 0 then none
      else
        (ofJsonMembers? (depth - 1) members).map fun pairs =>
          map (Entries.ofPairs pairs)

def ofJsonAll? (depth : Nat) : List Json → Option (List AttributeValue)
  | [] => some []
  | item :: rest =>
      match ofJson? depth item, ofJsonAll? depth rest with
      | some v, some vs => some (v :: vs)
      | _, _ => none

def ofJsonMembers? (depth : Nat) :
    List (List Char × Json) → Option (List (String × AttributeValue))
  | [] => some []
  | (key, value) :: rest =>
      match Json.unspell? key, ofJson? depth value, ofJsonMembers? depth rest with
      | some name, some v, some pairs => some ((String.ofList name, v) :: pairs)
      | _, _, _ => none

end

end AttributeValue

/-!
## Records from JSON
-/

namespace Json

/-- The values of the named fields of a record: from an object in which no known
key occurs twice, or from a list of all fields in order.  A field that the object
lacks has no value. -/
def fields? (names : List String) : Json → Option (List (Option Json))
  | .array items =>
      if items.length = names.length then some (items.map some) else none
  | .object members =>
      let named := members.mapM fun m =>
        (unspell? m.1).map fun key => (String.ofList key, m.2)
      match named with
      | none => none
      | some members =>
          names.mapM fun name =>
            match members.filter fun m => m.1 == name with
            | [] => some none
            | [m] => some (some m.2)
            | _ => none
  | _ => none

/-- The choice that a text names, or an object with the name as its only key and
nothing under it. -/
def choice? {α : Type} (depth : Nat) (choices : List α) (name : α → String) :
    Json → Option α
  | .text spelling => find? spelling
  | .object [(key, .null)] => if depth = 0 then none else find? key
  | _ => none
where
  find? (spelling : List Char) : Option α :=
    match unspell? spelling with
    | some found => choices.find? fun c => name c == String.ofList found
    | none => none

end Json

namespace CheckKind

def ofJson? (depth : Nat) (j : Json) : Option CheckKind :=
  Json.choice? depth all name j

end CheckKind

namespace BulkMode

def ofJson? (depth : Nat) (j : Json) : Option BulkMode :=
  Json.choice? depth all name j

end BulkMode

namespace CheckedResource

def ofJson? (depth : Nat) (j : Json) : Option CheckedResource := do
  if depth = 0 then none
  else
    match ← Json.fields? ["resource_type", "id", "attributes"] j with
    | [some type, some id, some attributes] =>
        match ← AttributeValue.ofJson? (depth - 1) attributes with
        | .map entries =>
            return { resourceType := ← type.asString?
                     id := ← id.asString?
                     attributes := entries }
        | _ => none
    | _ => none

end CheckedResource

namespace Check

def ofJson? (depth : Nat) (j : Json) : Option Check := do
  if depth = 0 then none
  else
    match ← Json.fields? ["tenant_id", "permission", "resource"] j with
    | [some tenant, some permission, some resource] =>
        return { tenantId := ← tenant.asString?
                 permission := ← permission.asString?
                 resource := ← CheckedResource.ofJson? (depth - 1) resource }
    | _ => none

def listOfJson? (depth : Nat) : Json → Option (List Check)
  | .array items =>
      if depth = 0 then none else items.mapM (ofJson? (depth - 1))
  | _ => none

end Check

namespace CheckConfig

def modeOfJson? (depth : Nat) : Option Json → Option (Option BulkMode)
  | none | some .null => some none
  | some j => (BulkMode.ofJson? depth j).map some

def ofJson? (depth : Nat) (j : Json) : Option CheckConfig := do
  if depth = 0 then none
  else
    match ← Json.fields? ["kind", "mode", "checks"] j with
    | [some kind, mode, some checks] =>
        return { kind := ← CheckKind.ofJson? (depth - 1) kind
                 mode := ← modeOfJson? (depth - 1) mode
                 checks := ← Check.listOfJson? (depth - 1) checks }
    | _ => none

end CheckConfig

end AccessChecks
