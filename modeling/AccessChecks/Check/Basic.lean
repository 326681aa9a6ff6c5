import AccessChecks.Decimal.Double
import AccessChecks.Entries
import AccessChecks.Schema.Basic

/-!
# Checks

## Attribute values

A check describes its resource by named values.  Their shapes follow the kinds of
schema fields: signed and unsigned integers are kept apart, and so are texts,
bytes, lists and maps.

## Checks and their combination

A request yields a list of checks.  Several checks are combined by a mode, and an
empty list of outcomes never allows anything.
-/

namespace AccessChecks

inductive AttributeValue where
  | bool (b : Bool)
  | int (i : Int64)
  | uint (n : UInt64)
  | float (x : Double)
  | string (s : String)
  | bytes (bs : List UInt8)
  | list (items : List AttributeValue)
  | map (entries : List (String × AttributeValue))
deriving Repr, Inhabited

namespace AttributeValue

def asString? : AttributeValue → Option String
  | string s => some s
  | _ => none

def asList? : AttributeValue → Option (List AttributeValue)
  | list items => some items
  | _ => none

end AttributeValue

abbrev Attributes := Entries AttributeValue

def defaultTenant : String := "default"

structure CheckedResource where
  resourceType : String := ""
  id : String := ""
  attributes : Attributes := []
deriving Repr, Inhabited

namespace CheckedResource

def withAttribute (r : CheckedResource) (name : String)
    (value : AttributeValue) : CheckedResource :=
  { r with attributes := Entries.insert r.attributes name value }

def attribute? (r : CheckedResource) (name : String) : Option AttributeValue :=
  Entries.get? r.attributes name

def isBlank (r : CheckedResource) : Bool :=
  r.resourceType.isEmpty && r.id.isEmpty && r.attributes.isEmpty

end CheckedResource

structure Check where
  tenantId : String
  permission : String
  resource : CheckedResource
deriving Repr, Inhabited

namespace Check

def hasDefaultTenant (c : Check) : Bool :=
  c.tenantId == defaultTenant

end Check

inductive CheckKind where
  | isPublic
  | single
  | bulk
deriving DecidableEq, Repr, Inhabited

namespace CheckKind

def name : CheckKind → String
  | isPublic => "Public"
  | single => "Single"
  | bulk => "Bulk"

def all : List CheckKind :=
  [isPublic, single, bulk]

def forCount (count : Nat) : CheckKind :=
  if count > 1 then bulk else single

end CheckKind

namespace BulkMode

def name : BulkMode → String
  | allOf => "AllOf"
  | anyOf => "AnyOf"

def all : List BulkMode :=
  [allOf, anyOf]

/-- The joint decision on several outcomes.  No outcomes allow nothing. -/
def combine (mode : BulkMode) (outcomes : List Bool) : Bool :=
  !outcomes.isEmpty &&
    match mode with
    | allOf => outcomes.all id
    | anyOf => outcomes.any id

theorem combine_nil (mode : BulkMode) : mode.combine [] = false := rfl

theorem combine_singleton (mode : BulkMode) (outcome : Bool) :
    mode.combine [outcome] = outcome := by
  cases mode <;> simp [combine]

end BulkMode

structure CheckConfig where
  kind : CheckKind
  mode : Option BulkMode
  checks : List Check
deriving Repr, Inhabited

namespace CheckConfig

def ofPublic : CheckConfig :=
  ⟨.isPublic, none, []⟩

def isPublic (c : CheckConfig) : Bool :=
  c.kind == .isPublic

def modeOrDefault (c : CheckConfig) : BulkMode :=
  c.mode.getD .allOf

end CheckConfig

end AccessChecks
