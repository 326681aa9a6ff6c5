import AccessChecks.Check.Basic

/-!
# Items that emitted code refers to

Emitted code names the types, constructors and functions of a runtime library,
which lies below a configurable path, and a few items of the standard library.
The code itself refers to items; only printing turns them into paths.
-/

namespace AccessChecks

structure CodePath where
  isGlobal : Bool := false
  segments : List String
deriving DecidableEq, Repr, Inhabited

inductive AttributeForm where
  | bool
  | int
  | uint
  | float
  | string
  | bytes
  | list
  | map
deriving DecidableEq, Repr, Inhabited

namespace AttributeForm

def name : AttributeForm → String
  | bool => "Bool"
  | int => "Int"
  | uint => "UInt"
  | float => "Float"
  | string => "String"
  | bytes => "Bytes"
  | list => "List"
  | map => "Map"

end AttributeForm

inductive Item where
  | check
  | checkedResource
  | checkConfig
  | kind (k : CheckKind)
  | mode (m : BulkMode)
  | defaultTenant
  | newAttributes
  | attributeType
  | attributeOf (form : AttributeForm)
  | checksInterface
  | newText
  | textFrom
  | newList
  | present
  | absent
  | toText
  | toInt
  | toUInt
  | toFloat
deriving DecidableEq, Repr, Inhabited

namespace Item

/-- The names of the item, and whether they stand below the runtime path. -/
def place : Item → Bool × List String
  | check => (true, ["Check"])
  | checkedResource => (true, ["Resource"])
  | checkConfig => (true, ["CheckConfig"])
  | kind k => (true, ["CheckKind", k.name])
  | mode m => (true, ["BulkCheckMode", m.name])
  | defaultTenant => (true, ["DEFAULT_TENANT"])
  | newAttributes => (true, ["Attributes", "new"])
  | attributeType => (true, ["AttributeValue"])
  | attributeOf form => (true, ["AttributeValue", form.name])
  | checksInterface => (true, ["GetChecks"])
  | newText => (false, ["String", "new"])
  | textFrom => (false, ["String", "from"])
  | newList => (false, ["Vec", "new"])
  | present => (false, ["Some"])
  | absent => (false, ["None"])
  | toText => (false, ["ToString", "to_string"])
  | toInt => (false, ["i64", "from"])
  | toUInt => (false, ["u64", "from"])
  | toFloat => (false, ["f64", "from"])

def path (runtime : CodePath) (item : Item) : CodePath :=
  let (isBelow, names) := item.place
  if isBelow then { runtime with segments := runtime.segments ++ names }
  else ⟨false, names⟩

end Item

end AccessChecks
