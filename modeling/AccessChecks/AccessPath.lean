import AccessChecks.Schema.Basic

/-!
# Access paths

## Hops and segments

An access path names a value below a root: a label and the fields passed on the
way.  Each segment remembers how its field is reached.  A segment that traverses
a collection stands for every element; one that reads it stands for the
collection as a whole.

## Paths

A path is its label together with its list of segments, and every operation is
an operation on that pair.
-/

namespace AccessChecks

/-- How a segment reaches its field from the enclosing value. -/
inductive Hop where
  | field
  | optional
  | repeated
  | mapped
deriving DecidableEq, Repr, Inhabited

namespace Hop

def crossesCollection : Hop → Bool
  | repeated | mapped => true
  | field | optional => false

def isNullable : Hop → Bool
  | optional => true
  | field | repeated | mapped => false

end Hop

structure Segment where
  name : String
  hop : Hop
  type : FieldType
deriving DecidableEq, Repr, Inhabited

namespace Segment

/-- The segment that passes through a field: a collection fans out to its
elements. -/
def traverse (f : Field) : Segment :=
  let hop :=
    match f.type with
    | .list _ => .repeated
    | .map _ _ => .mapped
    | .single _ => if f.presence then .optional else .field
  ⟨f.name, hop, f.type⟩

/-- The segment that reads a field as a whole, collections included. -/
def read (f : Field) : Segment :=
  let hop := if f.presence && !f.type.isCollection then .optional else .field
  ⟨f.name, hop, f.type⟩

def crossesCollection (s : Segment) : Bool :=
  s.hop.crossesCollection

def valueType (s : Segment) : FieldType :=
  if s.crossesCollection then .single s.type.valueKind else s.type

theorem crossesCollection_traverse (f : Field) :
    (traverse f).crossesCollection = f.type.isCollection := by
  cases h : f.type with
  | single kind =>
      cases hp : f.presence <;>
        simp [traverse, crossesCollection, Hop.crossesCollection,
          FieldType.isCollection, h, hp]
  | list kind =>
      simp [traverse, crossesCollection, Hop.crossesCollection,
        FieldType.isCollection, h]
  | map key value =>
      simp [traverse, crossesCollection, Hop.crossesCollection,
        FieldType.isCollection, h]

theorem crossesCollection_read (f : Field) :
    (read f).crossesCollection = false := by
  cases h : f.presence && !f.type.isCollection <;>
    simp [read, crossesCollection, Hop.crossesCollection, h]

end Segment

structure AccessPath where
  root : String
  segments : List Segment := []
deriving DecidableEq, Repr, Inhabited

namespace AccessPath

def append (p : AccessPath) (s : Segment) : AccessPath :=
  { p with segments := p.segments ++ [s] }

def rewriteRoot (p : AccessPath) (label : String) : AccessPath :=
  { p with root := label }

/-- The index behind another one.  In a build that checks for overflow there is none
behind the greatest; without checks it is zero. -/
def nextIndex? (checked : Bool) (index : USize) : Option USize :=
  if checked && index + 1 == 0 then none else some (index + 1)

def after? (checked : Bool) (p : AccessPath) (index : USize) (label : String) :
    Option AccessPath := do
  let next ← nextIndex? checked index
  return ⟨label, p.segments.drop next.toNat⟩

def length (p : AccessPath) : Nat :=
  p.segments.length

def isRoot (p : AccessPath) : Bool :=
  p.segments.isEmpty

def last? (p : AccessPath) : Option Segment :=
  p.segments.getLast?

def crossesCollection (p : AccessPath) : Bool :=
  p.segments.any Segment.crossesCollection

def collectionDepth (p : AccessPath) : Nat :=
  p.segments.countP Segment.crossesCollection

def leafType (p : AccessPath) : Option FieldType :=
  p.last?.map Segment.valueType

def endsAtIdKind (p : AccessPath) : Bool :=
  match p.leafType with
  | some (.single kind) => kind.isId
  | some (.list _) | some (.map _ _) | none => false

def render (p : AccessPath) : String :=
  ".".intercalate (p.root :: p.segments.map Segment.name)

end AccessPath

end AccessChecks
