import AccessChecks.Discovery.Resource
import AccessChecks.Proofs.Reading

/-!
# Checks read off a request

## Keys

A key names its resource by the text of a value.  The empty text and the integer
zero name nothing.

## Attributes

The kind of a field decides which attribute value its data gives.  An attribute
behind a collection gathers all values that are present, over all levels together,
and there is none if nothing was gathered.

## Checks

Everything in a check is read off one instance of the resource.  An instance has
one check, or one for each id where the ids are themselves behind a collection.
-/

namespace AccessChecks

open Reading

namespace Data

def text? : Data → Option String
  | scalar v => v.text?
  | _ => none

def keyText? : Data → Option String
  | scalar (.string s) => if s.isEmpty then none else some s
  | scalar v => v.integer?.bind fun n => if n = 0 then none else some (toString n)
  | _ => none

end Data

/-!
## Attribute values
-/

def Kind.attribute? : Kind → Data → Option AttributeValue
  | .scalar .bool, .scalar (.bool b) => some (.bool b)
  | .scalar .int32, .scalar (.int32 i) => some (.int i.toInt64)
  | .scalar .int64, .scalar (.int64 i) => some (.int i)
  | .scalar .uint32, .scalar (.uint32 n) => some (.uint n.toUInt64)
  | .scalar .uint64, .scalar (.uint64 n) => some (.uint n)
  | .scalar .float, .scalar (.float bits) =>
      some (.float (ScalarData.widenFloat bits))
  | .scalar .double, .scalar (.double x) => some (.float x)
  | .scalar .string, .scalar (.string s) => some (.string s)
  | .scalar .bytes, .scalar (.bytes bs) => some (.bytes bs)
  | .enum _, .scalar (.int32 i) => some (.int i.toInt64)
  | _, _ => none

def Kind.attributeEntry? (kind : Kind) (e : ScalarData × Data) :
    Option (String × AttributeValue) :=
  e.1.text?.bind fun key => (kind.attribute? e.2).map fun a => (key, a)

def FieldType.attribute? : FieldType → Data → Option AttributeValue
  | .single kind, d => kind.attribute? d
  | .list kind, .list items => (items.mapM kind.attribute?).map .list
  | .map _ kind, .map entries =>
      (entries.mapM kind.attributeEntry?).map fun pairs =>
        .map (Entries.ofPairs pairs)
  | _, _ => none

namespace AccessPath

/-- The values that the path gathers for an attribute of a type. -/
def gathered (p : AccessPath) (type : FieldType) (v : Option Data) :
    List AttributeValue :=
  (reached p.segments v).filterMap fun leaf => leaf.bind type.attribute?

def attributeAt (p : AccessPath) (v : Option Data) : Option AttributeValue :=
  p.leafType.bind fun type =>
    if !type.isAttributeType then none
    else if p.crossesCollection then
      if (p.gathered type v).isEmpty then none
      else some (.list (p.gathered type v))
    else (valueAt p.segments v).bind type.attribute?

end AccessPath

/-!
## Checks of an instance
-/

def keyOr (default_ : String) (v : Option Data) : String :=
  (v.bind Data.keyText?).getD default_

def keyAt (path : Option AccessPath) (default_ : String) (v : Option Data) :
    String :=
  keyOr default_ (path.bind fun p => valueAt p.segments v)

namespace Resource

def fansOut (r : Resource) : Bool :=
  r.usableIdPath.any AccessPath.crossesCollection

def idLeaves (r : Resource) (v : Option Data) : List (Option Data) :=
  match r.usableIdPath with
  | some p => reached p.segments v
  | none => []

/-- The ids of an instance: that of every value reached where the ids fan out,
and the one key otherwise. -/
def idsAt (r : Resource) (v : Option Data) : List String :=
  if r.fansOut then
    (r.idLeaves v).map fun leaf => (leaf.bind Data.text?).getD ""
  else [keyAt r.usableIdPath "" v]

def attributesAt (r : Resource) (v : Option Data) : Attributes :=
  Entries.ofPairs
    (r.attributePaths.filterMap fun e =>
      (e.2.attributeAt v).map fun a => (e.1, a))

def checkAt (r : Resource) (permission : String) (v : Option Data)
    (id : String) : Check :=
  { tenantId := keyAt r.usableTenantPath defaultTenant v
    permission := permission
    resource :=
      { resourceType := r.resourceType
        id := id
        attributes := r.attributesAt v } }

def checksAt (r : Resource) (permission : String) (v : Option Data) :
    List Check :=
  (r.idsAt v).map (r.checkAt permission v)

def instancesIn (r : Resource) (request : Data) : List (Option Data) :=
  reached r.path.segments (some request)

/-- The checks of a request, instance by instance. -/
def checksIn (r : Resource) (permission : String) (request : Data) :
    List Check :=
  (r.instancesIn request).flatMap (r.checksAt permission)

/-- The configuration of the checks of a request.  It states a mode if there can
be several checks. -/
def configIn (r : Resource) (permission : String) (mode : Option BulkMode)
    (request : Data) : CheckConfig :=
  { kind := CheckKind.forCount (r.checksIn permission request).length
    mode := if r.isMultiple then some (mode.getD .allOf) else none
    checks := r.checksIn permission request }

end Resource

end AccessChecks
