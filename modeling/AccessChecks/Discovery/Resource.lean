import AccessChecks.Discovery.Search
import AccessChecks.Diagnostic
import AccessChecks.Entries

/-!
# Discovered resources

## The resource of a request

Discovery finds the resource message that a request leads to, and inside it the
id, the tenant and the attributes.  The resource path starts at the request, the
other paths start at the resource.

## Faults

A key or an attribute of an unsuitable type, and an attribute name that is
declared twice, are reported.  The paths are recorded all the same.
-/

namespace AccessChecks

def requestRoot : String := "request"

def resourceRoot : String := "resource"

structure Resource where
  name : String
  resourceType : String
  path : AccessPath
  idPath : Option AccessPath
  tenantPath : Option AccessPath
  attributePaths : Entries AccessPath
deriving DecidableEq, Repr, Inhabited

namespace Resource

def usableIdPath (r : Resource) : Option AccessPath :=
  r.idPath.filter AccessPath.endsAtIdKind

def usableTenantPath (r : Resource) : Option AccessPath :=
  r.tenantPath.filter AccessPath.endsAtIdKind

def needsInstance (r : Resource) : Bool :=
  r.usableIdPath.isSome || r.usableTenantPath.isSome ||
    !r.attributePaths.isEmpty

def isMultiple (r : Resource) : Bool :=
  r.path.crossesCollection ||
    r.usableIdPath.any AccessPath.crossesCollection

end Resource

namespace KeyField

def faults (key : Key) (k : KeyField) : List Diagnostic :=
  if k.field.type.valueKind.isId then []
  else
    let found := k.field.type.describe
    match key with
    | .id => [.invalidIdFieldType k.owner.fullName k.field.name found]
    | .tenant => [.invalidTenantFieldType k.owner.fullName k.field.name found]

end KeyField

namespace AttributeField

def typeFaults (a : AttributeField) : List Diagnostic :=
  if a.field.type.isAttributeType then []
  else
    [.invalidAttributeFieldType a.owner.fullName a.field.name a.name
      a.field.type.describe]

def nameFaults (resource : Message) (recorded : Entries AccessPath)
    (a : AttributeField) : List Diagnostic :=
  match Entries.get? recorded a.name with
  | none => []
  | some first =>
      [.duplicateAttributeName resource.fullName a.name first.render
        a.path.render]

end AttributeField

/-- Records attributes by name, on top of those recorded so far.  The last path
of a name stays. -/
def recordAttributes (resource : Message) (recorded : Entries AccessPath) :
    List AttributeField → Entries AccessPath × List Diagnostic
  | [] => (recorded, [])
  | a :: rest =>
      let faults := a.typeFaults ++ a.nameFaults resource recorded
      let later :=
        recordAttributes resource (Entries.insert recorded a.name a.path) rest
      (later.1, faults ++ later.2)

def ResourceSite.describe (schema : Schema) (site : ResourceSite) :
    Resource × List Diagnostic :=
  let root : AccessPath := ⟨resourceRoot, []⟩
  let id := findKey schema .id root site.message
  let tenant := findKey schema .tenant root site.message
  let attributes :=
    recordAttributes site.message [] (findAttributes schema root site.message)
  let resource : Resource :=
    { name := site.message.fullName
      resourceType := site.label
      path := site.path
      idPath := id.map KeyField.path
      tenantPath := tenant.map KeyField.path
      attributePaths := attributes.1 }
  (resource,
    id.toList.flatMap (KeyField.faults .id) ++
      tenant.toList.flatMap (KeyField.faults .tenant) ++ attributes.2)

/-- The resource of a request, if one is reachable, with the faults found in
it.  An unregistered request has none. -/
def discover (schema : Schema) (request : MessageRef) :
    Option Resource × List Diagnostic :=
  let site :=
    (schema.message? request).bind (findResource schema ⟨requestRoot, []⟩)
  match site with
  | none => (none, [])
  | some site =>
      let described := site.describe schema
      (some described.1, described.2)

end AccessChecks
