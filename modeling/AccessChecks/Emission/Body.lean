import AccessChecks.Emission.Attributes

/-!
# Emitting bodies

## One check

A check is built from its resource instance: the id, the tenant and the
attributes are bound first, then the check is pushed.

## Bodies

A gated body pushes the checks of all instances and decides the kind of the
configuration by their number.  Other bodies are constant.
-/

namespace AccessChecks

namespace Emission

def checksVariable : String := "checks"

def permissionVariable : String := "permission"

def idVariable : String := "id"

def tenantVariable : String := "tenant_id"

def kindVariable : String := "kind"

/-- Statements that bind a key of an instance: its text if the path leads to a
value that is not zero, and the default otherwise. -/
def bindKey (x : String) (default_ : Expr) (path : Option AccessPath)
    (instance_ : Option Value) : Emission (List Stmt) := do
  match path, instance_ with
  | some path, some value =>
      let leaf ← value.follow path.segments
      let assignment :=
        match path.leafType with
        | some (.single kind) => [leaf.assignUnlessZero kind x]
        | some (.list _) | some (.map _ _) | none => []
      return .bind true x none default_ :: assignment
  | _, _ => return [.bind false x none default_]

def pushCheck (resource : Resource) : Stmt :=
  .eval
    (.method (.name checksVariable) .push
      [.record .check
        [(tenantVariable, .name tenantVariable),
          (permissionVariable, .call .textFrom [.name permissionVariable]),
          ("resource",
            .record .checkedResource
              [("resource_type", .call .textFrom [.text resource.resourceType]),
                (idVariable, .name idVariable),
                (attributesVariable, .name attributesVariable)])]])

def checkOf (resource : Resource) (instance_ : Option Value)
    (id : List Stmt) : Emission (List Stmt) := do
  let tenant ←
    bindKey tenantVariable (.call .textFrom [.item .defaultTenant])
      resource.usableTenantPath instance_
  let attributes ← bindAttributes resource.attributePaths instance_
  return id ++ tenant ++ attributes ++ [pushCheck resource]

/-- Statements that push the checks of one instance: one check, or one for each
id where the id path crosses a collection. -/
def checksOf (resource : Resource) (instance_ : Option Value) :
    Emission (List Stmt) := do
  let emptyText := Expr.call .newText []
  match resource.usableIdPath, instance_ with
  | some path, some value =>
      if path.crossesCollection then
        let perId (id : Option Value) : Emission (List Stmt) :=
          let text := (id.map Value.asText).getD emptyText
          checkOf resource instance_ [.bind false idVariable none text]
        walk true perId path.segments value
      else
        let id ← bindKey idVariable emptyText (some path) instance_
        checkOf resource instance_ id
  | _, _ =>
      checkOf resource instance_ [.bind false idVariable none emptyText]

def instanceChecks (resource : Resource) (value : Option Value) :
    Emission (List Stmt) := do
  match value with
  | some value =>
      if resource.needsInstance then
        let bound := value.bindTo resourceRoot
        let checks ← checksOf resource (some bound.2)
        return bound.1 :: checks
      else checksOf resource none
  | none => checksOf resource none

/-- The mode that a configuration states: none if there is one check only. -/
def statedMode (resource : Resource) (mode : Option BulkMode) : Expr :=
  if resource.isMultiple then
    .call .present [.item (.mode (mode.getD .allOf))]
  else .item .absent

def gatedBody (resource : Resource) (permission : String)
    (mode : Option BulkMode) : Emission Body := do
  let instances ←
    walk resource.needsInstance (instanceChecks resource)
      resource.path.segments (.ref (.name requestRoot))
  let count := Expr.method (.name checksVariable) .len []
  return {
    statements :=
      [.bind false requestRoot none (.name "self"),
        .bind false permissionVariable none (.text permission),
        .bind true checksVariable (some .check) (.call .newList [])] ++
      instances ++
      [.bind false kindVariable none
        (.choice (.binary .exceeds count (.number 1))
          (.item (.kind .bulk)) (.item (.kind .single)))]
    result :=
      .record .checkConfig
        [(kindVariable, .name kindVariable),
          ("mode", statedMode resource mode),
          (checksVariable, .name checksVariable)] }

def constantBody (kind : CheckKind) : Body :=
  { statements := []
    result :=
      .record .checkConfig
        [(kindVariable, .item (.kind kind)),
          ("mode", .item .absent),
          (checksVariable, .call .newList [])] }

def publicBody : Body :=
  constantBody .isPublic

def uncheckedBody : Body :=
  constantBody .single

def implementation (request : Message) (body : Body) :
    Emission Implementation := do
  match Name.ofMessage request with
  | .ok type => return ⟨type, body⟩
  | .error e => throw e

end Emission

end AccessChecks
