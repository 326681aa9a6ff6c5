import AccessChecks.Emission.Body

/-!
# Access to methods

## Resolution

A method is public or gated.  A gated method needs a permission and a resource in
its request; what is missing is reported, and the method is resolved all the
same.

## Access keys

Methods that share a request type have to agree on their access keys.
-/

namespace AccessChecks

inductive Access where
  | isPublic
  | gated (permission : String) (resource : Option Resource)
deriving DecidableEq, Repr, Inhabited

structure AccessKey where
  permission : Option String := none
  mode : Option BulkMode := none
deriving DecidableEq, Repr, Inhabited

structure ResolvedMethod where
  service : String
  name : String
  request : MessageRef
  access : Access
  mode : Option BulkMode
deriving DecidableEq, Repr, Inhabited

namespace Method

/-- The permission that a method names.  An empty one counts as none. -/
def statedPermission (m : Method) : Option String :=
  m.permission.filter fun p => !p.isEmpty

def access (schema : Schema) (service : String) (m : Method) :
    Access × List Diagnostic :=
  match m.isPublic, m.statedPermission with
  | true, none => (.isPublic, [])
  | true, some permission =>
      (.isPublic, [.conflictingAccessAnnotations service m.name permission])
  | false, permission =>
      let found := discover schema m.input
      let unnamed :=
        if permission.isSome then []
        else [.missingPermissionOrPublic service m.name]
      let unguarded :=
        if found.1.isSome then []
        else [.missingResourceForGatedMethod service m.name m.input.name]
      (.gated (permission.getD "") found.1, found.2 ++ unnamed ++ unguarded)

def resolve (schema : Schema) (service : String) (m : Method) :
    ResolvedMethod × List Diagnostic :=
  let decided := m.access schema service
  (⟨service, m.name, m.input, decided.1, m.mode⟩, decided.2)

end Method

namespace Service

def resolve (schema : Schema) (s : Service) :
    List ResolvedMethod × List Diagnostic :=
  let resolved := s.methods.map (Method.resolve schema s.name)
  (resolved.map Prod.fst, resolved.flatMap Prod.snd)

end Service

namespace ResolvedMethod

def isPublic (m : ResolvedMethod) : Bool :=
  m.access == .isPublic

def permission (m : ResolvedMethod) : String :=
  match m.access with
  | .isPublic => ""
  | .gated permission _ => permission

def resource? (m : ResolvedMethod) : Option Resource :=
  match m.access with
  | .isPublic => none
  | .gated _ resource => resource

def label (m : ResolvedMethod) : String :=
  m.service ++ "." ++ m.name

def accessKey (m : ResolvedMethod) : AccessKey :=
  match m.access with
  | .isPublic => {}
  | .gated permission _ => ⟨some permission, m.mode⟩

def body (m : ResolvedMethod) : Emission Body :=
  match m.access with
  | .isPublic => pure Emission.publicBody
  | .gated _ none => pure Emission.uncheckedBody
  | .gated permission (some resource) =>
      Emission.gatedBody resource permission m.mode

end ResolvedMethod

end AccessChecks
