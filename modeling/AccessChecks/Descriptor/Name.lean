import AccessChecks.Descriptor.Basic

/-!
# Declared names

## Names of a file

Every declaration has a full name, and so have the packages around it.  Values of
an enum stand in the scope of the enum, not in the enum.

## Lookup

A name with a dot in front is a full name.  Any other name is looked up in the
scope where it stands and then in the scopes around it.  A name of one part is
found in the first scope that has a fitting declaration of that name.  Of a longer
name the first part is looked up alone, and the scope that has it decides.
-/

namespace AccessChecks

namespace Descriptor

inductive NameKind where
  | package
  | message
  | enum
  | service
  | extension
  | member
deriving DecidableEq, Repr, Inhabited

namespace NameKind

def isScope : NameKind → Bool
  | package | message | enum | service => true
  | extension | member => false

def isType : NameKind → Bool
  | message | enum => true
  | package | service | extension | member => false

end NameKind

structure DeclaredName where
  name : String
  kind : NameKind
  file : String
deriving DecidableEq, Repr, Inhabited

/-!
## Names of a file
-/

def scopesFrom (scope : String) : List String :=
  let parts := scope.splitOn "."
  (List.range (parts.length + 1)).reverse.map fun count =>
    ".".intercalate (parts.take count)

namespace FileDecl

def packageNames (f : FileDecl) : List String :=
  (scopesFrom f.package).filter fun name => !name.isEmpty

def messageNames (f : FileDecl) (m : MessageDecl) : List (String × NameKind) :=
  let scope := f.messageName m
  (scope, .message) ::
    ((m.fields.map FieldDecl.name ++ m.oneofs.map OneofDecl.name).map
      fun name => (qualify scope name, .member))

def enumNames (f : FileDecl) (e : EnumDecl) : List (String × NameKind) :=
  (f.enumName e, .enum) ::
    (e.values.map fun v => (qualify (f.scopeOf e.parents) v.name, .member))

def serviceNames (f : FileDecl) (s : ServiceDecl) : List (String × NameKind) :=
  let scope := f.serviceName s
  (scope, .service) ::
    (s.methods.map fun m => (qualify scope m.name, .member))

def declaredNames (f : FileDecl) : List DeclaredName :=
  let named :=
    (f.packageNames.map fun name => (name, NameKind.package)) ++
      f.messages.flatMap f.messageNames ++ f.enums.flatMap f.enumNames ++
      (f.extensions.map fun e => (f.extensionName e, NameKind.extension)) ++
      f.services.flatMap f.serviceNames
  named.map fun entry => ⟨entry.1, entry.2, f.name⟩

end FileDecl

/-!
## Lookup
-/

/-- The declaration of a full name, if its kind fits and one of the given files has
it. -/
def findName? (names : List DeclaredName) (files : List String)
    (fits : NameKind → Bool) (name : String) : Option DeclaredName :=
  names.find? fun d => d.name == name && fits d.kind && files.contains d.file

def leadsToScope (names : List DeclaredName) (name : String) : Bool :=
  names.any fun d => d.name == name && d.kind.isScope

/-- The declaration that a name written in a scope refers to. -/
def resolveName? (names : List DeclaredName) (files : List String)
    (fits : NameKind → Bool) (scope name : String) : Option DeclaredName :=
  match name.splitOn "." with
  | "" :: first :: rest =>
      findName? names files fits (".".intercalate (first :: rest))
  | first :: _ :: _ =>
      let found :=
        (scopesFrom scope).find? fun s => leadsToScope names (qualify s first)
      found.bind fun s => findName? names files fits (qualify s name)
  | _ =>
      (scopesFrom scope).findSome? fun s =>
        findName? names files fits (qualify s name)

theorem mem_of_findName? {names : List DeclaredName} {files : List String}
    {fits : NameKind → Bool} {name : String} {d : DeclaredName}
    (h : findName? names files fits name = some d) :
    d ∈ names ∧ fits d.kind = true := by
  have hfound := List.find?_some h
  simp only [Bool.and_eq_true, beq_iff_eq] at hfound
  exact ⟨List.mem_of_find?_eq_some h, hfound.1.2⟩

theorem mem_of_resolveName? {names : List DeclaredName} {files : List String}
    {fits : NameKind → Bool} {scope name : String} {d : DeclaredName}
    (h : resolveName? names files fits scope name = some d) :
    d ∈ names ∧ fits d.kind = true := by
  unfold resolveName? at h
  split at h
  · exact mem_of_findName? h
  · obtain ⟨s, _, hs⟩ := Option.bind_eq_some_iff.mp h
    exact mem_of_findName? hs
  · obtain ⟨s, _, hs⟩ := List.exists_of_findSome?_eq_some h
    exact mem_of_findName? hs

end Descriptor

end AccessChecks
