import AccessChecks.Descriptor.Name
import AccessChecks.Descriptor.Reader

/-!
# Pools of descriptors

## Visibility

A file may refer to what it declares itself, to what its imports declare, and to
what those import publicly.

## References

A pool is a set of files.  Names that a file writes are resolved to full names, and
full names lead to declarations.  The order of the files does not matter for that.
-/

namespace AccessChecks

namespace Descriptor

/-!
## Visibility
-/

namespace FileDecl

def importAt? (f : FileDecl) (position : Int) : Option String :=
  if 0 ≤ position then f.imports[position.toNat]? else none

/-- The imports that are passed on to importing files. -/
def passedOn (f : FileDecl) : List String :=
  f.publicImports.filterMap f.importAt?

end FileDecl

def visibleFrom (files : List FileDecl) (f : FileDecl) : List String :=
  let imported := files.filter fun g => f.imports.contains g.name
  f.name :: f.imports ++ imported.flatMap FileDecl.passedOn

/-!
## References
-/

inductive ResolvedKind where
  | scalar (kind : ScalarKind)
  | enum (fullName : String)
  | message (fullName : String)
  | group (fullName : String)
deriving DecidableEq, Repr, Inhabited

def DeclaredKind.named (kind : DeclaredKind) (d : DeclaredName) : ResolvedKind :=
  if d.kind = .enum then .enum d.name
  else if kind = .group then .group d.name
  else .message d.name

/-- An extension in its file, with the full name of the message that it extends. -/
structure PlacedExtension where
  target : String
  file : FileDecl
  decl : ExtensionDecl
deriving Repr, Inhabited

def namesOf (files : List FileDecl) : List DeclaredName :=
  files.flatMap FileDecl.declaredNames

def extensionsIn (files : List FileDecl) : List PlacedExtension :=
  let names := namesOf files
  files.flatMap fun f =>
    f.extensions.filterMap fun e => do
      let extended ← e.field.extendee
      let found ←
        resolveName? names (visibleFrom files f) (· == .message)
          (f.scopeOf e.parents) extended
      return ⟨found.name, f, e⟩

structure Pool where
  files : List FileDecl
  names : List DeclaredName
  extensions : List PlacedExtension
  names_eq : names = namesOf files := by rfl
  extensions_eq : extensions = extensionsIn files := by rfl

instance : Inhabited Pool :=
  ⟨⟨[], [], [], rfl, rfl⟩⟩

namespace Pool

def ofFiles (files : List FileDecl) : Pool :=
  { files := files, names := namesOf files, extensions := extensionsIn files }

theorem files_ofFiles (files : List FileDecl) : (ofFiles files).files = files :=
  rfl

theorem eq_ofFiles (p : Pool) : p = ofFiles p.files := by
  obtain ⟨files, names, extensions, rfl, rfl⟩ := p
  rfl

def resolve? (p : Pool) (f : FileDecl) (fits : NameKind → Bool)
    (scope name : String) : Option DeclaredName :=
  resolveName? p.names (visibleFrom p.files f) fits scope name

def resolveMessage? (p : Pool) (f : FileDecl) (scope name : String) :
    Option String :=
  (p.resolve? f (· == .message) scope name).map DeclaredName.name

/-- The kind of a field in a scope of a file.  A named type decides, whatever kind
is declared beside it. -/
def kindOf? (p : Pool) (f : FileDecl) (scope : String) (d : FieldDecl) :
    Option ResolvedKind :=
  match d.typeName, d.kind with
  | some name, kind =>
      (p.resolve? f NameKind.isType scope name).map kind.named
  | none, .scalar kind => some (.scalar kind)
  | none, _ => none

/-!
## Declarations
-/

def file? (p : Pool) (name : String) : Option FileDecl :=
  p.files.find? fun f => f.name == name

def message? (p : Pool) (fullName : String) :
    Option (FileDecl × MessageDecl) :=
  p.files.findSome? fun f =>
    (f.messages.find? fun m => f.messageName m == fullName).map fun m => (f, m)

def enum? (p : Pool) (fullName : String) : Option EnumDecl :=
  p.files.findSome? fun f =>
    f.enums.find? fun e => f.enumName e == fullName

def extension? (p : Pool) (fullName : String) : Option PlacedExtension :=
  p.extensions.find? fun e => e.file.extensionName e.decl == fullName

def extensionsOf (p : Pool) (fullName : String) : List PlacedExtension :=
  p.extensions.filter fun e => e.target == fullName

end Pool

end Descriptor

end AccessChecks
