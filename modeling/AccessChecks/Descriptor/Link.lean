import AccessChecks.Descriptor.NamedOption

/-!
# Linked pools

## Options

Options stand at a file, at every declaration in it and at ranges for extensions.
They are linked by setting those that are written by name.  Names in them are looked
up from the declaration outward.

## Pools

The pool of encoded files is linked after the files are known to fit together.

## Sets

Encoded files come together in an encoded set.  The files in a set are messages inside
of a message.
-/

namespace AccessChecks

namespace Descriptor

namespace Pool

def linkField? (p : Pool) (f : FileDecl) (scope : String) (d : FieldDecl) :
    Option FieldDecl := do
  let options ← p.linkOptions? f (qualify scope d.name) .field d.options
  return { d with options := options }

def linkOneof? (p : Pool) (f : FileDecl) (scope : String) (o : OneofDecl) :
    Option OneofDecl := do
  let options ← p.linkOptions? f (qualify scope o.name) .oneof o.options
  return { o with options := options }

def linkRange? (p : Pool) (f : FileDecl) (scope : String)
    (r : ExtensionRange) : Option ExtensionRange := do
  let options ← p.linkOptions? f scope .extensionRange r.options
  return { r with options := options }

def linkMessage? (p : Pool) (f : FileDecl) (m : MessageDecl) :
    Option MessageDecl := do
  let scope := f.messageName m
  let fields ← m.fields.mapM (p.linkField? f scope)
  let oneofs ← m.oneofs.mapM (p.linkOneof? f scope)
  let extensible ← m.extensible.mapM (p.linkRange? f scope)
  let options ← p.linkOptions? f scope .message m.options
  return { m with
    fields := fields
    oneofs := oneofs
    extensible := extensible
    options := options }

def linkEnumValue? (p : Pool) (f : FileDecl) (scope : String)
    (v : EnumValueDecl) : Option EnumValueDecl := do
  let options ← p.linkOptions? f (qualify scope v.name) .enumValue v.options
  return { v with options := options }

def linkEnum? (p : Pool) (f : FileDecl) (e : EnumDecl) : Option EnumDecl := do
  let values ← e.values.mapM (p.linkEnumValue? f (f.scopeOf e.parents))
  let options ← p.linkOptions? f (f.enumName e) .enum e.options
  return { e with values := values, options := options }

def linkExtension? (p : Pool) (f : FileDecl) (e : ExtensionDecl) :
    Option ExtensionDecl := do
  let field ← p.linkField? f (f.scopeOf e.parents) e.field
  return { e with field := field }

def linkMethod? (p : Pool) (f : FileDecl) (scope : String)
    (m : MethodDecl) : Option MethodDecl := do
  let options ← p.linkOptions? f (qualify scope m.name) .method m.options
  return { m with options := options }

def linkService? (p : Pool) (f : FileDecl) (s : ServiceDecl) :
    Option ServiceDecl := do
  let scope := f.serviceName s
  let methods ← s.methods.mapM (p.linkMethod? f scope)
  let options ← p.linkOptions? f scope .service s.options
  return { s with methods := methods, options := options }

def linkFile? (p : Pool) (f : FileDecl) : Option FileDecl := do
  let messages ← f.messages.mapM (p.linkMessage? f)
  let enums ← f.enums.mapM (p.linkEnum? f)
  let extensions ← f.extensions.mapM (p.linkExtension? f)
  let services ← f.services.mapM (p.linkService? f)
  let options ← p.linkOptions? f f.package .file f.options
  return { f with
    messages := messages
    enums := enums
    extensions := extensions
    services := services
    options := options }

/-- The pool of some files with all options linked, if the files fit together. -/
def link? (files : List FileDecl) : Option Pool := do
  let p := Pool.ofFiles files
  guard p.isConsistent
  let linked ← files.mapM p.linkFile?
  return .ofFiles linked

def ofBytes? (descriptors : List (List UInt8)) : Option Pool :=
  (descriptors.mapM readFile?).bind link?

end Pool

def setShape : Wire.Shape Unit :=
  ⟨[(1, .bytes)], false⟩

/-- How deep messages may be nested in a set, with room for one in each file of it. -/
def setNestingLimit : Nat :=
  nestingLimit + 1

def writeSet (descriptors : List (List UInt8)) : List UInt8 :=
  Wire.writeAll (descriptors.map fun bytes => .block 1 bytes)

def readSet? (bytes : List UInt8) : Option (List (List UInt8)) :=
  (Wire.readAs? (fun _ => setShape) setNestingLimit () bytes).map (Wire.blocks 1)

def Pool.ofSet? (bytes : List UInt8) : Option Pool :=
  (readSet? bytes).bind Pool.ofBytes?

end Descriptor

end AccessChecks
