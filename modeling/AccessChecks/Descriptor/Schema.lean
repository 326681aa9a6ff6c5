import AccessChecks.Descriptor.Vocabulary

/-!
# The schema of a pool

## Messages

Every message of the pool belongs to the schema, except those that stand for the
entries of a map.  Fields are taken in the order of their numbers.  A choice
between fields holds none of them for certain, so its members are left out.

## Files

The files to generate are taken in the order in which they are asked for.
-/

namespace AccessChecks

namespace Descriptor

namespace Pool

def kindOf (p : Pool) (f : FileDecl) (scope : String) (d : FieldDecl) : Kind :=
  match p.kindOf? f scope d with
  | some (.scalar kind) => .scalar kind.scalar
  | some (.enum fullName) => .enum fullName
  | some (.message fullName) | some (.group fullName) =>
      .message (.ofName fullName)
  | none => .scalar .double

/-- The map that an entry message stands for: its first field is the key, its
second one the value.  A key that is no scalar is a text. -/
def mapOf? (p : Pool) (f : FileDecl) (m : MessageDecl) : Option FieldType := do
  guard m.isMapEntry
  let key ← m.fields.find? fun d => d.number == 1
  let value ← m.fields.find? fun d => d.number == 2
  let kind := p.kindOf f (f.messageName m)
  return .map ((kind key).scalar?.getD .string) (kind value)

def typeOf (p : Pool) (f : FileDecl) (scope : String) (d : FieldDecl) :
    FieldType :=
  let kind := p.kindOf f scope d
  match d.label with
  | .optional | .required => .single kind
  | .repeated =>
      let entry := kind.message?.bind fun target => p.message? target.name
      let map := entry.bind fun declared => p.mapOf? declared.1 declared.2
      map.getD (.list kind)

/-- The field is declared `optional`, or may be absent where it stands. -/
def isOptional (f : FileDecl) (d : FieldDecl) : Bool :=
  d.explicitOptional ||
    (f.dialect == .proto2 && d.label == .optional)

def fieldOf (p : Pool) (v : Vocabulary) (f : FileDecl) (scope : String)
    (d : FieldDecl) : Field :=
  let plain : Field := { name := d.name, type := p.typeOf f scope d }
  let field := if isOptional f d then plain.asOptional else plain
  { field with marks := v.marksOf d }

/-- The field is a member of a choice.  The choice around one optional field only
says that it is optional. -/
def isChoice (d : FieldDecl) : Bool :=
  d.choice.isSome && !d.explicitOptional

def fieldsOf (m : MessageDecl) : List FieldDecl :=
  (m.fields.mergeSort fun a b => a.number ≤ b.number).filter fun d =>
    !isChoice d

def messageOf (p : Pool) (v : Vocabulary) (f : FileDecl) (m : MessageDecl) :
    Message :=
  { package := f.package
    parents := m.parents
    name := m.name
    resourceType := v.resourceTypeOf m
    fields := (fieldsOf m).map (p.fieldOf v f (f.messageName m)) }

def methodOf (p : Pool) (v : Vocabulary) (f : FileDecl) (s : ServiceDecl)
    (m : MethodDecl) : Method :=
  let input := p.resolveMessage? f (f.serviceName s) m.input
  { name := m.name
    input := MessageRef.ofName (input.getD m.input)
    isPublic := flagOf m.options v.isPublic
    permission := v.permissionOf m
    mode := modeOf? m.options v.bulkMode }

def schemaFile (p : Pool) (v : Vocabulary) (f : FileDecl) : SchemaFile :=
  { name := f.name
    package := f.package
    services := f.services.map fun s =>
      { name := s.name
        methods := s.methods.map (p.methodOf v f s) } }

def messages (p : Pool) (v : Vocabulary) : List Message :=
  p.files.flatMap fun f =>
    (f.messages.filter fun m => !m.isMapEntry).map (p.messageOf v f)

/-- The schema for the files to generate, or the name of the first one that is
missing. -/
def schema (p : Pool) (annotations : String) (wanted : List String) :
    Except String Schema := do
  let v := p.vocabulary annotations
  let files ← wanted.mapM fun name =>
    match p.file? name with
    | some f => .ok (p.schemaFile v f)
    | none => .error name
  return Schema.ofMessages (p.messages v) files

end Pool

end Descriptor

end AccessChecks
