import AccessChecks.Descriptor.Consistency

/-!
# Fields of options

## Holders

Options are held by a message.  If a pool declares that message itself, its own
fields and the extensions of other files count; otherwise the standard fields do.

## Conformance

Options that a pool declares are checked against the declaration, as deep as messages
are nested in them.  Of extensions with the same number the first one counts.
-/

namespace AccessChecks

namespace Descriptor

open Wire (Form Shape)

namespace ResolvedKind

def form : ResolvedKind → Form String
  | scalar kind => kind.form
  | enum _ => .number
  | message fullName => .message fullName
  | group fullName => .group fullName

end ResolvedKind

inductive OptionsHolder where
  | standard (target : OptionsTarget)
  | declared (fullName : String)
deriving DecidableEq, Repr, Inhabited

def optionsLimit : Nat := 100

namespace Pool

/-!
## Conformance
-/

def formOf? (p : Pool) (f : FileDecl) (scope : String) (d : FieldDecl) :
    Option (Nat × Form String) :=
  (p.kindOf? f scope d).map fun kind =>
    (d.number, if d.label = .repeated then kind.form.packed else kind.form)

def shapeOf (p : Pool) (fullName : String) : Shape String :=
  let own :=
    match p.message? fullName with
    | none => []
    | some (f, m) => m.fields.filterMap (p.formOf? f fullName)
  let extensions := (p.extensionsOf fullName).filterMap fun e =>
    p.formOf? e.file (e.file.scopeOf e.decl.parents) e.decl.field
  ⟨own ++ extensions, false⟩

def holderOf (p : Pool) (target : OptionsTarget) : OptionsHolder :=
  if (p.message? target.fullName).isSome then .declared target.fullName
  else .standard target

/-- The records of options are in form.  Standard ones have been checked already. -/
def conformsTo (p : Pool) (target : OptionsTarget)
    (records : List Wire.Record) : Bool :=
  match p.holderOf target with
  | .standard _ => true
  | .declared fullName =>
      Wire.conforms p.shapeOf optionsLimit fullName records

/-!
## Fields
-/

def optionKind (p : Pool) : ResolvedKind → OptionKind
  | .scalar kind => .scalar kind
  | .enum fullName =>
      let values := ((p.enum? fullName).map EnumDecl.values).getD []
      .choice (values.map fun v => (v.name, v.number))
  | .message fullName | .group fullName => .message fullName

def optionField? (p : Pool) (f : FileDecl) (scope : String) (d : FieldDecl) :
    Option OptionField :=
  (p.kindOf? f scope d).map fun kind =>
    { number := d.number
      kind := p.optionKind kind
      repeated := d.label = .repeated }

def extensionField? (p : Pool) (e : PlacedExtension) : Option OptionField :=
  p.optionField? e.file (e.file.scopeOf e.decl.parents) e.decl.field

def ownField? (p : Pool) (fullName : String) (test : FieldDecl → Bool) :
    Option OptionField := do
  let (f, m) ← p.message? fullName
  let d ← m.fields.find? test
  p.optionField? f fullName d

def fieldNamed? (p : Pool) (holder : OptionsHolder) (name : String) :
    Option OptionField :=
  match holder with
  | .standard target => target.standardFields.lookup name
  | .declared fullName => p.ownField? fullName fun d => d.name == name

def fieldAt? (p : Pool) (holder : OptionsHolder) (number : Nat) :
    Option OptionField :=
  match holder with
  | .standard target =>
      (target.standardFields.map Prod.snd).find? fun o => o.number == number
  | .declared fullName =>
      let own := p.ownField? fullName fun d => d.number == number
      own.or do
        let first ← (p.extensionsOf fullName).find? fun e =>
          e.decl.field.number == number
        p.extensionField? first

end Pool

end Descriptor

end AccessChecks
