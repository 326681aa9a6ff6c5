import AccessChecks.Descriptor.Default
import AccessChecks.Distinct

/-!
# Consistency of a pool

## Files

File names are distinct, imports are there, and no full name is declared twice,
except for packages.

## Messages and enums

The fields of a message have usable numbers and distinct names, also in the
spellings that other formats give them.  The values of an enum have distinct
numbers unless it allows aliases.

## References

Every type that is named is found, and every default is a spelling of a value.
-/

namespace AccessChecks

namespace Descriptor

/-!
## Fields
-/

def isFieldNumber (n : Nat) : Bool :=
  0 < n && n < Nat.pow 2 29 && !(19000 ≤ n && n < 20000)

/-- Drops underscores and writes the letters behind them as capital ones.  The flag
says that an underscore came before. -/
def camelCase (raised : Bool) : List Char → List Char
  | [] => []
  | c :: rest =>
      if c == '_' then camelCase true rest
      else (if raised then c.toUpper else c) :: camelCase false rest

namespace FieldDecl

def nameInJson (d : FieldDecl) : String :=
  d.jsonName.getD (String.ofList (camelCase false d.name.toList))

def bareName (d : FieldDecl) : List Char :=
  (d.name.toList.filter (· != '_')).map Char.toLower

end FieldDecl

/-!
## Messages and enums
-/

namespace MessageDecl

/-- The message has room for a field: its number is not reserved, and it belongs to
extensions exactly if the field is one. -/
def hasRoomFor (m : MessageDecl) (d : FieldDecl) : Bool :=
  isFieldNumber d.number &&
    !(m.reserved.any fun range => range.has d.number) &&
    (m.extensible.any fun e => e.range.has d.number) == d.extendee.isSome

def hasChoiceOf (m : MessageDecl) (d : FieldDecl) : Bool :=
  d.choice.all fun position : Int =>
    0 ≤ position && position < m.oneofs.length

/-- Names differ in JSON.  Where every field is optional they differ in more than
underscores and case. -/
def namesApart (dialect : Dialect) (m : MessageDecl) : Bool :=
  isDistinct (m.fields.map FieldDecl.nameInJson) &&
    (dialect == .proto2 || isDistinct (m.fields.map FieldDecl.bareName))

def isConsistent (dialect : Dialect) (m : MessageDecl) : Bool :=
  m.fields.all m.hasRoomFor && m.fields.all m.hasChoiceOf &&
    isDistinct (m.fields.map FieldDecl.number) && m.namesApart dialect

end MessageDecl

namespace EnumDecl

def allowsAliases (e : EnumDecl) : Bool :=
  e.options.any fun o => o.flag 2

/-- The first value is there, and it is zero where an absent value is zero. -/
def hasFirst (dialect : Dialect) (e : EnumDecl) : Bool :=
  match e.values with
  | [] => false
  | first :: _ => dialect == .proto2 || first.number == 0

def isConsistent (dialect : Dialect) (e : EnumDecl) : Bool :=
  let numbers := e.values.map EnumValueDecl.number
  e.hasFirst dialect && (e.allowsAliases || isDistinct numbers) &&
    numbers.all fun n => !(e.reserved.any fun range => range.hasClosed n)

end EnumDecl

/-!
## Files
-/

namespace FileDecl

def hasImports (f : FileDecl) : Bool :=
  (f.publicImports ++ f.weakImports).all fun position =>
    (f.importAt? position).isSome

def isConsistent (f : FileDecl) : Bool :=
  f.hasImports && f.messages.all (MessageDecl.isConsistent f.dialect) &&
    f.enums.all (EnumDecl.isConsistent f.dialect)

end FileDecl

/-- The same name is declared twice only if it is a package both times. -/
def namesAgree (names : List DeclaredName) : Bool :=
  let packages := names.filter fun d => d.kind == .package
  let others := names.filter fun d => d.kind != .package
  isDistinct (others.map DeclaredName.name) &&
    packages.all fun p => others.all fun d => d.name != p.name

/-!
## References
-/

namespace Pool

def resolvesField (p : Pool) (f : FileDecl) (scope : String)
    (d : FieldDecl) : Bool :=
  (p.kindOf? f scope d).any fun kind => d.default.all (p.isSpelling kind)

def resolvesExtension (p : Pool) (e : PlacedExtension) : Bool :=
  ((p.message? e.target).any fun declared => declared.2.hasRoomFor e.decl.field) &&
    p.resolvesField e.file (e.file.scopeOf e.decl.parents) e.decl.field

def placesExtensions (p : Pool) : Bool :=
  p.extensions.length == (p.files.flatMap FileDecl.extensions).length

def resolvesMethod (p : Pool) (f : FileDecl) (s : ServiceDecl)
    (m : MethodDecl) : Bool :=
  let scope := f.serviceName s
  (p.resolveMessage? f scope m.input).isSome &&
    (p.resolveMessage? f scope m.output).isSome

def resolvesTypes (p : Pool) (f : FileDecl) : Bool :=
  (f.messages.all fun m =>
      m.fields.all (p.resolvesField f (f.messageName m))) &&
    f.services.all fun s => s.methods.all (p.resolvesMethod f s)

def isConsistent (p : Pool) : Bool :=
  let fileNames := p.files.map FileDecl.name
  isDistinct fileNames &&
    (p.files.all fun f => f.imports.all fileNames.contains) &&
    namesAgree p.names && p.files.all FileDecl.isConsistent &&
    p.files.all p.resolvesTypes && p.placesExtensions &&
    p.extensions.all p.resolvesExtension

end Pool

end Descriptor

end AccessChecks
