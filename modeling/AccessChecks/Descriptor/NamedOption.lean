import AccessChecks.Descriptor.OptionField

/-!
# Options written by name

## Names

An option may be kept as it is written: a path of names and a value.  A name in
parentheses is that of an extension and is looked up in the scope of the options;
any other one is that of a field.  All names but the last lead into messages.

## Values

A value is a word, a number or a text, and the field decides which of them it takes.
A singular field takes a value only once, and messages are not written by name.
-/

namespace AccessChecks

namespace Descriptor

open Wire (Record)

structure NamePart where
  name : String
  isExtension : Bool
deriving DecidableEq, Repr, Inhabited

structure NamedOption where
  path : List NamePart
  word : Option String
  whole : Option Int
  isFloating : Bool
  text : Option (List UInt8)
deriving DecidableEq, Repr, Inhabited

namespace NamedOption

def read (records : List Record) : NamedOption :=
  let part (inside : List Record) : NamePart :=
    ⟨nameIn inside, Wire.lastFlag 2 inside⟩
  { path := (Wire.messages 2 records).map part
    word := Wire.lastText? 3 records
    whole :=
      ((Wire.lastNumber? 4 records).map Int.ofNat).or
        ((Wire.lastNumber? 5 records).map Wire.signedLong)
    isFloating := records.any fun r => r.field == 6
    text := Wire.lastBlock? 7 records }

/-!
## Values
-/

def isNumber (o : NamedOption) (bounds : Option (Int × Int)) : Bool :=
  match bounds with
  | some (least, greatest) =>
      o.whole.any fun value => least ≤ value && value ≤ greatest
  | none =>
      o.isFloating || o.whole.isSome || o.word == some "inf" ||
        o.word == some "nan"

def flag? : String → Option Bool
  | "true" => some true
  | "false" => some false
  | _ => none

def value? (o : NamedOption) : OptionKind → Option OptionValue
  | .choice values =>
      (o.word.bind fun word => values.lookup word).map .choice
  | .message _ => none
  | .scalar .bool => (o.word.bind flag?).map .flag
  | .scalar .string => (o.text.bind Wire.text?).map .text
  | .scalar .bytes => o.text.map fun _ => .other
  | .scalar kind => if o.isNumber kind.bounds? then some .other else none

end NamedOption

namespace OptionSet

def named (o : OptionSet) : List NamedOption :=
  (Wire.messages OptionsTarget.unresolvedField o.records).map NamedOption.read

def has (o : OptionSet) (path : List Nat) : Bool :=
  Wire.occurs path o.records || o.settings.any fun s => s.path == path

end OptionSet

namespace Pool

/-!
## Names
-/

/-- The field that a name leads to, in options of a scope of a file.  An extension
has to extend the message that it is used in. -/
def fieldOfPart? (p : Pool) (f : FileDecl) (scope : String)
    (holder : OptionsHolder) (part : NamePart) : Option OptionField :=
  if part.isExtension then do
    let found ← p.resolve? f (· == .extension) scope part.name
    let extension ← p.extension? found.name
    guard (holder = .declared extension.target)
    p.extensionField? extension
  else p.fieldNamed? holder part.name

/-- The numbers along a path of names, and the field at its end. -/
def followNames? (p : Pool) (f : FileDecl) (scope : String) :
    OptionsHolder → List NamePart → Option (List Nat × OptionField)
  | _, [] => none
  | holder, [part] =>
      (p.fieldOfPart? f scope holder part).map fun last => ([last.number], last)
  | holder, part :: next :: rest => do
      let field ← p.fieldOfPart? f scope holder part
      match field with
      | ⟨number, .message fullName, false⟩ =>
          let (numbers, last) ←
            p.followNames? f scope (.declared fullName) (next :: rest)
          return (number :: numbers, last)
      | _ => none

def setNamed? (p : Pool) (f : FileDecl) (scope : String)
    (target : OptionsTarget) (o : OptionSet) (named : NamedOption) :
    Option OptionSet :=
  if named.path.isEmpty then some o
  else do
    let (path, field) ←
      p.followNames? f scope (p.holderOf target) named.path
    guard (field.repeated || !o.has path)
    let value ← named.value? field.kind
    return { o with settings := o.settings ++ [⟨path, value⟩] }

/-- Options with everything set that is written by name, if they conform. -/
def linkOptions? (p : Pool) (f : FileDecl) (scope : String)
    (target : OptionsTarget) :
    Option OptionSet → Option (Option OptionSet)
  | none => some none
  | some o =>
      if p.conformsTo target o.records then
        (o.named.foldlM (p.setNamed? f scope target) o).map some
      else none

end Pool

end Descriptor

end AccessChecks
