import AccessChecks.Wire.Record

/-!
# Shapes of messages

## Values of a field

A field may occur any number of times.  Of a singular field the last occurrence
counts; a repeated field has all of them, in order.

## Shapes

A kind of message knows some fields, each with its form.  Records of known fields
have to be in form; unknown ones are passed over, whatever they hold.  Messages
inside of messages conform as well, and they may be nested up to a limit.
-/

namespace AccessChecks

namespace Wire

def bytesOfText (s : String) : List UInt8 :=
  s.toByteArray.data.toList

def text? (bytes : List UInt8) : Option String :=
  String.fromUTF8? ⟨bytes.toArray⟩

def takeNumbers (bytes : List UInt8) : Option (List Nat) :=
  if bytes.isEmpty then some []
  else
    match _h : takeNumber bytes with
    | none => none
    | some (n, rest) => (takeNumbers rest).map fun more => n :: more
termination_by bytes.length
decreasing_by exact length_lt_of_takeNumber _h

def signed (n : Nat) : Int :=
  (Int.ofNat n).bmod (Nat.pow 2 32)

def signedLong (n : Nat) : Int :=
  (Int.ofNat n).bmod (Nat.pow 2 64)

/-!
## Values of a field
-/

namespace Record

def number? (wanted : Nat) : Record → Option Nat
  | .number field value => if field = wanted then some value else none
  | _ => none

def block? (wanted : Nat) : Record → Option (List UInt8)
  | .block field bytes => if field = wanted then some bytes else none
  | _ => none

def group? (wanted : Nat) : Record → Option (List Record)
  | .group field records => if field = wanted then some records else none
  | _ => none

end Record

def numbers (field : Nat) (records : List Record) : List Nat :=
  records.filterMap (Record.number? field)

def blocks (field : Nat) (records : List Record) : List (List UInt8) :=
  records.filterMap (Record.block? field)

def texts (field : Nat) (records : List Record) : List String :=
  (blocks field records).filterMap text?

def lastNumber? (field : Nat) (records : List Record) : Option Nat :=
  (numbers field records).getLast?

def lastBlock? (field : Nat) (records : List Record) : Option (List UInt8) :=
  (blocks field records).getLast?

def lastText? (field : Nat) (records : List Record) : Option String :=
  (texts field records).getLast?

def lastFlag (field : Nat) (records : List Record) : Bool :=
  (lastNumber? field records).getD 0 != 0

def packedNumbers (field : Nat) (records : List Record) : List Nat :=
  records.flatMap fun r =>
    (r.number? field).toList ++
      ((r.block? field).bind takeNumbers).getD []

def recordsOf (bytes : List UInt8) : List Record :=
  (read? bytes.length bytes).getD []

def messages (field : Nat) (records : List Record) : List (List Record) :=
  records.filterMap fun r =>
    ((r.block? field).map recordsOf).or (r.group? field)

/-- The message of a singular field.  Its occurrences are put together. -/
def merged (field : Nat) (records : List Record) : List Record :=
  (messages field records).flatten

def occurs : (path : List Nat) → List Record → Bool
  | [], _ => true
  | number :: rest, records =>
      (records.any fun r => r.field == number) &&
        occurs rest (merged number records)

/-!
## Shapes
-/

/-- What the records of a field look like.  Messages are of some kind `κ`. -/
inductive Form (κ : Type) where
  | number
  | word64
  | word32
  | numbers
  | words64
  | words32
  | text
  | bytes
  | message (kind : κ)
  | group (kind : κ)
deriving DecidableEq, Repr, Inhabited

namespace Form

def packed {κ : Type} : Form κ → Form κ
  | number => numbers
  | word64 => words64
  | word32 => words32
  | form => form

/-- The record is in form.  `below` tells whether the records of a message inside
of the record conform. -/
def admits {κ : Type} (below : κ → List Record → Bool)
    (read : List UInt8 → Option (List Record)) : Form κ → Record → Bool
  | number, .number _ _ => true
  | word64, .word64 _ _ => true
  | word32, .word32 _ _ => true
  | numbers, .number _ _ => true
  | numbers, .block _ inside => (takeNumbers inside).isSome
  | words64, .word64 _ _ => true
  | words64, .block _ inside => inside.length % 8 == 0
  | words32, .word32 _ _ => true
  | words32, .block _ inside => inside.length % 4 == 0
  | text, .block _ inside => (text? inside).isSome
  | bytes, .block _ _ => true
  | message kind, .block _ inside =>
      match read inside with
      | some records => below kind records
      | none => false
  | group kind, .group _ records => below kind records
  | _, _ => false

end Form

structure Shape (κ : Type) where
  fields : List (Nat × Form κ)
  needsRoom : Bool := false
deriving Repr, Inhabited

namespace Shape

def form? {κ : Type} (s : Shape κ) (field : Nat) : Option (Form κ) :=
  s.fields.lookup field

end Shape

/-- Reads the records of a message in which messages and groups may be nested up to
a limit.  A message may hold numbers and words even if the limit is used up. -/
def readWithin? (limit : Nat) (bytes : List UInt8) : Option (List Record) :=
  read? (max limit 1) bytes

/-- Each record of a message of a kind is in form.  A message inside of it needs
room, and so does a record of an unknown field. -/
def conforms {κ : Type} (shapeOf : κ → Shape κ) :
    (limit : Nat) → κ → List Record → Bool
  | 0, kind, records =>
      let shape := shapeOf kind
      records.all fun r =>
        match shape.form? r.field with
        | none => false
        | some form =>
            !shape.needsRoom && form.admits (fun _ _ => false) (fun _ => none) r
  | limit + 1, kind, records =>
      let shape := shapeOf kind
      records.all fun r =>
        match shape.form? r.field with
        | none => true
        | some form =>
            form.admits (conforms shapeOf limit) (readWithin? limit) r

def readAs? {κ : Type} (shapeOf : κ → Shape κ) (limit : Nat) (kind : κ)
    (bytes : List UInt8) : Option (List Record) :=
  (readWithin? limit bytes).filter (conforms shapeOf limit kind)

end Wire

end AccessChecks
