import AccessChecks.Check.Basic

/-!
# Data

## Scalars

A scalar field holds a value of its own width.  Keys and attributes are built from
the text of a scalar and from its conversions to the widest type of its kind.

## Values

Requests are messages of fields: a singular field with presence is optional, a
list field holds a list, and a map field holds its entries in some order.  The
values that code computes with are of the same type.
-/

namespace AccessChecks

inductive ScalarData where
  | bool (b : Bool)
  | int32 (i : Int32)
  | int64 (i : Int64)
  | uint32 (n : UInt32)
  | uint64 (n : UInt64)
  /-- A number of 32 bits, given by its bits. -/
  | float (bits : UInt32)
  | double (x : Double)
  | string (s : String)
  | bytes (bs : List UInt8)
deriving DecidableEq, Repr, Inhabited

namespace ScalarData

def widenFloat (bits : UInt32) : Double :=
  let n := bits.toNat
  let negative := decide (n ≥ Nat.pow 2 31)
  let field := n / Nat.pow 2 23 % Nat.pow 2 8
  let fraction := n % Nat.pow 2 23
  if field = 255 then
    let payload := fraction * Nat.pow 2 29
    let sign := if negative then Nat.pow 2 63 else 0
    ⟨UInt64.ofNat (sign + 2047 * Nat.pow 2 52 + payload)⟩
  else if field = 0 then Double.ofQuotient negative fraction (Nat.pow 2 149)
  else
    Double.ofQuotient negative ((Nat.pow 2 23 + fraction) * Nat.pow 2 field)
      (Nat.pow 2 150)

def integer? : ScalarData → Option Int
  | int32 i => some i.toInt
  | int64 i => some i.toInt
  | uint32 n => some n.toNat
  | uint64 n => some n.toNat
  | bool _ | float _ | double _ | string _ | bytes _ => none

def text? : ScalarData → Option String
  | bool b => some (if b then "true" else "false")
  | int32 i => some (toString i.toInt)
  | int64 i => some (toString i.toInt)
  | uint32 n => some (toString n.toNat)
  | uint64 n => some (toString n.toNat)
  | string s => some s
  | float _ | double _ | bytes _ => none

end ScalarData

inductive Data where
  | scalar (s : ScalarData)
  | count (n : Nat)
  | absent
  | present (d : Data)
  | list (items : List Data)
  | map (entries : List (ScalarData × Data))
  | pair (a b : Data)
  | message (fields : List (String × Data))
  | value (v : AttributeValue)
  | attributes (entries : Attributes)
  | resource (r : CheckedResource)
  | check (c : Check)
  | kind (k : CheckKind)
  | mode (m : BulkMode)
  | config (c : CheckConfig)
deriving Repr, Inhabited

namespace Data

def string (s : String) : Data :=
  scalar (.string s)

def bool (b : Bool) : Data :=
  scalar (.bool b)

def asString? : Data → Option String
  | scalar (.string s) => some s
  | _ => none

def asBool? : Data → Option Bool
  | scalar (.bool b) => some b
  | _ => none

def asValue? : Data → Option AttributeValue
  | value v => some v
  | _ => none

def asCheck? : Data → Option Check
  | check c => some c
  | _ => none

def asEntry? : Data → Option (String × AttributeValue)
  | pair (scalar (.string name)) (value v) => some (name, v)
  | _ => none

def integer? : Data → Option Int
  | scalar s => s.integer?
  | count n => some n
  | _ => none

def field? (x : String) : Data → Option Data
  | message fields => fields.lookup x
  | _ => none

end Data

end AccessChecks
