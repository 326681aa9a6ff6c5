import AccessChecks.Wire.Number

/-!
# Records on the wire

## Records

A message is a sequence of records.  A record has a field number and one of five
forms.  Numbers have the length they need, words have four or eight bytes, a block
comes after its length, and a group stands between two marks of one field number.

## Reading

A reader keeps the groups that are open, the innermost first.  Every step takes at
least a key, so reading ends.  Groups may be nested up to a limit.
-/

namespace AccessChecks

namespace Wire

inductive Record where
  | number (field value : Nat)
  | word64 (field : Nat) (bytes : List UInt8)
  | block (field : Nat) (bytes : List UInt8)
  | group (field : Nat) (records : List Record)
  | word32 (field : Nat) (bytes : List UInt8)
deriving Repr, Inhabited

namespace Record

def field : Record → Nat
  | number field _ | word64 field _ | block field _ | group field _
  | word32 field _ => field

end Record

/-!
## Writing
-/

inductive Mark where
  | number
  | word64
  | block
  | opening
  | closing
  | word32
deriving DecidableEq, Repr, Inhabited

namespace Mark

def code : Mark → Nat
  | number => 0
  | word64 => 1
  | block => 2
  | opening => 3
  | closing => 4
  | word32 => 5

def ofCode? : Nat → Option Mark
  | 0 => some number
  | 1 => some word64
  | 2 => some block
  | 3 => some opening
  | 4 => some closing
  | 5 => some word32
  | _ => none

theorem ofCode?_code (m : Mark) : ofCode? m.code = some m := by
  cases m <;> rfl

theorem code_lt (m : Mark) : m.code < 8 := by
  cases m <;> decide

end Mark

def writeKey (field : Nat) (m : Mark) : List UInt8 :=
  writeNumber (8 * field + m.code)

mutual

def Record.write : Record → List UInt8
  | .number field value => writeKey field .number ++ writeNumber value
  | .word64 field bytes => writeKey field .word64 ++ bytes
  | .block field bytes =>
      writeKey field .block ++ (writeNumber bytes.length ++ bytes)
  | .group field records =>
      writeKey field .opening ++ (writeAll records ++ writeKey field .closing)
  | .word32 field bytes => writeKey field .word32 ++ bytes

def writeAll : List Record → List UInt8
  | [] => []
  | r :: rest => r.write ++ writeAll rest

end

/-!
## Reading
-/

/-- Takes a key off the front: a field number above zero and a mark, together in
32 bits. -/
def takeKey (bytes : List UInt8) : Option (Nat × Mark × List UInt8) :=
  match takeNumber bytes with
  | none => none
  | some (key, rest) =>
      if key < 8 ∨ Nat.pow 2 32 ≤ key then none
      else
        match Mark.ofCode? (key % 8) with
        | none => none
        | some m => some (key / 8, m, rest)

theorem length_lt_of_takeKey {field : Nat} {m : Mark} {bytes rest : List UInt8}
    (h : takeKey bytes = some (field, m, rest)) : rest.length < bytes.length := by
  unfold takeKey at h
  split at h
  · cases h
  · rename_i hkey
    split at h
    · cases h
    · split at h
      · cases h
      · cases h
        exact length_lt_of_takeNumber hkey

theorem takeKey_writeKey {field : Nat} (m : Mark) (rest : List UInt8)
    (hpos : 0 < field) (hlt : field < Nat.pow 2 29) :
    takeKey (writeKey field m ++ rest) = some (field, m, rest) := by
  have hcode := m.code_lt
  simp only [Nat.pow_eq] at hlt
  unfold takeKey writeKey
  rw [takeNumber_writeNumber rest (by simp only [Nat.pow_eq]; omega)]
  simp only
  rw [if_neg (by simp only [Nat.pow_eq]; omega), show (8 * field + m.code) % 8 = m.code by omega,
    Mark.ofCode?_code, show (8 * field + m.code) / 8 = field by omega]

def takeBytes (count : Nat) (bytes : List UInt8) :
    Option (List UInt8 × List UInt8) :=
  if count ≤ bytes.length then some (bytes.take count, bytes.drop count)
  else none

def takeValue (field : Nat) (m : Mark) (bytes : List UInt8) :
    Option (Record × List UInt8) :=
  match m with
  | .number =>
      (takeNumber bytes).map fun taken => (.number field taken.1, taken.2)
  | .word64 =>
      (takeBytes 8 bytes).map fun taken => (.word64 field taken.1, taken.2)
  | .word32 =>
      (takeBytes 4 bytes).map fun taken => (.word32 field taken.1, taken.2)
  | .block =>
      (takeNumber bytes).bind fun length =>
        (takeBytes length.1 length.2).map fun taken =>
          (.block field taken.1, taken.2)
  | .opening | .closing => none

theorem length_le_of_takeBytes {count : Nat} {taken bytes rest : List UInt8}
    (h : takeBytes count bytes = some (taken, rest)) :
    rest.length ≤ bytes.length := by
  unfold takeBytes at h
  split at h
  · cases h
    simp
  · cases h

theorem length_le_of_takeValue {field : Nat} {m : Mark} {r : Record}
    {bytes rest : List UInt8} (h : takeValue field m bytes = some (r, rest)) :
    rest.length ≤ bytes.length := by
  unfold takeValue at h
  cases m with
  | number =>
      obtain ⟨taken, htaken, heq⟩ := Option.map_eq_some_iff.mp h
      cases heq
      exact Nat.le_of_lt (length_lt_of_takeNumber htaken)
  | word64 =>
      obtain ⟨taken, htaken, heq⟩ := Option.map_eq_some_iff.mp h
      cases heq
      exact length_le_of_takeBytes htaken
  | word32 =>
      obtain ⟨taken, htaken, heq⟩ := Option.map_eq_some_iff.mp h
      cases heq
      exact length_le_of_takeBytes htaken
  | block =>
      obtain ⟨length, hlength, hblock⟩ := Option.bind_eq_some_iff.mp h
      obtain ⟨taken, htaken, heq⟩ := Option.map_eq_some_iff.mp hblock
      cases heq
      have hfirst := length_lt_of_takeNumber hlength
      have hsecond := length_le_of_takeBytes htaken
      exact Nat.le_trans hsecond (Nat.le_of_lt hfirst)
  | opening => cases h
  | closing => cases h

structure OpenGroup where
  field : Nat
  before : List Record
deriving Repr, Inhabited

/-- Reads records up to the end of the bytes.  The records read so far in the
innermost open group are kept in the reverse of their order. -/
def readAll (limit : Nat) (opened : List OpenGroup) (done : List Record)
    (bytes : List UInt8) : Option (List Record) :=
  if bytes.isEmpty then
    if opened.isEmpty then some done.reverse else none
  else
    match _hkey : takeKey bytes with
    | none => none
    | some (field, .closing, rest) =>
        match opened with
        | [] => none
        | outer :: outers =>
            if outer.field = field then
              readAll limit outers (.group field done.reverse :: outer.before) rest
            else none
    | some (field, m, rest) =>
        if opened.length < limit then
          if m = .opening then readAll limit (⟨field, done⟩ :: opened) [] rest
          else
            match _hvalue : takeValue field m rest with
            | none => none
            | some (r, behind) => readAll limit opened (r :: done) behind
        else none
termination_by bytes.length
decreasing_by
  · exact length_lt_of_takeKey _hkey
  · exact length_lt_of_takeKey _hkey
  · exact Nat.lt_of_le_of_lt (length_le_of_takeValue _hvalue)
      (length_lt_of_takeKey _hkey)

def read? (limit : Nat) (bytes : List UInt8) : Option (List Record) :=
  readAll limit [] [] bytes

end Wire

end AccessChecks
