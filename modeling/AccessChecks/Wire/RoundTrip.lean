import AccessChecks.Wire.Record

/-!
# Reading what was written

## Steps of the reader

A key decides which of three steps the reader takes: it opens a group, closes the
innermost one, or takes a value.

## Round trip

Records that fit are read back from their own bytes, whatever follows them.  A
record fits if its numbers are in range and its groups are not nested too deep.
-/

namespace AccessChecks

namespace Wire

theorem isEmpty_of_takeKey {bytes : List UInt8} {taken : Nat × Mark × List UInt8}
    (h : takeKey bytes = some taken) : bytes.isEmpty = false := by
  obtain ⟨field, m, rest⟩ := taken
  have hlt := length_lt_of_takeKey h
  cases bytes with
  | nil => simp at hlt
  | cons b tail => rfl

theorem readAll_opening {limit field : Nat} {opened : List OpenGroup}
    {done : List Record} {bytes rest : List UInt8}
    (hkey : takeKey bytes = some (field, .opening, rest))
    (hroom : opened.length < limit) :
    readAll limit opened done bytes =
      readAll limit (⟨field, done⟩ :: opened) [] rest := by
  rw [readAll, isEmpty_of_takeKey hkey]
  split
  · contradiction
  · split
    · simp_all
    · simp_all
    · rename_i heq
      rw [hkey] at heq
      cases heq
      rw [if_pos rfl]

theorem readAll_closing {limit field : Nat} {outers : List OpenGroup}
    {before done : List Record} {bytes rest : List UInt8}
    (hkey : takeKey bytes = some (field, .closing, rest)) :
    readAll limit (⟨field, before⟩ :: outers) done bytes =
      readAll limit outers (.group field done.reverse :: before) rest := by
  rw [readAll, isEmpty_of_takeKey hkey]
  split
  · contradiction
  · split
    · simp_all
    · rename_i heq
      rw [hkey] at heq
      cases heq
      exact if_pos rfl
    · rename_i heq
      rw [hkey] at heq
      cases heq
      simp_all

theorem readAll_value {limit field : Nat} {m : Mark} {opened : List OpenGroup}
    {done : List Record} {r : Record} {bytes rest behind : List UInt8}
    (hkey : takeKey bytes = some (field, m, rest))
    (hvalue : takeValue field m rest = some (r, behind))
    (hroom : opened.length < limit) :
    readAll limit opened done bytes = readAll limit opened (r :: done) behind := by
  rw [readAll, isEmpty_of_takeKey hkey]
  split
  · contradiction
  · split
    · simp_all
    · rename_i heq
      rw [hkey] at heq
      cases heq
      simp [takeValue] at hvalue
    · rename_i heq
      rw [hkey] at heq
      cases heq
      rw [if_neg (by rintro rfl; simp [takeValue] at hvalue)]
      split
      · simp_all
      · simp_all

/-!
## Round trip
-/

def isField (n : Nat) : Bool :=
  0 < n && n < Nat.pow 2 29

mutual

/-- The record can be written, and read where groups may be nested so much. -/
def Record.fits (room : Nat) : Record → Bool
  | .number field value => 0 < room && isField field && value < Nat.pow 2 64
  | .word64 field bytes => 0 < room && isField field && bytes.length == 8
  | .block field bytes =>
      0 < room && isField field && bytes.length < Nat.pow 2 64
  | .group field records =>
      0 < room && isField field && fitsAll (room - 1) records
  | .word32 field bytes => 0 < room && isField field && bytes.length == 4

def fitsAll (room : Nat) : List Record → Bool
  | [] => true
  | r :: rest => r.fits room && fitsAll room rest

end

theorem takeKey_of_isField {field : Nat} (m : Mark) (rest : List UInt8)
    (h : isField field = true) :
    takeKey (writeKey field m ++ rest) = some (field, m, rest) := by
  simp only [isField, Bool.and_eq_true, decide_eq_true_eq] at h
  exact takeKey_writeKey m rest h.1 h.2

theorem takeBytes_append {count : Nat} {bytes : List UInt8}
    (rest : List UInt8) (h : bytes.length = count) :
    takeBytes count (bytes ++ rest) = some (bytes, rest) := by
  subst h
  simp [takeBytes]

mutual

theorem readAll_write {limit : Nat} {opened : List OpenGroup} (r : Record)
    (done : List Record) (rest : List UInt8)
    (h : r.fits (limit - opened.length) = true) :
    readAll limit opened done (r.write ++ rest) =
      readAll limit opened (r :: done) rest := by
  match r, h with
  | .number field value, h =>
      simp only [Record.fits, Bool.and_eq_true, decide_eq_true_eq] at h
      simp only [Record.write, List.append_assoc]
      exact readAll_value (takeKey_of_isField _ _ h.1.2)
        (by simp [takeValue, takeNumber_writeNumber rest h.2]) (by omega)
  | .word64 field bytes, h =>
      simp only [Record.fits, Bool.and_eq_true, decide_eq_true_eq,
        beq_iff_eq] at h
      simp only [Record.write, List.append_assoc]
      exact readAll_value (takeKey_of_isField _ _ h.1.2)
        (by simp [takeValue, takeBytes_append rest h.2]) (by omega)
  | .word32 field bytes, h =>
      simp only [Record.fits, Bool.and_eq_true, decide_eq_true_eq,
        beq_iff_eq] at h
      simp only [Record.write, List.append_assoc]
      exact readAll_value (takeKey_of_isField _ _ h.1.2)
        (by simp [takeValue, takeBytes_append rest h.2]) (by omega)
  | .block field bytes, h =>
      simp only [Record.fits, Bool.and_eq_true, decide_eq_true_eq] at h
      simp only [Record.write, List.append_assoc]
      exact readAll_value (takeKey_of_isField _ _ h.1.2)
        (by simp [takeValue, takeNumber_writeNumber _ h.2,
          takeBytes_append rest rfl]) (by omega)
  | .group field records, h =>
      simp only [Record.fits, Bool.and_eq_true, decide_eq_true_eq] at h
      simp only [Record.write, List.append_assoc]
      rw [readAll_opening (takeKey_of_isField _ _ h.1.2) (by omega),
        readAll_writeAll records [] _
          (by rw [List.length_cons, Nat.sub_add_eq]; exact h.2),
        readAll_closing (takeKey_of_isField _ _ h.1.2)]
      simp

theorem readAll_writeAll {limit : Nat} {opened : List OpenGroup}
    (records done : List Record) (rest : List UInt8)
    (h : fitsAll (limit - opened.length) records = true) :
    readAll limit opened done (writeAll records ++ rest) =
      readAll limit opened (records.reverse ++ done) rest := by
  match records, h with
  | [], _ => rfl
  | r :: more, h =>
      simp only [fitsAll, Bool.and_eq_true] at h
      simp only [writeAll, List.append_assoc]
      rw [readAll_write r done _ h.1, readAll_writeAll more (r :: done) rest h.2]
      simp

end

end Wire

end AccessChecks
