import AccessChecks.Wire.RoundTrip

/-!
# Spellings of records

## Numbers

A number may be spelled with more bytes than it needs, up to ten.  Each byte but the
last one has the high bit set, and the last of ten bytes holds one bit only.

## Records

The records of a message stand one after the other, each spelled in any way.  The
records of a group stand between its marks.

## Reading

A reader takes every spelling of records in which groups are not nested too deep.  What
a writer writes is one of them.
-/

namespace AccessChecks

namespace Wire

/-!
## Numbers
-/

/-- The bytes stand for the number, where `room` more bytes than the first one may
follow. -/
inductive SpellsNumber : (room n : Nat) → List UInt8 → Prop where
  | last {room : Nat} (b : UInt8) :
      b.toNat < 128 → (room = 0 → b.toNat ≤ 1) → SpellsNumber room b.toNat [b]
  | more {room n : Nat} {bytes : List UInt8} (b : UInt8) :
      128 ≤ b.toNat → SpellsNumber room n bytes →
      SpellsNumber (room + 1) (b.toNat - 128 + 128 * n) (b :: bytes)

theorem toNat_ofNat_of_lt {n : Nat} (h : n < 256) : (UInt8.ofNat n).toNat = n := by
  rw [UInt8.toNat_ofNat']
  exact Nat.mod_eq_of_lt h

theorem spells_writeNumber {room n : Nat} (h : n < Nat.pow 2 (7 * room + 1)) :
    SpellsNumber room n (writeNumber n) := by
  induction room generalizing n with
  | zero =>
      have hn : n < 2 := h
      have hbyte := toNat_ofNat_of_lt (show n < 256 by omega)
      rw [writeNumber, if_pos (by omega)]
      have hlast := SpellsNumber.last (UInt8.ofNat n) (by omega) fun _ : 0 = 0 => by omega
      rwa [hbyte] at hlast
  | succ room ih =>
      rw [writeNumber]
      by_cases hsmall : n < 128
      · have hbyte := toNat_ofNat_of_lt (show n < 256 by omega)
        rw [if_pos hsmall]
        have hlast := SpellsNumber.last (UInt8.ofNat n) (by omega)
          fun hroom : room + 1 = 0 => by omega
        rwa [hbyte] at hlast
      · have hbyte := toNat_ofNat_of_lt (show n % 128 + 128 < 256 by omega)
        have hquotient : n / 128 < Nat.pow 2 (7 * room + 1) := by
          apply Nat.div_lt_of_lt_mul
          calc
            n < Nat.pow 2 (7 * (room + 1) + 1) := h
            _ = Nat.pow 2 (7 + (7 * room + 1)) := by
              rw [show 7 * (room + 1) + 1 = 7 + (7 * room + 1) by omega]
            _ = 128 * Nat.pow 2 (7 * room + 1) := Nat.pow_add 2 7 (7 * room + 1)
        rw [if_neg hsmall]
        have hmore := SpellsNumber.more (UInt8.ofNat (n % 128 + 128)) (by omega)
          (ih hquotient)
        rw [hbyte] at hmore
        have hvalue : n % 128 + 128 - 128 + 128 * (n / 128) = n := by omega
        rwa [hvalue] at hmore

def SpellsKey (field : Nat) (m : Mark) (bytes : List UInt8) : Prop :=
  isField field = true ∧ SpellsNumber 9 (8 * field + m.code) bytes

/-- The bytes behind a key stand for a value of the field that the mark announces. -/
inductive SpellsValue (field : Nat) : Mark → Record → List UInt8 → Prop where
  | number {value : Nat} {bytes : List UInt8} :
      SpellsNumber 9 value bytes → SpellsValue field .number (.number field value) bytes
  | word64 {bytes : List UInt8} :
      bytes.length = 8 → SpellsValue field .word64 (.word64 field bytes) bytes
  | word32 {bytes : List UInt8} :
      bytes.length = 4 → SpellsValue field .word32 (.word32 field bytes) bytes
  | block {length bytes : List UInt8} :
      SpellsNumber 9 bytes.length length →
      SpellsValue field .block (.block field bytes) (length ++ bytes)

/-- The bytes stand for the records, where groups may be nested so much. -/
inductive SpellsAll : (room : Nat) → List Record → List UInt8 → Prop where
  | nil (room : Nat) : SpellsAll room [] []
  | value {room field : Nat} {m : Mark} {r : Record} {records : List Record}
      {key bytes more : List UInt8} :
      SpellsKey field m key → SpellsValue field m r bytes →
      SpellsAll (room + 1) records more →
      SpellsAll (room + 1) (r :: records) (key ++ (bytes ++ more))
  | group {room field : Nat} {inside records : List Record}
      {start body finish more : List UInt8} :
      SpellsKey field .opening start → SpellsAll room inside body →
      SpellsKey field .closing finish → SpellsAll (room + 1) records more →
      SpellsAll (room + 1) (.group field inside :: records)
        (start ++ (body ++ (finish ++ more)))

/-!
## Reading
-/

theorem spells_writeKey {field : Nat} (m : Mark) (h : isField field = true) :
    SpellsKey field m (writeKey field m) := by
  have hcode := m.code_lt
  have hfield := h
  simp only [isField, Nat.pow_eq, Bool.and_eq_true, decide_eq_true_eq] at hfield
  constructor
  · exact h
  · apply spells_writeNumber
    simp only [Nat.pow_eq]
    omega

mutual

theorem spells_write {room : Nat} {r : Record} {records : List Record}
    {more : List UInt8} (h : r.fits room = true) (hmore : SpellsAll room records more) :
    SpellsAll room (r :: records) (r.write ++ more) := by
  cases room with
  | zero => cases r <;> simp [Record.fits] at h
  | succ room =>
      match r, h with
      | .number field value, h =>
          simp only [Record.fits, Bool.and_eq_true, decide_eq_true_eq] at h
          rw [Record.write, List.append_assoc]
          exact SpellsAll.value (spells_writeKey _ h.1.2)
            (SpellsValue.number (spells_writeNumber h.2)) hmore
      | .word64 field bytes, h =>
          simp only [Record.fits, Bool.and_eq_true, beq_iff_eq] at h
          rw [Record.write, List.append_assoc]
          exact SpellsAll.value (spells_writeKey _ h.1.2) (SpellsValue.word64 h.2) hmore
      | .word32 field bytes, h =>
          simp only [Record.fits, Bool.and_eq_true, beq_iff_eq] at h
          rw [Record.write, List.append_assoc]
          exact SpellsAll.value (spells_writeKey _ h.1.2) (SpellsValue.word32 h.2) hmore
      | .block field bytes, h =>
          simp only [Record.fits, Bool.and_eq_true, decide_eq_true_eq] at h
          rw [Record.write, List.append_assoc]
          exact SpellsAll.value (spells_writeKey _ h.1.2)
            (SpellsValue.block (spells_writeNumber h.2)) hmore
      | .group field inside, h =>
          simp only [Record.fits, Bool.and_eq_true, Nat.add_sub_cancel] at h
          rw [Record.write, List.append_assoc, List.append_assoc]
          exact SpellsAll.group (spells_writeKey _ h.1.2) (spells_writeAll h.2)
            (spells_writeKey _ h.1.2) hmore

theorem spells_writeAll {room : Nat} {records : List Record}
    (h : fitsAll room records = true) : SpellsAll room records (writeAll records) := by
  match records, h with
  | [], _ => exact SpellsAll.nil room
  | r :: rest, h =>
      simp only [fitsAll, Bool.and_eq_true] at h
      exact spells_write h.1 (spells_writeAll h.2)

end

end Wire

end AccessChecks
