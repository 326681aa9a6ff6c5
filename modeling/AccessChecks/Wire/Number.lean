/-!
# Numbers on the wire

A number below `2 ^ 64` is written in base 128 with the lowest digit first.  The
high bit of a byte says that another one follows.  A reader takes any spelling of
at most ten bytes whose value is in range, so trailing zero digits do no harm.
-/

namespace AccessChecks

namespace Wire

def writeNumber (n : Nat) : List UInt8 :=
  if n < 128 then [UInt8.ofNat n]
  else UInt8.ofNat (n % 128 + 128) :: writeNumber (n / 128)
termination_by n
decreasing_by omega

/-- Takes a number with room for so many bytes.  The last of ten bytes holds one
bit only. -/
def takeDigits : (room : Nat) → List UInt8 → Option (Nat × List UInt8)
  | 0, _ => none
  | _ + 1, [] => none
  | room + 1, b :: rest =>
      if b.toNat < 128 then
        if room = 0 ∧ 1 < b.toNat then none else some (b.toNat, rest)
      else
        (takeDigits room rest).map fun taken =>
          (b.toNat - 128 + 128 * taken.1, taken.2)

def takeNumber (bytes : List UInt8) : Option (Nat × List UInt8) :=
  takeDigits 10 bytes

theorem length_lt_of_takeDigits {room n : Nat} {bytes rest : List UInt8}
    (h : takeDigits room bytes = some (n, rest)) :
    rest.length < bytes.length := by
  induction room generalizing n bytes with
  | zero => simp [takeDigits] at h
  | succ room ih =>
      cases bytes with
      | nil => simp [takeDigits] at h
      | cons b tail =>
          unfold takeDigits at h
          split at h
          · split at h
            · cases h
            · cases h
              simp
          · rw [Option.map_eq_some_iff] at h
            obtain ⟨taken, htaken, heq⟩ := h
            cases heq
            have := ih htaken
            simp only [List.length_cons]
            omega

theorem length_lt_of_takeNumber {n : Nat} {bytes rest : List UInt8}
    (h : takeNumber bytes = some (n, rest)) : rest.length < bytes.length :=
  length_lt_of_takeDigits h

theorem takeDigits_writeNumber {room n : Nat} (rest : List UInt8)
    (h : n < Nat.pow 2 (7 * room + 1)) :
    takeDigits (room + 1) (writeNumber n ++ rest) = some (n, rest) := by
  induction room generalizing n with
  | zero =>
      have hn : n < 2 := h
      have hbyte : (UInt8.ofNat n).toNat = n := by
        simp only [UInt8.toNat_ofNat']
        omega
      rw [writeNumber, if_pos (by omega)]
      unfold takeDigits
      simp only [List.cons_append, List.nil_append, hbyte]
      rw [if_pos (by omega), if_neg (by omega)]
  | succ room ih =>
      rw [writeNumber]
      split
      · rename_i hsmall
        have hbyte : (UInt8.ofNat n).toNat = n := by
          simp only [UInt8.toNat_ofNat']
          omega
        unfold takeDigits
        simp only [List.cons_append, List.nil_append, hbyte]
        rw [if_pos hsmall, if_neg (by omega)]
      · have hbyte : (UInt8.ofNat (n % 128 + 128)).toNat = n % 128 + 128 := by
          simp only [UInt8.toNat_ofNat']
          omega
        have hquotient : n / 128 < Nat.pow 2 (7 * room + 1) := by
          have hpow : Nat.pow 2 (7 * (room + 1) + 1) =
              128 * Nat.pow 2 (7 * room + 1) := by
            rw [show 7 * (room + 1) + 1 = 7 + (7 * room + 1) by omega]
            exact Nat.pow_add 2 7 (7 * room + 1)
          rw [hpow] at h
          exact Nat.div_lt_of_lt_mul h
        unfold takeDigits
        simp only [List.cons_append, hbyte]
        rw [if_neg (by omega), ih hquotient]
        simp only [Option.map_some, Option.some.injEq, Prod.mk.injEq, and_true]
        omega

theorem takeNumber_writeNumber {n : Nat} (rest : List UInt8)
    (h : n < Nat.pow 2 64) :
    takeNumber (writeNumber n ++ rest) = some (n, rest) :=
  takeDigits_writeNumber rest h

end Wire

end AccessChecks
