import AccessChecks.Text.Split

/-!
# Gaps in code

## Comments

A comment runs up to the end of its line, or up to its closing mark; comments of the
second sort may be nested.  A third slash or a second star makes a comment part of
the code, as an exclamation mark does, unless more of them follow.

## Gaps

A gap between words of code consists of blanks and comments.  Skipping one leaves at
most as much text as before.
-/

namespace AccessChecks

namespace Gap

/-- Marks of the direction of writing count as blanks. -/
def isSpace (c : Char) : Bool :=
  isBlank c || c == '\u200e' || c == '\u200f'

/-!
## Comments
-/

/-- What follows comments that are open so many levels deep. -/
def close? : (depth : Nat) → List Char → Option (List Char)
  | 0, text => some text
  | depth + 1, '/' :: '*' :: rest => close? (depth + 2) rest
  | depth + 1, '*' :: '/' :: rest => close? depth rest
  | depth + 1, _ :: rest => close? (depth + 1) rest
  | _ + 1, [] => none

def comment? : List Char → Option (List Char)
  | '/' :: '/' :: '!' :: _ => none
  | '/' :: '/' :: '/' :: rest =>
      if rest.head? == some '/' then some (rest.dropWhile (· != '\n')) else none
  | '/' :: '/' :: rest => some (rest.dropWhile (· != '\n'))
  | '/' :: '*' :: '!' :: _ => none
  | '/' :: '*' :: '*' :: '/' :: rest => some rest
  | '/' :: '*' :: '*' :: rest =>
      if rest.head? == some '*' then close? 1 ('*' :: rest) else none
  | '/' :: '*' :: rest => close? 1 rest
  | _ => none

theorem length_le_of_close? {depth : Nat} {text rest : List Char}
    (h : close? depth text = some rest) : rest.length ≤ text.length := by
  fun_induction close? depth text with
  | case1 text => cases h; exact Nat.le_refl _
  | case2 depth more ih => exact Nat.le_trans (ih h) (by simp; omega)
  | case3 depth more ih => exact Nat.le_trans (ih h) (by simp; omega)
  | case4 depth c more _ _ ih => exact Nat.le_trans (ih h) (by simp)
  | case5 => cases h

theorem length_dropWhile_le (p : Char → Bool) (text : List Char) :
    (text.dropWhile p).length ≤ text.length :=
  (List.dropWhile_suffix p).length_le

theorem length_lt_of_comment? {text rest : List Char}
    (h : comment? text = some rest) : rest.length < text.length := by
  unfold comment? at h
  split at h
  · cases h
  · rename_i more
    split at h
    · cases h
      have := length_dropWhile_le (· != '\n') more
      simp only [List.length_cons]
      omega
    · cases h
  · rename_i more _ _
    cases h
    have := length_dropWhile_le (· != '\n') more
    simp only [List.length_cons]
    omega
  · cases h
  · cases h
    simp only [List.length_cons]
    omega
  · split at h
    · have := length_le_of_close? h
      simp only [List.length_cons] at this ⊢
      omega
    · cases h
  · have := length_le_of_close? h
    simp only [List.length_cons]
    omega
  · cases h

/-!
## Gaps
-/

def skip (text : List Char) : List Char :=
  match text with
  | [] => []
  | c :: rest =>
      if isSpace c then skip rest
      else
        match _h : comment? (c :: rest) with
        | some more => skip more
        | none => c :: rest
termination_by text.length
decreasing_by
  · simp
  · exact length_lt_of_comment? _h

theorem length_skip_le (text : List Char) : (skip text).length ≤ text.length := by
  fun_induction skip text with
  | case1 => exact Nat.le_refl _
  | case2 c rest _ ih => exact Nat.le_trans ih (by simp)
  | case3 c rest _ more h ih =>
      exact Nat.le_trans ih (Nat.le_of_lt (length_lt_of_comment? h))
  | case4 c rest _ _ => exact Nat.le_refl _

end Gap

end AccessChecks
