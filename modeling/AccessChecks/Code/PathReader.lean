import AccessChecks.Code.Item
import AccessChecks.Code.Name
import AccessChecks.Text.Gap
import AccessChecks.Text.Letters

/-!
# Reading a path

## Segments

A segment is an identifier, a raw identifier or one of the keywords that can start
a path.  Unlike the names of schema items it may have letters of any script.

## Paths

A path is a sequence of segments with a separator between neighbours and maybe one
in front.  There may be gaps around segments and separators, and a byte order mark
in front of everything.
-/

namespace AccessChecks

namespace PathReader

def pathKeywords : List String :=
  ["super", "self", "crate", "Self", "try"]

def neverRaw : List String :=
  ["_", "super", "self", "Self", "crate"]

/-- Keywords of later language editions only, which are plain identifiers in a
path. -/
def contextual : List String :=
  ["gen"]

def isStart (c : Char) : Bool :=
  Name.isStart c || isWideStart c

def isContinue (c : Char) : Bool :=
  Name.isContinue c || isWideContinue c

def isWord (text : String) : Bool :=
  match text.toList with
  | [] => false
  | c :: rest => isStart c && rest.all isContinue

def isPlainSegment (word : String) : Bool :=
  isWord word && !Name.isPlaceholder word &&
    (pathKeywords.contains word || contextual.contains word ||
      !(Name.keywords.contains word || Name.reserved.contains word))

def isRawSegment (word : String) : Bool :=
  isWord word && !neverRaw.contains word

def segment? (text : List Char) : Option (String × List Char) :=
  match text with
  | 'r' :: '#' :: rest =>
      let word := String.ofList (rest.takeWhile isContinue)
      if isRawSegment word then
        some ("r#" ++ word, rest.dropWhile isContinue)
      else none
  | text =>
      let word := String.ofList (text.takeWhile isContinue)
      if isPlainSegment word then
        some (word, text.dropWhile isContinue)
      else none

theorem length_segment_le {text rest : List Char} {name : String}
    (h : segment? text = some (name, rest)) : rest.length ≤ text.length := by
  unfold segment? at h
  split at h
  · dsimp only at h
    split at h
    · simp only [Option.some.injEq, Prod.mk.injEq] at h
      rw [← h.2]
      have := Gap.length_dropWhile_le isContinue
      simp only [List.length_cons]
      exact Nat.le_trans (this _) (by omega)
    · cases h
  · dsimp only at h
    split at h
    · simp only [Option.some.injEq, Prod.mk.injEq] at h
      rw [← h.2]
      exact Gap.length_dropWhile_le _ _
    · cases h

def segments? (text : List Char) : Option (List String) :=
  match _h : segment? (Gap.skip text) with
  | none => none
  | some (name, rest) =>
      match _hr : Gap.skip rest with
      | [] => some [name]
      | ':' :: ':' :: more => (segments? more).map (name :: ·)
      | _ => none
termination_by text.length
decreasing_by
  have read := length_segment_le _h
  have front := Gap.length_skip_le text
  have behind := Gap.length_skip_le rest
  rw [_hr] at behind
  simp only [List.length_cons] at behind
  omega

def withoutMark : List Char → List Char
  | '\ufeff' :: rest => rest
  | text => text

end PathReader

/-- Reads a path that takes up the whole text. -/
def CodePath.ofText? (text : String) : Option CodePath :=
  match Gap.skip (PathReader.withoutMark text.toList) with
  | ':' :: ':' :: rest =>
      (PathReader.segments? rest).map fun names => ⟨true, names⟩
  | rest => (PathReader.segments? rest).map fun names => ⟨false, names⟩

end AccessChecks
