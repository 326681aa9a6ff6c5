/-!
# Words of a name

## Splitting

A name is cut into words at separators, which are dropped, and between adjacent
characters of different kinds, which both stay.  Two adjacent separators enclose
an empty word.  Letters and digits are those of ASCII.

## Joining

Snake case joins lower-case words with underscores; Pascal case joins
capitalised words with nothing.
-/

namespace AccessChecks

namespace Words

def isSeparator (c : Char) : Bool :=
  c == '_' || c == '-' || c == ' '

/-- A word ends between two adjacent characters: where lower case, upper case
and digits meet, except from upper to lower case, and before the last capital of
a run of capitals that a lower-case letter follows. -/
def cutsBetween (a b : Char) (next : Option Char) : Bool :=
  a.isLower && (b.isUpper || b.isDigit) ||
  a.isDigit && (b.isLower || b.isUpper) ||
  a.isUpper && b.isDigit ||
  a.isUpper && b.isUpper && next.any Char.isLower

def cutsBefore (a : Char) : List Char → Bool
  | [] => false
  | b :: more => cutsBetween a b more.head?

def extend (a : Char) : List (List Char) → List (List Char)
  | [] => [[a]]
  | word :: words => (a :: word) :: words

def split : List Char → List (List Char)
  | [] => [[]]
  | a :: rest =>
      if isSeparator a then [] :: split rest
      else if cutsBefore a rest then [a] :: split rest
      else extend a (split rest)

def lower (word : List Char) : List Char :=
  word.map Char.toLower

def capitalize : List Char → List Char
  | [] => []
  | c :: rest => c.toUpper :: lower rest

def snake (name : String) : String :=
  String.ofList (['_'].intercalate ((split name.toList).map lower))

def pascal (name : String) : String :=
  String.ofList ((split name.toList).flatMap capitalize)

theorem extend_ne_nil (a : Char) (words : List (List Char)) :
    extend a words ≠ [] := by
  cases words <;> simp [extend]

theorem split_ne_nil (name : List Char) : split name ≠ [] := by
  cases name with
  | nil => simp [split]
  | cons a rest =>
      unfold split
      split
      · simp
      · split
        · simp
        · exact extend_ne_nil a _

end Words

end AccessChecks
