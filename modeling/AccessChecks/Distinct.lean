/-!
# Distinct items

A list has distinct items if none of them comes again behind itself.  The test takes
one look at the rest of the list for each item.
-/

namespace AccessChecks

def isDistinct {α : Type} [BEq α] : List α → Bool
  | [] => true
  | a :: rest => !rest.contains a && isDistinct rest

theorem isDistinct_iff_nodup {α : Type} [BEq α] [LawfulBEq α] (items : List α) :
    isDistinct items = true ↔ items.Nodup := by
  induction items with
  | nil => simp [isDistinct]
  | cons a rest ih => simp [isDistinct, ih]

end AccessChecks
