import AccessChecks.Emission.Value

/-!
# Walking a path

Walking opens one loop for each collection on a path and emits the code for the
value at its end inside the innermost loop.  If that value is not needed, the
innermost loop only counts and issues no variable.
-/

namespace AccessChecks

namespace Emission

/-- Emits `leaf` for every value at the end of the segments.  Inside a loop that
only counts there is no value. -/
def walk (needsLeaf : Bool) (leaf : Option Value → Emission (List Stmt)) :
    List Segment → Value → Emission (List Stmt)
  | [], value => leaf (some value)
  | s :: rest, value => do
      if !s.crossesCollection then
        walk needsLeaf leaf rest (← value.step s)
      else
        let elements ← value.fanOut s
        if needsLeaf || rest.any Segment.crossesCollection then
          let x ← nextLoop
          let body ← walk needsLeaf leaf rest (.ref (.name x))
          return [.loop (some x) elements body]
        else
          let body ← leaf none
          return [.loop none elements body]

end Emission

end AccessChecks
