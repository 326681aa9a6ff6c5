import AccessChecks.AccessPath

/-!
# Branches of a search

## Entering messages

A search walks from message to message along fields and keeps the full names of
the messages that it is inside of.  Entering a message that is on this branch, or
that is not registered, ends the branch.

## Termination

The room of a branch counts the registered messages that are not on it.  Entering
a message leaves less room, so every search ends on cyclic schemas too.
-/

namespace AccessChecks

namespace Schema

/-- The message behind a reference, unless the branch is already inside it. -/
def enter (s : Schema) (branch : List String) (target : MessageRef) :
    Option Message :=
  (s.message? target).filter fun m => !branch.contains m.fullName

def room (s : Schema) (branch : List String) : Nat :=
  s.messages.countP fun m => !branch.contains m.fullName

theorem enter_eq_some_iff {s : Schema} {branch : List String}
    {target : MessageRef} {m : Message} :
    s.enter branch target = some m ↔
      s.message? target = some m ∧ m.fullName ∉ branch := by
  simp [enter, Option.filter_eq_some_iff]

theorem room_lt {s : Schema} {branch : List String} {m : Message}
    (registered : m ∈ s.messages) (fresh : m.fullName ∉ branch) :
    s.room (m.fullName :: branch) < s.room branch := by
  have fewer : ∀ messages : List Message,
      messages.countP (fun n => !(m.fullName :: branch).contains n.fullName) ≤
        messages.countP (fun n => !branch.contains n.fullName) := by
    intro messages
    apply List.countP_mono_left
    intro n _ hn
    simp at hn ⊢
    exact hn.2
  obtain ⟨before, behind, split⟩ := List.append_of_mem registered
  have hb := fewer before
  have ha := fewer behind
  simp only [room, split, List.countP_append, List.countP_cons]
  simp only [List.contains_cons, BEq.rfl, Bool.true_or, Bool.not_true]
  simp only [List.contains_cons] at ha hb
  simp [fresh]
  simp at ha hb
  omega

theorem room_lt_of_enter {s : Schema} {branch : List String}
    {target : MessageRef} {m : Message}
    (h : s.enter branch target = some m) :
    s.room (m.fullName :: branch) < s.room branch := by
  obtain ⟨found, fresh⟩ := enter_eq_some_iff.mp h
  exact room_lt (mem_of_message? found) fresh

end Schema

namespace Field

/-- The message that a search for resources enters through a field.  Fields
declared `optional` are passed over. -/
def resourceTarget (f : Field) : Option MessageRef :=
  if f.optional then none else f.type.messageTarget

def keyTarget (f : Field) : Option MessageRef :=
  f.type.singleMessage

/-- The message that a search for attributes enters through a field.  A field
that is an attribute itself is not entered. -/
def attributeTarget (f : Field) : Option MessageRef :=
  if f.marks.attributeName.isSome then none else f.type.messageTarget

end Field

end AccessChecks
