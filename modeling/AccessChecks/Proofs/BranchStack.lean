import AccessChecks.Proofs.AttributeChains
import AccessChecks.Proofs.FirstMatch

/-!
# Searches on a stack

## One branch

The calls of a search share one branch.  A call puts its message on top of it, makes the
calls below, and takes the message off again, also if it has stopped at a match.  A search
without an end has no result.

## Returning

A search returns if it comes to an end with the branch as it was.  Each of the three
searches does so from every branch, with the result of the search that hands the branch
down, since a call is made on messages off the branch only.
-/

namespace AccessChecks

open Schema

/-- A call of a search on a message, and the branch at that time. -/
structure SearchCall where
  message : Message
  branch : List String

def SearchCall.inside (c : SearchCall) : List String :=
  c.message.fullName :: c.branch

/-- The branch that all calls share, and the calls made so far. -/
structure SearchState where
  branch : List String
  calls : List SearchCall

abbrev Searching (α : Type) : Type :=
  StateT SearchState Option α

namespace Searching

/-!
## One branch
-/

def branch : Searching (List String) :=
  return (← get).branch

def call (m : Message) : Searching Unit :=
  modify fun state => { state with calls := state.calls ++ [⟨m, state.branch⟩] }

def push (m : Message) : Searching Unit :=
  modify fun state => { state with branch := m.fullName :: state.branch }

def pop : Searching Unit :=
  modify fun state => { state with branch := state.branch.tail }

end Searching

namespace Schema

open Searching

variable {α β : Type}

def searchFirst (s : Schema) (target : Field → Option MessageRef)
    (mark : Message → Option β) (build : AccessPath → Message → β → α)
    (path : AccessPath) (m : Message) : Searching (Option α) := do
  call m
  match mark m with
  | some b => return some (build path m b)
  | none =>
      push m
      let found ← m.fields.findSomeM? fun f => do
        match (target f).bind (s.enter (← branch)) with
        | none => return none
        | some next =>
            s |>.searchFirst target mark build (path.append (Segment.traverse f)) next
      pop
      return found
partial_fixpoint

def searchResource (s : Schema) :
    AccessPath → Message → Searching (Option ResourceSite) :=
  s.searchFirst Field.resourceTarget Message.resourceType fun path m label => ⟨m, label, path⟩

def searchKey (s : Schema) (key : Key) :
    AccessPath → Message → Searching (Option KeyField) :=
  s.searchFirst Field.keyTarget key.ownField Key.keyField

def searchAttributes (s : Schema) (path : AccessPath) (m : Message)
    (found : List AttributeField) : Searching (List AttributeField) := do
  call m
  push m
  let found ← m.fields.foldlM (fun found f => do
    match f.marks.attributeName with
    | some name => return found ++ [⟨m, f, name, path.append (Segment.read f)⟩]
    | none =>
        match f.type.messageTarget.bind (s.enter (← branch)) with
        | none => return found
        | some next => s |>.searchAttributes (path.append (Segment.traverse f)) next found)
    found
  pop
  return found
partial_fixpoint

end Schema

namespace Searching

/-!
## Returning
-/

/-- The search comes to an end from the branch, with a result.  It leaves the branch as it
was, and all calls made in it have a property. -/
def Returns {α : Type} (branch : List String) (search : Searching α) (result : α)
    (made : SearchCall → Prop) : Prop :=
  ∀ calls, ∃ more,
    search ⟨branch, calls⟩ = some (result, ⟨branch, calls ++ more⟩) ∧ ∀ c ∈ more, made c

variable {α β : Type} {names : List String} {made : SearchCall → Prop}

theorem returns_pure (a : α) : Returns names (pure a) a made := by
  intro calls
  exact ⟨[], by rw [List.append_nil]; rfl, fun c hc => absurd hc List.not_mem_nil⟩

theorem Returns.bind {search : Searching α} {next : α → Searching β} {a : α} {b : β}
    (h : Returns names search a made) (hnext : Returns names (next a) b made) :
    Returns names (search >>= next) b made := by
  intro calls
  rcases h calls with ⟨more, hsearch, hmore⟩
  rcases hnext (calls ++ more) with ⟨others, hothers, hmade⟩
  refine ⟨more ++ others, ?_, ?_⟩
  · change (search ⟨names, calls⟩).bind _ = _
    rw [hsearch, ← List.append_assoc]
    exact hothers
  · intro c hc
    rcases List.mem_append.mp hc with hc | hc
    · exact hmore c hc
    · exact hmade c hc

theorem returns_branch : Returns names branch names made := by
  intro calls
  exact ⟨[], by rw [List.append_nil]; rfl, fun c hc => absurd hc List.not_mem_nil⟩

theorem returns_call {m : Message} (h : made ⟨m, names⟩) :
    Returns names (call m) () made := by
  intro calls
  exact ⟨[⟨m, names⟩], rfl, fun c hc => by rw [List.mem_singleton.mp hc]; exact h⟩

theorem returns_inside {c : SearchCall} {search : Searching α} {a : α}
    (h : Returns c.inside search a made) :
    Returns c.branch (do push c.message; let found ← search; pop; return found) a made := by
  intro calls
  rcases h calls with ⟨more, hsearch, hmore⟩
  refine ⟨more, ?_, hmore⟩
  change (search ⟨c.inside, calls⟩).bind _ = _
  rw [hsearch]
  rfl

theorem returns_entered {s : Schema} {target : Option MessageRef} {passed result : α}
    {search : Message → Searching α}
    (hnone : target.bind (s.enter names) = none → passed = result)
    (hsome : ∀ next, target.bind (s.enter names) = some next →
      Returns names (search next) result made) :
    Returns names
      (do
        match target.bind (s.enter (← branch)) with
        | none => return passed
        | some next => search next)
      result made := by
  apply returns_branch.bind
  cases hentered : target.bind (s.enter names) with
  | none =>
      rw [hnone hentered]
      exact returns_pure result
  | some next => exact hsome next hentered

theorem returns_findSomeM? {body : Field → Searching (Option α)} {result : Field → Option α}
    {fields : List Field} (h : ∀ f ∈ fields, Returns names (body f) (result f) made) :
    Returns names (fields.findSomeM? body) (fields.findSome? result) made := by
  induction fields with
  | nil => exact returns_pure none
  | cons f rest ih =>
      have hrest := ih fun g hg => h g (List.mem_cons_of_mem f hg)
      rw [List.findSomeM?_cons, List.findSome?_cons]
      apply (h f List.mem_cons_self).bind
      cases result f with
      | some a => exact returns_pure (some a)
      | none => exact hrest

theorem returns_foldlM {body : List α → Field → Searching (List α)}
    {result : Field → List α} {fields : List Field}
    (h : ∀ f ∈ fields, ∀ found, Returns names (body found f) (found ++ result f) made)
    (found : List α) :
    Returns names (fields.foldlM body found) (found ++ fields.flatMap result) made := by
  induction fields generalizing found with
  | nil =>
      rw [List.flatMap_nil, List.append_nil]
      exact returns_pure found
  | cons f rest ih =>
      rw [List.foldlM_cons, List.flatMap_cons, ← List.append_assoc]
      exact (h f List.mem_cons_self found).bind
        (ih (fun g hg => h g (List.mem_cons_of_mem f hg)) _)

/-!
## The three searches
-/

/-- The property goes over from a call to the calls that are made in it. -/
def Descends (s : Schema) (made : SearchCall → Prop) : Prop :=
  ∀ c target next, made c → s.enter c.inside target = some next → made ⟨next, c.inside⟩

variable {s : Schema}

theorem returns_searchFirst {target : Field → Option MessageRef} {mark : Message → Option β}
    {build : AccessPath → Message → β → α}
    {below : List String → AccessPath → List Field → Option α}
    (law : FirstMatch s target mark build below) (descends : Descends s made)
    (c : SearchCall) (h : made c) (path : AccessPath) :
    Returns c.branch (s.searchFirst target mark build path c.message)
      (FirstMatch.here mark build below c.branch path c.message) made := by
  -- the calls that are made in this one have less room
  induction hroom : s.room c.inside using Nat.strongRecOn generalizing c path with
  | _ room ih =>
      rw [searchFirst]
      apply (returns_call h).bind
      cases hmark : mark c.message with
      | some b =>
          rw [FirstMatch.here_of_marked hmark]
          exact returns_pure _
      | none =>
          rw [FirstMatch.here_of_unmarked hmark]
          change Returns c.branch _ (below c.inside path c.message.fields) made
          rw [law.below_eq_findSome?]
          apply returns_inside
          apply returns_findSomeM?
          intro f _
          apply returns_entered
          · intro hpassed
            rw [hpassed, Option.bind_none]
          · intro next hentered
            rw [hentered, Option.bind_some]
            rcases Option.bind_eq_some_iff.mp hentered with ⟨reference, _, hnext⟩
            exact ih _ (hroom ▸ room_lt_of_enter hnext) ⟨next, c.inside⟩
              (descends c reference next h hnext) _ rfl

theorem attributesBelow_eq_flatMap (branch : List String) (path : AccessPath)
    (owner : Message) (fields : List Field) :
    attributesBelow s branch path owner fields =
      fields.flatMap fun f => attributesBelow s branch path owner [f] := by
  induction fields with
  | nil => rw [attributesBelow, List.flatMap_nil]
  | cons f rest ih =>
      rw [List.flatMap_cons, ← ih, AttributeChain.attributesBelow_cons,
        AttributeChain.attributesBelow_cons s branch path owner f [], attributesBelow,
        List.append_nil]

theorem attributesBelow_named {branch : List String} {path : AccessPath} {owner : Message}
    {f : Field} {name : String} (h : f.marks.attributeName = some name) :
    attributesBelow s branch path owner [f] =
      [⟨owner, f, name, path.append (Segment.read f)⟩] := by
  have htarget : f.attributeTarget = none := by
    simp [Field.attributeTarget, h]
  rw [AttributeChain.attributesBelow_cons, attributesBelow, h, htarget]
  rfl

theorem attributesBelow_unnamed {branch : List String} {path : AccessPath}
    {owner : Message} {f : Field} (h : f.marks.attributeName = none) :
    attributesBelow s branch path owner [f] =
      ((f.type.messageTarget.bind (s.enter branch)).map fun n =>
        attributesBelow s (n.fullName :: branch) (path.append (Segment.traverse f)) n
          n.fields).getD [] := by
  have htarget : f.attributeTarget = f.type.messageTarget := by
    simp [Field.attributeTarget, h]
  rw [AttributeChain.attributesBelow_cons, attributesBelow, h, htarget, List.append_nil]
  rfl

theorem returns_searchAttributes (descends : Descends s made) (c : SearchCall)
    (h : made c) (path : AccessPath) (found : List AttributeField) :
    Returns c.branch (s.searchAttributes path c.message found)
      (found ++ attributesBelow s c.inside path c.message c.message.fields) made := by
  induction hroom : s.room c.inside using Nat.strongRecOn generalizing c path found with
  | _ room ih =>
      rw [searchAttributes, attributesBelow_eq_flatMap]
      apply (returns_call h).bind
      apply returns_inside
      apply returns_foldlM
      intro f _ found
      cases hname : f.marks.attributeName with
      | some name =>
          rw [attributesBelow_named hname]
          exact returns_pure _
      | none =>
          rw [attributesBelow_unnamed hname]
          apply returns_entered
          · intro hpassed
            rw [hpassed, Option.map_none, Option.getD_none, List.append_nil]
          · intro next hentered
            rw [hentered, Option.map_some, Option.getD_some]
            rcases Option.bind_eq_some_iff.mp hentered with ⟨reference, _, hnext⟩
            exact ih _ (hroom ▸ room_lt_of_enter hnext) ⟨next, c.inside⟩
              (descends c reference next h hnext) _ _ rfl

end Searching

end AccessChecks
