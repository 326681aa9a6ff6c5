import AccessChecks.Proofs.Routes

/-!
# Searches for the first match

## Laws of a search

The search for a resource and the search for a key differ in the fields that they
enter and in what they look for in a message.  Both go over the fields of a
message, look at each message that a field enters before they go below it, and
stop at the first match.

## What a search finds

A match lies at the end of a fresh route on which no earlier message matches.
Of all fresh routes to a match it is the first, by the positions of the fields passed.
A search that finds nothing leaves no match at the end of any fresh route.
-/

namespace AccessChecks

open Schema RouteStep

/-- The laws of a search below fields: `mark` looks for something in a message,
and `build` makes a match of it. -/
structure FirstMatch {α β : Type} (s : Schema)
    (target : Field → Option MessageRef) (mark : Message → Option β)
    (build : AccessPath → Message → β → α)
    (below : List String → AccessPath → List Field → Option α) : Prop where
  nil (branch : List String) (path : AccessPath) : below branch path [] = none
  cons (branch : List String) (path : AccessPath) (f : Field)
      (rest : List Field) :
    below branch path (f :: rest) =
      match (target f).bind (s.enter branch) with
      | none => below branch path rest
      | some m =>
          let here := path.append (Segment.traverse f)
          (((mark m).map (build here m)).orElse fun _ =>
              below (m.fullName :: branch) here m.fields).orElse fun _ =>
            below branch path rest

namespace FirstMatch

variable {α β : Type} {s : Schema} {target : Field → Option MessageRef}
  {mark : Message → Option β} {build : AccessPath → Message → β → α}
  {below : List String → AccessPath → List Field → Option α}

def here (mark : Message → Option β) (build : AccessPath → Message → β → α)
    (below : List String → AccessPath → List Field → Option α)
    (branch : List String) (path : AccessPath) (m : Message) : Option α :=
  ((mark m).map (build path m)).orElse fun _ =>
    below (m.fullName :: branch) path m.fields

/-- A match at the end of a route, with no match before it. -/
structure Hit (s : Schema) (target : Field → Option MessageRef)
    (mark : Message → Option β) (build : AccessPath → Message → β → α)
    (branch : List String) (path : AccessPath) (m : Message) (a : α)
    (steps : List RouteStep) (b : β) : Prop where
  fresh : FreshRoute s target (m.fullName :: branch) m.fields steps
  marked : mark (arrival m steps) = some b
  built : a = build (path.through steps) (arrival m steps) b
  first : ∀ n ∈ (stops m steps).dropLast, mark n = none

theorem hit_of_marked {branch : List String} {path : AccessPath} {m : Message}
    {b : β} (h : mark m = some b) :
    Hit s target mark build branch path m (build path m b) [] b :=
  { fresh := FreshRoute.nil _ _
    marked := h
    built := by rw [AccessPath.through_nil]; rfl
    first := by simp [stops] }

theorem Hit.cons {branch : List String} {path : AccessPath} {m n : Message}
    {f : Field} {a : α} {steps : List RouteStep} {b : β}
    (unmarked : mark m = none) (hmem : f ∈ m.fields)
    (hentered : (target f).bind (s.enter (m.fullName :: branch)) = some n)
    (h : Hit s target mark build (m.fullName :: branch)
      (path.append (Segment.traverse f)) n a steps b) :
    Hit s target mark build branch path m a (⟨f, n⟩ :: steps) b :=
  { fresh := FreshRoute.cons hmem hentered h.fresh
    marked := h.marked
    built := by rw [AccessPath.through_cons]; exact h.built
    first := by
      intro k hk
      change k ∈ (m :: stops n steps).dropLast at hk
      rw [stops, List.dropLast_cons_cons] at hk
      rcases List.mem_cons.mp hk with hhead | htail
      · rw [hhead]
        exact unmarked
      · exact h.first k htail }

theorem below_eq_findSome? (law : FirstMatch s target mark build below)
    (branch : List String) (path : AccessPath) (fields : List Field) :
    below branch path fields =
      fields.findSome? fun f =>
        ((target f).bind (s.enter branch)).bind
          (here mark build below branch (path.append (Segment.traverse f))) := by
  induction fields with
  | nil => exact law.nil branch path
  | cons f rest ih =>
      rw [law.cons, List.findSome?_cons, ← ih]
      cases (target f).bind (s.enter branch) with
      | none => rfl
      | some m =>
          change (here mark build below branch _ m).orElse _ =
            match here mark build below branch _ m with
            | some a => some a
            | none => below branch path rest
          cases here mark build below branch
            (path.append (Segment.traverse f)) m <;> rfl

theorem below_eq_some (law : FirstMatch s target mark build below)
    {branch : List String} {fields : List Field} {path : AccessPath} {a : α}
    (h : below branch path fields = some a) :
    ∃ before f after m, fields = before ++ f :: after ∧
      (target f).bind (s.enter branch) = some m ∧
      here mark build below branch (path.append (Segment.traverse f)) m =
        some a ∧
      ∀ g ∈ before, ∀ n, (target g).bind (s.enter branch) = some n →
        here mark build below branch (path.append (Segment.traverse g)) n =
          none := by
  rw [law.below_eq_findSome?, List.findSome?_eq_some_iff] at h
  rcases h with ⟨before, f, after, hsplit, hfound, hnone⟩
  rcases Option.bind_eq_some_iff.mp hfound with ⟨m, hentered, hhere⟩
  refine ⟨before, f, after, m, hsplit, hentered, hhere, ?_⟩
  intro g hg n hn
  have hnothing := hnone g hg
  rwa [hn] at hnothing

theorem below_eq_none (law : FirstMatch s target mark build below)
    {branch : List String} {fields : List Field} {path : AccessPath}
    (h : below branch path fields = none) :
    ∀ f ∈ fields, ∀ m, (target f).bind (s.enter branch) = some m →
      here mark build below branch (path.append (Segment.traverse f)) m =
        none := by
  rw [law.below_eq_findSome?, List.findSome?_eq_none_iff] at h
  intro f hf m hentered
  have hnothing := h f hf
  rwa [hentered] at hnothing

theorem here_of_marked {branch : List String} {path : AccessPath}
    {m : Message} {b : β} (h : mark m = some b) :
    here mark build below branch path m = some (build path m b) := by
  simp [here, h]

theorem here_of_unmarked {branch : List String} {path : AccessPath}
    {m : Message} (h : mark m = none) :
    here mark build below branch path m =
      below (m.fullName :: branch) path m.fields := by
  simp [here, h]

theorem unmarked_of_here_eq_none (law : FirstMatch s target mark build below)
    {branch : List String} {path : AccessPath} {m : Message}
    {steps : List RouteStep}
    (h : here mark build below branch path m = none)
    (hroute : FreshRoute s target (m.fullName :: branch) m.fields steps) :
    mark (arrival m steps) = none := by
  have hmark : mark m = none := by
    cases hm : mark m with
    | none => rfl
    | some b =>
        rw [here_of_marked hm] at h
        cases h
  induction steps generalizing branch path m with
  | nil => exact hmark
  | cons step rest ih =>
      cases hroute with
      | cons hmem hentered hrest =>
          rw [here_of_unmarked hmark] at h
          have hnext := law.below_eq_none h _ hmem _ hentered
          apply ih hnext hrest
          cases hn : mark _ with
          | none => rfl
          | some b =>
              rw [here_of_marked hn] at hnext
              cases hnext

/-- A match stands at the first positions, in the order of the fields, of all that
fresh routes lead to. -/
theorem exists_first_hit (law : FirstMatch s target mark build below)
    {branch : List String} {path : AccessPath} {m : Message} {a : α}
    (h : here mark build below branch path m = some a) :
    ∃ positions steps b, Hit s target mark build branch path m a steps b ∧
      PassesAt m.fields positions steps ∧
      ∀ others more,
        FreshRoute s target (m.fullName :: branch) m.fields more →
        PassesAt m.fields others more → mark (arrival m more) ≠ none →
        others = positions ∨ List.Lex (· < ·) positions others := by
  -- the search goes on in the message of the field that the match is below, where
  -- there is less room
  induction hroom : s.room (m.fullName :: branch) using Nat.strongRecOn
    generalizing branch path m with
  | _ room ih =>
      cases hmark : mark m with
      | some b =>
          rw [here_of_marked hmark] at h
          cases h
          refine ⟨[], [], b, hit_of_marked hmark, PassesAt.nil _, ?_⟩
          intro others more _ hothers _
          cases hothers with
          | nil => exact Or.inl rfl
          | cons => exact Or.inr List.Lex.nil
      | none =>
          rw [here_of_unmarked hmark] at h
          rcases law.below_eq_some h with
            ⟨before, f, after, n, hsplit, hentered, found, hnone⟩
          have hless : s.room (n.fullName :: m.fullName :: branch) < room := by
            rcases Option.bind_eq_some_iff.mp hentered with ⟨_, _, entered⟩
            rw [← hroom]
            exact room_lt_of_enter entered
          rcases ih _ hless found rfl with
            ⟨positions, steps, b, hhit, hpositions, hfirst⟩
          have hf : m.fields[before.length]? = some f := by
            rw [hsplit, List.getElem?_append_right (Nat.le_refl _), Nat.sub_self]
            rfl
          refine ⟨before.length :: positions, ⟨f, n⟩ :: steps, b,
            hhit.cons hmark (List.mem_of_getElem? hf) hentered,
            PassesAt.cons hf hpositions, ?_⟩
          intro others more hroute hothers hmarked
          cases hothers with
          | nil => exact absurd hmark hmarked
          | @cons _ g k position others rest hg hrest =>
              cases hroute with
              | cons _ hk hrestRoute =>
                  rcases Nat.lt_trichotomy position before.length with
                    hlt | heq | hgt
                  · -- the search has left nothing behind an earlier field
                    rw [hsplit, List.getElem?_append_left hlt] at hg
                    have hnothing := hnone g (List.mem_of_getElem? hg) k hk
                    exact absurd (law.unmarked_of_here_eq_none hnothing hrestRoute)
                      hmarked
                  · subst heq
                    cases hf.symm.trans hg
                    cases hentered.symm.trans hk
                    rcases hfirst others rest hrestRoute hrest hmarked with
                      hsame | hlex
                    · exact Or.inl (congrArg (List.cons before.length) hsame)
                    · exact Or.inr (List.Lex.cons hlex)
                  · exact Or.inr (List.Lex.rel hgt)

theorem exists_hit (law : FirstMatch s target mark build below)
    {branch : List String} {path : AccessPath} {m : Message} {a : α}
    (h : here mark build below branch path m = some a) :
    ∃ steps b, Hit s target mark build branch path m a steps b := by
  rcases law.exists_first_hit h with ⟨_, steps, b, hhit, _⟩
  exact ⟨steps, b, hhit⟩

end FirstMatch

/-!
## The two searches
-/

theorem resourceBelow_firstMatch (s : Schema) :
    FirstMatch s Field.resourceTarget Message.resourceType
      (fun path m label => (⟨m, label, path⟩ : ResourceSite))
      (resourceBelow s) :=
  { nil := fun branch path => by rw [resourceBelow]
    cons := fun branch path f rest => by
      rw [resourceBelow]
      split
      · rename_i h
        simp only [h]
      · rename_i h
        simp only [h, ownResource] }

theorem findResource_eq_here (s : Schema) (path : AccessPath)
    (request : Message) :
    findResource s path request =
      FirstMatch.here Message.resourceType
        (fun path m label => (⟨m, label, path⟩ : ResourceSite))
        (resourceBelow s) [] path request := rfl

def Key.ownField (key : Key) (m : Message) : Option Field :=
  m.fields.find? key.accepts

def Key.keyField (path : AccessPath) (m : Message) (f : Field) : KeyField :=
  ⟨m, f, path.append (Segment.traverse f)⟩

theorem keyBelow_firstMatch (s : Schema) (key : Key) :
    FirstMatch s Field.keyTarget key.ownField Key.keyField (keyBelow s key) :=
  { nil := fun branch path => by rw [keyBelow]
    cons := fun branch path f rest => by
      rw [keyBelow]
      split
      · rename_i h
        simp only [h]
      · rename_i h
        simp only [h]
        rfl }

theorem findKey_eq_here (s : Schema) (key : Key) (path : AccessPath)
    (resource : Message) :
    findKey s key path resource =
      FirstMatch.here key.ownField Key.keyField (keyBelow s key) [] path
        resource := rfl

end AccessChecks
