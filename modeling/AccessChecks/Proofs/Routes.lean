import AccessChecks.Discovery.Search
import Mathlib.Logic.Relation

/-!
# Routes through a schema

## Routes

A search passes from message to message along fields.  A route lists the fields
it has passed, each with the message that it entered there.  The messages of a
route are its start and the messages entered.

## Fresh routes

A search never enters a message that it is inside of.  The routes that it can
take are the fresh ones: no message is on the branch, and none is entered twice.
-/

namespace AccessChecks

structure RouteStep where
  field : Field
  message : Message
deriving Repr, Inhabited

namespace RouteStep

def arrival (start : Message) : List RouteStep → Message
  | [] => start
  | step :: rest => arrival step.message rest

def stops (start : Message) (steps : List RouteStep) : List Message :=
  start :: steps.map RouteStep.message

def segments (steps : List RouteStep) : List Segment :=
  steps.map fun step => Segment.traverse step.field

theorem arrival_append (start : Message) (front back : List RouteStep) :
    arrival start (front ++ back) = arrival (arrival start front) back := by
  induction front generalizing start with
  | nil => rfl
  | cons step rest ih => exact ih step.message

theorem segments_cons (step : RouteStep) (rest : List RouteStep) :
    segments (step :: rest) =
      Segment.traverse step.field :: segments rest := rfl

/-- The fields of a route stand at these positions, each in the message where the
route passes it. -/
inductive PassesAt : List Field → List Nat → List RouteStep → Prop where
  | nil (fields : List Field) : PassesAt fields [] []
  | cons {fields : List Field} {f : Field} {n : Message} {position : Nat}
      {positions : List Nat} {rest : List RouteStep} :
      fields[position]? = some f → PassesAt n.fields positions rest →
      PassesAt fields (position :: positions) (⟨f, n⟩ :: rest)

theorem exists_arrival_of_mem_stops {m n : Message} {steps : List RouteStep}
    (h : n ∈ stops m steps) :
    ∃ front back, steps = front ++ back ∧ arrival m front = n := by
  induction steps generalizing m with
  | nil =>
      have hn : n = m := by simpa [stops] using h
      exact ⟨[], [], rfl, hn.symm⟩
  | cons step rest ih =>
      rcases List.mem_cons.mp h with hn | hn
      · exact ⟨[], step :: rest, rfl, hn.symm⟩
      · rcases ih (m := step.message) hn with ⟨front, back, hsplit, harrival⟩
        exact ⟨step :: front, back, by rw [hsplit]; rfl, harrival⟩

end RouteStep

namespace AccessPath

def through (p : AccessPath) (steps : List RouteStep) : AccessPath :=
  { p with segments := p.segments ++ RouteStep.segments steps }

@[simp] theorem through_nil (p : AccessPath) : p.through [] = p := by
  simp [through, RouteStep.segments]

theorem through_cons (p : AccessPath) (step : RouteStep)
    (rest : List RouteStep) :
    p.through (step :: rest) =
      (p.append (Segment.traverse step.field)).through rest := by
  simp [through, append, RouteStep.segments_cons]

end AccessPath

namespace Schema

open RouteStep

/-!
## Routes along edges

An edge leads from a message through one of its fields to another message.  Which
fields have edges is left open, since the searches differ in it.
-/

/-- The edges that a search takes which enters the given target of a field. -/
def Edge (s : Schema) (target : Field → Option MessageRef) (m : Message)
    (f : Field) (n : Message) : Prop :=
  f ∈ m.fields ∧ (target f).bind s.message? = some n

inductive Route (edge : Message → Field → Message → Prop) :
    Message → List RouteStep → Prop where
  | nil (m : Message) : Route edge m []
  | cons {m n : Message} {f : Field} {rest : List RouteStep} :
      edge m f n → Route edge n rest → Route edge m (⟨f, n⟩ :: rest)

def Leads (edge : Message → Field → Message → Prop) (m n : Message) : Prop :=
  ∃ f, edge m f n

theorem reflTransGen_of_route {edge : Message → Field → Message → Prop}
    {m : Message} {steps : List RouteStep} (h : Route edge m steps) :
    Relation.ReflTransGen (Leads edge) m (arrival m steps) := by
  induction h with
  | nil m => exact Relation.ReflTransGen.refl
  | cons hedge _ ih => exact Relation.ReflTransGen.head ⟨_, hedge⟩ ih

/-- Registered under its own reference. -/
def Registers (s : Schema) (m : Message) : Prop :=
  s.message? m.reference = some m

theorem registers_of_message? {s : Schema} {target : MessageRef} {m : Message}
    (h : s.message? target = some m) : s.Registers m := by
  have hself : m.reference = target := reference_of_message? h
  rw [Registers, hself, h]

theorem registers_of_edge {s : Schema} {target : Field → Option MessageRef}
    {m n : Message} {f : Field} (h : s.Edge target m f n) :
    s.Registers n := by
  rcases Option.bind_eq_some_iff.mp h.2 with ⟨_, _, found⟩
  exact registers_of_message? found

theorem eq_of_fullName_eq {s : Schema} {m n : Message}
    (hm : s.Registers m) (hn : s.Registers n)
    (same : m.fullName = n.fullName) : m = n := by
  have sameReference : m.reference = n.reference := by
    rw [Message.reference, Message.reference, same]
  rw [Registers, sameReference, hn] at hm
  exact (Option.some.inj hm).symm

/-!
## Fresh routes

A fresh route starts at a list of fields, since this is what a search goes over,
and keeps away from the messages of a branch and from those it has entered.
-/

inductive FreshRoute (s : Schema) (target : Field → Option MessageRef) :
    List String → List Field → List RouteStep → Prop where
  | nil (branch : List String) (fields : List Field) :
      FreshRoute s target branch fields []
  | cons {branch : List String} {fields : List Field} {f : Field}
      {n : Message} {rest : List RouteStep} :
      f ∈ fields →
      (target f).bind (s.enter branch) = some n →
      FreshRoute s target (n.fullName :: branch) n.fields rest →
      FreshRoute s target branch fields (⟨f, n⟩ :: rest)

section

variable {s : Schema} {target : Field → Option MessageRef}

theorem bind_enter_eq_some_iff {branch : List String} {f : Field}
    {n : Message} :
    (target f).bind (s.enter branch) = some n ↔
      (target f).bind s.message? = some n ∧ n.fullName ∉ branch := by
  constructor
  · intro h
    rcases Option.bind_eq_some_iff.mp h with ⟨reference, htarget, hentered⟩
    rcases enter_eq_some_iff.mp hentered with ⟨found, fresh⟩
    exact ⟨Option.bind_eq_some_iff.mpr ⟨reference, htarget, found⟩, fresh⟩
  · rintro ⟨h, fresh⟩
    rcases Option.bind_eq_some_iff.mp h with ⟨reference, htarget, found⟩
    exact Option.bind_eq_some_iff.mpr
      ⟨reference, htarget, enter_eq_some_iff.mpr ⟨found, fresh⟩⟩

theorem FreshRoute.route {branch : List String} {m : Message}
    {steps : List RouteStep}
    (h : FreshRoute s target branch m.fields steps) :
    Route (s.Edge target) m steps := by
  generalize hfields : m.fields = fields at h
  induction h generalizing m with
  | nil => exact Route.nil m
  | cons hmem hentered _ ih =>
      subst hfields
      exact Route.cons ⟨hmem, (bind_enter_eq_some_iff.mp hentered).1⟩ (ih rfl)

theorem FreshRoute.exists_passesAt {branch : List String} {fields : List Field}
    {steps : List RouteStep} (h : FreshRoute s target branch fields steps) :
    ∃ positions, RouteStep.PassesAt fields positions steps := by
  induction h with
  | nil branch fields => exact ⟨[], .nil fields⟩
  | cons hmem _ _ ih =>
      rcases List.mem_iff_getElem?.mp hmem with ⟨position, hfield⟩
      rcases ih with ⟨positions, hrest⟩
      exact ⟨position :: positions, .cons hfield hrest⟩

theorem FreshRoute.not_mem_branch {branch : List String}
    {fields : List Field} {steps : List RouteStep}
    (h : FreshRoute s target branch fields steps) :
    ∀ step ∈ steps, step.message.fullName ∉ branch := by
  induction h with
  | nil => simp
  | cons _ hentered _ ih =>
      intro step hstep hbranch
      rcases List.mem_cons.mp hstep with hhead | htail
      · subst hhead
        exact (bind_enter_eq_some_iff.mp hentered).2 hbranch
      · exact ih step htail (List.mem_cons_of_mem _ hbranch)

theorem FreshRoute.nodup {branch : List String} {fields : List Field}
    {steps : List RouteStep} (h : FreshRoute s target branch fields steps) :
    (steps.map fun step => step.message.fullName).Nodup := by
  induction h with
  | nil => exact List.nodup_nil
  | cons _ _ hrest ih =>
      rw [List.map_cons, List.nodup_cons]
      constructor
      · intro hmem
        rcases List.mem_map.mp hmem with ⟨step, hstep, hname⟩
        apply hrest.not_mem_branch step hstep
        rw [hname]
        exact List.mem_cons_self
      · exact ih

theorem FreshRoute.nodup_stops {m : Message} {steps : List RouteStep}
    (h : FreshRoute s target [m.fullName] m.fields steps) :
    ((stops m steps).map Message.fullName).Nodup := by
  rw [stops, List.map_cons, List.map_map, List.nodup_cons]
  constructor
  · intro hmem
    rcases List.mem_map.mp hmem with ⟨step, hstep, hname⟩
    apply h.not_mem_branch step hstep
    exact List.mem_singleton.mpr hname
  · exact h.nodup

theorem FreshRoute.of_append {branch : List String} {fields : List Field}
    {front back : List RouteStep}
    (h : FreshRoute s target branch fields (front ++ back)) :
    FreshRoute s target branch fields front := by
  induction front generalizing branch fields with
  | nil => exact FreshRoute.nil branch fields
  | cons step rest ih =>
      cases h with
      | cons hmem hentered hrest =>
          exact FreshRoute.cons hmem hentered (ih hrest)

theorem FreshRoute.registers {branch : List String} {fields : List Field}
    {steps : List RouteStep} (h : FreshRoute s target branch fields steps) :
    ∀ step ∈ steps, s.Registers step.message := by
  induction h with
  | nil => simp
  | cons _ hentered _ ih =>
      intro step hstep
      rcases List.mem_cons.mp hstep with hhead | htail
      · subst hhead
        rcases Option.bind_eq_some_iff.mp
          (bind_enter_eq_some_iff.mp hentered).1 with ⟨_, _, found⟩
        exact registers_of_message? found
      · exact ih step htail

theorem FreshRoute.concat {branch : List String} {m n : Message} {f : Field}
    {steps : List RouteStep}
    (h : FreshRoute s target branch m.fields steps)
    (hedge : s.Edge target (arrival m steps) f n)
    (hbranch : n.fullName ∉ branch)
    (hsteps : ∀ step ∈ steps, step.message.fullName ≠ n.fullName) :
    FreshRoute s target branch m.fields (steps ++ [⟨f, n⟩]) := by
  induction steps generalizing branch m with
  | nil =>
      have hentered := bind_enter_eq_some_iff.mpr ⟨hedge.2, hbranch⟩
      exact FreshRoute.cons hedge.1 hentered (FreshRoute.nil _ _)
  | cons step rest ih =>
      cases h with
      | cons hmem hentered hrest =>
          apply FreshRoute.cons hmem hentered
          apply ih hrest hedge
          · intro hname
            rcases List.mem_cons.mp hname with hhead | htail
            · exact hsteps _ List.mem_cons_self hhead.symm
            · exact hbranch htail
          · intro later hlater
            exact hsteps later (List.mem_cons_of_mem _ hlater)

theorem Route.fresh {branch : List String} {m : Message}
    {steps : List RouteStep} (h : Route (s.Edge target) m steps)
    (hnodup : ((stops m steps).map Message.fullName).Nodup)
    (hbranch : ∀ step ∈ steps, step.message.fullName ∉ branch) :
    FreshRoute s target (m.fullName :: branch) m.fields steps := by
  induction h generalizing branch with
  | nil m => exact FreshRoute.nil _ _
  | @cons m n f rest hedge _ ih =>
      have hfirst : ∀ k ∈ stops n rest, k.fullName ≠ m.fullName := by
        intro k hk hname
        apply (List.nodup_cons.mp hnodup).1
        rw [← hname]
        exact List.mem_map_of_mem hk
      have hnew : n.fullName ∉ m.fullName :: branch := by
        rw [List.mem_cons, not_or]
        exact ⟨hfirst n List.mem_cons_self, hbranch ⟨f, n⟩ List.mem_cons_self⟩
      apply FreshRoute.cons hedge.1 (bind_enter_eq_some_iff.mpr ⟨hedge.2, hnew⟩)
      apply ih (List.nodup_cons.mp hnodup).2
      intro step hstep
      rw [List.mem_cons, not_or]
      exact ⟨hfirst step.message (List.mem_cons_of_mem n (List.mem_map_of_mem hstep)),
        hbranch step (List.mem_cons_of_mem _ hstep)⟩

theorem Route.eq_of_passesAt {m : Message} {positions : List Nat}
    {steps others : List RouteStep} (h : Route (s.Edge target) m steps)
    (hother : Route (s.Edge target) m others)
    (hpositions : PassesAt m.fields positions steps)
    (hsame : PassesAt m.fields positions others) : steps = others := by
  induction h generalizing positions others with
  | nil m =>
      cases hpositions
      cases hsame
      rfl
  | cons hedge _ ih =>
      cases hpositions with
      | cons hf hrest =>
          cases hsame with
          | cons hg hrest' =>
              cases hother with
              | cons hedge' hroute' =>
                  cases hf.symm.trans hg
                  cases hedge.2.symm.trans hedge'.2
                  rw [ih hroute' hrest hrest']

/-- Whatever is reachable at all is reachable by a fresh route.  A route is cut
back to the first visit of a message before it goes on from there. -/
theorem exists_freshRoute_of_reflTransGen {m n : Message}
    (registered : s.Registers m)
    (h : Relation.ReflTransGen (Leads (s.Edge target)) m n) :
    ∃ steps, FreshRoute s target [m.fullName] m.fields steps ∧
      arrival m steps = n := by
  induction h with
  | refl => exact ⟨[], FreshRoute.nil _ _, rfl⟩
  | @tail last next _ hleads ih =>
      rcases ih with ⟨steps, hroute, harrival⟩
      rcases hleads with ⟨f, hedge⟩
      -- a route that comes back to a message is cut to the first visit of it
      by_cases hvisited : next ∈ stops m steps
      · rcases exists_arrival_of_mem_stops hvisited with
          ⟨front, back, hsplit, hfront⟩
        rw [hsplit] at hroute
        exact ⟨front, hroute.of_append, hfront⟩
      · have hnext : s.Registers next := registers_of_edge hedge
        have hbranch : next.fullName ∉ [m.fullName] := by
          intro hname
          apply hvisited
          rw [eq_of_fullName_eq hnext registered (List.mem_singleton.mp hname)]
          exact List.mem_cons_self
        have hsteps : ∀ step ∈ steps,
            step.message.fullName ≠ next.fullName := by
          intro step hstep hname
          apply hvisited
          rw [← eq_of_fullName_eq (hroute.registers step hstep) hnext hname]
          exact List.mem_cons_of_mem _ (List.mem_map_of_mem hstep)
        rw [← harrival] at hedge
        exact ⟨steps ++ [⟨f, next⟩], hroute.concat hedge hbranch hsteps,
          arrival_append m steps [⟨f, next⟩]⟩

end

end Schema

end AccessChecks
