import AccessChecks.Proofs.ResourceFaults
import AccessChecks.Proofs.Routes
import Mathlib.Data.List.Lex

/-!
# Chains to attributes

## Chains

A chain leads from a resource, through fields without an attribute name, to a field with
one.  The positions of the fields passed and of the field at the end are its place.  They
tell it from all other chains, also from those that lead to the same field.

## All chains

The search visits every chain that enters no message twice, once each and in the order
of their places.  So the chains before one of them are those in front of it, and of the
chains to one name there is a last one.
-/

namespace AccessChecks

open Schema RouteStep

namespace Schema

/-- A field without an attribute name that holds a registered message, alone or in a
collection, `optional` or not. -/
def AttributeEdge (s : Schema) (m : Message) (f : Field) (n : Message) : Prop :=
  f ∈ m.fields ∧ f.marks.attributeName = none ∧
    ∃ target, f.type.messageTarget = some target ∧ s.message? target = some n

theorem edge_attributeTarget (s : Schema) :
    s.Edge Field.attributeTarget = s.AttributeEdge := by
  funext m f n
  apply propext
  rw [Edge, AttributeEdge, Option.bind_eq_some_iff]
  refine and_congr_right fun _ => ?_
  cases hname : f.marks.attributeName with
  | none => simp [Field.attributeTarget, hname]
  | some name => simp [Field.attributeTarget, hname]

end Schema

/-- A field with an attribute name, the steps that lead to its message, the positions of
the fields passed, and the position of the field itself. -/
structure AttributeChain where
  steps : List RouteStep
  positions : List Nat
  position : Nat
  field : Field
  name : String

namespace AttributeChain

def place (c : AttributeChain) : List Nat :=
  c.positions ++ [c.position]

/-- Fields come in the order of declaration, and what is below a field comes before the
next one. -/
def Before (c d : AttributeChain) : Prop :=
  List.Lex (· < ·) c.place d.place

def path (c : AttributeChain) : AccessPath :=
  ⟨resourceRoot, segments c.steps ++ [Segment.read c.field]⟩

def owner (c : AttributeChain) (resource : Message) : Message :=
  arrival resource c.steps

structure IsIn (c : AttributeChain) (s : Schema) (resource : Message) : Prop where
  route : Route s.AttributeEdge resource c.steps
  positions : PassesAt resource.fields c.positions c.steps
  simple : ((stops resource c.steps).map Message.fullName).Nodup
  field : (c.owner resource).fields[c.position]? = some c.field
  named : c.field.marks.attributeName = some c.name

theorem not_before_of_before {c d : AttributeChain} (h : c.Before d) :
    ¬ d.Before c := by
  rw [Before] at h ⊢
  exact asymm h

theorem not_before_self (c : AttributeChain) : ¬ c.Before c :=
  fun h => not_before_of_before h h

/-!
## Visited chains
-/

def behind (step : RouteStep) (position : Nat) (c : AttributeChain) : AttributeChain :=
  { c with steps := step :: c.steps, positions := position :: c.positions }

def found (path : AccessPath) (start : Message) (c : AttributeChain) : AttributeField :=
  ⟨arrival start c.steps, c.field, c.name,
    (path.through c.steps).append (Segment.read c.field)⟩

theorem found_behind (path : AccessPath) (start : Message) (f : Field) (n : Message)
    (position : Nat) (c : AttributeChain) :
    (c.behind ⟨f, n⟩ position).found path start =
      c.found (path.append (Segment.traverse f)) n := by
  rw [found, found, behind, AccessPath.through_cons]
  rfl

theorem before_behind {c d : AttributeChain} (h : c.Before d) (step : RouteStep)
    (position : Nat) : (c.behind step position).Before (d.behind step position) :=
  List.Lex.cons h

/-- The chain is visited from fields with these positions. -/
inductive Visited (s : Schema) :
    List String → List (Field × Nat) → AttributeChain → Prop where
  | own {branch : List String} {fields : List (Field × Nat)} {f : Field}
      {position : Nat} {name : String} :
      (f, position) ∈ fields → f.marks.attributeName = some name →
      Visited s branch fields ⟨[], [], position, f, name⟩
  | entered {branch : List String} {fields : List (Field × Nat)} {f : Field}
      {position : Nat} {n : Message} {c : AttributeChain} :
      (f, position) ∈ fields → f.attributeTarget.bind (s.enter branch) = some n →
      Visited s (n.fullName :: branch) n.fields.zipIdx c →
      Visited s branch fields (c.behind ⟨f, n⟩ position)

variable {s : Schema} {branch : List String} {f : Field} {fields : List Field}
  {start : Nat} {c d : AttributeChain}

theorem Visited.mono {first second : List (Field × Nat)} (h : Visited s branch first c)
    (hsub : ∀ e ∈ first, e ∈ second) : Visited s branch second c := by
  cases h with
  | own hmem hname => exact .own (hsub _ hmem) hname
  | entered hmem hentered hrest => exact .entered (hsub _ hmem) hentered hrest

theorem not_visited_nil : ¬ Visited s branch [] c := by
  intro h
  cases h with
  | own hmem _ => cases hmem
  | entered hmem _ _ => cases hmem

theorem visited_zipIdx_cons_iff :
    Visited s branch ((f :: fields).zipIdx start) c ↔
      Visited s branch [(f, start)] c ∨
        Visited s branch (fields.zipIdx (start + 1)) c := by
  rw [List.zipIdx_cons]
  constructor
  · intro h
    cases h with
    | own hmem hname =>
        rcases List.mem_cons.mp hmem with hhead | htail
        · exact Or.inl (.own (List.mem_singleton.mpr hhead) hname)
        · exact Or.inr (.own htail hname)
    | entered hmem hentered hrest =>
        rcases List.mem_cons.mp hmem with hhead | htail
        · exact Or.inl (.entered (List.mem_singleton.mpr hhead) hentered hrest)
        · exact Or.inr (.entered htail hentered hrest)
  · rintro (hhead | htail)
    · apply hhead.mono
      intro e he
      rw [List.mem_singleton.mp he]
      exact List.mem_cons_self
    · exact htail.mono fun e he => List.mem_cons_of_mem _ he

theorem before_of_visited (hc : Visited s branch [(f, start)] c)
    (hd : Visited s branch (fields.zipIdx (start + 1)) d) : c.Before d := by
  have hfirst : ∃ rest, c.place = start :: rest := by
    cases hc with
    | own hmem _ =>
        cases List.mem_singleton.mp hmem
        exact ⟨[], rfl⟩
    | entered hmem _ _ =>
        cases List.mem_singleton.mp hmem
        exact ⟨_, rfl⟩
  have hlater : ∃ position rest, d.place = position :: rest ∧ start < position := by
    cases hd with
    | own hmem _ => exact ⟨_, [], rfl, List.le_snd_of_mem_zipIdx hmem⟩
    | entered hmem _ _ => exact ⟨_, _, rfl, List.le_snd_of_mem_zipIdx hmem⟩
  rcases hfirst with ⟨rest, hc⟩
  rcases hlater with ⟨position, others, hd, hlt⟩
  rw [Before, hc, hd]
  exact List.Lex.rel hlt

end AttributeChain

/-!
## All chains
-/

namespace AttributeChain

/-- The chains are those that are visited from the fields, in order, and the attributes at
their ends are those given. -/
structure Lists (s : Schema) (branch : List String) (path : AccessPath)
    (owner : Message) (fields : List (Field × Nat)) (chains : List AttributeChain)
    (attributes : List AttributeField) : Prop where
  found : attributes = chains.map (found path owner)
  ordered : chains.Pairwise Before
  mem_iff : ∀ c, c ∈ chains ↔ Visited s branch fields c

variable {s : Schema} {branch : List String} {path : AccessPath} {owner : Message}
  {f : Field} {start : Nat}

theorem lists_named {name : String} (h : f.marks.attributeName = some name) :
    Lists s branch path owner [(f, start)] [⟨[], [], start, f, name⟩]
      [⟨owner, f, name, path.append (Segment.read f)⟩] :=
  { found := by simp [AttributeChain.found, arrival]
    ordered := List.pairwise_singleton _ _
    mem_iff := by
      intro c
      rw [List.mem_singleton]
      constructor
      · rintro rfl
        exact .own List.mem_cons_self h
      · intro hc
        cases hc with
        | own hmem hname =>
            cases List.mem_singleton.mp hmem
            cases h.symm.trans hname
            rfl
        | entered hmem hentered _ =>
            -- a field that is an attribute is not entered
            cases List.mem_singleton.mp hmem
            simp [Field.attributeTarget, h] at hentered }

theorem lists_entered {n : Message} {chains : List AttributeChain}
    {attributes : List AttributeField} (h : f.marks.attributeName = none)
    (entered : f.attributeTarget.bind (s.enter branch) = some n)
    (below : Lists s (n.fullName :: branch) (path.append (Segment.traverse f)) n
      n.fields.zipIdx chains attributes) :
    Lists s branch path owner [(f, start)] (chains.map (behind ⟨f, n⟩ start))
      attributes :=
  { found := by
      rw [below.found, List.map_map]
      apply List.map_congr_left
      intro c _
      exact (found_behind path owner f n start c).symm
    ordered := by
      rw [List.pairwise_map]
      exact below.ordered.imp fun hbefore => before_behind hbefore _ _
    mem_iff := by
      intro c
      rw [List.mem_map]
      constructor
      · rintro ⟨d, hd, rfl⟩
        exact .entered List.mem_cons_self entered ((below.mem_iff d).mp hd)
      · intro hc
        cases hc with
        | own hmem hname =>
            cases List.mem_singleton.mp hmem
            cases h.symm.trans hname
        | entered hmem hentered hrest =>
            cases List.mem_singleton.mp hmem
            cases entered.symm.trans hentered
            exact ⟨_, (below.mem_iff _).mpr hrest, rfl⟩ }

theorem lists_passed (h : f.marks.attributeName = none)
    (passed : f.attributeTarget.bind (s.enter branch) = none) :
    Lists s branch path owner [(f, start)] [] [] :=
  { found := rfl
    ordered := List.Pairwise.nil
    mem_iff := by
      intro c
      constructor
      · intro hc
        cases hc
      · intro hc
        cases hc with
        | own hmem hname =>
            cases List.mem_singleton.mp hmem
            cases h.symm.trans hname
        | entered hmem hentered _ =>
            cases List.mem_singleton.mp hmem
            cases passed.symm.trans hentered }

theorem Lists.append {fields : List Field} {first second : List AttributeChain}
    {own rest : List AttributeField}
    (h : Lists s branch path owner [(f, start)] first own)
    (hrest : Lists s branch path owner (fields.zipIdx (start + 1)) second rest) :
    Lists s branch path owner ((f :: fields).zipIdx start) (first ++ second)
      (own ++ rest) :=
  { found := by rw [List.map_append, h.found, hrest.found]
    ordered := by
      rw [List.pairwise_append]
      refine ⟨h.ordered, hrest.ordered, ?_⟩
      intro c hc d hd
      exact before_of_visited ((h.mem_iff c).mp hc) ((hrest.mem_iff d).mp hd)
    mem_iff := by
      intro c
      rw [List.mem_append, h.mem_iff, hrest.mem_iff, visited_zipIdx_cons_iff] }

theorem attributesBelow_cons (s : Schema) (branch : List String) (path : AccessPath)
    (owner : Message) (f : Field) (rest : List Field) :
    attributesBelow s branch path owner (f :: rest) =
      (f.marks.attributeName.map fun name =>
          (⟨owner, f, name, path.append (Segment.read f)⟩ : AttributeField)).toList ++
        ((f.attributeTarget.bind (s.enter branch)).map fun n =>
          attributesBelow s (n.fullName :: branch) (path.append (Segment.traverse f)) n
            n.fields).getD [] ++
        attributesBelow s branch path owner rest := by
  rw [attributesBelow]
  congr 2
  · cases f.marks.attributeName <;> rfl
  · split
    · rename_i h
      rw [h]
      rfl
    · rename_i h
      rw [h]
      rfl

theorem exists_lists (s : Schema) (branch : List String) (path : AccessPath)
    (owner : Message) (fields : List Field) (start : Nat) :
    ∃ chains, Lists s branch path owner (fields.zipIdx start) chains
      (attributesBelow s branch path owner fields) := by
  induction branch, path, owner, fields using attributesBelow.induct s
    generalizing start with
  | case1 branch path owner =>
      rw [attributesBelow]
      exact ⟨[], rfl, List.Pairwise.nil, fun c =>
        ⟨fun hc => (by cases hc), fun hc => (not_visited_nil hc).elim⟩⟩
  | case2 branch path owner f rest ihbelow ihrest =>
      rcases ihrest (start + 1) with ⟨later, hlater⟩
      rw [attributesBelow_cons]
      cases hname : f.marks.attributeName with
      | some name =>
          have htarget : f.attributeTarget = none := by
            simp [Field.attributeTarget, hname]
          rw [htarget]
          exact ⟨_, (lists_named hname).append hlater⟩
      | none =>
          cases hentered : f.attributeTarget.bind (s.enter branch) with
          | none => exact ⟨_, (lists_passed hname hentered).append hlater⟩
          | some n =>
              rcases ihbelow n hentered 0 with ⟨inner, hinner⟩
              exact ⟨_, (lists_entered hname hentered hinner).append hlater⟩

/-!
## Chains without repetition
-/

variable {resource m : Message} {c d : AttributeChain}

theorem visited_iff :
    Visited s branch m.fields.zipIdx c ↔
      FreshRoute s Field.attributeTarget branch m.fields c.steps ∧
        PassesAt m.fields c.positions c.steps ∧
        (c.owner m).fields[c.position]? = some c.field ∧
        c.field.marks.attributeName = some c.name := by
  constructor
  · generalize hfields : m.fields.zipIdx = numbered
    intro h
    induction h generalizing m with
    | own hmem hname =>
        subst hfields
        have hfield := List.mem_zipIdx_iff_getElem?.mp hmem
        exact ⟨.nil _ _, .nil _, hfield, hname⟩
    | entered hmem hentered _ ih =>
        subst hfields
        have hfield := List.mem_zipIdx_iff_getElem?.mp hmem
        rcases ih rfl with ⟨hfresh, hpasses, hlast, hname⟩
        exact ⟨.cons (List.mem_of_getElem? hfield) hentered hfresh,
          .cons hfield hpasses, hlast, hname⟩
  · obtain ⟨steps, positions, position, field, name⟩ := c
    rintro ⟨hfresh, hpasses, hlast, hname⟩
    change field.marks.attributeName = some name at hname
    induction steps generalizing branch m positions with
    | nil =>
        cases hpasses
        exact .own (List.mem_zipIdx_iff_getElem?.mpr hlast) hname
    | cons step rest ih =>
        cases hpasses with
        | cons hfield hpasses =>
            cases hfresh with
            | cons _ hentered hfresh =>
                exact .entered (List.mem_zipIdx_iff_getElem?.mpr hfield) hentered
                  (ih _ hfresh hpasses hlast)

theorem isIn_iff_visited :
    c.IsIn s resource ↔
      Visited s [resource.fullName] resource.fields.zipIdx c := by
  rw [visited_iff]
  constructor
  · intro h
    have hroute := h.route
    rw [← edge_attributeTarget] at hroute
    exact ⟨hroute.fresh h.simple fun _ _ => List.not_mem_nil, h.positions, h.field,
      h.named⟩
  · rintro ⟨hfresh, hpasses, hlast, hname⟩
    have hroute := hfresh.route
    rw [edge_attributeTarget] at hroute
    exact ⟨hroute, hpasses, hfresh.nodup_stops, hlast, hname⟩

/-- All chains of a resource, one after the other. -/
structure Enumerates (s : Schema) (resource : Message)
    (chains : List AttributeChain) : Prop where
  found : findAttributes s ⟨resourceRoot, []⟩ resource =
    chains.map (found ⟨resourceRoot, []⟩ resource)
  ordered : chains.Pairwise Before
  mem_iff : ∀ c, c ∈ chains ↔ c.IsIn s resource

theorem exists_enumerates (s : Schema) (resource : Message) :
    ∃ chains, Enumerates s resource chains := by
  rcases exists_lists s [resource.fullName] ⟨resourceRoot, []⟩ resource
    resource.fields 0 with ⟨chains, hlists⟩
  exact ⟨chains, hlists.found, hlists.ordered, fun c => by
    rw [hlists.mem_iff, isIn_iff_visited]⟩

/-!
## Last chains
-/

/-- The last of the chains to a name. -/
def lastTo? (chains : List AttributeChain) (name : String) : Option AttributeChain :=
  chains.reverse.find? fun c => c.name == name

theorem lastNamed?_map_found (path : AccessPath) (start : Message)
    (chains : List AttributeChain) (name : String) :
    AttributeField.lastNamed? (chains.map (found path start)) name =
      (lastTo? chains name).map (found path start) := by
  rw [AttributeField.lastNamed?, ← List.map_reverse, List.find?_map]
  rfl

theorem isLast_of_lastTo? {chains : List AttributeChain} {name : String}
    (ordered : chains.Pairwise Before) (h : lastTo? chains name = some c) :
    c ∈ chains ∧ c.name = name ∧
      ∀ d ∈ chains, d.name = name → d = c ∨ d.Before c := by
  rcases List.find?_eq_some_iff_append.mp h with ⟨hname, later, earlier, hsplit, hnone⟩
  have hchains : chains = earlier.reverse ++ c :: later.reverse := by
    rw [← List.reverse_reverse chains, hsplit, List.reverse_append, List.reverse_cons,
      List.append_assoc, List.singleton_append]
  rw [hchains, List.pairwise_append] at ordered
  refine ⟨?_, eq_of_beq hname, ?_⟩
  · rw [hchains]
    exact List.mem_append_right _ List.mem_cons_self
  · intro d hd hsame
    rw [hchains, List.mem_append, List.mem_cons] at hd
    rcases hd with hearlier | rfl | hlater
    · exact Or.inr (ordered.2.2 d hearlier c List.mem_cons_self)
    · exact Or.inl rfl
    · have hother := hnone d (List.mem_reverse.mp hlater)
      simp [hsame] at hother

theorem lastTo?_eq_some_iff {chains : List AttributeChain} {name : String}
    (ordered : chains.Pairwise Before) :
    lastTo? chains name = some c ↔
      c ∈ chains ∧ c.name = name ∧
        ∀ d ∈ chains, d.name = name → d = c ∨ d.Before c := by
  refine ⟨isLast_of_lastTo? ordered, ?_⟩
  rintro ⟨hc, hname, hlast⟩
  cases hfound : lastTo? chains name with
  | none =>
      have hnone := List.find?_eq_none.mp hfound c (List.mem_reverse.mpr hc)
      exact absurd (beq_iff_eq.mpr hname) hnone
  | some d =>
      rcases isLast_of_lastTo? ordered hfound with ⟨hd, hsame, hother⟩
      rcases hlast d hd hsame with heq | hbefore
      · rw [heq]
      · rcases hother c hc hname with heq | hafter
        · rw [heq]
        · exact absurd hafter (not_before_of_before hbefore)

theorem mem_front_iff {chains front back : List AttributeChain}
    (ordered : chains.Pairwise Before) (hsplit : chains = front ++ c :: back) :
    d ∈ front ↔ d ∈ chains ∧ d.Before c := by
  subst hsplit
  rw [List.pairwise_append] at ordered
  constructor
  · intro hd
    exact ⟨List.mem_append_left _ hd, ordered.2.2 d hd c List.mem_cons_self⟩
  · rintro ⟨hd, hbefore⟩
    rcases List.mem_append.mp hd with hfront | hback
    · exact hfront
    · rcases List.mem_cons.mp hback with rfl | hlater
      · exact absurd hbefore (not_before_self d)
      · have hafter := (List.pairwise_cons.mp ordered.2.1).1 d hlater
        exact absurd hafter (not_before_of_before hbefore)

theorem before_or_before {chains : List AttributeChain} (ordered : chains.Pairwise Before)
    (hc : c ∈ chains) (hd : d ∈ chains) (hne : c ≠ d) : c.Before d ∨ d.Before c := by
  rcases List.append_of_mem hd with ⟨front, back, hsplit⟩
  rw [hsplit] at hc
  rcases List.mem_append.mp hc with hfront | hback
  · exact Or.inl ((mem_front_iff ordered hsplit).mp hfront).2
  · rcases List.mem_cons.mp hback with heq | hlater
    · exact absurd heq hne
    · rw [hsplit, List.pairwise_append] at ordered
      exact Or.inr ((List.pairwise_cons.mp ordered.2.1).1 c hlater)

end AttributeChain

end AccessChecks
