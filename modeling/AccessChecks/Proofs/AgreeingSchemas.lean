import AccessChecks.Generation
import AccessChecks.Proofs.DiscoveredPaths

/-!
# Schemas that agree

## What a search looks up

A search looks up the messages behind the fields of the messages that it is in.  Two
schemas agree on some messages if they answer these lookups alike, and if no lookup
leads out of the messages agreed on.

## Searches in both schemas

A search that starts from a message agreed on finds the same in both schemas.  So do
discovery and the resolution of methods, and the code of a file is the same if all
lookups are answered alike.
-/

namespace AccessChecks

open Schema RouteStep

namespace Schema

variable {s s' : Schema} {agreed : Message → Prop}

/-- The schemas answer the lookups of all fields of some messages alike, and with these
messages only. -/
structure AgreeOn (s s' : Schema) (agreed : Message → Prop) : Prop where
  lookup {m : Message} {f : Field} {target : MessageRef} :
    agreed m → f ∈ m.fields → f.type.messageTarget = some target →
      s.message? target = s'.message? target
  closed {m n : Message} {f : Field} {target : MessageRef} :
    agreed m → f ∈ m.fields → f.type.messageTarget = some target →
      s.message? target = some n → agreed n

theorem agreeOn_of_message?_eq (h : s.message? = s'.message?) :
    AgreeOn s s' fun _ => True :=
  { lookup := fun _ _ _ => congrFun h _
    closed := fun _ _ _ _ => trivial }

theorem enter_eq_of_message?_eq {branch : List String} {target : MessageRef}
    (h : s.message? target = s'.message? target) :
    s.enter branch target = s'.enter branch target := by
  rw [enter, enter, h]

namespace AgreeOn

theorem bind_enter_eq (agree : AgreeOn s s' agreed) {m : Message} {f : Field}
    (hm : agreed m) (hf : f ∈ m.fields) {target : Option MessageRef}
    (htarget : ∀ t, target = some t → f.type.messageTarget = some t)
    (branch : List String) :
    target.bind (s.enter branch) = target.bind (s'.enter branch) := by
  cases target with
  | none => rfl
  | some t => exact enter_eq_of_message?_eq (agree.lookup hm hf (htarget t rfl))

theorem agreed_of_entered (agree : AgreeOn s s' agreed) {m n : Message} {f : Field}
    (hm : agreed m) (hf : f ∈ m.fields) {target : Option MessageRef}
    (htarget : ∀ t, target = some t → f.type.messageTarget = some t)
    {branch : List String} (entered : target.bind (s.enter branch) = some n) :
    agreed n := by
  rcases Option.bind_eq_some_iff.mp entered with ⟨t, ht, hn⟩
  exact agree.closed hm hf (htarget t ht) (enter_eq_some_iff.mp hn).1

theorem agreed_of_route (agree : AgreeOn s s' agreed)
    {target : Field → Option MessageRef}
    (htarget : ∀ f t, target f = some t → f.type.messageTarget = some t)
    {m : Message} {steps : List RouteStep} (hroute : Route (s.Edge target) m steps)
    (hm : agreed m) : agreed (arrival m steps) := by
  induction hroute with
  | nil m => exact hm
  | cons hedge _ ih =>
      rcases Option.bind_eq_some_iff.mp hedge.2 with ⟨t, ht, found⟩
      exact ih (agree.closed hm hedge.1 (htarget _ t ht) found)

theorem below_induction (agree : AgreeOn s s' agreed)
    {target : Field → Option MessageRef}
    (htarget : ∀ f t, target f = some t → f.type.messageTarget = some t)
    {motive : List String → Message → List Field → Prop}
    (nil : ∀ branch m, motive branch m [])
    (cons : ∀ branch m f rest,
      (target f).bind (s.enter branch) = (target f).bind (s'.enter branch) →
      (∀ n, (target f).bind (s.enter branch) = some n →
        motive (n.fullName :: branch) n n.fields) →
      motive branch m rest → motive branch m (f :: rest))
    (branch : List String) {m : Message} (hm : agreed m) :
    motive branch m m.fields := by
  -- a message is entered with less room, and its fields are those of a message
  -- agreed on again
  induction hroom : s.room branch using Nat.strongRecOn generalizing branch m with
  | _ room ih =>
      have hbelow : ∀ fields, (∀ f ∈ fields, f ∈ m.fields) →
          motive branch m fields := by
        intro fields
        induction fields with
        | nil => exact fun _ => nil branch m
        | cons f rest ihRest =>
            intro hfields
            have hf := hfields f List.mem_cons_self
            apply cons branch m f rest (agree.bind_enter_eq hm hf (htarget f) branch)
            · intro n entered
              have hless : s.room (n.fullName :: branch) < room := by
                rcases Option.bind_eq_some_iff.mp entered with ⟨_, _, hn⟩
                rw [← hroom]
                exact room_lt_of_enter hn
              exact ih _ hless _ (agree.agreed_of_entered hm hf (htarget f) entered) rfl
            · exact ihRest fun g hg => hfields g (List.mem_cons_of_mem f hg)
      exact hbelow m.fields fun _ hf => hf

end AgreeOn

end Schema

/-!
## Searches in both
-/

theorem FirstMatch.here_eq_of_agreeOn {α β : Type} {s s' : Schema}
    {target : Field → Option MessageRef} {mark : Message → Option β}
    {build : AccessPath → Message → β → α}
    {below below' : List String → AccessPath → List Field → Option α}
    (law : FirstMatch s target mark build below)
    (law' : FirstMatch s' target mark build below') {agreed : Message → Prop}
    (agree : AgreeOn s s' agreed)
    (htarget : ∀ f t, target f = some t → f.type.messageTarget = some t)
    {m : Message} (hm : agreed m) (branch : List String) (path : AccessPath) :
    here mark build below branch path m = here mark build below' branch path m := by
  have hbelow := agree.below_induction htarget
    (motive := fun branch _ fields =>
      ∀ path, below branch path fields = below' branch path fields)
  rw [here, here, hbelow ?_ ?_ (m.fullName :: branch) hm path]
  · intro branch _ path
    rw [law.nil, law'.nil]
  · intro branch _ f rest hentered hinside hrest path
    rw [law.cons, law'.cons, ← hentered, hrest path]
    cases hn : (target f).bind (s.enter branch) with
    | none => rfl
    | some n =>
        dsimp only
        rw [hinside n hn]

def attributesBehind (s : Schema) (branch : List String) (path : AccessPath) :
    Option Message → List AttributeField
  | none => []
  | some m => attributesBelow s (m.fullName :: branch) path m m.fields

theorem attributesBelow_cons (s : Schema) (branch : List String) (path : AccessPath)
    (owner : Message) (f : Field) (rest : List Field) :
    attributesBelow s branch path owner (f :: rest) =
      (match f.marks.attributeName with
        | some name => [⟨owner, f, name, path.append (Segment.read f)⟩]
        | none => []) ++
        attributesBehind s branch (path.append (Segment.traverse f))
          (f.attributeTarget.bind (s.enter branch)) ++
        attributesBelow s branch path owner rest := by
  rw [attributesBelow]
  congr 2
  split
  · rename_i hnone
    rw [hnone, attributesBehind]
  · rename_i m hm
    rw [hm, attributesBehind]

namespace Schema.AgreeOn

variable {s s' : Schema} {agreed : Message → Prop}

theorem findResource_eq (agree : AgreeOn s s' agreed) {m : Message} (hm : agreed m)
    (path : AccessPath) : findResource s path m = findResource s' path m := by
  rw [findResource_eq_here, findResource_eq_here]
  exact (resourceBelow_firstMatch s).here_eq_of_agreeOn (resourceBelow_firstMatch s')
    agree (fun _ _ => Field.messageTarget_of_resourceTarget) hm [] path

theorem findKey_eq (agree : AgreeOn s s' agreed) {m : Message} (hm : agreed m)
    (key : Key) (path : AccessPath) : findKey s key path m = findKey s' key path m := by
  rw [findKey_eq_here, findKey_eq_here]
  exact (keyBelow_firstMatch s key).here_eq_of_agreeOn (keyBelow_firstMatch s' key)
    agree (fun _ _ => Field.messageTarget_of_keyTarget) hm [] path

theorem findAttributes_eq (agree : AgreeOn s s' agreed) {m : Message} (hm : agreed m)
    (path : AccessPath) : findAttributes s path m = findAttributes s' path m := by
  have hbelow := agree.below_induction
    (fun _ _ => Field.messageTarget_of_attributeTarget)
    (motive := fun branch owner fields => ∀ path,
      attributesBelow s branch path owner fields =
        attributesBelow s' branch path owner fields)
  refine hbelow ?_ ?_ [m.fullName] hm path
  · intro branch owner path
    rw [attributesBelow, attributesBelow]
  · intro branch owner f rest hentered hinside hrest path
    rw [attributesBelow_cons, attributesBelow_cons, ← hentered, hrest path]
    cases hn : f.attributeTarget.bind (s.enter branch) with
    | none => rfl
    | some n => rw [attributesBehind, attributesBehind, hinside n hn]

theorem describe_eq (agree : AgreeOn s s' agreed) {site : ResourceSite}
    (hsite : agreed site.message) : site.describe s = site.describe s' := by
  simp only [ResourceSite.describe, agree.findKey_eq hsite,
    agree.findAttributes_eq hsite]

theorem discover_eq (agree : AgreeOn s s' agreed) {request : MessageRef}
    (hlookup : s.message? request = s'.message? request)
    (hrequest : ∀ m, s.message? request = some m → agreed m) :
    discover s request = discover s' request := by
  rw [discover, discover, ← hlookup]
  cases hm : s.message? request with
  | none => rfl
  | some m =>
      have hagreed := hrequest m hm
      rw [Option.bind_some, Option.bind_some, ← agree.findResource_eq hagreed]
      cases hsite : findResource s ⟨requestRoot, []⟩ m with
      | none => rfl
      | some site =>
          have hfound := hsite
          rw [findResource_eq_here] at hfound
          rcases (resourceBelow_firstMatch s).exists_hit hfound with ⟨steps, label, hit⟩
          have hthere : agreed site.message := by
            rw [hit.built]
            exact agree.agreed_of_route
              (fun _ _ => Field.messageTarget_of_resourceTarget) hit.fresh.route hagreed
          dsimp only
          rw [agree.describe_eq hthere]

theorem resolve_eq (agree : AgreeOn s s' agreed) {method : Method}
    (hlookup : s.message? method.input = s'.message? method.input)
    (hrequest : ∀ m, s.message? method.input = some m → agreed m) (service : String) :
    method.resolve s service = method.resolve s' service := by
  simp only [Method.resolve, Method.access, agree.discover_eq hlookup hrequest]

end Schema.AgreeOn

/-!
## Files in both
-/

section

variable {s s' : Schema} (h : s.message? = s'.message?)
include h

theorem Service.resolve_eq_of_message?_eq (service : Service) :
    service.resolve s = service.resolve s' := by
  have hmethods : Method.resolve s service.name = Method.resolve s' service.name := by
    funext method
    exact (agreeOn_of_message?_eq h).resolve_eq (congrFun h _) (fun _ _ => trivial) _
  rw [resolve, resolve, hmethods]

theorem Plan.claimFor_eq_of_message?_eq (package : String) :
    claimFor s package = claimFor s' package := by
  funext p m
  rw [claimFor, claimFor, h]

namespace SchemaFile

theorem plan_eq_of_message?_eq (f : SchemaFile) : f.plan s = f.plan s' := by
  have hservices : Plan.addService s f.package = Plan.addService s' f.package := by
    funext p service
    rw [Plan.addService, Plan.addService, Service.resolve_eq_of_message?_eq h,
      Plan.claimFor_eq_of_message?_eq h]
  rw [plan, plan, hservices]

theorem generate_eq_of_message?_eq (f : SchemaFile) (options : Options) :
    f.generate s options = f.generate s' options := by
  rw [generate, generate, plan_eq_of_message?_eq h]

end SchemaFile

end

end AccessChecks
