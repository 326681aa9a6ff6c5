import AccessChecks.Discovery.Resource
import AccessChecks.Proofs.FirstMatch

/-!
# The resource of a request

## Edges to resources

The search for a resource enters the messages behind fields that are not declared
`optional`.  It prunes a message on each branch that is inside of it, and stops at
the first resource.

## What the search finds

The path of the resource is a route without repetition to the first message with
a resource type on it.  Pruning loses no resource that is reachable.
-/

namespace AccessChecks

open RouteStep

namespace Schema

/-- A field that is not declared `optional` and leads to a registered message,
as a single value, in a list or in a map. -/
def ResourceEdge (s : Schema) (m : Message) (f : Field) (n : Message) : Prop :=
  f ∈ m.fields ∧ f.optional = false ∧
    ∃ target, f.type.messageTarget = some target ∧ s.message? target = some n

theorem edge_resourceTarget (s : Schema) :
    s.Edge Field.resourceTarget = s.ResourceEdge := by
  funext m f n
  apply propext
  constructor
  · rintro ⟨hmem, h⟩
    cases hoptional : f.optional with
    | true => simp [Field.resourceTarget, hoptional] at h
    | false =>
        simp only [Field.resourceTarget, hoptional, Bool.false_eq_true,
          if_false] at h
        exact ⟨hmem, hoptional, Option.bind_eq_some_iff.mp h⟩
  · rintro ⟨hmem, hoptional, target, htarget, found⟩
    refine ⟨hmem, ?_⟩
    simp only [Field.resourceTarget, hoptional, Bool.false_eq_true, if_false]
    exact Option.bind_eq_some_iff.mpr ⟨target, htarget, found⟩

end Schema

/-- The steps lead from a request to its resource, which is the first message
with a resource type on the way. -/
structure LeadsToResource (s : Schema) (request : Message) (r : Resource)
    (steps : List RouteStep) : Prop where
  route : Schema.Route s.ResourceEdge request steps
  path : r.path = ⟨requestRoot, segments steps⟩
  name : (arrival request steps).fullName = r.name
  label : (arrival request steps).resourceType = some r.resourceType
  simple : ((stops request steps).map Message.fullName).Nodup
  first : ∀ m ∈ (stops request steps).dropLast, m.resourceType = none

theorem discover_fst {s : Schema} {target : MessageRef} {m : Message}
    (registered : s.message? target = some m) :
    (discover s target).1 =
      (findResource s ⟨requestRoot, []⟩ m).map fun site =>
        (site.describe s).1 := by
  rw [discover, registered, Option.bind_some]
  cases findResource s ⟨requestRoot, []⟩ m <;> rfl

theorem FirstMatch.Hit.leadsToResource {s : Schema} {request : Message}
    {site : ResourceSite} {steps : List RouteStep} {label : String}
    (hit : FirstMatch.Hit s Field.resourceTarget Message.resourceType
      (fun path m label => (⟨m, label, path⟩ : ResourceSite)) []
      ⟨requestRoot, []⟩ request site steps label) :
    LeadsToResource s request (site.describe s).1 steps := by
  have hroute := hit.fresh.route
  rw [Schema.edge_resourceTarget] at hroute
  exact
    { route := hroute
      path := by rw [hit.built]; rfl
      name := by rw [hit.built]; rfl
      label := by rw [hit.built]; exact hit.marked
      simple := hit.fresh.nodup_stops
      first := hit.first }

theorem exists_leadsToResource {s : Schema} {request : Message}
    {site : ResourceSite}
    (h : findResource s ⟨requestRoot, []⟩ request = some site) :
    ∃ steps, LeadsToResource s request (site.describe s).1 steps ∧
      site.message = arrival request steps := by
  rw [findResource_eq_here] at h
  rcases (resourceBelow_firstMatch s).exists_hit h with ⟨steps, label, hit⟩
  exact ⟨steps, hit.leadsToResource, by rw [hit.built]⟩

theorem exists_findResource_of_reachable {s : Schema} {target : MessageRef}
    {request m : Message} (registered : s.message? target = some request)
    (reachable :
      Relation.ReflTransGen (Schema.Leads s.ResourceEdge) request m)
    (typed : m.resourceType.isSome) :
    (findResource s ⟨requestRoot, []⟩ request).isSome := by
  rw [← Schema.edge_resourceTarget] at reachable
  rcases Schema.exists_freshRoute_of_reflTransGen
    (Schema.registers_of_message? registered) reachable with
    ⟨steps, hroute, harrival⟩
  cases hfound : findResource s ⟨requestRoot, []⟩ request with
  | some site => rfl
  | none =>
      have hnone : (arrival request steps).resourceType = none :=
        (resourceBelow_firstMatch s).unmarked_of_here_eq_none hfound hroute
      rw [harrival] at hnone
      rw [hnone] at typed
      cases typed

end AccessChecks
