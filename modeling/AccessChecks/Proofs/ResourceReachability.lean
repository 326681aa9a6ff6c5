import Mathlib
import AccessChecks.Proofs.ResourceSearch

/-!
# Reachability of the resource

A request has a resource exactly when some message with a resource type is
reachable along the edges, however the schema is tangled.  The path of the resource
is a route without repetition to the first such message on it.
-/

namespace AccessChecks

open RouteStep

/-- The guard against cycles loses no resource and invents none. -/
theorem discover_isSome_iff_reachable (s : Schema) (target : MessageRef)
    (request : Message) (registered : s.message? target = some request) :
    ((discover s target).1.isSome ↔
      ∃ m, Relation.ReflTransGen (Schema.Leads s.ResourceEdge) request m ∧
        m.resourceType.isSome) ∧
    ∀ r, (discover s target).1 = some r →
      ∃ steps, LeadsToResource s request r steps := by
  rw [discover_fst registered]
  constructor
  · constructor
    · intro h
      rw [Option.isSome_map] at h
      rcases Option.isSome_iff_exists.mp h with ⟨site, hsite⟩
      rcases exists_leadsToResource hsite with ⟨steps, hsteps, _⟩
      refine ⟨arrival request steps,
        Schema.reflTransGen_of_route hsteps.route, ?_⟩
      rw [hsteps.label]
      rfl
    · rintro ⟨m, reachable, typed⟩
      rw [Option.isSome_map]
      exact exists_findResource_of_reachable registered reachable typed
  · intro r h
    rcases Option.map_eq_some_iff.mp h with ⟨site, hsite, hdescribed⟩
    rcases exists_leadsToResource hsite with ⟨steps, hsteps, _⟩
    rw [hdescribed] at hsteps
    exact ⟨steps, hsteps⟩

def folderSchema : Schema :=
  { messages :=
      [{ package := "", name := "Get"
         fields := [⟨"folder", .single (.message ⟨"Folder"⟩), false, true, {}⟩] },
        { package := "", name := "Folder"
          fields :=
            [⟨"parent", .single (.message ⟨"Folder"⟩), false, true, {}⟩,
              ⟨"owner", .single (.message ⟨"Owner"⟩), false, true, {}⟩,
              ⟨"origin", .list (.message ⟨"Get"⟩), false, false, {}⟩,
              ⟨"docs", .list (.message ⟨"Doc"⟩), false, false, {}⟩] },
        { package := "", name := "Doc", resourceType := some "document"
          fields := [⟨"id", .single (.scalar .string), false, false, {}⟩] }] }

theorem discover_folderSchema_reachable :
    ∃ request, folderSchema.message? ⟨"Get"⟩ = some request ∧
      ((discover folderSchema ⟨"Get"⟩).1.isSome ↔
        ∃ m, Relation.ReflTransGen (Schema.Leads folderSchema.ResourceEdge)
            request m ∧ m.resourceType.isSome) ∧
      ∀ r, (discover folderSchema ⟨"Get"⟩).1 = some r →
        ∃ steps, LeadsToResource folderSchema request r steps := by
  have registered : folderSchema.message? ⟨"Get"⟩ =
      some (folderSchema.messages.head (by decide)) := by cbv
  exact ⟨_, registered, discover_isSome_iff_reachable _ _ _ registered⟩

end AccessChecks
