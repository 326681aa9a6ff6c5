import AccessChecks.Proofs.QualifiedNames
import AccessChecks.Proofs.ResourceReachability

/-!
# Order of the resource search

## Chains

A chain of fields leads from a request to a resource if it passes no field that is
declared `optional`, visits no message twice and ends at the first message with a
resource type on it.  The positions of its fields, one after the other, tell it from all
other chains.

## The first chain

The search follows the first chain in the lexicographic order of positions.  A branch
that is cut off at a cycle, or that leads nowhere, neither wins over a later field nor
hides it.
-/

namespace AccessChecks

open Schema RouteStep

/-- A chain of fields at some positions from a request to a message with a resource
type. -/
structure ResourceChain (s : Schema) (request : Message) (positions : List Nat)
    (steps : List RouteStep) : Prop where
  route : Route s.ResourceEdge request steps
  positions : PassesAt request.fields positions steps
  simple : ((stops request steps).map Message.fullName).Nodup
  typed : (arrival request steps).resourceType.isSome
  first : ∀ m ∈ (stops request steps).dropLast, m.resourceType = none

theorem ResourceChain.fresh {s : Schema} {request : Message}
    {positions : List Nat} {steps : List RouteStep}
    (h : ResourceChain s request positions steps) :
    FreshRoute s Field.resourceTarget [request.fullName] request.fields steps := by
  have hroute := h.route
  rw [← edge_resourceTarget] at hroute
  exact hroute.fresh h.simple fun _ _ => List.not_mem_nil

theorem exists_first_resourceChain {s : Schema} {request : Message}
    {site : ResourceSite}
    (h : findResource s ⟨requestRoot, []⟩ request = some site) :
    ∃ positions steps, ResourceChain s request positions steps ∧
      LeadsToResource s request (site.describe s).1 steps ∧
      ∀ others more, ResourceChain s request others more →
        others = positions ∨ List.Lex (· < ·) positions others := by
  rw [findResource_eq_here] at h
  rcases (resourceBelow_firstMatch s).exists_first_hit h with
    ⟨positions, steps, label, hit, hpositions, hfirst⟩
  have hleads := hit.leadsToResource
  refine ⟨positions, steps, ?_, hleads, ?_⟩
  · exact
      { route := hleads.route
        positions := hpositions
        simple := hleads.simple
        typed := by rw [hleads.label]; rfl
        first := hleads.first }
  · intro others more hchain
    apply hfirst others more hchain.fresh hchain.positions
    exact Option.isSome_iff_ne_none.mp hchain.typed

/-- Discovery finds a resource if any chain leads to one, and it follows the first chain
in the lexicographic order of positions. -/
theorem discover_follows_first_chain {s : Schema} {target : MessageRef}
    {request : Message} (registered : s.message? target = some request) :
    ((discover s target).1.isSome ↔
      ∃ positions steps, ResourceChain s request positions steps) ∧
    ∀ r, (discover s target).1 = some r →
      ∃ positions steps, ResourceChain s request positions steps ∧
        LeadsToResource s request r steps ∧
        ∀ others more, ResourceChain s request others more →
          others = positions ∨ List.Lex (· < ·) positions others := by
  rw [discover_fst registered, Option.isSome_map]
  refine ⟨⟨?_, ?_⟩, ?_⟩
  · intro h
    rcases Option.isSome_iff_exists.mp h with ⟨site, hsite⟩
    rcases exists_first_resourceChain hsite with ⟨positions, steps, hchain, _⟩
    exact ⟨positions, steps, hchain⟩
  · rintro ⟨positions, steps, hchain⟩
    exact exists_findResource_of_reachable registered
      (reflTransGen_of_route hchain.route) hchain.typed
  · intro r h
    rcases Option.map_eq_some_iff.mp h with ⟨site, hsite, rfl⟩
    exact exists_first_resourceChain hsite

/-!
## A tangled schema
-/

namespace Sample

def docField : Field :=
  ⟨"doc", .single (.message ⟨"Doc"⟩), false, true, {}⟩

def draftMessage : Message :=
  { package := "", name := "Get"
    fields :=
      [⟨"draft", .single (.message ⟨"Doc"⟩), true, true, {}⟩,
        ⟨"folder", .single (.message ⟨"Folder"⟩), false, true, {}⟩,
        docField] }

def tangledMessage : Message :=
  { package := "", name := "Folder"
    fields :=
      [⟨"parent", .single (.message ⟨"Folder"⟩), false, true, {}⟩,
        ⟨"owner", .single (.message ⟨"Owner"⟩), false, true, {}⟩,
        ⟨"origin", .list (.message ⟨"Get"⟩), false, false, {}⟩,
        ⟨"docs", .map .string (.message ⟨"Doc"⟩), false, false, {}⟩] }

def paperMessage : Message :=
  { package := "", name := "Doc", resourceType := some "document" }

def tangledSchema : Schema :=
  { messages := [draftMessage, tangledMessage, paperMessage] }

theorem message?_tangledSchema :
    tangledSchema.message? ⟨"Get"⟩ = some draftMessage ∧
      tangledSchema.message? ⟨"Doc"⟩ = some paperMessage := by
  have hdraft : draftMessage.reference = ⟨"Get"⟩ :=
    reference_of_global rfl rfl (by decide)
  have htangled : tangledMessage.reference = ⟨"Folder"⟩ :=
    reference_of_global rfl rfl (by decide)
  have hpaper : paperMessage.reference = ⟨"Doc"⟩ :=
    reference_of_global rfl rfl (by decide)
  simp [Schema.message?, tangledSchema, hdraft, htangled, hpaper]

theorem resourceChain_docField :
    ResourceChain tangledSchema draftMessage [2] [⟨docField, paperMessage⟩] := by
  have hdraft : draftMessage.fullName = "Get" := fullName_of_global rfl rfl (by decide)
  have hpaper : paperMessage.fullName = "Doc" := fullName_of_global rfl rfl (by decide)
  have hedge : tangledSchema.ResourceEdge draftMessage docField paperMessage :=
    ⟨by simp [draftMessage], rfl, ⟨"Doc"⟩, rfl, message?_tangledSchema.2⟩
  exact
    { route := Route.cons hedge (Route.nil _)
      positions := PassesAt.cons rfl (PassesAt.nil _)
      simple := by simp [stops, hdraft, hpaper]
      typed := rfl
      first := by simp [stops, draftMessage] }

end Sample

theorem discover_tangledSchema_follows_first_chain :
    Sample.tangledSchema.message? ⟨"Get"⟩ = some Sample.draftMessage ∧
    (discover Sample.tangledSchema ⟨"Get"⟩).1.isSome ∧
    ∀ r, (discover Sample.tangledSchema ⟨"Get"⟩).1 = some r →
      ∃ positions steps,
        ResourceChain Sample.tangledSchema Sample.draftMessage positions steps ∧
        LeadsToResource Sample.tangledSchema Sample.draftMessage r steps ∧
        ∀ others more,
          ResourceChain Sample.tangledSchema Sample.draftMessage others more →
            others = positions ∨ List.Lex (· < ·) positions others := by
  have registered := Sample.message?_tangledSchema.1
  have hfirst := discover_follows_first_chain registered
  exact ⟨registered, hfirst.1.mpr ⟨_, _, Sample.resourceChain_docField⟩, hfirst.2⟩

end AccessChecks
