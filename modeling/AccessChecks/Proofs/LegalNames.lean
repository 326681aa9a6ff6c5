import AccessChecks.Proofs.EmittedBodies

/-!
# Legal names

## Names of fields

A name in snake case that is an identifier and no keyword is kept as it is.

## Paths

The paths of a discovered resource pass fields of registered messages only.  So
emission succeeds for them if all fields of registered messages have legal names.
-/

namespace AccessChecks

open Schema RouteStep

namespace Name

theorem ofField_eq_self {name : String} (hsnake : isSnake name = true)
    (hreserved : reserved.contains name = false)
    (hkeyword : keywords.contains name = false) (hidentifier : isIdentifier name = true) :
    ofField name = .ok name := by
  rw [ofField, if_pos hsnake, escape, hreserved, hkeyword, hidentifier]
  rfl

end Name

namespace Schema

/-- The fields of all registered messages have identifiers. -/
def HasLegalFields (s : Schema) : Prop :=
  ∀ m ∈ s.messages, ∀ f ∈ m.fields, ∃ x, Name.ofField f.name = .ok x

end Schema

def Segment.IsOfField (s : Schema) (segment : Segment) : Prop :=
  ∃ m ∈ s.messages, ∃ f ∈ m.fields, segment.name = f.name

theorem isOfField_of_route {s : Schema} {target : Field → Option MessageRef}
    {m : Message} {steps : List RouteStep} (h : Route (s.Edge target) m steps)
    (hm : m ∈ s.messages) :
    arrival m steps ∈ s.messages ∧
      ∀ segment ∈ segments steps, segment.IsOfField s := by
  induction h with
  | nil m => exact ⟨hm, fun _ hsegment => absurd hsegment List.not_mem_nil⟩
  | cons hedge _ ih =>
      rcases Option.bind_eq_some_iff.mp hedge.2 with ⟨_, _, found⟩
      rcases ih (mem_of_message? found) with ⟨harrival, hrest⟩
      refine ⟨harrival, ?_⟩
      intro segment hsegment
      rcases List.mem_cons.mp hsegment with rfl | hsegment
      · exact ⟨_, hm, _, hedge.1, rfl⟩
      · exact hrest segment hsegment

theorem isOfField_of_route_to_field {s : Schema} {target : Field → Option MessageRef}
    {m : Message} {steps : List RouteStep} (h : Route (s.Edge target) m steps)
    (hm : m ∈ s.messages) {f : Field} (hf : f ∈ (arrival m steps).fields)
    {last : Segment} (hname : last.name = f.name) :
    ∀ segment ∈ segments steps ++ [last], segment.IsOfField s := by
  rcases isOfField_of_route h hm with ⟨harrival, hsegments⟩
  intro segment hsegment
  rcases List.mem_append.mp hsegment with hfront | hlast
  · exact hsegments segment hfront
  · rw [List.mem_singleton.mp hlast]
    exact ⟨_, harrival, f, hf, hname⟩

theorem isOfField_of_findKey {s : Schema} {key : Key} {resource : Message}
    {k : KeyField} (hresource : resource ∈ s.messages)
    (h : findKey s key ⟨resourceRoot, []⟩ resource = some k) :
    ∀ segment ∈ k.path.segments, segment.IsOfField s := by
  rcases exists_route_of_findKey h with ⟨steps, hroute, hmem, _, hpath⟩
  rw [hpath]
  exact isOfField_of_route_to_field hroute hresource hmem rfl

theorem isOfField_of_mem_findAttributes {s : Schema} {resource : Message}
    {a : AttributeField} (hresource : resource ∈ s.messages)
    (h : a ∈ findAttributes s ⟨resourceRoot, []⟩ resource) :
    ∀ segment ∈ a.path.segments, segment.IsOfField s := by
  rcases exists_route_of_mem_findAttributes h with ⟨steps, hroute, hmem, hpath⟩
  rw [hpath]
  exact isOfField_of_route_to_field hroute hresource hmem rfl

theorem not_illegalOn_of_discover {s : Schema} (legal : s.HasLegalFields)
    {target : MessageRef} {r : Resource} (found : (discover s target).1 = some r)
    (e : IllegalName) : ¬ r.IllegalOn e := by
  rcases exists_site_of_discover found with ⟨request, site, hrequest, hsite, rfl⟩
  rcases exists_leadsToResource hsite with ⟨steps, hsteps, harrival⟩
  have hroute := hsteps.route
  rw [← edge_resourceTarget] at hroute
  rcases isOfField_of_route hroute (mem_of_message? hrequest) with
    ⟨hresource, hsegments⟩
  rw [← harrival] at hresource
  have hkey : ∀ key k, findKey s key ⟨resourceRoot, []⟩ site.message = some k →
      ∀ segment ∈ k.path.segments, segment.IsOfField s :=
    fun key k hk => isOfField_of_findKey hresource hk
  rintro ⟨p, hp, segment, hsegment, hname⟩
  have hfield : segment.IsOfField s := by
    rcases hp with rfl | hid | htenant | ⟨name, hattribute⟩
    · rw [hsteps.path] at hsegment
      exact hsegments segment hsegment
    · rcases Option.filter_eq_some_iff.mp hid with ⟨hpath, _⟩
      rcases Option.map_eq_some_iff.mp hpath with ⟨k, hk, rfl⟩
      exact hkey .id k hk segment hsegment
    · rcases Option.filter_eq_some_iff.mp htenant with ⟨hpath, _⟩
      rcases Option.map_eq_some_iff.mp hpath with ⟨k, hk, rfl⟩
      exact hkey .tenant k hk segment hsegment
    · rcases mem_recordAttributes hattribute with hnil | ⟨a, ha, heq⟩
      · cases hnil
      · cases heq
        exact isOfField_of_mem_findAttributes hresource ha segment hsegment
  rcases hfield with ⟨m, hm, f, hf, hsame⟩
  rcases legal m hm f hf with ⟨x, hx⟩
  rw [hsame, hx] at hname
  cases hname

end AccessChecks
