import Mathlib
import AccessChecks.Proofs.EmittedBodies

/-!
# Sites of checks

## Sites

Every check is read from one instance and from what the id path reaches from it.
An instance without a usable id path is one site, and an instance whose ids are
behind a collection is one site for each of them.

## A schema of documents

A request holds documents, and a document has several ids.
-/

namespace AccessChecks

open Reading

structure CheckSite where
  inst : Option Data
  /-- What the id path reaches from the instance. -/
  id : Option Data

namespace Resource

def sitesAt (r : Resource) (v : Option Data) : List CheckSite :=
  match r.usableIdPath with
  | some p => (reached p.segments v).map fun id => ⟨v, id⟩
  | none => [⟨v, none⟩]

/-- The sites of a request, in the order in which they are visited. -/
def sitesIn (r : Resource) (request : Data) : List CheckSite :=
  (r.instancesIn request).flatMap r.sitesAt

def idAt (r : Resource) (site : CheckSite) : String :=
  if r.fansOut then (site.id.bind Data.text?).getD ""
  else keyAt r.usableIdPath "" site.inst

theorem checksAt_eq_map_sitesAt (r : Resource) (permission : String)
    (v : Option Data) :
    r.checksAt permission v =
      (r.sitesAt v).map fun site =>
        r.checkAt permission site.inst (r.idAt site) := by
  rw [checksAt, idsAt, sitesAt]
  cases hp : r.usableIdPath with
  | none =>
      have hfan : r.fansOut = false := by
        rw [fansOut, hp]
        rfl
      simp [idAt, hfan, hp]
  | some p =>
      cases hcross : p.crossesCollection with
      | true =>
          have hfan : r.fansOut = true := by
            rw [fansOut, hp, Option.any_some, hcross]
          simp [idAt, hfan, idLeaves, hp, Function.comp_def]
      | false =>
          have hfan : r.fansOut = false := by
            rw [fansOut, hp, Option.any_some, hcross]
          simp [idAt, hfan, hp, reached_eq_singleton hcross]

theorem checksIn_eq_map_sitesIn (r : Resource) (permission : String)
    (d : Data) :
    r.checksIn permission d =
      (r.sitesIn d).map fun site =>
        r.checkAt permission site.inst (r.idAt site) := by
  rw [checksIn, sitesIn, List.map_flatMap]
  congr 1
  funext v
  exact r.checksAt_eq_map_sitesAt permission v

theorem forall₂_sitesIn {r : Resource} {permission : String} {d : Data}
    {R : CheckSite → Check → Prop}
    (h : ∀ site ∈ r.sitesIn d,
      R site (r.checkAt permission site.inst (r.idAt site))) :
    List.Forall₂ R (r.sitesIn d) (r.checksIn permission d) := by
  rw [checksIn_eq_map_sitesIn, List.forall₂_map_right_iff]
  exact List.forall₂_same.mpr h

theorem inst_mem_of_mem_sitesIn {r : Resource} {d : Data} {site : CheckSite}
    (h : site ∈ r.sitesIn d) :
    site.inst ∈ r.instancesIn d ∧
      ∀ p, r.usableIdPath = some p → site.id ∈ reached p.segments site.inst := by
  rcases List.mem_flatMap.mp h with ⟨v, hv, hsite⟩
  rw [sitesAt] at hsite
  cases hp : r.usableIdPath with
  | none =>
      rw [hp] at hsite
      rw [List.mem_singleton.mp hsite]
      refine ⟨hv, ?_⟩
      intro p hsome
      cases hsome
  | some p =>
      rw [hp] at hsite
      rcases List.mem_map.mp hsite with ⟨id, hid, rfl⟩
      refine ⟨hv, ?_⟩
      intro q hq
      rw [← Option.some.inj hq]
      exact hid

theorem readable_of_mem_sitesIn {s : Schema} {target : MessageRef}
    {r : Resource} (found : (discover s target).1 = some r) {d : Data}
    (hd : s.Holds (.message target) d) {site : CheckSite}
    (hsite : site ∈ r.sitesIn d) : ∀ e ∈ site.inst, r.Readable s e := by
  have hfits : ∀ e ∈ some d, Fits (r.Readable s) r.path.segments e := by
    intro e he
    rw [← Option.some.inj he]
    exact readable_of_discover found hd
  exact fits_of_mem_reached hfits (inst_mem_of_mem_sitesIn hsite).1

end Resource

/-!
## A schema of documents
-/

namespace Sample

def getMessage : Message :=
  { package := "", name := "Get"
    fields := [⟨"docs", .list (.message ⟨"Doc"⟩), false, false, {}⟩] }

def idsField : Field :=
  ⟨"ids", .list (.scalar .string), false, false, ⟨true, false, none⟩⟩

def tenantField : Field :=
  ⟨"tenant", .single (.scalar .string), true, true, ⟨false, true, none⟩⟩

def tagsField : Field :=
  ⟨"tags", .list (.scalar .string), false, false, ⟨false, false, some "tags"⟩⟩

def docMessage : Message :=
  { package := "", name := "Doc", resourceType := some "document"
    fields := [idsField, tenantField, tagsField] }

def docSchema : Schema :=
  { messages := [getMessage, docMessage] }

def docSite : ResourceSite :=
  ⟨docMessage, "document",
    ⟨requestRoot, [⟨"docs", .repeated, .list (.message ⟨"Doc"⟩)⟩]⟩⟩

def docResource : Resource :=
  { name := "Doc"
    resourceType := "document"
    path := docSite.path
    idPath := some ⟨resourceRoot, [Segment.traverse idsField]⟩
    tenantPath := some ⟨resourceRoot, [Segment.traverse tenantField]⟩
    attributePaths :=
      [("tags", ⟨resourceRoot, [Segment.read tagsField]⟩)] }

theorem findResource_docSchema :
    findResource docSchema ⟨requestRoot, []⟩ getMessage = some docSite := by
  have hentered : (Field.resourceTarget
      ⟨"docs", .list (.message ⟨"Doc"⟩), false, false, {}⟩).bind
      (docSchema.enter [getMessage.fullName]) = some docMessage := by
    change docSchema.enter [getMessage.fullName] ⟨"Doc"⟩ = _
    cbv
  rw [findResource_eq_here, FirstMatch.here]
  change resourceBelow docSchema [getMessage.fullName] _ [_] = _
  rw [(resourceBelow_firstMatch docSchema).cons, hentered]
  rfl

theorem describe_docSite : (docSite.describe docSchema).1 = docResource := by
  have hname : docMessage.fullName = "Doc" := by cbv
  have hattributes : findAttributes docSchema ⟨resourceRoot, []⟩ docMessage =
      [⟨docMessage, tagsField, "tags",
        ⟨resourceRoot, [Segment.read tagsField]⟩⟩] := by
    rw [findAttributes]
    change attributesBelow _ _ _ _ [_, _, _] = _
    rw [attributesBelow, attributesBelow, attributesBelow, attributesBelow]
    rfl
  rw [ResourceSite.describe]
  change (Resource.mk docMessage.fullName "document" docSite.path _ _
    (recordAttributes docMessage []
      (findAttributes docSchema ⟨resourceRoot, []⟩ docMessage)).1) = _
  rw [hattributes, hname]
  rfl

theorem discover_docSchema :
    (discover docSchema ⟨"Get"⟩).1 = some docResource := by
  have registered : docSchema.message? ⟨"Get"⟩ = some getMessage := by cbv
  rw [discover_fst registered, findResource_docSchema, Option.map_some,
    describe_docSite]

theorem ofField_names : Name.ofField "docs" = .ok "docs" ∧
    Name.ofField "ids" = .ok "ids" ∧
    Name.ofField "tenant" = .ok "tenant" ∧
    Name.ofField "tags" = .ok "tags" := by
  refine ⟨?_, ?_, ?_, ?_⟩ <;> cbv

theorem not_illegalOn_docResource (e : IllegalName) :
    ¬ docResource.IllegalOn e := by
  rcases ofField_names with ⟨hdocs, hids, htenant, htags⟩
  rintro ⟨p, hp, segment, hsegment, hname⟩
  rcases hp with rfl | hp | hp | ⟨name, hp⟩
  · rw [List.mem_singleton.mp hsegment] at hname
    cases hdocs.symm.trans hname
  · cases hp
    rw [List.mem_singleton.mp hsegment] at hname
    cases hids.symm.trans hname
  · cases hp
    rw [List.mem_singleton.mp hsegment] at hname
    cases htenant.symm.trans hname
  · cases List.mem_singleton.mp hp
    rw [List.mem_singleton.mp hsegment] at hname
    cases htags.symm.trans hname

def docData (ids : List String) (tenant : Option String)
    (tags : List String) : Data :=
  .message
    [("ids", .list (ids.map .string)),
      ("tenant", Data.optional (tenant.map .string)),
      ("tags", .list (tags.map .string))]

def getData (docs : List Data) : Data :=
  .message [("docs", .list docs)]

theorem holds_strings (texts : List String) :
    ∀ d ∈ texts.map Data.string, docSchema.Holds (.scalar .string) d := by
  intro d hd
  rcases List.mem_map.mp hd with ⟨text, _, rfl⟩
  exact Schema.Holds.scalar rfl

theorem holdsField_tenant (tenant : Option String) :
    docSchema.HoldsField tenantField
      (Data.optional (tenant.map .string)) := by
  cases tenant with
  | none => exact Schema.HoldsField.absent rfl rfl
  | some text =>
      exact Schema.HoldsField.present rfl rfl (Schema.Holds.scalar rfl)

theorem holds_docData (ids : List String) (tenant : Option String)
    (tags : List String) :
    docSchema.Holds (.message ⟨"Doc"⟩) (docData ids tenant tags) := by
  have registered : docSchema.message? ⟨"Doc"⟩ = some docMessage := by cbv
  rcases ofField_names with ⟨_, hids, htenant, htags⟩
  apply Schema.holds_of_holdsMessage registered
  intro f hf x hx
  change f ∈ [idsField, tenantField, tagsField] at hf
  simp only [List.mem_cons, List.not_mem_nil, or_false] at hf
  rcases hf with rfl | rfl | rfl
  · rw [show idsField.name = "ids" from rfl, hids] at hx
    cases hx
    exact ⟨_, rfl, Schema.HoldsField.list rfl (holds_strings ids)⟩
  · rw [show tenantField.name = "tenant" from rfl, htenant] at hx
    cases hx
    exact ⟨_, rfl, holdsField_tenant tenant⟩
  · rw [show tagsField.name = "tags" from rfl, htags] at hx
    cases hx
    exact ⟨_, rfl, Schema.HoldsField.list rfl (holds_strings tags)⟩

theorem holds_getData {docs : List Data}
    (h : ∀ d ∈ docs, docSchema.Holds (.message ⟨"Doc"⟩) d) :
    docSchema.Holds (.message ⟨"Get"⟩) (getData docs) := by
  have registered : docSchema.message? ⟨"Get"⟩ = some getMessage := by cbv
  rcases ofField_names with ⟨hdocs, _⟩
  apply Schema.holds_of_holdsMessage registered
  intro f hf x hx
  rw [List.mem_singleton.mp hf] at hx ⊢
  rw [hdocs] at hx
  cases hx
  exact ⟨_, rfl, Schema.HoldsField.list rfl h⟩

def request : Data :=
  getData
    [docData ["a", "b"] (some "acme") ["x", "y"], docData ["c"] none []]

theorem holds_request : docSchema.Holds (.message ⟨"Get"⟩) request := by
  apply holds_getData
  intro d hd
  simp only [List.mem_cons, List.not_mem_nil, or_false] at hd
  rcases hd with rfl | rfl
  · exact holds_docData _ _ _
  · exact holds_docData _ _ _

end Sample

end AccessChecks
