import AccessChecks.Proofs.AttributeChains
import AccessChecks.Proofs.DiscoveredPaths
import AccessChecks.Proofs.QualifiedNames

/-!
# Order of the attribute search

## Recorded paths

Of all chains to a name the last one is recorded.  A name is recorded if it is on a field of
any message that can be reached.

## Reports

Every chain to a name but the first is reported together with the chain before it, also if
both lead to the same field.  A chain to a field that holds messages is reported as well.
-/

namespace AccessChecks

open Schema RouteStep

/-!
## Recorded paths
-/

theorem AttributeField.recorded_recordAttributes {resource : Message}
    {recorded : Entries AccessPath} {visited : List AttributeField}
    (h : Recorded recorded visited) (found : List AttributeField) :
    Recorded (recordAttributes resource recorded found).1 (visited ++ found) := by
  induction found generalizing recorded visited with
  | nil =>
      rw [List.append_nil]
      exact h
  | cons a rest ih =>
      rw [← List.singleton_append, ← List.append_assoc]
      exact ih (h.concat a)

theorem Entries.mem_keys_iff {α : Type} {entries : Entries α} {name : String} :
    name ∈ Entries.keys entries ↔ ∃ value, Entries.get? entries name = some value := by
  induction entries with
  | nil => simp [Entries.keys, Entries.get?]
  | cons e rest ih =>
      obtain ⟨k, v⟩ := e
      change name ∈ k :: Entries.keys rest ↔ _
      rw [List.mem_cons, ih, Entries.get?]
      by_cases hk : k = name
      · simp [hk]
      · rw [if_neg hk]
        simp [Ne.symm hk]

/-- The attribute paths of a resource are recorded under the names of the attributes that
its search visits. -/
structure AttributeSearch (s : Schema) (resource : Message)
    (recorded : Entries AccessPath) : Prop where
  ordered : (Entries.keys recorded).Pairwise (· < ·)
  mem_keys_iff : ∀ name, name ∈ Entries.keys recorded ↔
    ∃ m f, Relation.ReflTransGen (Leads s.AttributeEdge) resource m ∧
      f ∈ m.fields ∧ f.marks.attributeName = some name
  last : ∀ name path, Entries.get? recorded name = some path ↔
    ∃ c : AttributeChain, c.IsIn s resource ∧ c.name = name ∧ c.path = path ∧
      ∀ d : AttributeChain, d.IsIn s resource → d.name = name → d = c ∨ d.Before c

theorem exists_chain_iff_reachable {s : Schema} {target : MessageRef}
    {resource : Message} (registered : s.message? target = some resource)
    (name : String) :
    (∃ c : AttributeChain, c.IsIn s resource ∧ c.name = name) ↔
      ∃ m f, Relation.ReflTransGen (Leads s.AttributeEdge) resource m ∧
        f ∈ m.fields ∧ f.marks.attributeName = some name := by
  constructor
  · rintro ⟨c, hc, rfl⟩
    exact ⟨_, _, reflTransGen_of_route hc.route, List.mem_of_getElem? hc.field, hc.named⟩
  · rintro ⟨m, f, reachable, hmem, hname⟩
    rw [← edge_attributeTarget] at reachable
    rcases exists_freshRoute_of_reflTransGen (registers_of_message? registered)
      reachable with ⟨steps, hfresh, rfl⟩
    rcases hfresh.exists_passesAt with ⟨positions, hpasses⟩
    rcases List.mem_iff_getElem?.mp hmem with ⟨position, hfield⟩
    refine ⟨⟨steps, positions, position, f, name⟩, ?_, rfl⟩
    exact AttributeChain.isIn_iff_visited.mpr
      (AttributeChain.visited_iff.mpr ⟨hfresh, hpasses, hfield, hname⟩)

theorem get?_recordAttributes_iff {s : Schema} {resource : Message}
    {name : String} {path : AccessPath} :
    Entries.get? (recordAttributes resource []
        (findAttributes s ⟨resourceRoot, []⟩ resource)).1 name = some path ↔
      ∃ c : AttributeChain, c.IsIn s resource ∧ c.name = name ∧ c.path = path ∧
        ∀ d : AttributeChain, d.IsIn s resource → d.name = name →
          d = c ∨ d.Before c := by
  rcases AttributeChain.exists_enumerates s resource with ⟨chains, hall⟩
  have hrecorded : AttributeField.Recorded
      (recordAttributes resource [] (findAttributes s ⟨resourceRoot, []⟩ resource)).1
      ([] ++ findAttributes s ⟨resourceRoot, []⟩ resource) :=
    AttributeField.recorded_recordAttributes AttributeField.recorded_nil _
  rw [hrecorded name, List.nil_append, hall.found, AttributeChain.lastNamed?_map_found,
    Option.map_map, Option.map_eq_some_iff]
  refine exists_congr fun c => ?_
  rw [AttributeChain.lastTo?_eq_some_iff hall.ordered]
  simp only [hall.mem_iff, and_assoc]
  constructor
  · rintro ⟨hc, hname, hlast, hpath⟩
    exact ⟨hc, hname, hpath, hlast⟩
  · rintro ⟨hc, hname, hpath, hlast⟩
    exact ⟨hc, hname, hlast, hpath⟩

theorem attributeSearch_recordAttributes {s : Schema} {target : MessageRef}
    {resource : Message} (registered : s.message? target = some resource) :
    AttributeSearch s resource (recordAttributes resource []
      (findAttributes s ⟨resourceRoot, []⟩ resource)).1 :=
  { ordered := pairwise_keys_recordAttributes List.Pairwise.nil _
    mem_keys_iff := by
      intro name
      rw [← exists_chain_iff_reachable registered, Entries.mem_keys_iff]
      constructor
      · rintro ⟨path, hpath⟩
        rcases get?_recordAttributes_iff.mp hpath with ⟨c, hc, hname, _⟩
        exact ⟨c, hc, hname⟩
      · rintro ⟨c, hc, hname⟩
        rcases AttributeChain.exists_enumerates s resource with ⟨chains, hall⟩
        -- a chain to the name makes that there is a last one
        cases hlast : AttributeChain.lastTo? chains name with
        | none =>
            have hnone := List.find?_eq_none.mp hlast c
              (List.mem_reverse.mpr ((hall.mem_iff c).mpr hc))
            exact absurd (beq_iff_eq.mpr hname) hnone
        | some d =>
            have hd := AttributeChain.isLast_of_lastTo? hall.ordered hlast
            simp only [hall.mem_iff] at hd
            exact ⟨d.path, get?_recordAttributes_iff.mpr
              ⟨d, hd.1, hd.2.1, rfl, hd.2.2⟩⟩
    last := fun _ _ => get?_recordAttributes_iff }

/-!
## Reports
-/

/-- Two chains to one name, with no chain to it between them. -/
structure AttributeChain.Consecutive (s : Schema) (resource : Message)
    (c d : AttributeChain) : Prop where
  first : c.IsIn s resource
  second : d.IsIn s resource
  name : c.name = d.name
  before : c.Before d
  between : ∀ e : AttributeChain, e.IsIn s resource → e.name = d.name → e.Before d →
    e = c ∨ e.Before c

/-- The reports on the attributes of a resource name chains that its search visits. -/
structure AttributeReports (s : Schema) (site : ResourceSite) : Prop where
  duplicate : ∀ name,
    (∃ resource first second,
      .duplicateAttributeName resource name first second ∈ (site.describe s).2) ↔
      ∃ c d : AttributeChain, c.IsIn s site.message ∧ d.IsIn s site.message ∧
        c.name = name ∧ d.name = name ∧ c ≠ d
  duplicatePaths : ∀ resource name first second,
    .duplicateAttributeName resource name first second ∈ (site.describe s).2 ↔
      resource = site.message.fullName ∧
        ∃ c d, AttributeChain.Consecutive s site.message c d ∧ d.name = name ∧
          first = c.path.render ∧ second = d.path.render
  message : ∀ owner field name found,
    .invalidAttributeFieldType owner field name found ∈ (site.describe s).2 ↔
      ∃ c : AttributeChain, c.IsIn s site.message ∧
        c.field.type.messageTarget.isSome = true ∧ c.name = name ∧
        owner = (c.owner site.message).fullName ∧ field = c.field.name ∧
        found = c.field.type.describe

theorem visit_iff_chains {s : Schema} {resource : Message}
    {chains : List AttributeChain} (hall : AttributeChain.Enumerates s resource chains)
    (d : Diagnostic) :
    AttributeField.FaultIn resource (findAttributes s ⟨resourceRoot, []⟩ resource) d ↔
      ∃ front c back, chains = front ++ c :: back ∧
        AttributeField.Fault resource
          (front.map (AttributeChain.found ⟨resourceRoot, []⟩ resource))
          (c.found ⟨resourceRoot, []⟩ resource) d := by
  rw [AttributeField.FaultIn, hall.found]
  constructor
  · rintro ⟨before, a, after, hsplit, hfault⟩
    rcases List.map_eq_append_iff.mp hsplit with ⟨front, rest, rfl, rfl, hrest⟩
    rcases List.map_eq_cons_iff.mp hrest with ⟨c, back, rfl, rfl, rfl⟩
    exact ⟨front, c, back, rfl, hfault⟩
  · rintro ⟨front, c, back, rfl, hfault⟩
    exact ⟨_, _, _, by rw [List.map_append, List.map_cons], hfault⟩

theorem consecutive_iff_lastTo? {s : Schema} {resource : Message}
    {chains front back : List AttributeChain} {c d : AttributeChain}
    (hall : AttributeChain.Enumerates s resource chains)
    (hsplit : chains = front ++ d :: back) :
    AttributeChain.lastTo? front d.name = some c ↔
      AttributeChain.Consecutive s resource c d := by
  have hfront : ∀ e, e ∈ front ↔ e.IsIn s resource ∧ e.Before d := by
    intro e
    rw [AttributeChain.mem_front_iff hall.ordered hsplit, hall.mem_iff]
  have hordered : front.Pairwise AttributeChain.Before := by
    have hwhole := hall.ordered
    rw [hsplit, List.pairwise_append] at hwhole
    exact hwhole.1
  have hd : d.IsIn s resource := by
    rw [← hall.mem_iff, hsplit]
    exact List.mem_append_right _ List.mem_cons_self
  rw [AttributeChain.lastTo?_eq_some_iff hordered, hfront]
  constructor
  · rintro ⟨⟨hc, hbefore⟩, hname, hlast⟩
    exact ⟨hc, hd, hname, hbefore, fun e he hsame hearlier =>
      hlast e ((hfront e).mpr ⟨he, hearlier⟩) hsame⟩
  · intro h
    exact ⟨⟨h.first, h.before⟩, h.name, fun e he hsame =>
      h.between e ((hfront e).mp he).1 hsame ((hfront e).mp he).2⟩

section

variable {s : Schema} {site : ResourceSite}

theorem mem_describe_iff_chains {chains : List AttributeChain}
    (hall : AttributeChain.Enumerates s site.message chains) {report : Diagnostic}
    (hkeys : ∀ (key : Key) (k : KeyField), k.report key ≠ report) :
    report ∈ (site.describe s).2 ↔
      ∃ front c back, chains = front ++ c :: back ∧
        AttributeField.Fault site.message
          (front.map (AttributeChain.found ⟨resourceRoot, []⟩ site.message))
          (c.found ⟨resourceRoot, []⟩ site.message) report := by
  rw [ResourceSite.mem_describe_iff_fault, ← visit_iff_chains hall report]
  constructor
  · intro hfault
    cases hfault with
    | @key key k _ _ => exact absurd rfl (hkeys key k)
    | visit hvisit => exact hvisit
  · exact ResourceSite.Fault.visit

theorem duplicate_mem_describe_iff {resource name first second : String} :
    .duplicateAttributeName resource name first second ∈ (site.describe s).2 ↔
      resource = site.message.fullName ∧
        ∃ c d, AttributeChain.Consecutive s site.message c d ∧ d.name = name ∧
          first = c.path.render ∧ second = d.path.render := by
  rcases AttributeChain.exists_enumerates s site.message with ⟨chains, hall⟩
  rw [mem_describe_iff_chains hall fun key _ => by cases key <;> exact nofun]
  constructor
  · rintro ⟨front, d, back, hsplit, hfault⟩
    cases hfault with
    | name hlast =>
        rw [AttributeChain.lastNamed?_map_found] at hlast
        rcases Option.map_eq_some_iff.mp hlast with ⟨c, hc, rfl⟩
        exact ⟨rfl, c, d, (consecutive_iff_lastTo? hall hsplit).mp hc, rfl, rfl, rfl⟩
  · rintro ⟨rfl, c, d, hconsecutive, rfl, rfl, rfl⟩
    rcases List.append_of_mem ((hall.mem_iff d).mpr hconsecutive.second) with
      ⟨front, back, hsplit⟩
    have hlast : AttributeField.lastNamed?
        (front.map (AttributeChain.found ⟨resourceRoot, []⟩ site.message)) d.name =
          some (c.found ⟨resourceRoot, []⟩ site.message) := by
      rw [AttributeChain.lastNamed?_map_found,
        (consecutive_iff_lastTo? hall hsplit).mpr hconsecutive]
      rfl
    have hfault : AttributeField.Fault site.message _
        (d.found ⟨resourceRoot, []⟩ site.message) _ := AttributeField.Fault.name hlast
    exact ⟨front, d, back, hsplit, hfault⟩

theorem invalidAttribute_mem_describe_iff {owner field name found : String} :
    .invalidAttributeFieldType owner field name found ∈ (site.describe s).2 ↔
      ∃ c : AttributeChain, c.IsIn s site.message ∧
        c.field.type.messageTarget.isSome = true ∧ c.name = name ∧
        owner = (c.owner site.message).fullName ∧ field = c.field.name ∧
        found = c.field.type.describe := by
  rcases AttributeChain.exists_enumerates s site.message with ⟨chains, hall⟩
  rw [mem_describe_iff_chains hall fun key _ => by cases key <;> exact nofun]
  constructor
  · rintro ⟨front, c, back, hsplit, hfault⟩
    cases hfault with
    | type htype =>
        have hc : c ∈ chains := by
          rw [hsplit]
          exact List.mem_append_right _ List.mem_cons_self
        exact ⟨c, (hall.mem_iff c).mp hc, htype, rfl, rfl, rfl, rfl⟩
  · rintro ⟨c, hc, htype, rfl, rfl, rfl, rfl⟩
    rcases List.append_of_mem ((hall.mem_iff c).mpr hc) with ⟨front, back, hsplit⟩
    exact ⟨front, c, back, hsplit, AttributeField.Fault.type htype⟩

theorem exists_consecutive_of_before {c d : AttributeChain}
    (hc : c.IsIn s site.message) (hd : d.IsIn s site.message)
    (hname : c.name = d.name) (hbefore : c.Before d) :
    ∃ e, AttributeChain.Consecutive s site.message e d := by
  rcases AttributeChain.exists_enumerates s site.message with ⟨chains, hall⟩
  rcases List.append_of_mem ((hall.mem_iff d).mpr hd) with ⟨front, back, hsplit⟩
  have hfront : c ∈ front :=
    (AttributeChain.mem_front_iff hall.ordered hsplit).mpr
      ⟨(hall.mem_iff c).mpr hc, hbefore⟩
  cases hlast : AttributeChain.lastTo? front d.name with
  | some e => exact ⟨e, (consecutive_iff_lastTo? hall hsplit).mp hlast⟩
  | none =>
      have hnone := List.find?_eq_none.mp hlast c (List.mem_reverse.mpr hfront)
      exact absurd (beq_iff_eq.mpr hname) hnone

theorem exists_duplicate_iff {name : String} :
    (∃ resource first second,
      .duplicateAttributeName resource name first second ∈ (site.describe s).2) ↔
      ∃ c d : AttributeChain, c.IsIn s site.message ∧ d.IsIn s site.message ∧
        c.name = name ∧ d.name = name ∧ c ≠ d := by
  simp only [duplicate_mem_describe_iff]
  constructor
  · rintro ⟨_, _, _, _, c, d, h, rfl, _, _⟩
    refine ⟨c, d, h.first, h.second, h.name, rfl, ?_⟩
    rintro rfl
    exact AttributeChain.not_before_self _ h.before
  · rintro ⟨c, d, hc, hd, hcname, hdname, hne⟩
    rcases AttributeChain.exists_enumerates s site.message with ⟨chains, hall⟩
    have hsome : ∃ c d, AttributeChain.Consecutive s site.message c d ∧
        d.name = name := by
      rcases AttributeChain.before_or_before hall.ordered ((hall.mem_iff c).mpr hc)
        ((hall.mem_iff d).mpr hd) hne with hbefore | hafter
      · rcases exists_consecutive_of_before hc hd (hcname.trans hdname.symm) hbefore with
          ⟨e, he⟩
        exact ⟨e, d, he, hdname⟩
      · rcases exists_consecutive_of_before hd hc (hdname.trans hcname.symm) hafter with
          ⟨e, he⟩
        exact ⟨e, c, he, hcname⟩
    rcases hsome with ⟨c, d, hconsecutive, hname⟩
    exact ⟨_, _, _, rfl, c, d, hconsecutive, hname, rfl, rfl⟩

end

/-- The attributes of a resource are those at the ends of all chains, and the last chain
to a name is the one recorded. -/
theorem attributes_of_resource {s : Schema} {target : MessageRef} {resource : Message}
    (registered : s.message? target = some resource) (label : String)
    (path : AccessPath) :
    AttributeSearch s resource
      ((⟨resource, label, path⟩ : ResourceSite).describe s).1.attributePaths ∧
    AttributeReports s ⟨resource, label, path⟩ :=
  ⟨attributeSearch_recordAttributes registered,
    { duplicate := fun _ => exists_duplicate_iff
      duplicatePaths := fun _ _ _ _ => duplicate_mem_describe_iff
      message := fun _ _ _ _ => invalidAttribute_mem_describe_iff }⟩

/-!
## An album with a photo on two chains
-/

namespace Sample

def coverField : Field :=
  ⟨"cover", .single (.message ⟨"Photo"⟩), false, true, {}⟩

def pagesField : Field :=
  ⟨"pages", .list (.message ⟨"Page"⟩), false, false, {}⟩

def albumMessage : Message :=
  { package := "", name := "Album", resourceType := some "album"
    fields := [coverField, pagesField] }

def photoField : Field :=
  ⟨"photo", .single (.message ⟨"Photo"⟩), true, true, {}⟩

def pageMessage : Message :=
  { package := "", name := "Page", fields := [photoField] }

def captionField : Field :=
  ⟨"caption", .single (.scalar .string), false, false, ⟨false, false, some "caption"⟩⟩

def cameraField : Field :=
  ⟨"camera", .single (.message ⟨"Camera"⟩), false, true, ⟨false, false, some "camera"⟩⟩

def photoMessage : Message :=
  { package := "", name := "Photo"
    fields :=
      [captionField, ⟨"album", .single (.message ⟨"Album"⟩), false, true, {}⟩,
        cameraField] }

def albumSchema : Schema :=
  { messages := [albumMessage, pageMessage, photoMessage] }

theorem message?_albumSchema :
    albumSchema.message? ⟨"Album"⟩ = some albumMessage ∧
      albumSchema.message? ⟨"Page"⟩ = some pageMessage ∧
      albumSchema.message? ⟨"Photo"⟩ = some photoMessage := by
  have halbum : albumMessage.reference = ⟨"Album"⟩ :=
    reference_of_global rfl rfl (by decide)
  have hpage : pageMessage.reference = ⟨"Page"⟩ :=
    reference_of_global rfl rfl (by decide)
  have hphoto : photoMessage.reference = ⟨"Photo"⟩ :=
    reference_of_global rfl rfl (by decide)
  simp [Schema.message?, albumSchema, halbum, hpage, hphoto]

def coverCaption : AttributeChain :=
  ⟨[⟨coverField, photoMessage⟩], [0], 0, captionField, "caption"⟩

def pageCaption : AttributeChain :=
  ⟨[⟨pagesField, pageMessage⟩, ⟨photoField, photoMessage⟩], [1, 0], 0, captionField,
    "caption"⟩

def coverCamera : AttributeChain :=
  ⟨[⟨coverField, photoMessage⟩], [0], 2, cameraField, "camera"⟩

theorem albumFullNames :
    albumMessage.fullName = "Album" ∧ pageMessage.fullName = "Page" ∧
      photoMessage.fullName = "Photo" :=
  ⟨fullName_of_global rfl rfl (by decide),
    fullName_of_global rfl rfl (by decide),
    fullName_of_global rfl rfl (by decide)⟩

theorem route_cover : Route albumSchema.AttributeEdge albumMessage
    [⟨coverField, photoMessage⟩] :=
  .cons ⟨List.mem_cons_self, rfl, ⟨"Photo"⟩, rfl, message?_albumSchema.2.2⟩ (.nil _)

theorem simple_cover :
    ((stops albumMessage [⟨coverField, photoMessage⟩]).map Message.fullName).Nodup := by
  simp [stops, albumFullNames]

theorem isIn_coverCaption : coverCaption.IsIn albumSchema albumMessage :=
  ⟨route_cover, .cons rfl (.nil _), simple_cover, rfl, rfl⟩

theorem isIn_coverCamera : coverCamera.IsIn albumSchema albumMessage :=
  ⟨route_cover, .cons rfl (.nil _), simple_cover, rfl, rfl⟩

theorem isIn_pageCaption : pageCaption.IsIn albumSchema albumMessage :=
  { route :=
      .cons ⟨List.mem_of_getElem? (i := 1) rfl, rfl, ⟨"Page"⟩, rfl,
          message?_albumSchema.2.1⟩
        (.cons ⟨List.mem_cons_self, rfl, ⟨"Photo"⟩, rfl, message?_albumSchema.2.2⟩
          (.nil _))
    positions := .cons rfl (.cons rfl (.nil _))
    simple := by simp [pageCaption, stops, albumFullNames]
    field := rfl
    named := rfl }

end Sample

theorem attributes_of_albumMessage :
    Sample.albumSchema.message? ⟨"Album"⟩ = some Sample.albumMessage ∧
    ∀ label path,
      AttributeSearch Sample.albumSchema Sample.albumMessage
        ((⟨Sample.albumMessage, label, path⟩ : ResourceSite).describe
          Sample.albumSchema).1.attributePaths ∧
      AttributeReports Sample.albumSchema ⟨Sample.albumMessage, label, path⟩ ∧
      (∃ resource first second,
        .duplicateAttributeName resource "caption" first second ∈
          ((⟨Sample.albumMessage, label, path⟩ : ResourceSite).describe
            Sample.albumSchema).2) ∧
      .invalidAttributeFieldType "Photo" "camera" "camera" "message Camera" ∈
        ((⟨Sample.albumMessage, label, path⟩ : ResourceSite).describe
          Sample.albumSchema).2 := by
  have registered := Sample.message?_albumSchema.1
  refine ⟨registered, fun label path => ?_⟩
  rcases attributes_of_resource registered label path with ⟨hsearch, hreports⟩
  refine ⟨hsearch, hreports, ?_, ?_⟩
  · apply (hreports.duplicate "caption").mpr
    refine ⟨Sample.coverCaption, Sample.pageCaption, Sample.isIn_coverCaption,
      Sample.isIn_pageCaption, rfl, rfl, ?_⟩
    intro heq
    cases congrArg AttributeChain.positions heq
  · apply (hreports.message "Photo" "camera" "camera" "message Camera").mpr
    exact ⟨Sample.coverCamera, Sample.isIn_coverCamera, rfl, rfl,
      Sample.albumFullNames.2.2.symm, rfl, rfl⟩

end AccessChecks
