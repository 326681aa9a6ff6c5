import AccessChecks.Proofs.Reading
import AccessChecks.Proofs.RequestData
import AccessChecks.Proofs.ResourceSearch

/-!
# Paths of a discovered resource

## Reading along routes

The segments of a route can be read on every value of its first message, and the
values that they reach are values of its last one.  A path goes on with the field
that it was looking for.

## Discovered paths

The path of a resource can be read on every value of the request.  On what it
reaches, the paths to the keys and to the attributes can be read in turn, and end
at values of the types of their fields.
-/

namespace AccessChecks

open RouteStep Reading

namespace Schema

/-- The data that a field of a type is when it is read as a whole. -/
def HoldsValue (s : Schema) : FieldType → Data → Prop
  | .single kind, d => s.Holds kind d
  | .list kind, d => ∃ items, d = .list items ∧ ∀ e ∈ items, s.Holds kind e
  | .map key kind, d =>
      ∃ entries, d = .map entries ∧
        (∀ e ∈ entries, key.holds e.1 = true ∧ e.1.isMapKey = true) ∧
        ∀ e ∈ entries, s.Holds kind e.2

theorem fits_traverse {s : Schema} {f : Field} {w : Data}
    (h : s.HoldsField f w) :
    (Segment.traverse f).hop.Fits (s.Holds f.type.valueKind) w := by
  cases h with
  | plain htype hpresence hholds =>
      simp only [Segment.traverse, htype, hpresence]
      exact hholds
  | absent htype hpresence =>
      simp only [Segment.traverse, htype, hpresence]
      exact Or.inl rfl
  | present htype hpresence hholds =>
      simp only [Segment.traverse, htype, hpresence]
      exact Or.inr ⟨_, rfl, hholds⟩
  | list htype hitems =>
      simp only [Segment.traverse, htype]
      exact ⟨_, rfl, hitems⟩
  | map htype _ _ hvalues =>
      simp only [Segment.traverse, htype]
      exact ⟨_, rfl, hvalues⟩

theorem fits_read {s : Schema} {f : Field} {w : Data}
    (h : s.HoldsField f w) :
    (Segment.read f).hop.Fits (s.HoldsValue f.type) w := by
  cases h with
  | plain htype hpresence hholds =>
      simp only [Segment.read, htype, hpresence]
      exact hholds
  | absent htype hpresence =>
      simp only [Segment.read, htype, hpresence]
      exact Or.inl rfl
  | present htype hpresence hholds =>
      simp only [Segment.read, htype, hpresence]
      exact Or.inr ⟨_, rfl, hholds⟩
  | list htype hitems =>
      simp only [Segment.read, htype, FieldType.isCollection, Bool.not_true,
        Bool.and_false]
      exact ⟨_, rfl, hitems⟩
  | map htype _ hkeys hvalues =>
      simp only [Segment.read, htype, FieldType.isCollection, Bool.not_true,
        Bool.and_false]
      exact ⟨_, rfl, hkeys, hvalues⟩

theorem holdsMessage_of_edge {s : Schema}
    {target : Field → Option MessageRef}
    (faithful : ∀ f reference, target f = some reference →
      f.type.messageTarget = some reference)
    {m n : Message} {f : Field} (h : s.Edge target m f n) {d : Data}
    (hd : s.Holds f.type.valueKind d) : s.HoldsMessage n d := by
  rcases Option.bind_eq_some_iff.mp h.2 with ⟨reference, htarget, found⟩
  have hmessage := faithful f reference htarget
  cases hkind : f.type.valueKind with
  | scalar t =>
      simp [FieldType.messageTarget, hkind, Kind.message?] at hmessage
  | enum name =>
      simp [FieldType.messageTarget, hkind, Kind.message?] at hmessage
  | message t =>
      simp only [FieldType.messageTarget, hkind, Kind.message?,
        Option.some.injEq] at hmessage
      rw [hkind, hmessage] at hd
      exact holdsMessage_of_holds found hd

theorem fits_route {s : Schema} {target : Field → Option MessageRef}
    (faithful : ∀ f reference, target f = some reference →
      f.type.messageTarget = some reference)
    {P : Data → Prop} {back : List Segment} {m : Message}
    {steps : List RouteStep} (h : Route (s.Edge target) m steps)
    (hback : ∀ e, s.HoldsMessage (arrival m steps) e → Fits P back e)
    {d : Data} (hd : s.HoldsMessage m d) :
    Fits P (segments steps ++ back) d := by
  induction h generalizing d with
  | nil m => exact hback d hd
  | cons hedge _ ih =>
      intro x hx
      rcases hd _ hedge.1 x hx with ⟨w, hw, hfield⟩
      refine ⟨w, hw, (fits_traverse hfield).mono ?_⟩
      intro e he
      exact ih hback (holdsMessage_of_edge faithful hedge he)

theorem fits_field {s : Schema} {P : Data → Prop} {m : Message} {f : Field}
    {segment : Segment} (hmem : f ∈ m.fields) (hname : segment.name = f.name)
    (hfits : ∀ w, s.HoldsField f w → segment.hop.Fits P w) {d : Data}
    (hd : s.HoldsMessage m d) : Fits P [segment] d := by
  intro x hx
  rw [hname] at hx
  rcases hd f hmem x hx with ⟨w, hw, hfield⟩
  exact ⟨w, hw, hfits w hfield⟩

end Schema

namespace Field

theorem messageTarget_of_resourceTarget {f : Field} {reference : MessageRef}
    (h : f.resourceTarget = some reference) :
    f.type.messageTarget = some reference := by
  rw [resourceTarget] at h
  split at h
  · cases h
  · exact h

theorem messageTarget_of_keyTarget {f : Field} {reference : MessageRef}
    (h : f.keyTarget = some reference) :
    f.type.messageTarget = some reference :=
  FieldType.messageTarget_of_singleMessage h

theorem messageTarget_of_attributeTarget {f : Field} {reference : MessageRef}
    (h : f.attributeTarget = some reference) :
    f.type.messageTarget = some reference := by
  rw [attributeTarget] at h
  split at h
  · cases h
  · exact h

end Field

/-!
## Paths to keys
-/

/-- A path to a key: only its last segment may fan out, and its values are those
of the kind that it ends at. -/
structure KeyPath (s : Schema) (resource : Message) (p : AccessPath)
    (kind : Kind) : Prop where
  leaf : p.leafType = some (.single kind)
  isId : kind.isId = true
  fits : ∀ d, s.HoldsMessage resource d → Fits (s.Holds kind) p.segments d

theorem keyTarget_not_collection {f : Field}
    (h : f.keyTarget.isSome) : f.type.isCollection = false := by
  cases htype : f.type with
  | single kind => rfl
  | list kind => simp [Field.keyTarget, FieldType.singleMessage, htype] at h
  | map key kind => simp [Field.keyTarget, FieldType.singleMessage, htype] at h

theorem crossesCollection_key_route {s : Schema} {m : Message}
    {steps : List RouteStep} (h : Schema.Route (s.Edge Field.keyTarget) m steps) :
    (segments steps).any Segment.crossesCollection = false := by
  induction h with
  | nil m => rfl
  | cons hedge _ ih =>
      rw [segments_cons, List.any_cons, ih, Bool.or_false,
        Segment.crossesCollection_traverse]
      apply keyTarget_not_collection
      rcases Option.bind_eq_some_iff.mp hedge.2 with ⟨_, htarget, _⟩
      simp [htarget]

theorem exists_route_of_findKey {s : Schema} {key : Key} {resource : Message}
    {found : KeyField}
    (h : findKey s key ⟨resourceRoot, []⟩ resource = some found) :
    ∃ steps, Schema.Route (s.Edge Field.keyTarget) resource steps ∧
      found.field ∈ (arrival resource steps).fields ∧
      key.accepts found.field = true ∧
      found.path.segments =
        segments steps ++ [Segment.traverse found.field] := by
  rw [findKey_eq_here] at h
  rcases (keyBelow_firstMatch s key).exists_hit h with ⟨steps, f, hit⟩
  refine ⟨steps, hit.fresh.route, ?_, ?_, ?_⟩
  · rw [hit.built]
    exact List.mem_of_find?_eq_some hit.marked
  · rw [hit.built]
    exact List.find?_some hit.marked
  · rw [hit.built]
    simp [Key.keyField, AccessPath.append, AccessPath.through]

theorem leafType_of_findKey {s : Schema} {key : Key} {resource : Message}
    {found : KeyField}
    (h : findKey s key ⟨resourceRoot, []⟩ resource = some found) :
    found.path.leafType = some (.single found.field.type.valueKind) := by
  rcases exists_route_of_findKey h with ⟨steps, _, _, _, hpath⟩
  have hleaf : found.path.leafType =
      some (Segment.traverse found.field).valueType := by
    simp [AccessPath.leafType, AccessPath.last?, hpath]
  rw [hleaf, Segment.valueType, Segment.crossesCollection_traverse]
  cases htype : found.field.type <;>
    simp [Segment.traverse, FieldType.isCollection, FieldType.valueKind, htype]

theorem keyPath_of_findKey {s : Schema} {key : Key} {resource : Message}
    {found : KeyField}
    (h : findKey s key ⟨resourceRoot, []⟩ resource = some found)
    (usable : found.path.endsAtIdKind = true) :
    KeyPath s resource found.path found.field.type.valueKind := by
  rcases exists_route_of_findKey h with ⟨steps, hroute, hmem, _, hpath⟩
  have hleaf := leafType_of_findKey h
  exact
    { leaf := hleaf
      isId := by simpa [AccessPath.endsAtIdKind, hleaf] using usable
      fits := by
        intro d hd
        rw [hpath]
        apply Schema.fits_route
          (fun f reference => Field.messageTarget_of_keyTarget) hroute _ hd
        intro e he
        exact Schema.fits_field hmem rfl (fun w => Schema.fits_traverse) he }

theorem crossesCollection_tenant {s : Schema} {resource : Message}
    {found : KeyField}
    (h : findKey s .tenant ⟨resourceRoot, []⟩ resource = some found) :
    found.path.crossesCollection = false := by
  rcases exists_route_of_findKey h with ⟨steps, hroute, _, haccepts, hpath⟩
  have hfield : found.field.type.isCollection = false := by
    simp [Key.accepts] at haccepts
    exact haccepts.2
  rw [AccessPath.crossesCollection, hpath, List.any_append,
    crossesCollection_key_route hroute]
  simp [Segment.crossesCollection_traverse, hfield]

/-!
## Paths to attributes
-/

theorem mem_entries_insert {α : Type} {entries : Entries α} {key : String}
    {value : α} {e : String × α} (h : e ∈ Entries.insert entries key value) :
    e = (key, value) ∨ e ∈ entries := by
  induction entries with
  | nil => simpa [Entries.insert] using h
  | cons pair rest ih =>
      rw [Entries.insert] at h
      split at h
      · rcases List.mem_cons.mp h with hhead | htail
        · exact Or.inl hhead
        · exact Or.inr (List.mem_cons_of_mem _ htail)
      · split at h
        · exact List.mem_cons.mp h
        · rcases List.mem_cons.mp h with hhead | htail
          · rw [hhead]
            exact Or.inr List.mem_cons_self
          · rcases ih htail with hnew | hold
            · exact Or.inl hnew
            · exact Or.inr (List.mem_cons_of_mem _ hold)

theorem mem_recordAttributes {resource : Message}
    {recorded : Entries AccessPath} {found : List AttributeField}
    {e : String × AccessPath}
    (h : e ∈ (recordAttributes resource recorded found).1) :
    e ∈ recorded ∨ ∃ a ∈ found, e = (a.name, a.path) := by
  induction found generalizing recorded with
  | nil => exact Or.inl h
  | cons a rest ih =>
      rcases ih h with hbefore | ⟨b, hb, he⟩
      · rcases mem_entries_insert hbefore with hnew | hold
        · exact Or.inr ⟨a, List.mem_cons_self, hnew⟩
        · exact Or.inl hold
      · exact Or.inr ⟨b, List.mem_cons_of_mem a hb, he⟩

/-- Where an attribute was found: a field with its name in the last message of a
fresh route. -/
structure AttributeAt (s : Schema) (branch : List String) (path : AccessPath)
    (owner : Message) (fields : List Field) (a : AttributeField)
    (steps : List RouteStep) : Prop where
  fresh : s.FreshRoute Field.attributeTarget branch fields steps
  owner : a.owner = arrival owner steps
  field : a.field ∈ a.owner.fields
  named : a.field.marks.attributeName = some a.name
  path : a.path = (path.through steps).append (Segment.read a.field)

theorem AttributeAt.of_rest {s : Schema} {branch : List String}
    {path : AccessPath} {owner : Message} {f : Field} {rest : List Field}
    {a : AttributeField} {steps : List RouteStep}
    (h : AttributeAt s branch path owner rest a steps) :
    AttributeAt s branch path owner (f :: rest) a steps := by
  refine { h with fresh := ?_ }
  cases h.fresh with
  | nil => exact Schema.FreshRoute.nil _ _
  | cons hmem hentered hrest =>
      exact Schema.FreshRoute.cons (List.mem_cons_of_mem f hmem) hentered hrest

theorem exists_attributeAt (s : Schema) (branch : List String)
    (path : AccessPath) (owner : Message) (fields : List Field)
    (hfields : ∀ f ∈ fields, f ∈ owner.fields) {a : AttributeField}
    (h : a ∈ attributesBelow s branch path owner fields) :
    ∃ steps, AttributeAt s branch path owner fields a steps := by
  induction branch, path, owner, fields using attributesBelow.induct s with
  | case1 branch path owner =>
      rw [attributesBelow] at h
      cases h
  | case2 branch path owner f rest ihbelow ihrest =>
      rw [attributesBelow, List.mem_append, List.mem_append] at h
      rcases h with (hown | hbelow) | hrest
      · cases hnamed : f.marks.attributeName with
        | none =>
            rw [hnamed] at hown
            cases hown
        | some name =>
            rw [hnamed] at hown
            have ha := List.mem_singleton.mp hown
            subst ha
            exact ⟨[],
              { fresh := Schema.FreshRoute.nil _ _
                owner := rfl
                field := hfields f List.mem_cons_self
                named := hnamed
                path := by rw [AccessPath.through_nil] }⟩
      · split at hbelow
        · cases hbelow
        · rename_i n hentered
          rcases ihbelow n hentered (fun g hg => hg) hbelow with ⟨steps, hat⟩
          exact ⟨⟨f, n⟩ :: steps,
            { fresh :=
                Schema.FreshRoute.cons List.mem_cons_self hentered hat.fresh
              owner := hat.owner
              field := hat.field
              named := hat.named
              path := by rw [AccessPath.through_cons]; exact hat.path }⟩
      · have hsub : ∀ g ∈ rest, g ∈ owner.fields := by
          intro g hg
          exact hfields g (List.mem_cons_of_mem f hg)
        rcases ihrest hsub hrest with ⟨steps, hat⟩
        exact ⟨steps, hat.of_rest⟩

theorem exists_route_of_mem_findAttributes {s : Schema} {resource : Message}
    {a : AttributeField}
    (h : a ∈ findAttributes s ⟨resourceRoot, []⟩ resource) :
    ∃ steps, Schema.Route (s.Edge Field.attributeTarget) resource steps ∧
      a.field ∈ (arrival resource steps).fields ∧
      a.path.segments = segments steps ++ [Segment.read a.field] := by
  rcases exists_attributeAt s _ _ resource _ (fun f hf => hf) h with
    ⟨steps, hat⟩
  have hmem := hat.field
  rw [hat.owner] at hmem
  exact ⟨steps, hat.fresh.route, hmem,
    by simp [hat.path, AccessPath.append, AccessPath.through]⟩

theorem fits_attribute {s : Schema} {resource : Message} {a : AttributeField}
    (h : a ∈ findAttributes s ⟨resourceRoot, []⟩ resource) {P : Data → Prop}
    (hfits : ∀ w, s.HoldsField a.field w → (Segment.read a.field).hop.Fits P w)
    {d : Data} (hd : s.HoldsMessage resource d) : Fits P a.path.segments d := by
  rcases exists_route_of_mem_findAttributes h with ⟨steps, hroute, hmem, hpath⟩
  rw [hpath]
  apply Schema.fits_route
    (fun f reference => Field.messageTarget_of_attributeTarget) hroute _ hd
  intro e he
  exact Schema.fits_field hmem rfl hfits he

theorem leafType_of_mem_findAttributes {s : Schema} {resource : Message}
    {a : AttributeField}
    (h : a ∈ findAttributes s ⟨resourceRoot, []⟩ resource) :
    a.path.leafType = some a.field.type := by
  rcases exists_route_of_mem_findAttributes h with ⟨steps, _, _, hpath⟩
  have hvalue : (Segment.read a.field).valueType = a.field.type := by
    rw [Segment.valueType, Segment.crossesCollection_read]
    rfl
  simp [AccessPath.leafType, AccessPath.last?, hpath, hvalue]

structure AttributePath (s : Schema) (resource : Message) (p : AccessPath)
    (type : FieldType) : Prop where
  leaf : p.leafType = some type
  fits : ∀ d, s.HoldsMessage resource d → Fits (s.HoldsValue type) p.segments d

theorem attributePath_of_mem {s : Schema} {resource : Message}
    {a : AttributeField}
    (h : a ∈ findAttributes s ⟨resourceRoot, []⟩ resource) :
    AttributePath s resource a.path a.field.type :=
  { leaf := leafType_of_mem_findAttributes h
    fits := fun _ hd => fits_attribute h (fun _ => Schema.fits_read) hd }

/-!
## Discovered resources
-/

/-- All paths of a resource can be read on an instance of it. -/
structure Resource.Readable (s : Schema) (r : Resource) (d : Data) : Prop where
  id : ∀ p, r.usableIdPath = some p →
    ∃ kind, p.leafType = some (.single kind) ∧ kind.isId = true ∧
      Fits (s.Holds kind) p.segments d
  tenant : ∀ p, r.usableTenantPath = some p →
    ∃ kind, p.leafType = some (.single kind) ∧ kind.isId = true ∧
      Fits (s.Holds kind) p.segments d
  attributes : ∀ e ∈ r.attributePaths,
    ∃ type, e.2.leafType = some type ∧
      Fits (s.HoldsValue type) e.2.segments d

theorem readable_describe {s : Schema} {site : ResourceSite} {d : Data}
    (hd : s.HoldsMessage site.message d) :
    (site.describe s).1.Readable s d :=
  { id := by
      intro p hp
      rcases Option.filter_eq_some_iff.mp hp with ⟨hid, usable⟩
      rcases Option.map_eq_some_iff.mp hid with ⟨found, hfound, rfl⟩
      have hkey := keyPath_of_findKey hfound usable
      exact ⟨_, hkey.leaf, hkey.isId, hkey.fits d hd⟩
    tenant := by
      intro p hp
      rcases Option.filter_eq_some_iff.mp hp with ⟨htenant, usable⟩
      rcases Option.map_eq_some_iff.mp htenant with ⟨found, hfound, rfl⟩
      have hkey := keyPath_of_findKey hfound usable
      exact ⟨_, hkey.leaf, hkey.isId, hkey.fits d hd⟩
    attributes := by
      intro e he
      rcases mem_recordAttributes he with hnil | ⟨a, ha, rfl⟩
      · cases hnil
      · have hpath := attributePath_of_mem ha
        exact ⟨_, hpath.leaf, hpath.fits d hd⟩ }

theorem exists_site_of_discover {s : Schema} {target : MessageRef}
    {r : Resource} (found : (discover s target).1 = some r) :
    ∃ request site, s.message? target = some request ∧
      findResource s ⟨requestRoot, []⟩ request = some site ∧
      (site.describe s).1 = r := by
  cases hrequest : s.message? target with
  | none =>
      simp [discover, hrequest] at found
  | some request =>
      rw [discover_fst hrequest] at found
      rcases Option.map_eq_some_iff.mp found with ⟨site, hsite, hr⟩
      exact ⟨request, site, rfl, hsite, hr⟩

theorem fits_site_of_discover {s : Schema} {target : MessageRef} {r : Resource}
    (found : (discover s target).1 = some r) :
    ∃ site : ResourceSite, (site.describe s).1 = r ∧
      ∀ d, s.Holds (.message target) d →
        Fits (s.HoldsMessage site.message) r.path.segments d := by
  rcases exists_site_of_discover found with ⟨request, site, hrequest, hsite, hr⟩
  rcases exists_leadsToResource hsite with ⟨steps, hsteps, harrival⟩
  have hroute := hsteps.route
  rw [← Schema.edge_resourceTarget] at hroute
  refine ⟨site, hr, ?_⟩
  intro d hd
  have hfits : Fits (s.HoldsMessage site.message) (segments steps ++ []) d := by
    apply Schema.fits_route
      (fun f reference => Field.messageTarget_of_resourceTarget) hroute _
      (Schema.holdsMessage_of_holds hrequest hd)
    intro e he
    rw [← harrival] at he
    exact he
  rw [List.append_nil] at hfits
  rw [← hr, hsteps.path]
  exact hfits

theorem readable_of_discover {s : Schema} {target : MessageRef} {r : Resource}
    (found : (discover s target).1 = some r) {d : Data}
    (hd : s.Holds (.message target) d) :
    Fits (r.Readable s) r.path.segments d := by
  rcases fits_site_of_discover found with ⟨site, rfl, hfits⟩
  exact (hfits d hd).mono fun e he => readable_describe he

def Resource.HasSingleTenant (r : Resource) : Prop :=
  ∀ p, r.usableTenantPath = some p → p.crossesCollection = false

theorem hasSingleTenant_of_discover {s : Schema} {target : MessageRef}
    {r : Resource} (found : (discover s target).1 = some r) :
    r.HasSingleTenant := by
  intro p hp
  rcases exists_site_of_discover found with ⟨_, site, _, _, rfl⟩
  rcases Option.filter_eq_some_iff.mp hp with ⟨htenant, _⟩
  rcases Option.map_eq_some_iff.mp htenant with ⟨key, hkey, rfl⟩
  exact crossesCollection_tenant hkey

theorem fansOutLast_of_usableIdPath {s : Schema} {target : MessageRef}
    {r : Resource} (found : (discover s target).1 = some r) {p : AccessPath}
    (hp : r.usableIdPath = some p) (hcross : p.crossesCollection = true) :
    ∃ front last, p.segments = front ++ [last] ∧
      front.any Segment.crossesCollection = false ∧
      last.crossesCollection = true := by
  rcases exists_site_of_discover found with ⟨_, site, _, _, rfl⟩
  rcases Option.filter_eq_some_iff.mp hp with ⟨hid, _⟩
  rcases Option.map_eq_some_iff.mp hid with ⟨key, hkey, rfl⟩
  rcases exists_route_of_findKey hkey with ⟨steps, hroute, _, _, hpath⟩
  have hfront := crossesCollection_key_route hroute
  refine ⟨segments steps, Segment.traverse key.field, hpath, hfront, ?_⟩
  rw [AccessPath.crossesCollection, hpath, List.any_append, hfront] at hcross
  simpa using hcross

theorem leafType_of_mem_attributePaths {s : Schema} {target : MessageRef}
    {r : Resource} (found : (discover s target).1 = some r)
    {e : String × AccessPath} (he : e ∈ r.attributePaths) :
    ∃ type, e.2.leafType = some type := by
  rcases exists_site_of_discover found with ⟨_, site, _, _, rfl⟩
  rcases mem_recordAttributes he with hnil | ⟨a, ha, rfl⟩
  · cases hnil
  · exact ⟨_, (attributePath_of_mem ha).leaf⟩

theorem pairwise_keys_recordAttributes {resource : Message}
    {recorded : Entries AccessPath}
    (h : (Entries.keys recorded).Pairwise (· < ·))
    (found : List AttributeField) :
    (Entries.keys (recordAttributes resource recorded found).1).Pairwise
      (· < ·) := by
  induction found generalizing recorded with
  | nil => exact h
  | cons a rest ih => exact ih (Entries.pairwise_keys_insert _ _ h)

theorem nodup_keys_attributePaths {s : Schema} {target : MessageRef}
    {r : Resource} (found : (discover s target).1 = some r) :
    (Entries.keys r.attributePaths).Nodup := by
  rcases exists_site_of_discover found with ⟨_, site, _, _, rfl⟩
  have hordered : (Entries.keys (site.describe s).1.attributePaths).Pairwise
      (· < ·) := pairwise_keys_recordAttributes List.Pairwise.nil _
  exact hordered.imp fun hlt heq => by
    rw [heq] at hlt
    exact String.lt_irrefl _ hlt

end AccessChecks
