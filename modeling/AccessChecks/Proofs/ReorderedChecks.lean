import AccessChecks.Proofs.CheckDecisions
import AccessChecks.Proofs.ConformanceChecks
import AccessChecks.Proofs.MapAttributes
import AccessChecks.Proofs.ReorderedValues

/-!
# Checks and the order of maps

## Attributes and keys

A map attribute does not see the order of its map.  An attribute that is gathered along
a path without maps sees no order of other maps either, and a key is read at one place.

## Checks

Requests that are the same up to order have the same checks up to order.  Without a map
on the paths to the resource and to its id they have the same checks in the same order.

## Decisions

The kind, the mode and the decision on any outcomes are the same.

## Conformance schema

No attribute of the conformance schema is gathered over the values of a map, though
folders are: the map is on the way to the resource and not below it.
-/

namespace AccessChecks

open Reading Data

/-!
## Attributes and keys
-/

namespace Schema

/-- If the type is that of a map, the data has the entries of one, under different keys. -/
def HoldsDistinct (s : Schema) (type : FieldType) (d : Data) : Prop :=
  ∀ key kind entries, type = .map key kind → d = .map entries →
    s.HoldsEntries key kind entries

theorem fits_read_distinct {s : Schema} {f : Field} {w : Data} (h : s.HoldsField f w) :
    (Segment.read f).hop.Fits (s.HoldsDistinct f.type) w := by
  have hsingle : ∀ kind d, f.type = .single kind → s.HoldsDistinct f.type d := by
    intro kind d htype key value entries hmap
    rw [htype] at hmap
    cases hmap
  cases h with
  | plain htype hpresence hholds =>
      simp only [Segment.read, hpresence, Bool.false_and]
      exact hsingle _ _ htype
  | absent htype hpresence =>
      simp only [Segment.read, htype, hpresence]
      exact Or.inl rfl
  | present htype hpresence hholds =>
      simp only [Segment.read, htype, hpresence, FieldType.isCollection]
      refine Or.inr ⟨_, rfl, ?_⟩
      rw [← htype]
      exact hsingle _ _ htype
  | list htype hitems =>
      simp only [Segment.read, htype, FieldType.isCollection, Bool.not_true,
        Bool.and_false]
      intro key kind entries hmap
      cases hmap
  | map htype distinct hkeys hvalues =>
      simp only [Segment.read, htype, FieldType.isCollection, Bool.not_true,
        Bool.and_false]
      intro key kind entries hmap hentries
      cases hmap
      cases hentries
      exact ⟨distinct, hkeys, hvalues⟩

end Schema

namespace Data.SameUpToOrder

theorem text?_eq {d e : Data} (h : SameUpToOrder d e) : d.text? = e.text? := by
  cases h <;> rfl

theorem keyText?_eq {d e : Data} (h : SameUpToOrder d e) : d.keyText? = e.keyText? := by
  cases h <;> rfl

theorem kindAttribute?_eq {d e : Data} (h : SameUpToOrder d e) (kind : Kind) :
    kind.attribute? d = kind.attribute? e := by
  cases h with
  | same => rfl
  | _ =>
      -- only scalars have an attribute value
      cases kind with
      | scalar t => cases t <;> rfl
      | _ => rfl

theorem bind_eq {α : Type} {v w : Option Data} (h : Option.Rel SameUpToOrder v w)
    {f : Data → Option α} (hf : ∀ d e, SameUpToOrder d e → f d = f e) :
    v.bind f = w.bind f := by
  cases h with
  | none => rfl
  | some hde => exact hf _ _ hde

theorem leafText_eq {a b : Option Data} (h : Option.Rel SameUpToOrder a b) :
    (a.bind Data.text?).getD "" = (b.bind Data.text?).getD "" := by
  rw [bind_eq h fun _ _ hde => hde.text?_eq]

theorem attributeEntry?_eq {a b : ScalarData × Data} (h : OnValues SameUpToOrder a b)
    (kind : Kind) : kind.attributeEntry? a = kind.attributeEntry? b := by
  cases h with
  | intro key hvalue => rw [Kind.attributeEntry?, Kind.attributeEntry?,
      hvalue.kindAttribute?_eq kind]

theorem attribute?_eq {s : Schema} {type : FieldType} {d e : Data}
    (h : SameUpToOrder d e) (distinct : s.HoldsDistinct type d) :
    type.attribute? d = type.attribute? e := by
  cases type with
  | single kind => exact h.kindAttribute?_eq kind
  | list kind =>
      cases h with
      | list hitems =>
          rw [FieldType.attribute?, FieldType.attribute?,
            mapM_eq_of_forall₂ hitems fun _ _ hde => hde.kindAttribute?_eq kind]
      | _ => rfl
  | map key kind =>
      cases h with
      | map hperm hvalues =>
          rw [attribute?_map_eq_of_perm (distinct key kind _ rfl rfl) hperm,
            FieldType.attribute?, FieldType.attribute?,
            mapM_eq_of_forall₂ hvalues fun _ _ hab => attributeEntry?_eq hab kind]
      | _ => rfl

end Data.SameUpToOrder

namespace AccessPath

def CrossesMap (p : AccessPath) : Prop :=
  ∃ s ∈ p.segments, s.hop = .mapped

theorem unmapped_of_not_crossesMap {p : AccessPath} (h : ¬ p.CrossesMap) :
    ∀ s ∈ p.segments, s.hop ≠ .mapped :=
  fun s hs hmapped => h ⟨s, hs, hmapped⟩

theorem attributeAt_eq {s : Schema} {p : AccessPath} (unmapped : ¬ p.CrossesMap)
    {v w : Option Data} (h : Option.Rel SameUpToOrder v w)
    (distinct : ∀ type, p.leafType = some type →
      ∀ d ∈ v, Fits (s.HoldsDistinct type) p.segments d) :
    p.attributeAt v = p.attributeAt w := by
  rw [attributeAt, attributeAt]
  cases htype : p.leafType with
  | none => rfl
  | some type =>
      have hreached := SameUpToOrder.reached_of_unmapped h
        (unmapped_of_not_crossesMap unmapped)
      have hdistinct : ∀ leaf ∈ reached p.segments v, ∀ d ∈ leaf,
          s.HoldsDistinct type d :=
        fun leaf hleaf => fits_of_mem_reached (distinct type htype) hleaf
      have hleaves : (reached p.segments v).map (fun leaf => leaf.bind type.attribute?) =
          (reached p.segments w).map fun leaf => leaf.bind type.attribute? := by
        rw [← List.forall₂_eq_eq_eq, List.forall₂_map_left_iff,
          List.forall₂_map_right_iff]
        apply ((List.forall₂_and_left _ _).mpr ⟨hdistinct, hreached⟩).imp
        rintro _ _ ⟨hleaf, hrel⟩
        cases hrel with
        | none => rfl
        | some hde => exact hde.attribute?_eq (hleaf _ rfl)
      have hgathered : p.gathered type v = p.gathered type w := by
        have hfilter := congrArg (List.filterMap id) hleaves
        rw [List.filterMap_map, List.filterMap_map] at hfilter
        exact hfilter
      rw [Option.bind_some, Option.bind_some, hgathered]
      cases hcross : p.crossesCollection with
      | true => rfl
      | false =>
          rw [reached_eq_singleton hcross, reached_eq_singleton hcross] at hleaves
          have hleaf := List.head_eq_of_cons_eq hleaves
          dsimp only at hleaf
          rw [hleaf]

end AccessPath

theorem keyAt_eq (path : Option AccessPath) (default_ : String) {v w : Option Data}
    (h : Option.Rel SameUpToOrder v w) : keyAt path default_ v = keyAt path default_ w := by
  cases path with
  | none => rfl
  | some p =>
      have htext := SameUpToOrder.bind_eq (SameUpToOrder.valueAt h p.segments)
        (f := Data.keyText?) fun _ _ hde => hde.keyText?_eq
      rw [keyAt, keyAt, Option.bind_some, Option.bind_some, keyOr, keyOr, htext]

/-!
## Checks
-/

namespace Resource

def ReadsDistinct (s : Schema) (r : Resource) (d : Data) : Prop :=
  ∀ e ∈ r.attributePaths, ∀ type, e.2.leafType = some type →
    Fits (s.HoldsDistinct type) e.2.segments d

theorem readsDistinct_describe {s : Schema} {site : ResourceSite} {d : Data}
    (hd : s.HoldsMessage site.message d) : (site.describe s).1.ReadsDistinct s d := by
  intro e he type htype
  rcases mem_recordAttributes he with hnil | ⟨a, ha, rfl⟩
  · cases hnil
  · cases (leafType_of_mem_findAttributes ha).symm.trans htype
    exact fits_attribute ha (fun _ => Schema.fits_read_distinct) hd

/-- No attribute of the resource is gathered over the values of a map. -/
def HasUnmappedAttributes (r : Resource) : Prop :=
  ∀ e ∈ r.attributePaths, ¬ e.2.CrossesMap

/-- Instances and their ids are not gone over in the order of a map. -/
def HasUnmappedKeys (r : Resource) : Prop :=
  ¬ r.path.CrossesMap ∧ ∀ p, r.usableIdPath = some p → ¬ p.CrossesMap

def SameInstance (s : Schema) (r : Resource) (v w : Option Data) : Prop :=
  (∀ d ∈ v, r.ReadsDistinct s d) ∧ Option.Rel SameUpToOrder v w

section

variable {s : Schema} {r : Resource} {v w : Option Data}

theorem attributesAt_eq (unmapped : r.HasUnmappedAttributes) (h : r.SameInstance s v w) :
    r.attributesAt v = r.attributesAt w := by
  have hvalues : ∀ e ∈ r.attributePaths, e.2.attributeAt v = e.2.attributeAt w := by
    intro e he
    exact AccessPath.attributeAt_eq (unmapped e he) h.2
      fun type htype d hd => h.1 d hd e he type htype
  rw [attributesAt, attributesAt]
  congr 1
  apply List.filterMap_congr
  intro e he
  rw [hvalues e he]

theorem checkAt_eq (unmapped : r.HasUnmappedAttributes) (h : r.SameInstance s v w)
    (permission id : String) : r.checkAt permission v id = r.checkAt permission w id := by
  rw [checkAt, checkAt, keyAt_eq _ _ h.2, attributesAt_eq unmapped h]

theorem idsAt_perm (h : Option.Rel SameUpToOrder v w) : (r.idsAt v).Perm (r.idsAt w) := by
  rw [idsAt, idsAt]
  split
  · rw [idLeaves, idLeaves]
    cases r.usableIdPath with
    | none => exact List.Perm.refl _
    | some p =>
        exact (SameUpToOrder.reached h p.segments).map_perm
          fun _ _ => SameUpToOrder.leafText_eq
  · rw [keyAt_eq _ _ h]

theorem idsAt_eq (unmapped : ∀ p, r.usableIdPath = some p → ¬ p.CrossesMap)
    (h : Option.Rel SameUpToOrder v w) : r.idsAt v = r.idsAt w := by
  rw [idsAt, idsAt]
  split
  · rw [idLeaves, idLeaves]
    cases hp : r.usableIdPath with
    | none => rfl
    | some p =>
        have hreached := SameUpToOrder.reached_of_unmapped h
          (AccessPath.unmapped_of_not_crossesMap (unmapped p hp))
        dsimp only
        rw [← List.forall₂_eq_eq_eq, List.forall₂_map_left_iff,
          List.forall₂_map_right_iff]
        exact hreached.imp fun _ _ => SameUpToOrder.leafText_eq
  · rw [keyAt_eq _ _ h]

theorem checksAt_perm (unmapped : r.HasUnmappedAttributes) (h : r.SameInstance s v w)
    (permission : String) :
    (r.checksAt permission v).Perm (r.checksAt permission w) := by
  have hchecks : r.checkAt permission v = r.checkAt permission w :=
    funext fun id => checkAt_eq unmapped h permission id
  rw [checksAt, checksAt, hchecks]
  exact (idsAt_perm h.2).map _

theorem checksAt_eq (unmapped : r.HasUnmappedAttributes)
    (keys : ∀ p, r.usableIdPath = some p → ¬ p.CrossesMap) (h : r.SameInstance s v w)
    (permission : String) : r.checksAt permission v = r.checksAt permission w := by
  have hchecks : r.checkAt permission v = r.checkAt permission w :=
    funext fun id => checkAt_eq unmapped h permission id
  rw [checksAt, checksAt, hchecks, idsAt_eq keys h.2]

end

section

variable {s : Schema} {r : Resource} {d e : Data}

theorem readsDistinct_of_mem_instancesIn (hfits : Fits (r.ReadsDistinct s) r.path.segments d) :
    ∀ v ∈ r.instancesIn d, ∀ instance_ ∈ v, r.ReadsDistinct s instance_ := by
  have hrequest : ∀ request ∈ some d, Fits (r.ReadsDistinct s) r.path.segments request := by
    intro request heq
    cases heq
    exact hfits
  exact fun v hv => fits_of_mem_reached hrequest hv

theorem checksIn_perm (unmapped : r.HasUnmappedAttributes)
    (hfits : Fits (r.ReadsDistinct s) r.path.segments d) (h : SameUpToOrder d e)
    (permission : String) :
    (r.checksIn permission d).Perm (r.checksIn permission e) := by
  have hinstances : UpToOrder (r.SameInstance s) (r.instancesIn d) (r.instancesIn e) :=
    (SameUpToOrder.reached (Option.Rel.some h) r.path.segments).and_left
      (readsDistinct_of_mem_instancesIn hfits)
  exact hinstances.flatMap_perm fun _ _ hsame => checksAt_perm unmapped hsame permission

theorem checksIn_eq (unmapped : r.HasUnmappedAttributes) (keys : r.HasUnmappedKeys)
    (hfits : Fits (r.ReadsDistinct s) r.path.segments d) (h : SameUpToOrder d e)
    (permission : String) : r.checksIn permission d = r.checksIn permission e := by
  have hinstances : List.Forall₂ (r.SameInstance s) (r.instancesIn d) (r.instancesIn e) :=
    (List.forall₂_and_left _ _).mpr
      ⟨readsDistinct_of_mem_instancesIn hfits,
        SameUpToOrder.reached_of_unmapped (Option.Rel.some h)
          (AccessPath.unmapped_of_not_crossesMap keys.1)⟩
  rw [checksIn, checksIn, ← List.forall₂_eq_eq_eq]
  apply List.rel_flatMap hinstances
  intro v w hsame
  rw [checksAt_eq unmapped keys.2 hsame permission]
  exact List.forall₂_same.mpr fun _ _ => rfl

end

end Resource

theorem fits_readsDistinct_of_discover {s : Schema} {target : MessageRef} {r : Resource}
    (found : (discover s target).1 = some r) {d : Data}
    (hd : s.Holds (.message target) d) :
    Fits (r.ReadsDistinct s) r.path.segments d := by
  rcases fits_site_of_discover found with ⟨site, rfl, hfits⟩
  exact (hfits d hd).mono fun e he => Resource.readsDistinct_describe he

/-!
## Decisions
-/

theorem BulkMode.combine_perm (mode : BulkMode) {outcomes others : List Bool}
    (h : outcomes.Perm others) : mode.combine outcomes = mode.combine others := by
  cases mode with
  | allOf => rw [combine.eq_def, combine.eq_def, h.isEmpty_eq, h.all_eq]
  | anyOf => rw [combine.eq_def, combine.eq_def, h.isEmpty_eq, h.any_eq]

/-- The configurations ask for the same checks, in some order, and decide alike on all
outcomes of the checks. -/
structure CheckConfig.AsksSame (c c' : CheckConfig) : Prop where
  kind : c.kind = c'.kind
  mode : c.mode = c'.mode
  checks : c.checks.Perm c'.checks
  decision : ∀ outcome : Check → Bool,
    c.decision (c.checks.map outcome) = c'.decision (c'.checks.map outcome)

theorem CheckConfig.asksSame_of_perm {c c' : CheckConfig} (kind : c.kind = c'.kind)
    (mode : c.mode = c'.mode) (checks : c.checks.Perm c'.checks) : c.AsksSame c' :=
  { kind := kind
    mode := mode
    checks := checks
    decision := by
      intro outcome
      rw [decision, decision, modeOrDefault, modeOrDefault, mode]
      exact BulkMode.combine_perm _ (checks.map outcome) }

theorem Resource.asksSame_configIn {r : Resource} {permission : String} {d e : Data}
    (h : (r.checksIn permission d).Perm (r.checksIn permission e))
    (mode : Option BulkMode) :
    (r.configIn permission mode d).AsksSame (r.configIn permission mode e) := by
  have hkind : (r.configIn permission mode d).kind = (r.configIn permission mode e).kind := by
    rw [configIn, configIn, h.length_eq]
  exact CheckConfig.asksSame_of_perm hkind rfl h

/-- The body of a resource asks for the same checks in all orders of the maps of the
request, in the same order if neither instances nor their ids are behind a map. -/
theorem gatedBody_asks_same_in_any_order {s : Schema} {target : MessageRef} {r : Resource}
    (found : (discover s target).1 = some r) (unmapped : r.HasUnmappedAttributes)
    (permission : String) (mode : Option BulkMode) :
    Emission.Yields r.IllegalOn (Emission.gatedBody r permission mode)
      fun body => ∀ d e, s.Holds (.message target) d → d.SameUpToOrder e →
        ∃ c c', body.run d = some c ∧ body.run e = some c' ∧ c.AsksSame c' ∧
          (r.HasUnmappedKeys → c = c') := by
  apply Emission.yields_mono (yields_gatedBody_of_discover found permission mode)
  intro body hrun d e hd h
  have hfits := fits_readsDistinct_of_discover found hd
  refine ⟨_, _, hrun d hd, hrun e (hd.of_sameUpToOrder h), ?_, ?_⟩
  · exact Resource.asksSame_configIn
      (Resource.checksIn_perm unmapped hfits h permission) mode
  · intro keys
    rw [Resource.configIn, Resource.configIn,
      Resource.checksIn_eq unmapped keys hfits h permission]

/-!
## Maps below resources
-/

theorem unmapped_of_route {s : Schema} {P : Message → Prop}
    (step : ∀ m f n, P m → s.Edge Field.attributeTarget m f n →
      (Segment.traverse f).hop ≠ .mapped ∧ P n)
    {m : Message} {steps : List RouteStep}
    (h : Schema.Route (s.Edge Field.attributeTarget) m steps) (hm : P m) :
    ∀ segment ∈ RouteStep.segments steps, segment.hop ≠ .mapped := by
  induction h with
  | nil m => exact fun _ hsegment => absurd hsegment List.not_mem_nil
  | cons hedge _ ih =>
      rcases step _ _ _ hm hedge with ⟨hfirst, hn⟩
      intro segment hsegment
      rcases List.mem_cons.mp hsegment with rfl | hrest
      · exact hfirst
      · exact ih hn segment hrest

theorem hasUnmappedAttributes_of_discover {s : Schema} {target : MessageRef}
    {r : Resource} (found : (discover s target).1 = some r) {P : Message → Prop}
    (start : ∀ m ∈ s.messages, m.resourceType.isSome = true → P m)
    (step : ∀ m f n, P m → s.Edge Field.attributeTarget m f n →
      (Segment.traverse f).hop ≠ .mapped ∧ P n) :
    r.HasUnmappedAttributes := by
  rcases exists_site_of_discover found with ⟨request, site, hrequest, hsite, rfl⟩
  rcases exists_leadsToResource hsite with ⟨steps, hsteps, harrival⟩
  have hroute := hsteps.route
  rw [← Schema.edge_resourceTarget] at hroute
  have hresource := (isOfField_of_route hroute (Schema.mem_of_message? hrequest)).1
  have hsite : P site.message := by
    rw [harrival]
    apply start _ hresource
    rw [hsteps.label]
    rfl
  intro e he
  rcases mem_recordAttributes he with hnil | ⟨a, ha, rfl⟩
  · cases hnil
  · rcases exists_route_of_mem_findAttributes ha with ⟨below, hbelow, _, hpath⟩
    rintro ⟨segment, hsegment, hmapped⟩
    rw [hpath] at hsegment
    rcases List.mem_append.mp hsegment with hfront | hlast
    · exact unmapped_of_route step hbelow hsite segment hfront hmapped
    · rw [List.mem_singleton.mp hlast] at hmapped
      have hcrosses := Segment.crossesCollection_read a.field
      rw [Segment.crossesCollection, hmapped] at hcrosses
      cases hcrosses

/-!
## Conformance schema
-/

namespace Conformance

def resourceNames : List String :=
  ["Document", "Item", "Folder", "Owner", "Batch", "Library", "Section", "Book",
    "Report", "Ticket", "TicketMeta"]

theorem localName_mem_resourceNames {m : Message} (hm : m ∈ messages)
    (typed : m.resourceType.isSome = true) : localName m ∈ resourceNames := by
  have hall : (messages.all fun m =>
      !m.resourceType.isSome || resourceNames.contains (localName m)) = true := by
    decide +kernel
  have hname := List.all_eq_true.mp hall m hm
  rw [typed] at hname
  exact List.contains_iff_mem.mp hname

theorem target_of_resourceNames {m : Message} (hm : m ∈ messages)
    (hname : localName m ∈ resourceNames) {f : Field} (hf : f ∈ m.fields)
    {target : MessageRef} (htarget : f.attributeTarget = some target) :
    (Segment.traverse f).hop ≠ .mapped ∧ ∃ name ∈ resourceNames, target = reference name := by
  have hall : (messages.all fun m =>
      !resourceNames.contains (localName m) ||
        m.fields.all fun f => f.attributeTarget.all fun target =>
          (Segment.traverse f).hop != .mapped &&
            resourceNames.any fun name => target == reference name) = true := by
    decide +kernel
  have hfields := List.all_eq_true.mp hall m hm
  rw [List.contains_iff_mem.mpr hname, Bool.not_true, Bool.false_or] at hfields
  have hfield := List.all_eq_true.mp hfields f hf
  rw [htarget, Option.all_some, Bool.and_eq_true, bne_iff_ne] at hfield
  rcases List.any_eq_true.mp hfield.2 with ⟨name, hmem, heq⟩
  exact ⟨hfield.1, name, hmem, eq_of_beq heq⟩

theorem localName_of_message? {name : String} (hname : name ∈ resourceNames) {m : Message}
    (h : schema.message? (reference name) = some m) : localName m = name := by
  have hall : (resourceNames.all fun name =>
      (messages.find? fun m => localName m == name).isSome) = true := by
    decide +kernel
  rcases Option.isSome_iff_exists.mp (List.all_eq_true.mp hall name hname) with ⟨n, hn⟩
  cases h.symm.trans (message?_reference hn)
  have hfound := List.find?_some hn
  exact eq_of_beq hfound

theorem hasUnmappedAttributes_schema {target : MessageRef} {r : Resource}
    (found : (discover schema target).1 = some r) : r.HasUnmappedAttributes := by
  apply hasUnmappedAttributes_of_discover found
    (P := fun m => m ∈ messages ∧ localName m ∈ resourceNames)
  · intro m hm typed
    exact ⟨mem_messages_of_schema hm,
      localName_mem_resourceNames (mem_messages_of_schema hm) typed⟩
  · rintro m f n ⟨hm, hname⟩ ⟨hf, hedge⟩
    rcases Option.bind_eq_some_iff.mp hedge with ⟨target, htarget, hn⟩
    rcases target_of_resourceNames hm hname hf htarget with ⟨hhop, name, hmem, rfl⟩
    refine ⟨hhop, mem_messages_of_schema (Schema.mem_of_message? hn), ?_⟩
    rw [localName_of_message? hmem hn]
    exact hmem

/-!
### Requests with their maps reversed
-/

theorem sameUpToOrder_entries {α : Type} {m n : TextMap α}
    (h : m.entries.Perm n.entries) (value : α → Data) :
    SameUpToOrder (m.data value) (n.data value) :=
  .map (h.map _) (List.forall₂_same.mpr fun _ _ => .intro _ (.same _))

def TextMap.reverse {α : Type} (m : TextMap α) : TextMap α :=
  { entries := m.entries.reverse
    distinct := by
      rw [List.map_reverse]
      exact List.nodup_reverse.mpr m.distinct }

theorem sameUpToOrder_reverse {α : Type} (m : TextMap α) (value : α → Data) :
    SameUpToOrder (m.data value) (m.reverse.data value) :=
  sameUpToOrder_entries m.entries.reverse_perm.symm value

def MoveFoldersRequest.reversed (r : MoveFoldersRequest) : MoveFoldersRequest :=
  ⟨r.groups.map fun g => ⟨g.byName.reverse⟩⟩

theorem MoveFoldersRequest.sameUpToOrder_reversed (r : MoveFoldersRequest) :
    SameUpToOrder r.data r.reversed.data := by
  have hgroups : List.Forall₂ SameUpToOrder (r.groups.map FolderGroup.data)
      (r.reversed.groups.map FolderGroup.data) := by
    rw [reversed, List.map_map, List.forall₂_map_left_iff, List.forall₂_map_right_iff]
    apply List.forall₂_same.mpr
    intro g _
    exact .message (.cons (.intro _ (sameUpToOrder_reverse g.byName Folder.data)) .nil)
  exact .message (.cons (.intro _ (.list hgroups)) .nil)

def Report.reversed (r : Report) : Report :=
  { r with labels := r.labels.reverse }

theorem Report.sameUpToOrder_reversed (r : Report) :
    SameUpToOrder r.data r.reversed.data := by
  have hlabels := sameUpToOrder_reverse r.labels .string
  exact .message
    (.cons (.intro _ (.same _)) (.cons (.intro _ (.same _)) (.cons (.intro _ (.same _))
      (.cons (.intro _ (.same _)) (.cons (.intro _ (.same _)) (.cons (.intro _ (.same _))
        (.cons (.intro _ hlabels) (.cons (.intro _ (.same _))
          (.cons (.intro _ (.same _)) .nil)))))))))

theorem exists_discovered_report :
    ∃ r, (discover schema (reference "Report")).1 = some r ∧ r.HasUnmappedKeys := by
  let report := resource "Report" "report" reportFields
  have registered : schema.message? (reference "Report") = some report :=
    message?_reference rfl
  have hsite : findResource schema ⟨requestRoot, []⟩ report =
      some ⟨report, "report", ⟨requestRoot, []⟩⟩ := rfl
  have hkey : findKey schema .id ⟨resourceRoot, []⟩ report =
      some ⟨report, scalar "id" .int64 idMark,
        ⟨resourceRoot, [.traverse (scalar "id" .int64 idMark)]⟩⟩ := rfl
  rw [discover_fst registered, hsite]
  refine ⟨_, rfl, ?_, ?_⟩
  · rintro ⟨segment, hsegment, _⟩
    cases hsegment
  · intro p hp
    rcases Option.filter_eq_some_iff.mp hp with ⟨hid, _⟩
    change (findKey schema .id ⟨resourceRoot, []⟩ report).map KeyField.path = some p at hid
    rw [hkey] at hid
    cases hid
    rintro ⟨segment, hsegment, hmapped⟩
    rw [List.mem_singleton.mp hsegment] at hmapped
    cases hmapped

def twoGroups : MoveFoldersRequest :=
  ⟨[⟨⟨[("inbox", ⟨1, some ⟨"acme"⟩⟩), ("drafts", ⟨2, none⟩)], by decide⟩⟩,
    ⟨⟨[("sent", ⟨3, none⟩), ("spam", ⟨0, some ⟨"other"⟩⟩)], by decide⟩⟩]⟩

def labelledReport : Report :=
  { id := 7, status := 1, archived := false, score := ⟨0⟩, quota := 3
    owner := some "ada"
    labels := ⟨[("team", "core"), ("area", "billing")], by decide⟩
    payload := [1, 255], tags := ["new"] }

end Conformance

theorem gatedBody_conformance_asks_same :
    (∃ r body c c', (discover Conformance.schema
          (Conformance.reference "MoveFoldersRequest")).1 = some r ∧
      ((Emission.gatedBody r "move" (some .anyOf)).run.run 0).1 = .ok body ∧
      body.run Conformance.twoGroups.data = some c ∧
      body.run Conformance.twoGroups.reversed.data = some c' ∧ c.AsksSame c') ∧
    ∃ r body c, (discover Conformance.schema (Conformance.reference "Report")).1 = some r ∧
      ((Emission.gatedBody r "view" none).run.run 0).1 = .ok body ∧
      body.run Conformance.labelledReport.data = some c ∧
      body.run Conformance.labelledReport.reversed.data = some c := by
  have hlegal := fun target r
      (found : (discover Conformance.schema target).1 = some r) (e : IllegalName) =>
    not_illegalOn_of_discover Conformance.hasLegalFields_schema found e
  constructor
  · rcases Conformance.exists_discovered_folder with ⟨r, found⟩
    rcases Emission.exists_result_of_yields
      (gatedBody_asks_same_in_any_order found
        (Conformance.hasUnmappedAttributes_schema found) "move" (some .anyOf))
      (hlegal _ r found) 0 with ⟨body, hbody, hasks⟩
    rcases hasks _ _ Conformance.twoGroups.holds
      Conformance.twoGroups.sameUpToOrder_reversed with ⟨c, c', hc, hc', hsame, _⟩
    exact ⟨r, body, c, c', found, hbody, hc, hc', hsame⟩
  · rcases Conformance.exists_discovered_report with ⟨r, found, keys⟩
    rcases Emission.exists_result_of_yields
      (gatedBody_asks_same_in_any_order found
        (Conformance.hasUnmappedAttributes_schema found) "view" none)
      (hlegal _ r found) 0 with ⟨body, hbody, hasks⟩
    rcases hasks _ _ Conformance.labelledReport.holds
      Conformance.labelledReport.sameUpToOrder_reversed with ⟨c, c', hc, hc', _, hsame⟩
    cases hsame keys
    exact ⟨r, body, c, found, hbody, hc, hc'⟩

end AccessChecks
