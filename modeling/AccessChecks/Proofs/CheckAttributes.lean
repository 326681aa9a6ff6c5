import AccessChecks.Proofs.CheckSites
import Mathlib.Data.List.ReduceOption

/-!
# Attributes of checks

## Entries

Inserting the entries of distinct names one after the other gives each name its own
entry, and no other name an entry.

## Entries of an instance

An attribute in front of all collections has an entry if its value is there.  An
attribute behind a collection has the list of all values that are there, and no
entry if there are none.  A field of messages has no entry.
-/

namespace AccessChecks

open Reading

namespace Entries

variable {α β : Type}

theorem get?_insert? (entries : Entries α) (key : String) (a : Option α)
    (other : String) :
    get? (insert? entries key a) other =
      if key = other then a.or (get? entries other) else get? entries other := by
  cases a with
  | none =>
      rw [insert?, Option.elim_none, Option.none_or]
      split <;> rfl
  | some value =>
      rw [insert?, Option.elim_some, get?_insert, Option.some_or]

theorem mem_keys_insert? {entries : Entries α} {key : String} {a : Option α}
    {other : String} (h : other ∈ keys (insert? entries key a)) :
    other = key ∨ other ∈ keys entries := by
  cases a with
  | none => exact Or.inr h
  | some value => exact (mem_keys_insert entries key value other).mp h

theorem pairwise_keys_insert? {entries : Entries α} (key : String)
    (a : Option α) (h : (keys entries).Pairwise (· < ·)) :
    (keys (insert? entries key a)).Pairwise (· < ·) := by
  cases a with
  | none => exact h
  | some value => exact pairwise_keys_insert key value h

def collect (f : β → Option α) (start : Entries α) (l : Entries β) :
    Entries α :=
  l.foldl (fun entries e => insert? entries e.1 (f e.2)) start

theorem mem_keys_collect {f : β → Option α} {start : Entries α}
    {l : Entries β} {name : String} (h : name ∈ keys (collect f start l)) :
    name ∈ keys start ∨ name ∈ keys l := by
  induction l generalizing start with
  | nil => exact Or.inl h
  | cons e rest ih =>
      rcases ih h with hstart | hrest
      · rcases mem_keys_insert? hstart with rfl | hold
        · exact Or.inr List.mem_cons_self
        · exact Or.inl hold
      · exact Or.inr (List.mem_cons_of_mem e.1 hrest)

theorem pairwise_keys_collect {f : β → Option α} {start : Entries α}
    (h : (keys start).Pairwise (· < ·)) (l : Entries β) :
    (keys (collect f start l)).Pairwise (· < ·) := by
  induction l generalizing start with
  | nil => exact h
  | cons e rest ih => exact ih (pairwise_keys_insert? e.1 (f e.2) h)

theorem get?_collect_of_not_mem (f : β → Option α) {start : Entries α}
    {l : Entries β} {name : String} (h : name ∉ keys l) :
    get? (collect f start l) name = get? start name := by
  induction l generalizing start with
  | nil => rfl
  | cons e rest ih =>
      have hhead : e.1 ≠ name := fun heq => h (heq ▸ List.mem_cons_self)
      have hrest : name ∉ keys rest := fun hmem =>
        h (List.mem_cons_of_mem e.1 hmem)
      change get? (collect f (insert? start e.1 (f e.2)) rest) name = _
      rw [ih hrest, get?_insert?, if_neg hhead]

theorem get?_collect_of_mem (f : β → Option α) {start : Entries α}
    {l : Entries β} (hdistinct : (keys l).Nodup) {name : String} {b : β}
    (h : (name, b) ∈ l) (hstart : get? start name = none) :
    get? (collect f start l) name = f b := by
  induction l generalizing start with
  | nil => cases h
  | cons e rest ih =>
      have hnodup := List.nodup_cons.mp hdistinct
      change get? (collect f (insert? start e.1 (f e.2)) rest) name = _
      rcases List.mem_cons.mp h with rfl | hrest
      · rw [get?_collect_of_not_mem f hnodup.1, get?_insert?, if_pos rfl,
          hstart, Option.or_none]
      · have hne : e.1 ≠ name := by
          intro heq
          have hmem : name ∈ keys rest := List.mem_map_of_mem (f := Prod.fst) hrest
          exact hnodup.1 (heq ▸ hmem)
        apply ih hnodup.2 hrest
        rw [get?_insert?, if_neg hne, hstart]

end Entries

/-!
## Entries of an instance
-/

namespace AccessPath

/-- The entry that the attributes of an instance have for a path. -/
inductive EntryAt (p : AccessPath) (v : Option Data) :
    Option AttributeValue → Prop where
  | message {type : FieldType} :
      p.leafType = some type → type.isAttributeType = false → EntryAt p v none
  | absent {type : FieldType} :
      p.leafType = some type → type.isAttributeType = true →
      p.crossesCollection = false → valueAt p.segments v = none →
      EntryAt p v none
  | present {type : FieldType} {d : Data} {a : AttributeValue} :
      p.leafType = some type → type.isAttributeType = true →
      p.crossesCollection = false → valueAt p.segments v = some d →
      type.attribute? d = some a → EntryAt p v (some a)
  | empty {type : FieldType} :
      p.leafType = some type → type.isAttributeType = true →
      p.crossesCollection = true → (reached p.segments v).reduceOption = [] →
      EntryAt p v none
  | gathered {type : FieldType} {values : List AttributeValue} :
      p.leafType = some type → type.isAttributeType = true →
      p.crossesCollection = true → (reached p.segments v).reduceOption ≠ [] →
      List.Forall₂ (fun d a => type.attribute? d = some a)
        (reached p.segments v).reduceOption values →
      EntryAt p v (some (.list values))

theorem forall₂_filterMap_attribute {type : FieldType}
    {leaves : List (Option Data)}
    (h : ∀ leaf ∈ leaves, ∀ d ∈ leaf, (type.attribute? d).isSome = true) :
    List.Forall₂ (fun d a => type.attribute? d = some a)
      leaves.reduceOption
      (leaves.filterMap fun leaf => leaf.bind type.attribute?) := by
  induction leaves with
  | nil => exact List.Forall₂.nil
  | cons leaf rest ih =>
      have hrest := ih fun other hother =>
        h other (List.mem_cons_of_mem leaf hother)
      cases leaf with
      | none => exact hrest
      | some d =>
          rcases Option.isSome_iff_exists.mp
            (h (some d) List.mem_cons_self d rfl) with ⟨a, ha⟩
          rw [List.reduceOption_cons_of_some, List.filterMap_cons,
            Option.bind_some, ha]
          exact List.Forall₂.cons ha hrest

theorem entryAt_attributeAt {s : Schema} {p : AccessPath} {v : Option Data}
    {type : FieldType} (hleaf : p.leafType = some type)
    (hfits : ∀ d ∈ v, Fits (s.HoldsValue type) p.segments d) :
    p.EntryAt v (p.attributeAt v) := by
  cases htype : type.isAttributeType with
  | false =>
      rw [Emission.attributeAt_of_not_attributeType hleaf htype]
      exact EntryAt.message hleaf htype
  | true =>
      have hholds : ∀ leaf ∈ reached p.segments v, ∀ d ∈ leaf,
          (type.attribute? d).isSome = true := by
        intro leaf hmem d hd
        exact isSome_attribute_of_holdsValue htype
          (fits_of_mem_reached hfits hmem d hd)
      rw [Emission.attributeAt_of_leafType hleaf htype]
      cases hcross : p.crossesCollection with
      | false =>
          rw [if_neg (by decide)]
          cases hvalue : valueAt p.segments v with
          | none => exact EntryAt.absent hleaf htype hcross hvalue
          | some d =>
              have hreached : some d ∈ reached p.segments v := by
                rw [reached_eq_singleton hcross, hvalue]
                exact List.mem_singleton_self _
              rcases Option.isSome_iff_exists.mp
                (hholds _ hreached d rfl) with ⟨a, ha⟩
              rw [Option.bind_some, ha]
              exact EntryAt.present hleaf htype hcross hvalue ha
      | true =>
          have hvalues : List.Forall₂ (fun d a => type.attribute? d = some a)
              (reached p.segments v).reduceOption (p.gathered type v) :=
            forall₂_filterMap_attribute hholds
          rw [if_pos rfl]
          cases hgathered : p.gathered type v with
          | nil =>
              rw [hgathered, List.forall₂_nil_right_iff] at hvalues
              exact EntryAt.empty hleaf htype hcross hvalues
          | cons a rest =>
              rw [hgathered] at hvalues
              rw [if_neg (by simp)]
              apply EntryAt.gathered hleaf htype hcross _ hvalues
              intro hnil
              rw [hnil] at hvalues
              cases hvalues

end AccessPath

/-!
## Attributes of a site
-/

namespace Resource

/-- The attributes of a check are those of a site. -/
structure AttributesAt (r : Resource) (site : CheckSite) (c : Check) :
    Prop where
  entry : ∀ name p, (name, p) ∈ r.attributePaths →
    p.EntryAt site.inst (Entries.get? c.resource.attributes name)
  only : ∀ name ∈ Entries.keys c.resource.attributes,
    name ∈ Entries.keys r.attributePaths
  ordered : (Entries.keys c.resource.attributes).Pairwise (· < ·)

theorem attributesAt_eq_collect (r : Resource) (v : Option Data) :
    r.attributesAt v =
      Entries.collect (fun p => p.attributeAt v) [] r.attributePaths :=
  Emission.attributesAt_eq_foldl r v

end Resource

/-- Every check that a gated body pushes has the attributes of its own instance. -/
theorem gatedBody_attributes_of_one_site {s : Schema} {target : MessageRef}
    {r : Resource} (found : (discover s target).1 = some r)
    (permission : String) (mode : Option BulkMode) :
    Emission.Yields r.IllegalOn (Emission.gatedBody r permission mode)
      fun body => ∀ d, s.Holds (.message target) d →
        ∃ config, body.run d = some config ∧
          List.Forall₂ r.AttributesAt (r.sitesIn d) config.checks := by
  apply Emission.yields_mono
    (yields_gatedBody_of_discover found permission mode)
  intro body hrun d hd
  refine ⟨_, hrun d hd, Resource.forall₂_sitesIn ?_⟩
  intro site hsite
  have hreadable := Resource.readable_of_mem_sitesIn found hd hsite
  have hdistinct := nodup_keys_attributePaths found
  constructor
  · intro name p hp
    rcases leafType_of_mem_attributePaths found hp with ⟨type, hleaf⟩
    change p.EntryAt site.inst (Entries.get? (r.attributesAt site.inst) name)
    rw [Resource.attributesAt_eq_collect,
      Entries.get?_collect_of_mem _ hdistinct hp rfl]
    apply AccessPath.entryAt_attributeAt hleaf
    exact Emission.ReadsAttribute.fits
      (Emission.readsAttribute hreadable hp) hleaf
  · intro name hname
    change name ∈ Entries.keys (r.attributesAt site.inst) at hname
    rw [Resource.attributesAt_eq_collect] at hname
    rcases Entries.mem_keys_collect hname with hstart | hpaths
    · cases hstart
    · exact hpaths
  · change (Entries.keys (r.attributesAt site.inst)).Pairwise (· < ·)
    rw [Resource.attributesAt_eq_collect]
    exact Entries.pairwise_keys_collect List.Pairwise.nil _

theorem gatedBody_docSchema_attributes :
    (discover Sample.docSchema ⟨"Get"⟩).1 = some Sample.docResource ∧
    ∃ body config,
      ((Emission.gatedBody Sample.docResource "view" none).run.run 0).1 =
        .ok body ∧
      body.run Sample.request = some config ∧
      List.Forall₂ Sample.docResource.AttributesAt
        (Sample.docResource.sitesIn Sample.request) config.checks := by
  refine ⟨Sample.discover_docSchema, ?_⟩
  rcases Emission.exists_result_of_yields
    (gatedBody_attributes_of_one_site Sample.discover_docSchema "view" none)
    Sample.not_illegalOn_docResource 0 with ⟨body, hbody, hattributes⟩
  rcases hattributes Sample.request Sample.holds_request with ⟨config, hrun⟩
  exact ⟨body, config, hbody, hrun⟩

example :
    (Sample.docResource.checksIn "view" Sample.request).map
      (fun c => c.resource.attributes) =
      [[("tags", .list [.string "x", .string "y"])],
        [("tags", .list [.string "x", .string "y"])],
        [("tags", .list [])]] := by
  rfl

end AccessChecks
