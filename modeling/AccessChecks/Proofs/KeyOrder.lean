import AccessChecks.Proofs.DiscoveredPaths
import AccessChecks.Proofs.QualifiedNames
import AccessChecks.Proofs.ResourceFaults

/-!
# Order of the key search

## Chains

A chain of single messages leads from a resource to a field that is accepted for the
key.  The positions of the fields passed and the position of the field at the end tell
it from all other chains.

## The first chain

The search follows the first chain.  At each message its own fields come before
everything below it, and what is below it comes in the order of its fields.  Only the
last field of a key can be a collection.

## Reports

The field at the end is reported exactly if the path to it cannot be used.
-/

namespace AccessChecks

open Schema RouteStep

namespace Schema

def SingleEdge (s : Schema) (m : Message) (f : Field) (n : Message) : Prop :=
  f ∈ m.fields ∧
    ∃ target, f.type.singleMessage = some target ∧ s.message? target = some n

theorem edge_keyTarget (s : Schema) : s.Edge Field.keyTarget = s.SingleEdge := by
  funext m f n
  exact propext (and_congr_right fun _ => Option.bind_eq_some_iff)

end Schema

/-- A chain of single messages, passed at some positions, to an accepted field at a
position of its own. -/
structure KeyChain (s : Schema) (key : Key) (resource : Message)
    (positions : List Nat) (steps : List RouteStep) (position : Nat) (f : Field) :
    Prop where
  route : Route s.SingleEdge resource steps
  positions : PassesAt resource.fields positions steps
  simple : ((stops resource steps).map Message.fullName).Nodup
  field : (arrival resource steps).fields[position]? = some f
  accepted : key.accepts f = true

namespace KeyChain

variable {s : Schema} {key : Key} {resource : Message} {positions others : List Nat}
  {steps more : List RouteStep} {position other : Nat} {f g : Field}

theorem edges (h : KeyChain s key resource positions steps position f) :
    Route (s.Edge Field.keyTarget) resource steps := by
  rw [edge_keyTarget]
  exact h.route

theorem fresh (h : KeyChain s key resource positions steps position f) :
    FreshRoute s Field.keyTarget [resource.fullName] resource.fields steps :=
  h.edges.fresh h.simple fun _ _ => List.not_mem_nil

theorem marked (h : KeyChain s key resource positions steps position f) :
    key.ownField (arrival resource steps) ≠ none := by
  intro hnone
  have hrejected := List.find?_eq_none.mp hnone f (List.mem_of_getElem? h.field)
  exact hrejected h.accepted

end KeyChain

theorem exists_first_keyChain {s : Schema} {key : Key} {path : AccessPath}
    {resource : Message} {k : KeyField}
    (h : findKey s key path resource = some k) :
    ∃ positions steps position,
      KeyChain s key resource positions steps position k.field ∧
      k.owner = arrival resource steps ∧
      k.path = (path.through steps).append (Segment.traverse k.field) ∧
      ∀ others more other g, KeyChain s key resource others more other g →
        (others, other) = (positions, position) ∨
          Prod.Lex (List.Lex (· < ·)) (· < ·) (positions, position) (others, other) := by
  rw [findKey_eq_here] at h
  rcases (keyBelow_firstMatch s key).exists_first_hit h with
    ⟨positions, steps, f, hit, hpositions, hfirst⟩
  rcases List.find?_eq_some_iff_getElem.mp hit.marked with
    ⟨haccepted, position, hlt, hfield, hbefore⟩
  have hroute := hit.fresh.route
  rw [hit.built]
  refine ⟨positions, steps, position, ?_, rfl, rfl, ?_⟩
  · rw [edge_keyTarget] at hroute
    exact
      { route := hroute
        positions := hpositions
        simple := hit.fresh.nodup_stops
        field := List.getElem?_eq_some_iff.mpr ⟨hlt, hfield⟩
        accepted := haccepted }
  · intro others more other g hchain
    rcases hfirst others more hchain.fresh hchain.positions hchain.marked with
      hsame | hlex
    · subst hsame
      cases hroute.eq_of_passesAt hchain.edges hpositions hchain.positions
      rcases Nat.lt_trichotomy other position with hless | heq | hgreater
      · -- the search has rejected the fields before the one that it took
        rcases List.getElem?_eq_some_iff.mp hchain.field with ⟨_, hg⟩
        have hrejected := hbefore other hless
        rw [hg, hchain.accepted] at hrejected
        cases hrejected
      · exact Or.inl (by rw [heq])
      · exact Or.inr (Prod.Lex.right _ hgreater)
    · exact Or.inr (Prod.Lex.left _ _ hlex)

theorem findKey_isSome_iff_reachable {s : Schema} {target : MessageRef}
    {resource : Message} (registered : s.message? target = some resource) (key : Key)
    (path : AccessPath) :
    (findKey s key path resource).isSome ↔
      ∃ m f, Relation.ReflTransGen (Leads s.SingleEdge) resource m ∧
        f ∈ m.fields ∧ key.accepts f = true := by
  constructor
  · intro h
    rcases Option.isSome_iff_exists.mp h with ⟨k, hk⟩
    rcases exists_first_keyChain hk with ⟨positions, steps, position, hchain, _⟩
    exact ⟨_, _, reflTransGen_of_route hchain.route, List.mem_of_getElem? hchain.field,
      hchain.accepted⟩
  · rintro ⟨m, f, reachable, hmem, haccepted⟩
    rw [← edge_keyTarget] at reachable
    rcases exists_freshRoute_of_reflTransGen (registers_of_message? registered)
      reachable with ⟨steps, hroute, harrival⟩
    cases hfound : findKey s key path resource with
    | some k => rfl
    | none =>
        have hnone : key.ownField (arrival resource steps) = none :=
          (keyBelow_firstMatch s key).unmarked_of_here_eq_none hfound hroute
        rw [harrival] at hnone
        exact absurd haccepted (List.find?_eq_none.mp hnone f hmem)

/-!
## Hops
-/

theorem segments_of_findKey {s : Schema} {key : Key} {resource : Message} {k : KeyField}
    (h : findKey s key ⟨resourceRoot, []⟩ resource = some k) :
    ∃ front, k.path.segments = front ++ [Segment.traverse k.field] ∧
      (∀ segment ∈ front, segment.hop = .field ∨ segment.hop = .optional) ∧
      (key = .tenant → (Segment.traverse k.field).hop = .field ∨
        (Segment.traverse k.field).hop = .optional) := by
  rcases exists_route_of_findKey h with ⟨steps, hroute, _, haccepted, hpath⟩
  have hfront := List.any_eq_false.mp (crossesCollection_key_route hroute)
  refine ⟨segments steps, hpath, ?_, ?_⟩
  · intro segment hsegment
    exact Segment.hop_of_not_crosses (Bool.eq_false_iff.mpr (hfront segment hsegment))
  · rintro rfl
    apply Segment.hop_of_not_crosses
    rw [Segment.crossesCollection_traverse]
    simp only [Key.accepts, Bool.and_eq_true, Bool.not_eq_true'] at haccepted
    exact haccepted.2

/-!
## Reports
-/

namespace Key

def invalidType (key : Key) (owner field found : String) : Diagnostic :=
  match key with
  | .id => .invalidIdFieldType owner field found
  | .tenant => .invalidTenantFieldType owner field found

def pathIn (key : Key) (r : Resource) : Option AccessPath :=
  match key with
  | .id => r.idPath
  | .tenant => r.tenantPath

def usablePathIn (key : Key) (r : Resource) : Option AccessPath :=
  match key with
  | .id => r.usableIdPath
  | .tenant => r.usableTenantPath

theorem usablePathIn_eq (key : Key) (r : Resource) :
    key.usablePathIn r = (key.pathIn r).filter AccessPath.endsAtIdKind := by
  cases key <;> rfl

theorem pathIn_describe (key : Key) (s : Schema) (site : ResourceSite) :
    key.pathIn (site.describe s).1 = (site.keyIn s key).map KeyField.path := by
  cases key <;> rfl

end Key

theorem invalidType_eq_report_iff {key other : Key} {owner field found : String}
    {k : KeyField} :
    key.invalidType owner field found = k.report other ↔
      key = other ∧ owner = k.owner.fullName ∧ field = k.field.name ∧
        found = k.field.type.describe := by
  cases key <;> cases other <;> simp [Key.invalidType, KeyField.report]

theorem isId_eq_false_iff_usablePathIn {s : Schema} {site : ResourceSite} {key : Key}
    {k : KeyField} (h : site.keyIn s key = some k) :
    k.field.type.valueKind.isId = false ↔
      key.usablePathIn (site.describe s).1 = none := by
  have hends : k.path.endsAtIdKind = k.field.type.valueKind.isId := by
    rw [AccessPath.endsAtIdKind, leafType_of_findKey h]
  rw [key.usablePathIn_eq, key.pathIn_describe, h, Option.map_some, Option.filter_some,
    hends]
  cases k.field.type.valueKind.isId <;> simp

theorem invalidType_mem_describe_iff {s : Schema} {site : ResourceSite} {key : Key}
    {owner field found : String} :
    key.invalidType owner field found ∈ (site.describe s).2 ↔
      ∃ k, site.keyIn s key = some k ∧ owner = k.owner.fullName ∧
        field = k.field.name ∧ found = k.field.type.describe ∧
        key.pathIn (site.describe s).1 = some k.path ∧
        key.usablePathIn (site.describe s).1 = none := by
  rw [ResourceSite.mem_describe_iff_fault]
  constructor
  · generalize hd : key.invalidType owner field found = d
    intro hfault
    cases hfault with
    | key hfound hkind =>
        rcases invalidType_eq_report_iff.mp hd with ⟨rfl, howner, hfield, htype⟩
        refine ⟨_, hfound, howner, hfield, htype, ?_, ?_⟩
        · rw [key.pathIn_describe, hfound]
          rfl
        · exact (isId_eq_false_iff_usablePathIn hfound).mp hkind
    | visit hattribute =>
        rcases hattribute with ⟨_, _, _, _, hattribute⟩
        cases key <;> cases hattribute <;> cases hd
  · rintro ⟨k, hfound, howner, hfield, htype, _, hunusable⟩
    rw [invalidType_eq_report_iff.mpr ⟨rfl, howner, hfield, htype⟩]
    exact ResourceSite.Fault.key hfound
      ((isId_eq_false_iff_usablePathIn hfound).mpr hunusable)

/-!
## The search for a key
-/

/-- What the search for a key in a resource finds. -/
structure KeySearch (s : Schema) (key : Key) (resource : Message) : Prop where
  isSome_iff : (findKey s key ⟨resourceRoot, []⟩ resource).isSome ↔
    ∃ m f, Relation.ReflTransGen (Leads s.SingleEdge) resource m ∧
      f ∈ m.fields ∧ key.accepts f = true
  first : ∀ k, findKey s key ⟨resourceRoot, []⟩ resource = some k →
    ∃ positions steps position,
      KeyChain s key resource positions steps position k.field ∧
      k.owner = arrival resource steps ∧
      k.path = ⟨resourceRoot, segments steps ++ [Segment.traverse k.field]⟩ ∧
      ∀ others more other g, KeyChain s key resource others more other g →
        (others, other) = (positions, position) ∨
          Prod.Lex (List.Lex (· < ·)) (· < ·) (positions, position) (others, other)
  hops : ∀ k, findKey s key ⟨resourceRoot, []⟩ resource = some k →
    ∃ front last, k.path.segments = front ++ [last] ∧
      (∀ segment ∈ front, segment.hop = .field ∨ segment.hop = .optional) ∧
      (key = .tenant → last.hop = .field ∨ last.hop = .optional)

/-- The report on a key names the field that the search found.  It is made exactly if
the path to that field cannot be used. -/
structure KeyReports (s : Schema) (key : Key) (site : ResourceSite) : Prop where
  path : key.pathIn (site.describe s).1 =
    (findKey s key ⟨resourceRoot, []⟩ site.message).map KeyField.path
  mem_iff : ∀ owner field found,
    key.invalidType owner field found ∈ (site.describe s).2 ↔
      ∃ k, findKey s key ⟨resourceRoot, []⟩ site.message = some k ∧
        owner = k.owner.fullName ∧ field = k.field.name ∧
        found = k.field.type.describe ∧
        key.pathIn (site.describe s).1 = some k.path ∧
        key.usablePathIn (site.describe s).1 = none

/-- The id and the tenant of a resource are at the ends of the first chains that lead
to one. -/
theorem keys_of_resource {s : Schema} {target : MessageRef} {resource : Message}
    (registered : s.message? target = some resource) (key : Key) :
    KeySearch s key resource ∧
      ∀ label path, KeyReports s key ⟨resource, label, path⟩ := by
  constructor
  · exact
      { isSome_iff := findKey_isSome_iff_reachable registered key _
        first := fun k hk => exists_first_keyChain hk
        hops := by
          intro k hk
          rcases segments_of_findKey hk with ⟨front, hsegments, hfront, hlast⟩
          exact ⟨front, _, hsegments, hfront, hlast⟩ }
  · intro label path
    exact
      { path := key.pathIn_describe s _
        mem_iff := fun _ _ _ => invalidType_mem_describe_iff }

/-!
## A book and its owner
-/

namespace Sample

def ownerField : Field :=
  ⟨"owner", .single (.message ⟨"Owner"⟩), true, true, {}⟩

def bookMessage : Message :=
  { package := "", name := "Book", resourceType := some "book"
    fields :=
      [⟨"sequel", .single (.message ⟨"Book"⟩), false, true, {}⟩,
        ⟨"tenants", .list (.scalar .string), false, false, ⟨false, true, none⟩⟩,
        ownerField] }

def ownerMessage : Message :=
  { package := "", name := "Owner"
    fields :=
      [⟨"book", .single (.message ⟨"Book"⟩), false, true, {}⟩,
        ⟨"known", .single (.scalar .bool), false, false, ⟨true, false, none⟩⟩,
        ⟨"tenant", .single (.scalar .string), false, false, ⟨false, true, none⟩⟩] }

def bookSchema : Schema :=
  { messages := [bookMessage, ownerMessage] }

theorem message?_bookSchema :
    bookSchema.message? ⟨"Book"⟩ = some bookMessage ∧
      bookSchema.message? ⟨"Owner"⟩ = some ownerMessage := by
  have hbook : bookMessage.reference = ⟨"Book"⟩ :=
    reference_of_global rfl rfl (by decide)
  have howner : ownerMessage.reference = ⟨"Owner"⟩ :=
    reference_of_global rfl rfl (by decide)
  simp [Schema.message?, bookSchema, hbook, howner]

theorem reachable_ownerMessage :
    Relation.ReflTransGen (Leads bookSchema.SingleEdge) bookMessage ownerMessage := by
  apply Relation.ReflTransGen.single
  exact ⟨ownerField, by simp [bookMessage], ⟨"Owner"⟩, rfl, message?_bookSchema.2⟩

end Sample

theorem tenant_of_bookMessage :
    Sample.bookSchema.message? ⟨"Book"⟩ = some Sample.bookMessage ∧
    (findKey Sample.bookSchema .tenant ⟨resourceRoot, []⟩ Sample.bookMessage).isSome ∧
    KeySearch Sample.bookSchema .tenant Sample.bookMessage ∧
    ∀ label path,
      KeyReports Sample.bookSchema .tenant ⟨Sample.bookMessage, label, path⟩ := by
  have registered := Sample.message?_bookSchema.1
  have hkeys := keys_of_resource registered .tenant
  have hfound : (findKey Sample.bookSchema .tenant ⟨resourceRoot, []⟩
      Sample.bookMessage).isSome :=
    hkeys.1.isSome_iff.mpr ⟨_, _, Sample.reachable_ownerMessage,
      List.mem_of_getElem? (i := 2) rfl, rfl⟩
  exact ⟨registered, hfound, hkeys⟩

end AccessChecks
