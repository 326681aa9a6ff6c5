import AccessChecks.Proofs.DiscoveredPaths

/-!
# Shapes of fields

## Types of emitted code

Emitted code computes with the values of a request, with references to them and with
the values of which a configuration is made.

## Fields

A singular field is optional exactly if it has presence.  A list field holds a list,
a map field a map, an enum is an integer of 32 bits and bytes are a list.  Code finds
a field by its identifier, so the fields of a message have to have identifiers, and
different ones.

## Types along paths

Every segment leads from the type of a message to the type of what it reaches.  The
paths of a discovered resource have a type at each segment.
-/

namespace AccessChecks

open RouteStep

inductive CodeType where
  | bool
  | int32
  | int64
  | uint32
  | uint64
  | float
  | double
  | size
  | byte
  | text
  | slice
  | message (target : MessageRef)
  | value
  | attributes
  | resource
  | check
  | kind
  | mode
  | config
  | unit
  | ref (τ : CodeType)
  | optional (τ : CodeType)
  | list (τ : CodeType)
  | map (κ τ : CodeType)
  | pair (σ τ : CodeType)
  | iterator (τ : CodeType)
  | function (σ τ : CodeType)
deriving DecidableEq, Repr, Inhabited

namespace Scalar

def codeType : Scalar → CodeType
  | bool => .bool
  | int32 => .int32
  | int64 => .int64
  | uint32 => .uint32
  | uint64 => .uint64
  | float => .float
  | double => .double
  | string => .text
  | bytes => .list .byte

end Scalar

namespace Kind

def codeType : Kind → CodeType
  | scalar s => s.codeType
  | enum _ => .int32
  | message target => .message target

end Kind

namespace FieldType

def codeType : FieldType → CodeType
  | single kind => kind.codeType
  | list kind => .list kind.codeType
  | map key kind => .map key.codeType kind.codeType

end FieldType

namespace Field

def codeType (f : Field) : CodeType :=
  if f.presence && !f.type.isCollection then .optional f.type.codeType
  else f.type.codeType

def isNamed (x : String) (f : Field) : Bool :=
  match Name.ofField f.name with
  | .ok y => y == x
  | .error _ => false

end Field

namespace Message

structure NamesFields (m : Message) : Prop where
  valid : ∀ f ∈ m.fields,
    ∃ x, Name.ofField f.name = .ok x ∧ Name.isPlaceholder x = false
  distinct :
    m.fields.Pairwise fun f g => Name.ofField f.name ≠ Name.ofField g.name

theorem namesFields_of_map {m : Message} (names : List String)
    (h : m.fields.map (fun f => Name.ofField f.name) = names.map .ok)
    (valid : ∀ x ∈ names, Name.isPlaceholder x = false)
    (distinct : names.Nodup) : m.NamesFields := by
  constructor
  · intro f hf
    have hmem : Name.ofField f.name ∈ names.map Except.ok := by
      rw [← h]
      exact List.mem_map_of_mem hf
    rcases List.mem_map.mp hmem with ⟨x, hx, hname⟩
    exact ⟨x, hname.symm, valid x hx⟩
  · rw [← List.pairwise_map (f := fun f : Field => Name.ofField f.name)
      (R := fun a b => a ≠ b), h]
    exact List.Pairwise.map Except.ok
      (fun _ _ hne heq => hne (Except.ok.inj heq)) distinct

end Message

namespace Schema

def NamesFields (s : Schema) : Prop :=
  ∀ m ∈ s.messages, m.NamesFields

/-- The type of the field of the given identifier.  Nothing has the placeholder for
its name. -/
def fieldType? (s : Schema) (target : MessageRef) (x : String) :
    Option CodeType :=
  if Name.isPlaceholder x then none
  else
    (s.message? target).bind fun m =>
      (m.fields.find? (Field.isNamed x)).map Field.codeType

end Schema

namespace Hop

def content? : Hop → CodeType → Option CodeType
  | field, τ => some τ
  | optional, .optional τ => some τ
  | repeated, .list τ => some τ
  | mapped, .map _ τ => some τ
  | _, _ => none

theorem eq_of_content?_optional {φ σ : CodeType}
    (h : optional.content? φ = some σ) : φ = .optional σ := by
  cases φ <;> cases h
  rfl

theorem eq_of_content?_repeated {φ σ : CodeType}
    (h : repeated.content? φ = some σ) : φ = .list σ := by
  cases φ <;> cases h
  rfl

theorem eq_of_content?_mapped {φ σ : CodeType}
    (h : mapped.content? φ = some σ) : ∃ κ, φ = .map κ σ := by
  cases φ <;> cases h
  exact ⟨_, rfl⟩

end Hop

namespace Schema

def behind? (s : Schema) (τ : CodeType) (segment : Segment) :
    Option CodeType :=
  match τ, Name.ofField segment.name with
  | .message target, .ok x => (s.fieldType? target x).bind segment.hop.content?
  | _, _ => none

/-- The type of the value that segments reach from a value of a type. -/
def typeAt? (s : Schema) : CodeType → List Segment → Option CodeType
  | τ, [] => some τ
  | τ, segment :: rest => (s.behind? τ segment).bind fun σ => s.typeAt? σ rest

theorem exists_field_of_behind? {s : Schema} {τ σ : CodeType}
    {segment : Segment} (h : s.behind? τ segment = some σ) :
    ∃ target x φ, τ = .message target ∧ Name.ofField segment.name = .ok x ∧
      s.fieldType? target x = some φ ∧ segment.hop.content? φ = some σ := by
  unfold behind? at h
  split at h
  · rename_i target x hname
    rcases Option.bind_eq_some_iff.mp h with ⟨φ, hφ, hcontent⟩
    exact ⟨target, x, φ, rfl, hname, hφ, hcontent⟩
  · cases h

theorem typeAt?_cons {s : Schema} {τ σ : CodeType} {segment : Segment}
    {rest : List Segment} (h : s.typeAt? τ (segment :: rest) = some σ) :
    ∃ ρ, s.behind? τ segment = some ρ ∧ s.typeAt? ρ rest = some σ :=
  Option.bind_eq_some_iff.mp h

theorem typeAt?_append (s : Schema) (τ : CodeType)
    (front back : List Segment) :
    s.typeAt? τ (front ++ back) =
      (s.typeAt? τ front).bind fun σ => s.typeAt? σ back := by
  induction front generalizing τ with
  | nil => rfl
  | cons segment rest ih =>
      rw [List.cons_append, typeAt?, typeAt?, Option.bind_assoc]
      congr 1
      funext σ
      exact ih σ

/-!
## Fields of a message
-/

theorem find?_isNamed {fields : List Field} {f : Field} {x : String}
    (distinct :
      fields.Pairwise fun f g => Name.ofField f.name ≠ Name.ofField g.name)
    (hmem : f ∈ fields) (hx : Name.ofField f.name = .ok x) :
    fields.find? (Field.isNamed x) = some f := by
  induction fields with
  | nil => cases hmem
  | cons g rest ih =>
      rw [List.pairwise_cons] at distinct
      rcases List.mem_cons.mp hmem with rfl | hrest
      · rw [List.find?_cons_of_pos]
        rw [Field.isNamed, hx]
        exact BEq.rfl
      · rw [List.find?_cons_of_neg]
        · exact ih distinct.2 hrest
        · intro hnamed
          have hne := distinct.1 f hrest
          rw [Field.isNamed] at hnamed
          split at hnamed
          · rename_i y hy
            rw [hx, hy, eq_of_beq hnamed] at hne
            exact hne rfl
          · cases hnamed

theorem content?_traverse (f : Field) :
    (Segment.traverse f).hop.content? f.codeType =
      some f.type.valueKind.codeType := by
  rw [Segment.traverse, Field.codeType]
  cases f.type <;> cases f.presence <;> rfl

theorem content?_read (f : Field) :
    (Segment.read f).hop.content? f.codeType = some f.type.codeType := by
  rw [Segment.read, Field.codeType]
  cases f.presence && !f.type.isCollection <;> rfl

theorem behind?_of_mem {s : Schema} (named : s.NamesFields)
    {target : MessageRef} {m : Message}
    (found : s.message? target = some m) {f : Field} (hmem : f ∈ m.fields)
    {segment : Segment} (hname : segment.name = f.name) {σ : CodeType}
    (hcontent : segment.hop.content? f.codeType = some σ) :
    s.behind? (.message target) segment = some σ := by
  have hnames := named m (mem_of_message? found)
  rcases hnames.valid f hmem with ⟨x, hx, hplaceholder⟩
  have htype : s.fieldType? target x = some f.codeType := by
    rw [fieldType?, hplaceholder, found, Option.bind_some,
      find?_isNamed hnames.distinct hmem hx]
    rfl
  simp only [behind?, hname, hx, htype, Option.bind_some, hcontent]

/-!
## Types along routes
-/

theorem typeAt?_route {s : Schema} (named : s.NamesFields)
    {target : Field → Option MessageRef}
    (faithful : ∀ f reference, target f = some reference →
      f.type.messageTarget = some reference)
    {m : Message} {steps : List RouteStep} (h : Route (s.Edge target) m steps)
    {start : MessageRef} (found : s.message? start = some m) :
    ∃ stop, s.message? stop = some (arrival m steps) ∧
      ∀ back, s.typeAt? (.message start) (segments steps ++ back) =
        s.typeAt? (.message stop) back := by
  induction h generalizing start with
  | nil m => exact ⟨start, found, fun _ => rfl⟩
  | @cons m n f rest hedge _ ih =>
      rcases Option.bind_eq_some_iff.mp hedge.2 with ⟨next, htarget, hnext⟩
      have hkind : f.type.valueKind.codeType = .message next := by
        have hmessage := faithful f next htarget
        rw [FieldType.messageTarget] at hmessage
        cases hkind : f.type.valueKind with
        | scalar t => simp [hkind, Kind.message?] at hmessage
        | enum name => simp [hkind, Kind.message?] at hmessage
        | message t =>
            simp only [hkind, Kind.message?, Option.some.injEq] at hmessage
            rw [hmessage]
            rfl
      have hbehind := behind?_of_mem named found hedge.1 rfl
        (content?_traverse f)
      rcases ih hnext with ⟨stop, hstop, hback⟩
      refine ⟨stop, hstop, ?_⟩
      intro back
      rw [segments_cons, List.cons_append, typeAt?, hbehind, hkind,
        Option.bind_some, hback]

theorem typeAt?_route_field {s : Schema} (named : s.NamesFields)
    {target : Field → Option MessageRef}
    (faithful : ∀ f reference, target f = some reference →
      f.type.messageTarget = some reference)
    {m : Message} {steps : List RouteStep} (h : Route (s.Edge target) m steps)
    {start : MessageRef} (found : s.message? start = some m) {f : Field}
    (hmem : f ∈ (arrival m steps).fields) {segment : Segment}
    (hname : segment.name = f.name) {σ : CodeType}
    (hcontent : segment.hop.content? f.codeType = some σ) :
    s.typeAt? (.message start) (segments steps ++ [segment]) = some σ := by
  rcases typeAt?_route named faithful h found with ⟨stop, hstop, hback⟩
  rw [hback, typeAt?, behind?_of_mem named hstop hmem hname hcontent]
  rfl

end Schema

/-!
## Types along the paths of a resource
-/

/-- The paths to the keys and to the attributes of a resource have types, from the
type of its instances on. -/
structure Resource.PathsTyped (s : Schema) (r : Resource)
    (inst : MessageRef) : Prop where
  id : ∀ p, r.usableIdPath = some p →
    ∃ kind, p.leafType = some (.single kind) ∧ kind.isId = true ∧
      s.typeAt? (.message inst) p.segments = some kind.codeType
  tenant : ∀ p, r.usableTenantPath = some p →
    ∃ kind, p.leafType = some (.single kind) ∧ kind.isId = true ∧
      s.typeAt? (.message inst) p.segments = some kind.codeType
  attributes : ∀ e ∈ r.attributePaths,
    ∃ type, e.2.leafType = some type ∧
      s.typeAt? (.message inst) e.2.segments = some type.codeType

theorem typeAt?_of_findKey {s : Schema} (named : s.NamesFields) {key : Key}
    {resource : Message} {found : KeyField}
    (h : findKey s key ⟨resourceRoot, []⟩ resource = some found)
    {inst : MessageRef} (hinst : s.message? inst = some resource) :
    s.typeAt? (.message inst) found.path.segments =
      some found.field.type.valueKind.codeType := by
  rcases exists_route_of_findKey h with ⟨steps, hroute, hmem, _, hpath⟩
  rw [hpath]
  exact Schema.typeAt?_route_field named
    (fun f reference => Field.messageTarget_of_keyTarget) hroute hinst hmem rfl
    (Schema.content?_traverse found.field)

theorem typeAt?_of_mem_findAttributes {s : Schema} (named : s.NamesFields)
    {resource : Message} {a : AttributeField}
    (h : a ∈ findAttributes s ⟨resourceRoot, []⟩ resource)
    {inst : MessageRef} (hinst : s.message? inst = some resource) :
    s.typeAt? (.message inst) a.path.segments =
      some a.field.type.codeType := by
  rcases exists_attributeAt s _ _ resource _ (fun f hf => hf) h with
    ⟨steps, hat⟩
  have hpath : a.path.segments =
      segments steps ++ [Segment.read a.field] := by
    simp [hat.path, AccessPath.append, AccessPath.through]
  have hmem := hat.field
  rw [hat.owner] at hmem
  rw [hpath]
  exact Schema.typeAt?_route_field named
    (fun f reference => Field.messageTarget_of_attributeTarget)
    hat.fresh.route hinst hmem rfl (Schema.content?_read a.field)

theorem pathsTyped_describe {s : Schema} (named : s.NamesFields)
    {site : ResourceSite} {inst : MessageRef}
    (hinst : s.message? inst = some site.message) :
    (site.describe s).1.PathsTyped s inst :=
  { id := by
      intro p hp
      rcases Option.filter_eq_some_iff.mp hp with ⟨hid, usable⟩
      rcases Option.map_eq_some_iff.mp hid with ⟨found, hfound, rfl⟩
      have hkey := keyPath_of_findKey hfound usable
      exact ⟨_, hkey.leaf, hkey.isId, typeAt?_of_findKey named hfound hinst⟩
    tenant := by
      intro p hp
      rcases Option.filter_eq_some_iff.mp hp with ⟨htenant, usable⟩
      rcases Option.map_eq_some_iff.mp htenant with ⟨found, hfound, rfl⟩
      have hkey := keyPath_of_findKey hfound usable
      exact ⟨_, hkey.leaf, hkey.isId, typeAt?_of_findKey named hfound hinst⟩
    attributes := by
      intro e he
      rcases mem_recordAttributes he with hnil | ⟨a, ha, rfl⟩
      · cases hnil
      · exact ⟨_, (attributePath_of_mem ha).leaf,
          typeAt?_of_mem_findAttributes named ha hinst⟩ }

theorem pathsTyped_of_discover {s : Schema} (named : s.NamesFields)
    {target : MessageRef} {r : Resource}
    (found : (discover s target).1 = some r) :
    ∃ inst, s.typeAt? (.message target) r.path.segments =
        some (.message inst) ∧ r.PathsTyped s inst := by
  rcases exists_site_of_discover found with ⟨request, site, hrequest, hsite, hr⟩
  rcases exists_leadsToResource hsite with ⟨steps, hsteps, harrival⟩
  have hroute := hsteps.route
  rw [← Schema.edge_resourceTarget] at hroute
  rcases Schema.typeAt?_route named
    (fun f reference => Field.messageTarget_of_resourceTarget) hroute hrequest
    with ⟨inst, hinst, hback⟩
  refine ⟨inst, ?_, ?_⟩
  · have hend := hback []
    rw [List.append_nil] at hend
    rw [← hr, hsteps.path]
    exact hend
  · rw [← hr]
    apply pathsTyped_describe named
    rw [hinst, harrival]

end AccessChecks
