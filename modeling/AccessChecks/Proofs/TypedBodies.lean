import Mathlib
import AccessChecks.Proofs.CheckSites
import AccessChecks.Proofs.TypedChecks

/-!
# Types of emitted bodies

## Bodies

A body binds the request, the permission and the checks around the code of the
instances, and decides the kind behind it.

## Bodies of discovered resources

The paths of a discovered resource have types, so the body that is emitted for it is
well typed and closed.  The one exception is an attribute that holds a map with bytes
as keys: its keys are to be written out as texts, which bytes do not have.
-/

namespace AccessChecks

open Emission Scope Stmt

namespace Emission

variable {s : Schema} {Γ : Scope} {r : Resource} {inst : MessageRef}
  {issued : Nat}

/-!
## Bodies
-/

theorem gives_statedMode (Γ : Scope) (mode : Option BulkMode) :
    (statedMode r mode).Gives s Γ (.optional .mode) := by
  rw [statedMode]
  cases r.isMultiple with
  | true =>
      rw [if_pos rfl]
      exact (Expr.HasType.turning
        ((Expr.HasType.item (Item.Is.mode _)).gives rfl)
        (Item.Turns.present .mode)).gives rfl
  | false =>
      rw [if_neg (by decide)]
      exact (Expr.HasType.item (Item.Is.absent .mode)).gives rfl

theorem gives_kind
    (hchecks : Γ.lookup checksVariable = some ⟨true, .list .check⟩) :
    (Expr.choice
      (.binary .exceeds (.method (.name checksVariable) .len []) (.number 1))
      (.item (.kind .bulk)) (.item (.kind .single))).Gives s Γ .kind := by
  have hlen := Expr.HasType.borrowing (Expr.HasType.name (s := s) hchecks)
    (MethodName.Borrows.len rfl)
  have hone := Expr.HasType.number (s := s) (Γ := Γ) (n := 1) (τ := .size) rfl
    (by decide)
  have htest : (Expr.binary .exceeds (.method (.name checksVariable) .len [])
      (.number 1)).HasType s Γ .bool :=
    Expr.HasType.binary (hlen.gives rfl) (hone.gives rfl) rfl
  have hkind : ∀ k : CheckKind, (Expr.item (.kind k)).Gives s Γ .kind :=
    fun k => (Expr.HasType.item (Item.Is.kind k)).gives rfl
  exact (Expr.HasType.choice (htest.gives rfl) (hkind .bulk)
    (hkind .single)).gives rfl

def entryScope (target : MessageRef) : Scope :=
  [(checksVariable, ⟨true, .list .check⟩),
    (permissionVariable, ⟨false, .ref .slice⟩),
    (requestRoot, ⟨false, .ref (.message target)⟩),
    ("self", ⟨false, .ref (.message target)⟩)]

theorem typedAll_prelude (target : MessageRef) (permission : String) :
    TypedAll s [("self", ⟨false, .ref (.message target)⟩)]
      [.bind false requestRoot none (.name "self"),
        .bind false permissionVariable none (.text permission),
        .bind true checksVariable (some .check) (.call .newList [])]
      (entryScope target) := by
  have hself := Value.hasType_bound (s := s) [] "self"
    ⟨false, .ref (.message target)⟩
  have hrequest := Stmt.typed_bind (s := s) (x := requestRoot) false
    (hself.gives rfl) rfl
  have htext := Expr.HasType.text (s := s)
    [(requestRoot, ⟨false, .ref (.message target)⟩),
      ("self", ⟨false, .ref (.message target)⟩)] permission
  have hpermission := Stmt.typed_bind (x := permissionVariable) false
    (htext.gives rfl) rfl
  apply TypedAll.cons hrequest
  apply TypedAll.cons hpermission
  apply Typed.alone
  exact Stmt.typed_bind_newList rfl rfl

theorem free_entryScope (target : MessageRef) (issued : Nat) :
    (entryScope target).Free instanceNames issued := by
  have hnil : Scope.Free [] instanceNames issued :=
    { names := fun _ _ => rfl
      plain := by decide
      loops := fun _ _ => rfl }
  have hself := hnil.cons (x := "self") (by decide)
    ⟨false, .ref (.message target)⟩ instanceNames (by decide)
  have hrequest := hself.cons (x := requestRoot) (by decide)
    ⟨false, .ref (.message target)⟩ instanceNames (by decide)
  have hpermission := hrequest.cons (x := permissionVariable) (by decide)
    ⟨false, .ref .slice⟩ instanceNames (by decide)
  exact hpermission.cons (x := checksVariable) (by decide)
    ⟨true, .list .check⟩ instanceNames (by decide)

theorem emits_gatedBody {target : MessageRef} (permission : String)
    (mode : Option BulkMode)
    (hroute : s.typeAt? (.message target) r.path.segments =
      some (.message inst))
    (hpaths : r.PathsTyped s inst) (htenant : r.HasSingleTenant)
    (hkeys : r.HasTextKeys) :
    Emits issued (gatedBody r permission mode) fun _ body =>
      body.WellTyped s target := by
  have hentry : (entryScope target).CollectsChecks :=
    { permission := rfl
      checks := rfl }
  have hrequest : (Value.ref (.name requestRoot)).HasShape s
      (entryScope target) (.message target) :=
    Expr.HasType.name (v := ⟨false, .ref (.message target)⟩) rfl
  apply emits_map
  apply emits_mono
    (emits_walk instanceVariables (by decide) (free_entryScope target issued)
      hrequest hroute _ _)
  · rintro _ instances _ ⟨locals, hlocals, htyped⟩
    -- the code of the instances binds neither the checks nor the kind
    have hlookup : ∀ x, x ∉ instanceVariables →
        List.lookup x (locals ++ entryScope target) =
          (entryScope target).lookup x := by
      intro x hx
      apply Environment.lookup_append_of_not_bound
      rintro p hp rfl
      exact hx (hlocals p hp)
    have hchecks := (hlookup checksVariable (by decide)).trans hentry.checks
    have hfresh : Scope.Fresh (locals ++ entryScope target) kindVariable :=
      hlookup kindVariable (by decide)
    have hkind := Stmt.typed_bind (s := s) false (gives_kind hchecks) hfresh
    refine ⟨_, ((typedAll_prelude target permission).append htyped).append
      hkind.alone, ?_⟩
    exact (Expr.HasType.record (i := .checkConfig) (x := kindVariable)
      (y := "mode") (z := checksVariable) rfl rfl
      ((Value.hasType_bound _ kindVariable ⟨false, .kind⟩).gives rfl)
      (gives_statedMode _ mode)
      ((Expr.HasType.name (lookup_cons_of_fresh hfresh hchecks)).gives
        rfl)).gives rfl
  · intro Δ value number hΔ hΔfree hshape
    apply emits_instanceChecks hpaths htenant hkeys (hentry.extends hΔ) hΔfree
    intro v hv
    rw [← Option.some.inj hv]
    exact hshape
  · intro _ Δ number hΔ hΔfree
    exact emits_instanceChecks hpaths htenant hkeys (hentry.extends hΔ) hΔfree
      none fun _ h => by cases h

end Emission

/-!
## Bodies of discovered resources
-/

namespace Resource

def ReadsAlong (r : Resource) (p : AccessPath) : Prop :=
  r.usableIdPath = some p ∨ r.usableTenantPath = some p ∨
    ∃ name, (name, p) ∈ r.attributePaths

theorem PathsTyped.keepsShapes {s : Schema} {r : Resource}
    {inst : MessageRef} (h : r.PathsTyped s inst) {p : AccessPath}
    (hp : r.ReadsAlong p) : s.KeepsShapes (.message inst) p.segments := by
  rcases hp with hid | htenant | ⟨name, hattribute⟩
  · rcases h.id p hid with ⟨_, _, _, htype⟩
    exact Schema.keepsShapes_of_typeAt? htype
  · rcases h.tenant p htenant with ⟨_, _, _, htype⟩
    exact Schema.keepsShapes_of_typeAt? htype
  · rcases h.attributes _ hattribute with ⟨_, _, htype⟩
    exact Schema.keepsShapes_of_typeAt? htype

end Resource

/-- Along every path of a discovered resource, the emitted expressions keep the
promises of their shapes, and the gated body is well typed and closed. -/
theorem gatedBody_wellTyped {s : Schema} (named : s.NamesFields)
    {target : MessageRef} {r : Resource}
    (found : (discover s target).1 = some r) (keys : r.HasTextKeys)
    (permission : String) (mode : Option BulkMode) :
    ∃ inst, s.typeAt? (.message target) r.path.segments =
        some (.message inst) ∧
      s.KeepsShapes (.message target) r.path.segments ∧
      (∀ p, r.ReadsAlong p → s.KeepsShapes (.message inst) p.segments) ∧
      ∀ issued, ∃ body,
        ((Emission.gatedBody r permission mode).run.run issued).1 = .ok body ∧
        body.WellTyped s target := by
  rcases pathsTyped_of_discover named found with ⟨inst, hroute, hpaths⟩
  refine ⟨inst, hroute, Schema.keepsShapes_of_typeAt? hroute,
    fun p hp => hpaths.keepsShapes hp, ?_⟩
  intro issued
  have hemits : Emission.Emits issued (Emission.gatedBody r permission mode)
      fun _ body => body.WellTyped s target :=
    Emission.emits_gatedBody permission mode hroute hpaths
      (hasSingleTenant_of_discover found) keys
  rcases hemits with ⟨body, later, hrun, _, htyped⟩
  exact ⟨body, by rw [hrun], htyped⟩

namespace Sample

theorem namesFields_docSchema : docSchema.NamesFields := by
  intro m hm
  rcases List.mem_pair.mp hm with rfl | rfl
  · exact Message.namesFields_of_map ["docs"] (by cbv) (by decide) (by decide)
  · exact Message.namesFields_of_map ["ids", "tenant", "tags"] (by cbv)
      (by decide) (by decide)

theorem hasTextKeys_docResource : docResource.HasTextKeys := by
  intro e he type htype
  rw [List.mem_singleton.mp he] at htype
  cases htype
  rfl

end Sample

theorem gatedBody_docSchema_wellTyped :
    Sample.docSchema.NamesFields ∧
    (discover Sample.docSchema ⟨"Get"⟩).1 = some Sample.docResource ∧
    Sample.docResource.HasTextKeys ∧
    ∃ body,
      ((Emission.gatedBody Sample.docResource "view"
        (some .anyOf)).run.run 0).1 = .ok body ∧
      body.WellTyped Sample.docSchema ⟨"Get"⟩ := by
  refine ⟨Sample.namesFields_docSchema, Sample.discover_docSchema,
    Sample.hasTextKeys_docResource, ?_⟩
  rcases gatedBody_wellTyped Sample.namesFields_docSchema
    Sample.discover_docSchema Sample.hasTextKeys_docResource "view"
    (some .anyOf) with ⟨_, _, _, _, hbodies⟩
  exact hbodies 0

/-!
## Maps with bytes as keys
-/

namespace Sample

def labelsField : Field :=
  ⟨"labels", .map .bytes (.scalar .string), false, false,
    ⟨false, false, some "labels"⟩⟩

def badgeMessage : Message :=
  { package := "", name := "Badge", resourceType := some "badge"
    fields := [labelsField] }

def badgeSchema : Schema :=
  { messages := [badgeMessage] }

def badgeResource : Resource :=
  { name := "Badge"
    resourceType := "badge"
    path := ⟨requestRoot, []⟩
    idPath := none
    tenantPath := none
    attributePaths :=
      [("labels", ⟨resourceRoot, [Segment.read labelsField]⟩)] }

def labels : Expr :=
  .field (.name resourceRoot) "labels"

def labelsValue : Expr :=
  .call (.attributeOf .map)
    [.method
      (.method (.method labels .iter []) .map
        [.closure (.pair "k" "v")
          (.pair (.method (.name "k") .toString [])
            (.call (.attributeOf .string) [.method (.name "v") .clone []]))])
      .collect []]

def badgeBody : Body :=
  { statements :=
      [.bind false "request" none (.name "self"),
        .bind false "permission" none (.text "view"),
        .bind true "checks" (some .check) (.call .newList []),
        .bind false "resource" none (.name "request"),
        .bind false "id" none (.call .newText []),
        .bind false "tenant_id" none (.call .textFrom [.item .defaultTenant]),
        .bind true "attributes" none (.call .newAttributes []),
        Emission.insertAttribute "labels" labelsValue,
        Emission.pushCheck badgeResource,
        .bind false "kind" none
          (.choice
            (.binary .exceeds (.method (.name "checks") .len []) (.number 1))
            (.item (.kind .bulk)) (.item (.kind .single)))]
    result :=
      .record .checkConfig
        [("kind", .name "kind"), ("mode", .item .absent),
          ("checks", .name "checks")] }

theorem namesFields_badgeSchema : badgeSchema.NamesFields := by
  intro m hm
  rw [List.mem_singleton.mp hm]
  exact Message.namesFields_of_map ["labels"] (by cbv) (by decide) (by decide)

theorem discover_badgeSchema :
    (discover badgeSchema ⟨"Badge"⟩).1 = some badgeResource := by
  cbv

theorem gatedBody_badgeResource :
    ((Emission.gatedBody badgeResource "view" none).run.run 0).1 =
      .ok badgeBody := by
  cbv

theorem fieldType?_labels :
    badgeSchema.fieldType? ⟨"Badge"⟩ "labels" =
      some (.map (.list .byte) .text) := by
  cbv

theorem eq_of_hasType_labels {Γ : Scope} {υ : CodeType}
    (hresource : Γ.lookup resourceRoot =
      some ⟨false, .ref (.message ⟨"Badge"⟩)⟩)
    (h : labels.HasType badgeSchema Γ υ) : υ = .map (.list .byte) .text := by
  cases h with
  | field hbase htarget htype =>
      rcases hbase.exists_variable with ⟨v, hlookup, rfl⟩
      rw [hresource] at hlookup
      cases hlookup
      cases htarget
      rw [fieldType?_labels] at htype
      exact (Option.some.inj htype).symm

theorem not_wellTyped_badgeBody :
    ¬ badgeBody.WellTyped badgeSchema ⟨"Badge"⟩ := by
  rintro ⟨Γ, hstatements, _⟩
  -- the request and the resource are bound to what the body is called on
  rcases hstatements.exists_bound_type with ⟨_, hself, hstatements⟩
  rcases hstatements.exists_bound_type with ⟨_, _, hstatements⟩
  rcases hstatements.exists_bound_type with ⟨_, _, hstatements⟩
  rcases hstatements.exists_bound_type with ⟨_, hrequest, hstatements⟩
  rcases hself.exists_variable with ⟨_, hlookup, rfl⟩
  cases hlookup
  rcases hrequest.exists_variable with ⟨_, hlookup, rfl⟩
  cases hlookup
  rcases hstatements.exists_bound_type with ⟨_, _, hstatements⟩
  rcases hstatements.exists_bound_type with ⟨_, _, hstatements⟩
  rcases hstatements.exists_bound_type with ⟨_, _, hstatements⟩
  have hconvert : (Value.place labels).convert labelsField.type =
      some labelsValue := rfl
  cases hstatements with
  | cons hinsertion _ =>
      cases hinsertion with
      | eval hinsert =>
          cases hinsert with
          | insert _ _ hvalue =>
              rcases Value.hasText_of_hasType_convert hconvert hvalue.hasType
                with ⟨υ, κ, σ, hlabels, hmap, htext⟩
              rw [eq_of_hasType_labels rfl hlabels] at hmap
              cases hmap
              cases htext

end Sample

/-- The body for a badge has no type, since the keys of its labels have no texts. -/
theorem gatedBody_badgeResource_not_wellTyped :
    Sample.badgeSchema.NamesFields ∧
    (discover Sample.badgeSchema ⟨"Badge"⟩).1 = some Sample.badgeResource ∧
    ∃ body,
      ((Emission.gatedBody Sample.badgeResource "view" none).run.run 0).1 =
        .ok body ∧
      ¬ body.WellTyped Sample.badgeSchema ⟨"Badge"⟩ :=
  ⟨Sample.namesFields_badgeSchema, Sample.discover_badgeSchema,
    Sample.badgeBody, Sample.gatedBody_badgeResource,
    Sample.not_wellTyped_badgeBody⟩

end AccessChecks
