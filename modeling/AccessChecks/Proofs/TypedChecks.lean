import AccessChecks.Proofs.EmittedBodies
import AccessChecks.Proofs.TypedAttributes

/-!
# Types of emitted checks

## Checks

The code of a check finds the permission and the checks bound, and binds the id, the
tenant and the attributes before it pushes the check.

## Instances

The instance is bound first, if something is read from it.  Its ids may be behind a
collection, and then the code of a check is at the end of the loops.
-/

namespace AccessChecks

open Emission Scope Stmt

namespace Scope

structure CollectsChecks (Γ : Scope) : Prop where
  permission : Γ.lookup permissionVariable = some ⟨false, .ref .slice⟩
  checks : Γ.lookup checksVariable = some ⟨true, .list .check⟩

theorem CollectsChecks.extends {Γ Δ : Scope} (h : Γ.CollectsChecks)
    (hΔ : Γ.Extends Δ) : Δ.CollectsChecks :=
  { permission := hΔ _ _ h.permission
    checks := hΔ _ _ h.checks }

end Scope

namespace Resource

/-- No attribute is converted from a map without texts for its keys. -/
def HasTextKeys (r : Resource) : Prop :=
  ∀ e ∈ r.attributePaths, ∀ type, e.2.leafType = some type →
    type.hasTextKeys = true

end Resource

namespace Emission

variable {s : Schema} {Γ : Scope} {r : Resource} {inst : MessageRef}
  {issued : Nat}

/-!
## Checks
-/

theorem gives_defaultTenant (Γ : Scope) :
    (Expr.call .textFrom [.item .defaultTenant]).Gives s Γ .text :=
  (Expr.HasType.turning
    ((Expr.HasType.item Item.Is.defaultTenant).gives rfl)
    Item.Turns.textFrom).gives rfl

theorem gives_emptyText (Γ : Scope) :
    (Expr.call .newText []).Gives s Γ .text :=
  (Expr.HasType.making Item.Makes.newText).gives rfl

theorem emits_bindKey {x : String} {default_ : Expr}
    {path : Option AccessPath} {instance_ : Option Value} {τ : CodeType}
    (hfree : Γ.Free (x :: [Value.found, Value.inner]) issued)
    (hfound : x ≠ Value.found) (hinner : x ≠ Value.inner)
    (hdefault : default_.Gives s Γ .text)
    (hkept : ∀ value ∈ instance_, value.Kept s Γ τ)
    (hpath : ∀ p, path = some p → p.crossesCollection = false ∧
      ∃ kind, p.leafType = some (.single kind) ∧ kind.isId = true ∧
        s.typeAt? τ p.segments = some kind.codeType) :
    Emits issued (bindKey x default_ path instance_) fun _ body =>
      ∃ isMutable, TypedAll s Γ body ((x, ⟨isMutable, .text⟩) :: Γ) := by
  have hx := hfree.names x List.mem_cons_self
  have hplain : Emits issued
      (pure [.bind false x none default_] : Emission (List Stmt))
      fun _ body =>
        ∃ isMutable, TypedAll s Γ body ((x, ⟨isMutable, .text⟩) :: Γ) :=
    emits_pure ⟨false, (Stmt.typed_bind false hdefault hx).alone⟩
  cases path with
  | none =>
      cases instance_ with
      | none => exact hplain
      | some value => exact hplain
  | some p =>
      cases instance_ with
      | none => exact hplain
      | some value =>
          rcases hpath p rfl with ⟨hcross, kind, hleaf, hid, htype⟩
          have hfresh : ∀ y, y ≠ x → Γ.Fresh y →
              Scope.Fresh ((x, ⟨true, .text⟩) :: Γ) y := by
            intro y hne hy
            rw [Fresh, Environment.lookup_cons_ne (Ne.symm hne)]
            exact hy
          have hextends := extends_cons hx ⟨true, .text⟩
          have hinnerFresh := hfresh _ (Ne.symm hinner)
            (hfree.names Value.inner (by simp))
          have hfoundFresh := hfresh _ (Ne.symm hfound)
            (hfree.names Value.found (by simp))
          apply emits_bind
          apply emits_mono
            (Value.emits_follow (hkept value rfl _ hextends) hinnerFresh htype
              hcross)
          intro later leaf _ hshape
          rw [hleaf]
          apply emits_pure
          refine ⟨true, TypedAll.cons (Stmt.typed_bind true hdefault hx) ?_⟩
          exact (Value.typed_assignUnlessZero hshape hid hfoundFresh
            (Environment.lookup_cons_self x _ Γ)).alone

def checkNames : List String :=
  tenantVariable :: attributesVariable :: attributeNames

theorem typed_pushCheck {id tenant attributes : Bool}
    (hchecks : Γ.CollectsChecks)
    (hid : Γ.lookup idVariable = some ⟨id, .text⟩)
    (htenant : Γ.lookup tenantVariable = some ⟨tenant, .text⟩)
    (hattributes : Γ.lookup attributesVariable =
      some ⟨attributes, .attributes⟩) :
    (pushCheck r).Typed s Γ Γ := by
  have hname : ∀ {x : String} {v : Variable}, Γ.lookup x = some v →
      (Expr.name x).Gives s Γ v.type :=
    fun hx => (Expr.HasType.name hx).gives rfl
  have htext : ∀ {e : Expr}, e.Gives s Γ (.ref .slice) →
      (Expr.call .textFrom [e]).Gives s Γ .text :=
    fun he => (Expr.HasType.turning he Item.Turns.textFrom).gives rfl
  have htype := htext
    ((Expr.HasType.text (s := s) Γ r.resourceType).gives rfl)
  have hresource : (Expr.record .checkedResource
      [("resource_type", .call .textFrom [.text r.resourceType]),
        (idVariable, .name idVariable),
        (attributesVariable, .name attributesVariable)]).Gives s Γ
        .resource :=
    (Expr.HasType.record rfl rfl htype (hname hid)
      (hname hattributes)).gives rfl
  have hcheck := (Expr.HasType.record (i := .check) (x := "tenant_id")
    (y := "permission") (z := "resource") rfl rfl (hname htenant)
    (htext (hname hchecks.permission)) hresource).gives rfl
  exact Stmt.Typed.eval (Expr.HasType.push hchecks.checks hcheck)

theorem emits_checkOf {id : List Stmt} {instance_ : Option Value}
    {isMutable : Bool} (hpaths : r.PathsTyped s inst)
    (htenant : r.HasSingleTenant) (hkeys : r.HasTextKeys)
    (hchecks : Γ.CollectsChecks)
    (hfree : Γ.Free (idVariable :: checkNames) issued)
    (hkept : ∀ value ∈ instance_, value.Kept s Γ (.message inst))
    (hid : TypedAll s Γ id ((idVariable, ⟨isMutable, .text⟩) :: Γ)) :
    Emits issued (checkOf r instance_ id) fun _ =>
      Binds s checkVariables Γ := by
  have hidExtends := extends_cons (hfree.names idVariable List.mem_cons_self)
    ⟨isMutable, .text⟩
  have hidFree := hfree.cons (x := idVariable) (by decide)
    ⟨isMutable, .text⟩ checkNames (by decide)
  apply emits_bind
  apply emits_mono
    (emits_bindKey (x := tenantVariable)
      (hidFree.mono (by decide) (Nat.le_refl issued)) (by decide) (by decide)
      (gives_defaultTenant _)
      (fun value hvalue => (hkept value hvalue).extends hidExtends)
      fun p hp => ⟨htenant p hp, hpaths.tenant p hp⟩)
  rintro later tenant hlater ⟨tenantMutable, htenantTyped⟩
  have htenantExtends := extends_cons
    (hidFree.names tenantVariable (by decide)) ⟨tenantMutable, .text⟩
  have htenantFree := (hidFree.mono (fun _ hx => hx) hlater).cons
    (x := tenantVariable) (by decide) ⟨tenantMutable, .text⟩
    (attributesVariable :: attributeNames) (by decide)
  apply emits_bind
  apply emits_mono
    (emits_bindAttributes htenantFree
      (fun value hvalue =>
        (hkept value hvalue).extends (hidExtends.trans htenantExtends))
      fun e he => by
        rcases hpaths.attributes e he with ⟨type, hleaf, htype⟩
        exact ⟨type, hleaf, htype, hkeys e he type hleaf⟩)
  rintro last attributes _ ⟨attributesMutable, hattributesTyped⟩
  have hattributesExtends := extends_cons
    (htenantFree.names attributesVariable List.mem_cons_self)
    ⟨attributesMutable, .attributes⟩
  apply emits_pure
  refine ⟨[(attributesVariable, ⟨attributesMutable, .attributes⟩),
    (tenantVariable, ⟨tenantMutable, .text⟩),
    (idVariable, ⟨isMutable, .text⟩)], by simp [checkVariables], ?_⟩
  have hpush := typed_pushCheck (s := s) (r := r)
    (hchecks.extends
      ((hidExtends.trans htenantExtends).trans hattributesExtends))
    rfl rfl rfl
  exact ((hid.append htenantTyped).append hattributesTyped).append hpush.alone

/-!
## Instances
-/

def checkOfId (r : Resource) (value : Value) (id : Option Value) :
    Emission (List Stmt) :=
  checkOf r (some value)
    [.bind false idVariable none
      ((id.map Value.asText).getD (.call .newText []))]

theorem emits_checkOf_emptyId {instance_ : Option Value}
    (hpaths : r.PathsTyped s inst) (htenant : r.HasSingleTenant)
    (hkeys : r.HasTextKeys) (hchecks : Γ.CollectsChecks)
    (hfree : Γ.Free (idVariable :: checkNames) issued)
    (hkept : ∀ value ∈ instance_, value.Kept s Γ (.message inst)) :
    Emits issued
      (checkOf r instance_ [.bind false idVariable none (.call .newText [])])
      fun _ => Binds s checkVariables Γ := by
  have hbind := Stmt.typed_bind (s := s) false (gives_emptyText Γ)
    (hfree.names idVariable List.mem_cons_self)
  exact emits_checkOf hpaths htenant hkeys hchecks hfree hkept hbind.alone

theorem emits_checksOf_many {value : Value} {p : AccessPath}
    (hpaths : r.PathsTyped s inst) (htenant : r.HasSingleTenant)
    (hkeys : r.HasTextKeys) (hchecks : Γ.CollectsChecks)
    (hfree : Γ.Free (idVariable :: checkNames) issued)
    (hkept : value.Kept s Γ (.message inst)) (hp : r.usableIdPath = some p) :
    Emits issued (walk true (checkOfId r value) p.segments value) fun _ =>
      Binds s checkVariables Γ := by
  rcases hpaths.id p hp with ⟨kind, _, hid, htype⟩
  apply emits_walk checkVariables (by decide) hfree
    (hkept Γ (Extends.refl Γ)) htype
  · intro Δ leaf number hΔ hΔfree hshape
    have hbind := Stmt.typed_bind (s := s) false
      (Value.gives_asText hshape (Kind.hasText_codeType_of_isId hid))
      (hΔfree.names idVariable List.mem_cons_self)
    apply emits_checkOf hpaths htenant hkeys (hchecks.extends hΔ) hΔfree _
      hbind.alone
    intro v hv
    rw [← Option.some.inj hv]
    exact hkept.extends hΔ
  · intro hneeds
    cases hneeds

theorem emits_checksOf_one {value : Value} {p : AccessPath}
    (hpaths : r.PathsTyped s inst) (htenant : r.HasSingleTenant)
    (hkeys : r.HasTextKeys) (hchecks : Γ.CollectsChecks)
    (hfree : Γ.Free (idVariable :: checkNames) issued)
    (hkept : ∀ v ∈ some value, v.Kept s Γ (.message inst))
    (hp : r.usableIdPath = some p) (hcross : p.crossesCollection = false) :
    Emits issued
      (bindKey idVariable (.call .newText []) (some p) (some value) >>=
        checkOf r (some value))
      fun _ => Binds s checkVariables Γ := by
  apply emits_bind
  apply emits_mono
    (emits_bindKey (x := idVariable)
      (hfree.mono (by decide) (Nat.le_refl issued)) (by decide) (by decide)
      (gives_emptyText Γ) hkept fun q hq => by
        rw [← Option.some.inj hq]
        exact ⟨hcross, hpaths.id p hp⟩)
  rintro later id hlater ⟨isMutable, hid⟩
  exact emits_checkOf hpaths htenant hkeys hchecks
    (hfree.mono (fun _ hx => hx) hlater) hkept hid

theorem emits_checksOf {instance_ : Option Value}
    (hpaths : r.PathsTyped s inst) (htenant : r.HasSingleTenant)
    (hkeys : r.HasTextKeys) (hchecks : Γ.CollectsChecks)
    (hfree : Γ.Free (idVariable :: checkNames) issued)
    (hkept : ∀ value ∈ instance_, value.Kept s Γ (.message inst)) :
    Emits issued (checksOf r instance_) fun _ =>
      Binds s checkVariables Γ := by
  cases hp : r.usableIdPath with
  | none =>
      rw [checksOf]
      · exact emits_checkOf_emptyId hpaths htenant hkeys hchecks hfree hkept
      · intro path _ hsome
        rw [hp] at hsome
        cases hsome
  | some p =>
      cases instance_ with
      | none =>
          rw [checksOf]
          · exact emits_checkOf_emptyId hpaths htenant hkeys hchecks hfree hkept
          · intro _ _ _ hsome
            cases hsome
      | some value =>
          unfold checksOf
          rw [hp]
          dsimp only
          cases hcross : p.crossesCollection with
          | true =>
              rw [if_pos rfl]
              exact emits_checksOf_many hpaths htenant hkeys hchecks hfree
                (hkept value rfl) hp
          | false =>
              rw [if_neg (by decide)]
              exact emits_checksOf_one hpaths htenant hkeys hchecks hfree hkept
                hp hcross

def instanceNames : List String :=
  resourceRoot :: idVariable :: checkNames

theorem emits_instanceChecks (hpaths : r.PathsTyped s inst)
    (htenant : r.HasSingleTenant) (hkeys : r.HasTextKeys)
    (hchecks : Γ.CollectsChecks) (hfree : Γ.Free instanceNames issued)
    (value : Option Value)
    (hvalue : ∀ v ∈ value, v.HasShape s Γ (.message inst)) :
    Emits issued (instanceChecks r value) fun _ =>
      Binds s instanceVariables Γ := by
  have hnone : Emits issued (checksOf r none) fun _ =>
      Binds s instanceVariables Γ := by
    apply emits_mono
      (emits_checksOf hpaths htenant hkeys hchecks
        (hfree.mono (by decide) (Nat.le_refl issued)) fun _ h => by cases h)
    intro _ body _ hbody
    exact hbody.mono fun x hx => List.mem_cons_of_mem _ hx
  cases value with
  | none => exact hnone
  | some value =>
      rw [instanceChecks]
      cases r.needsInstance with
      | false =>
          rw [if_neg (by decide)]
          exact hnone
      | true =>
          rw [if_pos rfl]
          have hfresh := hfree.names resourceRoot List.mem_cons_self
          rcases Value.typed_bindTo (hvalue value rfl) hfresh with
            ⟨v, hbind, hkept⟩
          apply emits_map
          apply emits_mono
            (emits_checksOf hpaths htenant hkeys
              (hchecks.extends (extends_cons hfresh v))
              (hfree.cons (x := resourceRoot) (by decide) v _ (by decide)) _)
          · intro _ body _ hbody
            exact Binds.cons hbind List.mem_cons_self
              (hbody.mono fun x hx => List.mem_cons_of_mem _ hx)
          · intro bound hbound Δ hΔ
            rw [← Option.some.inj hbound]
            exact hkept Δ
              (hΔ _ _ (Environment.lookup_cons_self resourceRoot v Γ))

end Emission

end AccessChecks
