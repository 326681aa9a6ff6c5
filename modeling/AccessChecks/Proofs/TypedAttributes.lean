import AccessChecks.Emission.Attributes
import AccessChecks.Proofs.TypedConversions
import AccessChecks.Proofs.TypedLoops

/-!
# Types of emitted attributes

## Insertions

The code for one attribute inserts into the attributes, which it finds bound.  What it
binds itself is behind a guard or in a block, so nothing stays of it.

## Attributes of an instance

The attributes can be changed if there is something to insert.
-/

namespace AccessChecks

open Emission Scope Stmt

namespace Value

/-- The value keeps its shape in every scope with the same variables. -/
def Kept (s : Schema) (Γ : Scope) (τ : CodeType) (value : Value) : Prop :=
  ∀ Δ, Γ.Extends Δ → value.HasShape s Δ τ

theorem Kept.extends {s : Schema} {Γ Δ : Scope} {τ : CodeType}
    {value : Value} (h : value.Kept s Γ τ) (hΔ : Γ.Extends Δ) :
    value.Kept s Δ τ :=
  fun Ω hΩ => h Ω (hΔ.trans hΩ)

end Value

namespace Emission

variable {s : Schema} {Γ : Scope} {τ : CodeType} {type : FieldType}

def attributeNames : List String :=
  [valuesVariable, Value.found, Value.inner, Value.innerKey]

theorem typed_insertAttribute (name : String) {e : Expr}
    (hattributes : Γ.lookup attributesVariable = some ⟨true, .attributes⟩)
    (he : e.Gives s Γ .value) : (insertAttribute name e).Typed s Γ Γ := by
  have hname := (Expr.HasType.turning
    ((Expr.HasType.text (s := s) Γ name).gives rfl)
    Item.Turns.textFrom).gives rfl
  exact Stmt.Typed.eval (Expr.HasType.insert hattributes hname he)

theorem typed_pushValue {e : Expr}
    (hvalues : Γ.lookup valuesVariable = some ⟨true, .list .value⟩)
    (he : e.Gives s Γ .value) :
    (Stmt.eval (.method (.name valuesVariable) .push [e])).Typed s Γ Γ :=
  Stmt.Typed.eval (Expr.HasType.push hvalues he)

theorem typed_converted {leaf : Value} {use : Expr → Stmt} {x : String}
    {v : Variable} (h : leaf.HasShape s Γ type.codeType)
    (hkeys : type.hasTextKeys = true) (hfound : Γ.Fresh Value.found)
    (hinner : Γ.Fresh Value.inner) (hkey : Γ.Fresh Value.innerKey)
    (hx : Γ.lookup x = some v)
    (huse : ∀ (Δ : Scope) e, Δ.lookup x = some v → e.Gives s Δ .value →
      (use e).Typed s Δ Δ) :
    TypedAll s Γ
      ((leaf.whenPresent fun value =>
        (value.convert type).map fun converted => [use converted]).getD [])
      Γ := by
  cases hstatements : leaf.whenPresent fun value =>
      (value.convert type).map fun converted => [use converted] with
  | none => exact TypedAll.nil Γ
  | some statements =>
      apply Value.typed_whenPresent h hfound _ hstatements
      intro Δ value inside hΔ hvalue hpresent hinside
      rcases Option.map_eq_some_iff.mp hinside with ⟨e, he, rfl⟩
      have hsame : ∀ y w, y ≠ Value.found → Γ.lookup y = w →
          Δ.lookup y = w := by
        intro y w hy hw
        rw [hΔ y hy, hw]
      have hgives := Value.gives_convert hvalue hpresent hkeys
        (hsame _ _ (by decide) hinner) (hsame _ _ (by decide) hkey) he
      have hxΔ := hsame x (some v) (Ne.symm (ne_of_fresh hfound hx)) hx
      exact (huse Δ e hxΔ hgives).alone

def gatherAt (type : FieldType) (leaf : Option Value) :
    Emission (List Stmt) :=
  pure ((leaf.bind fun leaf =>
    leaf.whenPresent fun value =>
      (value.convert type).map fun converted =>
        [.eval (.method (.name valuesVariable) .push [converted])]).getD [])

theorem emits_gathering {issued : Nat} {segments : List Segment}
    {value : Value} {names : List String}
    (hnames : ∀ x ∈ [Value.found, Value.inner, Value.innerKey], x ∈ names)
    (hfree : Γ.Free names issued) (h : value.HasShape s Γ τ)
    (htype : s.typeAt? τ segments = some type.codeType)
    (hkeys : type.hasTextKeys = true)
    (hvalues : Γ.lookup valuesVariable = some ⟨true, .list .value⟩) :
    Emits issued (walk true (gatherAt type) segments value) fun _ body =>
      TypedAll s Γ body Γ := by
  apply emits_mono
    (emits_walk [] (hnames _ (by simp)) hfree h htype _ _)
  · intro _ body _ hbody
    exact typedAll_of_binds_nil hbody
  · intro Δ leaf number hΔ hΔfree hleaf
    have hfresh : ∀ x ∈ [Value.found, Value.inner, Value.innerKey],
        Δ.Fresh x := fun x hx => hΔfree.names x (hnames x hx)
    apply emits_pure
    exact binds_of_typedAll
      (typed_converted hleaf hkeys (hfresh _ (by simp)) (hfresh _ (by simp))
        (hfresh _ (by simp)) (hΔ _ _ hvalues)
        fun _ _ hx he => typed_pushValue hx he)
  · intro hneeds
    cases hneeds

theorem typed_gatheredBlock {name : String} {collected : List Stmt}
    (hattributes : Γ.lookup attributesVariable = some ⟨true, .attributes⟩)
    (hvalues : Γ.Fresh valuesVariable)
    (hcollected : TypedAll s ((valuesVariable, ⟨true, .list .value⟩) :: Γ)
      collected ((valuesVariable, ⟨true, .list .value⟩) :: Γ)) :
    TypedAll s Γ
      [.block
        ([.bind true valuesVariable (some .attributeType) (.call .newList [])] ++
          collected ++
          [.guard (.unary .not (.method (.name valuesVariable) .isEmpty []))
            [insertAttribute name
              (.call (.attributeOf .list) [.name valuesVariable])]])] Γ := by
  have hbind := Stmt.typed_bind_newList (s := s) (i := .attributeType) rfl
    hvalues
  have hname := Value.hasType_bound (s := s) Γ valuesVariable
    ⟨true, .list .value⟩
  have hempty := (Expr.HasType.borrowing hname
    (MethodName.Borrows.isEmpty rfl)).gives rfl
  have hlist := Value.gives_attributeOf .list (hname.gives rfl)
  have hguard := Stmt.Typed.guard
    ((Expr.HasType.not hempty).gives rfl)
    (typed_insertAttribute name
      (lookup_cons_of_fresh hvalues hattributes) hlist).alone
  exact (Stmt.Typed.block
    ((hbind.alone.append hcollected).append hguard.alone)).alone

theorem emits_insertionOf {issued : Nat} {name : String} {p : AccessPath}
    {value : Value} (hfree : Γ.Free attributeNames issued)
    (hattributes : Γ.lookup attributesVariable = some ⟨true, .attributes⟩)
    (hkept : value.Kept s Γ τ) (hleaf : p.leafType = some type)
    (htype : s.typeAt? τ p.segments = some type.codeType)
    (hkeys : type.hasTextKeys = true) :
    Emits issued (insertionOf name p value) fun _ body =>
      TypedAll s Γ body Γ := by
  have hfresh : ∀ x ∈ attributeNames, Γ.Fresh x := hfree.names
  rw [insertionOf, hleaf]
  dsimp only
  cases hcross : p.crossesCollection with
  | false =>
      rw [Bool.not_false, if_pos rfl]
      apply emits_map
      apply emits_mono
        (Value.emits_follow (hkept Γ (Extends.refl Γ))
          (hfresh _ (by decide)) htype hcross)
      intro _ leaf _ hshape
      exact typed_converted hshape hkeys (hfresh _ (by decide))
        (hfresh _ (by decide)) (hfresh _ (by decide)) hattributes
        fun _ _ hx he => typed_insertAttribute name hx he
  | true =>
      rw [Bool.not_true, if_neg (by decide)]
      cases type.isAttributeType with
      | false =>
          rw [Bool.not_false, if_pos rfl]
          exact emits_pure (TypedAll.nil Γ)
      | true =>
          rw [Bool.not_true, if_neg (by decide)]
          have hvalues := hfresh valuesVariable (by decide)
          apply emits_map
          apply emits_mono
            (emits_gathering (by decide)
              (hfree.cons (x := valuesVariable) (by decide)
                ⟨true, .list .value⟩
                [Value.found, Value.inner, Value.innerKey] (by decide))
              (hkept _ (extends_cons hvalues _)) htype hkeys
              (Environment.lookup_cons_self _ _ Γ))
          intro _ collected _ hcollected
          exact typed_gatheredBlock hattributes hvalues hcollected

/-!
## Attributes of an instance
-/

theorem emits_bindAttributes {issued : Nat} {paths : Entries AccessPath}
    {instance_ : Option Value}
    (hfree : Γ.Free (attributesVariable :: attributeNames) issued)
    (hkept : ∀ value ∈ instance_, value.Kept s Γ τ)
    (hpaths : ∀ e ∈ paths, ∃ type, e.2.leafType = some type ∧
      s.typeAt? τ e.2.segments = some type.codeType ∧
      type.hasTextKeys = true) :
    Emits issued (bindAttributes paths instance_) fun _ body =>
      ∃ isMutable, TypedAll s Γ body
        ((attributesVariable, ⟨isMutable, .attributes⟩) :: Γ) := by
  have hfresh := hfree.names attributesVariable List.mem_cons_self
  have hbind : ∀ isMutable, (Stmt.bind isMutable attributesVariable none
      (.call .newAttributes [])).Typed s Γ
      ((attributesVariable, ⟨isMutable, .attributes⟩) :: Γ) := by
    intro isMutable
    have hnew := (Expr.HasType.making (s := s) (Γ := Γ)
      Item.Makes.newAttributes).gives rfl
    exact Stmt.typed_bind isMutable hnew hfresh
  cases instance_ with
  | none => exact emits_pure ⟨false, (hbind false).alone⟩
  | some value =>
      have hextends := extends_cons hfresh ⟨true, .attributes⟩
      have hfreeInside := hfree.cons (x := attributesVariable) (by decide)
        ⟨true, .attributes⟩ attributeNames (by decide)
      apply emits_map
      apply emits_mono
        (emits_mapM (P := fun body => TypedAll s
          ((attributesVariable, ⟨true, .attributes⟩) :: Γ) body
          ((attributesVariable, ⟨true, .attributes⟩) :: Γ)) _)
      · intro _ insertions _ hinsertions
        have htyped := TypedAll.flatten hinsertions
        cases hempty : insertions.flatten with
        | nil => exact ⟨false, (hbind false).alone⟩
        | cons statement rest =>
            rw [hempty] at htyped
            exact ⟨true, TypedAll.cons (hbind true) htyped⟩
      · intro e he later hlater
        rcases hpaths e he with ⟨type, hleaf, htype, hkeys⟩
        exact emits_insertionOf (hfreeInside.mono (fun _ hx => hx) hlater)
          (Environment.lookup_cons_self _ _ Γ)
          ((hkept value rfl).extends hextends) hleaf htype hkeys

end Emission

end AccessChecks
