import AccessChecks.Emission.Attributes
import AccessChecks.Proofs.FreshNames

/-!
# Types of emitted values

## Shapes

A place has the type of the value that is reached, a reference the type of references
to it, and an optional reference the type of optional ones.

## Hops

Whatever the shape of a value, a hop to one value leads to an expression that keeps
the promise of its shape, and a hop through a collection to an iterator of references.

## Uses

A value is bound, copied, written out as a text and compared.  Each use is typed for
every shape that it is made for.
-/

namespace AccessChecks

open Emission Scope

namespace Value

variable {s : Schema} {Γ : Scope} {τ σ : CodeType}

/-- What the shape of a value of the type promises of its expression. -/
def HasShape (s : Schema) (Γ : Scope) (τ : CodeType) : Value → Prop
  | place e => e.isPlace = true ∧ e.HasType s Γ τ
  | ref e => e.HasType s Γ (.ref τ)
  | maybe e => e.HasType s Γ (.optional (.ref τ))

theorem hasType_bound (Γ : Scope) (x : String) (v : Variable) :
    (Expr.name x).HasType s ((x, v) :: Γ) v.type :=
  Expr.HasType.name (Environment.lookup_cons_self x v Γ)

theorem hasShape_bound (Γ : Scope) (x : String) (τ : CodeType) :
    (ref (.name x)).HasShape s ((x, ⟨false, .ref τ⟩) :: Γ) τ :=
  hasType_bound Γ x ⟨false, .ref τ⟩

theorem hasType_inner_field {target : MessageRef} {x : String} {φ : CodeType}
    (htype : s.fieldType? target x = some φ) :
    (Expr.field (.name inner) x).HasType s
      ((inner, ⟨false, .ref (.message target)⟩) :: Γ) φ :=
  Expr.HasType.field (hasType_bound Γ inner _) rfl htype

theorem gives_maybe {e : Expr}
    (h : e.HasType s Γ (.optional (.ref τ))) :
    e.Gives s Γ (.optional (.ref τ)) :=
  h.gives_copy rfl

/-!
## Hops
-/

theorem hasShape_stepTo {value : Value} {segment : Segment} {x : String}
    (h : value.HasShape s Γ τ) (hinner : Γ.Fresh inner)
    (hx : Name.ofField segment.name = .ok x)
    (hbehind : s.behind? τ segment = some σ)
    (hcross : segment.crossesCollection = false) :
    (value.stepTo x segment.hop).HasShape s Γ σ := by
  rcases Schema.exists_field_of_behind? hbehind with
    ⟨target, y, φ, rfl, hy, htype, hcontent⟩
  cases hx.symm.trans hy
  have hplain : ∀ {e : Expr} {ρ : CodeType}, e.HasType s Γ ρ →
      ρ.referent = .message target →
      ((place e).stepTo x segment.hop).HasShape s Γ σ := by
    intro e ρ he hρ
    have hfield := Expr.HasType.field he hρ htype
    rcases Segment.hop_of_not_crosses hcross with hhop | hhop
    · rw [hhop] at hcontent ⊢
      cases hcontent
      exact ⟨rfl, hfield⟩
    · rw [hhop] at hcontent ⊢
      rw [Hop.eq_of_content?_optional hcontent] at hfield
      exact Expr.HasType.borrowing hfield (MethodName.Borrows.asRef σ)
  cases value with
  | place e => exact hplain h.2 rfl
  | ref e => exact hplain h rfl
  | maybe e =>
      have hfield := hasType_inner_field (Γ := Γ) htype
      rcases Segment.hop_of_not_crosses hcross with hhop | hhop
      · rw [hhop] at hcontent ⊢
        cases hcontent
        have hbody := (Expr.HasType.borrow hfield).gives rfl
        exact Expr.HasType.adapting (gives_maybe h)
          (Expr.HasType.closure hinner hbody)
          (MethodName.Adapts.mapOptional _ _)
      · rw [hhop] at hcontent ⊢
        rw [Hop.eq_of_content?_optional hcontent] at hfield
        have hbody := (Expr.HasType.borrowing hfield
          (MethodName.Borrows.asRef σ)).gives rfl
        exact Expr.HasType.adapting (gives_maybe h)
          (Expr.HasType.closure hinner hbody) (MethodName.Adapts.andThen _ _)

theorem gives_elementsOf {value : Value} {segment : Segment} {x : String}
    (h : value.HasShape s Γ τ) (hinner : Γ.Fresh inner)
    (hx : Name.ofField segment.name = .ok x)
    (hbehind : s.behind? τ segment = some σ)
    (hcross : segment.crossesCollection = true) :
    (value.elementsOf x segment.hop).Gives s Γ (.iterator (.ref σ)) := by
  rcases Schema.exists_field_of_behind? hbehind with
    ⟨target, y, φ, rfl, hy, htype, hcontent⟩
  cases hx.symm.trans hy
  have helements :
      (elementsOf.elements segment.hop).Borrows φ (.iterator (.ref σ)) := by
    rcases Segment.hop_of_crosses hcross with hhop | hhop
    · rw [hhop] at hcontent ⊢
      rw [Hop.eq_of_content?_repeated hcontent]
      exact MethodName.Borrows.iterList rfl
    · rw [hhop] at hcontent ⊢
      rcases Hop.eq_of_content?_mapped hcontent with ⟨κ, rfl⟩
      exact MethodName.Borrows.values rfl
  cases value with
  | place e =>
      have hfield := Expr.HasType.field h.2 rfl htype
      exact (Expr.HasType.borrowing hfield helements).gives rfl
  | ref e =>
      have hfield := Expr.HasType.field h rfl htype
      exact (Expr.HasType.borrowing hfield helements).gives rfl
  | maybe e =>
      have hbody := (Expr.HasType.borrowing
        (hasType_inner_field (Γ := Γ) htype) helements).gives rfl
      have hiter := Expr.HasType.taking (gives_maybe h)
        (MethodName.Takes.intoIter _)
      exact (Expr.HasType.adapting (hiter.gives rfl)
        (Expr.HasType.closure hinner hbody)
        (MethodName.Adapts.flatMap _ _)).gives rfl

theorem emits_step {value : Value} {segment : Segment} {issued : Nat}
    (h : value.HasShape s Γ τ) (hinner : Γ.Fresh inner)
    (hbehind : s.behind? τ segment = some σ)
    (hcross : segment.crossesCollection = false) :
    Emits issued (value.step segment) fun _ next => next.HasShape s Γ σ := by
  rcases Schema.exists_field_of_behind? hbehind with ⟨_, x, _, _, hx, _⟩
  apply emits_map
  apply emits_mono (emits_fieldName hx)
  rintro _ y _ rfl
  exact hasShape_stepTo h hinner hx hbehind hcross

theorem emits_fanOut {value : Value} {segment : Segment} {issued : Nat}
    (h : value.HasShape s Γ τ) (hinner : Γ.Fresh inner)
    (hbehind : s.behind? τ segment = some σ)
    (hcross : segment.crossesCollection = true) :
    Emits issued (value.fanOut segment) fun _ e =>
      e.Gives s Γ (.iterator (.ref σ)) := by
  rcases Schema.exists_field_of_behind? hbehind with ⟨_, x, _, _, hx, _⟩
  apply emits_map
  apply emits_mono (emits_fieldName hx)
  rintro _ y _ rfl
  exact gives_elementsOf h hinner hx hbehind hcross

theorem emits_follow {segments : List Segment} {value : Value} {issued : Nat}
    (h : value.HasShape s Γ τ) (hinner : Γ.Fresh inner)
    (htype : s.typeAt? τ segments = some σ)
    (hcross : segments.any Segment.crossesCollection = false) :
    Emits issued (value.follow segments) fun _ leaf =>
      leaf.HasShape s Γ σ := by
  induction segments generalizing value τ issued with
  | nil =>
      cases htype
      exact emits_pure h
  | cons segment rest ih =>
      rw [List.any_cons, Bool.or_eq_false_iff] at hcross
      rcases Schema.typeAt?_cons htype with ⟨ρ, hbehind, hrest⟩
      rw [follow, List.foldlM_cons]
      apply emits_bind
      apply emits_mono (emits_step h hinner hbehind hcross.1)
      intro later next _ hnext
      exact ih hnext hrest hcross.2

end Value

namespace Schema

/-- Wherever the segments have led, the next hop goes on from an expression that keeps
the promise of its shape to another one, or to an iterator of references. -/
def KeepsShapes (s : Schema) (τ : CodeType) (segments : List Segment) : Prop :=
  ∀ front segment back, segments = front ++ segment :: back →
    ∃ ρ σ, s.typeAt? τ front = some ρ ∧ s.behind? ρ segment = some σ ∧
      ∀ (Γ : Scope) (value : Value) issued, Γ.Fresh Value.inner →
        value.HasShape s Γ ρ →
        (segment.crossesCollection = false →
          Emits issued (value.step segment) fun _ next =>
            next.HasShape s Γ σ) ∧
        (segment.crossesCollection = true →
          Emits issued (value.fanOut segment) fun _ e =>
            e.Gives s Γ (.iterator (.ref σ)))

theorem keepsShapes_of_typeAt? {s : Schema} {τ σ : CodeType}
    {segments : List Segment} (h : s.typeAt? τ segments = some σ) :
    s.KeepsShapes τ segments := by
  intro front segment back hsplit
  rw [hsplit, typeAt?_append] at h
  rcases Option.bind_eq_some_iff.mp h with ⟨ρ, hfront, hrest⟩
  rcases typeAt?_cons hrest with ⟨φ, hbehind, _⟩
  refine ⟨ρ, φ, hfront, hbehind, ?_⟩
  intro Γ value issued hinner hvalue
  constructor
  · intro hcross
    exact Value.emits_step hvalue hinner hbehind hcross
  · intro hcross
    exact Value.emits_fanOut hvalue hinner hbehind hcross

end Schema

namespace Value

variable {s : Schema} {Γ : Scope} {τ : CodeType}

/-!
## Bound and present values
-/

theorem typed_bindTo {value : Value} {x : String}
    (h : value.HasShape s Γ τ) (hx : Γ.Fresh x) :
    ∃ v, (value.bindTo x).1.Typed s Γ ((x, v) :: Γ) ∧
      ∀ Δ : Scope, Δ.lookup x = some v →
        (value.bindTo x).2.HasShape s Δ τ := by
  cases value with
  | place e =>
      exact ⟨_, Stmt.typed_bind false ((Expr.HasType.borrow h.2).gives rfl) hx,
        fun Δ hΔ => Expr.HasType.name hΔ⟩
  | ref e =>
      exact ⟨_, Stmt.typed_bind false (Expr.HasType.gives_copy h rfl) hx,
        fun Δ hΔ => Expr.HasType.name hΔ⟩
  | maybe e =>
      exact ⟨_, Stmt.typed_bind false (gives_maybe h) hx,
        fun Δ hΔ => Expr.HasType.name hΔ⟩

def isPresent : Value → Bool
  | place _ | ref _ => true
  | maybe _ => false

theorem exists_hasType_expr {value : Value} (h : value.HasShape s Γ τ)
    (hpresent : value.isPresent = true) :
    ∃ ρ, value.expr.HasType s Γ ρ ∧ (ρ = τ ∨ ρ = .ref τ) := by
  cases value with
  | place e => exact ⟨τ, h.2, Or.inl rfl⟩
  | ref e => exact ⟨.ref τ, h, Or.inr rfl⟩
  | maybe e => cases hpresent

theorem typed_whenPresent {leaf : Value} {body : Value → Option (List Stmt)}
    {statements : List Stmt} (h : leaf.HasShape s Γ τ)
    (hfound : Γ.Fresh found)
    (hbody : ∀ (Δ : Scope) value inside,
      (∀ y, y ≠ found → Δ.lookup y = Γ.lookup y) → value.HasShape s Δ τ →
      value.isPresent = true → body value = some inside →
      Stmt.TypedAll s Δ inside Δ)
    (hstatements : leaf.whenPresent body = some statements) :
    Stmt.TypedAll s Γ statements Γ := by
  cases leaf with
  | place e =>
      exact hbody Γ (place e) statements (fun _ _ => rfl) h rfl hstatements
  | ref e =>
      exact hbody Γ (ref e) statements (fun _ _ => rfl) h rfl hstatements
  | maybe e =>
      rcases Option.map_eq_some_iff.mp hstatements with ⟨inside, hinside, rfl⟩
      have hscope : ∀ y, y ≠ found →
          List.lookup y ((found, ⟨false, .ref τ⟩) :: Γ) = Γ.lookup y :=
        fun y hy => Environment.lookup_cons_ne (Ne.symm hy) _ Γ
      have htyped := hbody _ (ref (.name found)) inside hscope
        (hasShape_bound Γ found τ) rfl hinside
      exact (Stmt.Typed.unwrap (gives_maybe h) hfound htyped).alone

/-!
## Keys
-/

theorem gives_copied {value : Value} (h : value.HasShape s Γ τ)
    (hcopy : τ.isCopy = true) (hdefault : τ.hasDefault = true) :
    value.copied.Gives s Γ τ := by
  cases value with
  | place e => exact h.2.gives_copy hcopy
  | ref e => exact (Expr.HasType.deref h).gives_copy hcopy
  | maybe e =>
      have hcopied := Expr.HasType.taking (gives_maybe h)
        (MethodName.Takes.copied hcopy)
      exact (Expr.HasType.taking (hcopied.gives rfl)
        (MethodName.Takes.unwrapOrDefault hdefault)).gives rfl

theorem gives_asText {value : Value} (h : value.HasShape s Γ τ)
    (htext : τ.hasText = true) : value.asText.Gives s Γ .text := by
  cases value with
  | place e =>
      exact (Expr.HasType.borrowing h.2
        (MethodName.Borrows.toString htext)).gives rfl
  | ref e =>
      exact (Expr.HasType.borrowing h
        (MethodName.Borrows.toString htext)).gives rfl
  | maybe e =>
      have hmapped := Expr.HasType.adapting (gives_maybe h)
        (Expr.HasType.item (Item.Is.toText htext))
        (MethodName.Adapts.mapOptional _ _)
      exact (Expr.HasType.taking (hmapped.gives rfl)
        (MethodName.Takes.unwrapOrDefault rfl)).gives rfl

end Value

namespace Kind

theorem codeType_of_isId {kind : Kind} (h : kind.isId = true) :
    kind = .scalar .string ∨
      (kind ≠ .scalar .string ∧ kind.codeType.isInteger = true) := by
  cases kind with
  | scalar t =>
      cases t with
      | string => exact Or.inl rfl
      | int32 => exact Or.inr ⟨by simp, rfl⟩
      | int64 => exact Or.inr ⟨by simp, rfl⟩
      | uint32 => exact Or.inr ⟨by simp, rfl⟩
      | uint64 => exact Or.inr ⟨by simp, rfl⟩
      | bool => cases h
      | float => cases h
      | double => cases h
      | bytes => cases h
  | enum name => exact Or.inr ⟨by simp, rfl⟩
  | message target => cases h

theorem hasText_codeType_of_isId {kind : Kind} (h : kind.isId = true) :
    kind.codeType.hasText = true := by
  rcases codeType_of_isId h with rfl | ⟨_, hinteger⟩
  · rfl
  · cases htype : kind.codeType <;> rw [htype] at hinteger <;> cases hinteger <;>
      rfl

end Kind

namespace CodeType

theorem isCopy_of_isInteger {τ : CodeType} (h : τ.isInteger = true) :
    τ.isCopy = true := by
  cases τ <;> cases h <;> rfl

theorem hasDefault_of_isInteger {τ : CodeType} (h : τ.isInteger = true) :
    τ.hasDefault = true := by
  cases τ <;> cases h <;> rfl

end CodeType

namespace Value

variable {s : Schema} {Γ : Scope}

theorem gives_filter {e : Expr} {kind : Kind}
    (h : e.HasType s Γ (.optional (.ref kind.codeType)))
    (hid : kind.isId = true) (hfound : Γ.Fresh found) :
    (Expr.method e .filter [.closure (.name found)
      (if kind = .scalar .string then
        .unary .not (.method (.name found) .isEmpty [])
      else
        .binary .differs (.unary .deref (.unary .deref (.name found)))
          (.number 0))]).Gives s Γ (.optional (.ref kind.codeType)) := by
  have hname := hasType_bound (s := s) Γ found
    ⟨false, .ref (.ref kind.codeType)⟩
  have htest : (if kind = .scalar .string then
        Expr.unary .not (.method (.name found) .isEmpty [])
      else
        .binary .differs (.unary .deref (.unary .deref (.name found)))
          (.number 0)).Gives s
      ((found, ⟨false, .ref (.ref kind.codeType)⟩) :: Γ) .bool := by
    rcases Kind.codeType_of_isId hid with rfl | ⟨hne, hinteger⟩
    · rw [if_pos rfl]
      have hempty := Expr.HasType.borrowing hname
        (MethodName.Borrows.isEmpty rfl)
      exact (Expr.HasType.not (hempty.gives rfl)).gives rfl
    · rw [if_neg hne]
      have hcopy := CodeType.isCopy_of_isInteger hinteger
      have hvalue := Expr.HasType.deref (Expr.HasType.deref hname)
      have hzero := Expr.HasType.number (s := s)
        (Γ := (found, ⟨false, .ref (.ref kind.codeType)⟩) :: Γ) (n := 0)
        hinteger (by decide)
      exact (Expr.HasType.binary (hvalue.gives_copy hcopy)
        (hzero.gives rfl) hinteger).gives rfl
  exact (Expr.HasType.adapting (gives_maybe h)
    (Expr.HasType.closure hfound htest) (MethodName.Adapts.filter _)).gives rfl

theorem gives_test {value : Value} {kind : Kind}
    (h : value.HasShape s Γ kind.codeType) (hid : kind.isId = true)
    (hpresent : value.isPresent = true) :
    (if kind = .scalar .string then
        Expr.unary .not (.method value.expr .isEmpty [])
      else .binary .differs value.copied (.number 0)).Gives s Γ .bool := by
  rcases Kind.codeType_of_isId hid with rfl | ⟨hne, hinteger⟩
  · rw [if_pos rfl]
    rcases exists_hasType_expr h hpresent with ⟨ρ, hexpr, hρ⟩
    have hlength : ρ.hasLength = true := by
      rcases hρ with rfl | rfl <;> rfl
    have hempty := Expr.HasType.borrowing hexpr
      (MethodName.Borrows.isEmpty hlength)
    exact (Expr.HasType.not (hempty.gives rfl)).gives rfl
  · rw [if_neg hne]
    have hvalue := gives_copied h (CodeType.isCopy_of_isInteger hinteger)
      (CodeType.hasDefault_of_isInteger hinteger)
    have hzero := Expr.HasType.number (s := s) (Γ := Γ) (n := 0) hinteger
      (by decide)
    exact (Expr.HasType.binary hvalue (hzero.gives rfl) hinteger).gives rfl

theorem typed_assign {value : Value} {τ : CodeType} {x : String}
    (h : value.HasShape s Γ τ) (hpresent : value.isPresent = true)
    (htext : τ.hasText = true) (hx : Γ.lookup x = some ⟨true, .text⟩) :
    (Stmt.assign x (.method value.expr .toString [])).Typed s Γ Γ := by
  rcases exists_hasType_expr h hpresent with ⟨ρ, hexpr, hρ⟩
  have hρtext : ρ.hasText = true := by
    rcases hρ with rfl | rfl
    · exact htext
    · exact htext
  exact Stmt.Typed.assign hx ((Expr.HasType.borrowing hexpr
    (MethodName.Borrows.toString hρtext)).gives rfl)

theorem typed_assignUnlessZero {value : Value} {kind : Kind} {x : String}
    (h : value.HasShape s Γ kind.codeType) (hid : kind.isId = true)
    (hfound : Γ.Fresh found) (hx : Γ.lookup x = some ⟨true, .text⟩) :
    (value.assignUnlessZero kind x).Typed s Γ Γ := by
  have htext := Kind.hasText_codeType_of_isId hid
  cases value with
  | place e =>
      exact Stmt.Typed.guard (gives_test h hid rfl)
        (typed_assign h rfl htext hx).alone
  | ref e =>
      exact Stmt.Typed.guard (gives_test h hid rfl)
        (typed_assign h rfl htext hx).alone
  | maybe e =>
      exact Stmt.Typed.unwrap (gives_filter h hid hfound) hfound
        (typed_assign (hasShape_bound Γ found kind.codeType) rfl htext
          (lookup_cons_of_fresh hfound hx)).alone

end Value

end AccessChecks
