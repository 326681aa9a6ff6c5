import AccessChecks.Proofs.TypedValues

/-!
# Types of conversions

## Single values

A present value of a kind, be it a place or a reference, is converted to an attribute
value of the form for the kind.

## Lists and maps

The elements of a list and the entries of a map are converted in a closure.  The keys
of a map are written out, so their type has to have texts.  The type of bytes has none,
and what is emitted for a map with bytes as keys has no type.
-/

namespace AccessChecks

open Scope

namespace Value

variable {s : Schema} {Γ : Scope}

theorem gives_attributeOf (form : AttributeForm) {e : Expr}
    (h : e.Gives s Γ form.content) :
    (Expr.call (.attributeOf form) [e]).Gives s Γ .value :=
  (Expr.HasType.turning h (Item.Turns.attributeOf form)).gives rfl

theorem gives_clone {value : Value} {τ : CodeType}
    (h : value.HasShape s Γ τ) (hpresent : value.isPresent = true)
    (hclone : τ.isClone = true) :
    (Expr.method value.expr .clone []).Gives s Γ τ := by
  rcases exists_hasType_expr h hpresent with ⟨ρ, hexpr, rfl | rfl⟩
  · exact (Expr.HasType.borrowing hexpr
      (MethodName.Borrows.clone hclone)).gives rfl
  · exact (Expr.HasType.borrowing hexpr
      (MethodName.Borrows.cloneRef hclone)).gives rfl

theorem gives_convertKind {value : Value} {kind : Kind} {e : Expr}
    (h : value.HasShape s Γ kind.codeType) (hpresent : value.isPresent = true)
    (he : convertKind kind value = some e) : e.Gives s Γ .value := by
  have hturned : ∀ {i : Item} {form : AttributeForm},
      kind.codeType.isCopy = true → kind.codeType.hasDefault = true →
      i.Turns kind.codeType form.content →
      (Expr.call (.attributeOf form) [.call i [value.copied]]).Gives s Γ
        .value := by
    intro i form hcopy hdefault hturns
    have hvalue := gives_copied h hcopy hdefault
    exact gives_attributeOf form
      ((Expr.HasType.turning hvalue hturns).gives rfl)
  cases kind with
  | message target => cases he
  | enum name =>
      cases he
      exact hturned rfl rfl Item.Turns.int32
  | scalar t =>
      cases t with
      | bool =>
          cases he
          exact gives_attributeOf .bool (gives_copied h rfl rfl)
      | int32 =>
          cases he
          exact hturned rfl rfl Item.Turns.int32
      | int64 =>
          cases he
          exact hturned rfl rfl Item.Turns.int64
      | uint32 =>
          cases he
          exact hturned rfl rfl Item.Turns.uint32
      | uint64 =>
          cases he
          exact hturned rfl rfl Item.Turns.uint64
      | float =>
          cases he
          exact hturned rfl rfl Item.Turns.float
      | double =>
          cases he
          exact hturned rfl rfl Item.Turns.double
      | string =>
          cases he
          exact gives_attributeOf .string (gives_clone h hpresent rfl)
      | bytes =>
          cases he
          exact gives_attributeOf .bytes (gives_clone h hpresent rfl)

end Value

namespace FieldType

/-- If values of the type are converted to attributes, map keys have texts.  Bytes
have none. -/
def hasTextKeys : FieldType → Bool
  | single _ | list _ => true
  | map key kind => key != .bytes || kind.message?.isSome

end FieldType

namespace Scalar

theorem hasText_codeType {t : Scalar} (h : t ≠ .bytes) :
    t.codeType.hasText = true := by
  cases t with
  | bytes => exact absurd rfl h
  | _ => rfl

end Scalar

namespace Value

variable {s : Schema} {Γ : Scope}

theorem convertKind_message {kind : Kind} (h : kind.message?.isSome = true)
    (value : Value) : convertKind kind value = none := by
  cases kind with
  | message target => rfl
  | scalar t => cases h
  | enum name => cases h

theorem gives_gathered {value : Value} {τ σ ρ φ : CodeType}
    {parameter : Pattern} {body : Expr}
    (h : value.HasShape s Γ τ) (hpresent : value.isPresent = true)
    (hiter : ∀ υ : CodeType, υ.referent = τ →
      MethodName.iter.Borrows υ (.iterator σ))
    (hτ : τ.referent = τ)
    (hbody : (Expr.closure parameter body).HasType s Γ (.function σ ρ))
    (hcollect : MethodName.collect.Takes (.iterator ρ) φ) :
    (Expr.method
      (.method (.method value.expr .iter []) .map [.closure parameter body])
      .collect []).Gives s Γ φ := by
  rcases exists_hasType_expr h hpresent with ⟨υ, hexpr, hυ⟩
  have hreferent : υ.referent = τ := by
    rcases hυ with rfl | rfl
    · exact hτ
    · exact hτ
  have helements := Expr.HasType.borrowing hexpr (hiter υ hreferent)
  have hmapped := Expr.HasType.adapting (helements.gives rfl) hbody
    (MethodName.Adapts.mapIterator σ ρ)
  exact (Expr.HasType.taking (hmapped.gives rfl) hcollect).gives rfl

theorem gives_convert {value : Value} {type : FieldType} {e : Expr}
    (h : value.HasShape s Γ type.codeType) (hpresent : value.isPresent = true)
    (hkeys : type.hasTextKeys = true) (hinner : Γ.Fresh inner)
    (hkey : Γ.Fresh innerKey) (he : value.convert type = some e) :
    e.Gives s Γ .value := by
  cases type with
  | single kind => exact gives_convertKind h hpresent he
  | list kind =>
      rcases Option.map_eq_some_iff.mp he with ⟨element, helement, rfl⟩
      have hbody : element.Gives s
          ((inner, ⟨false, .ref kind.codeType⟩) :: Γ) .value :=
        gives_convertKind (hasShape_bound Γ inner _) rfl helement
      exact gives_attributeOf .list
        (gives_gathered h hpresent
          (fun _ hυ => MethodName.Borrows.iterList hυ) rfl
          (Expr.HasType.closure hinner hbody)
          (MethodName.Takes.collectList _))
  | map key kind =>
      rcases Option.map_eq_some_iff.mp he with ⟨element, helement, rfl⟩
      have htext : key.codeType.hasText = true := by
        apply Scalar.hasText_codeType
        rintro rfl
        have hmessage : kind.message?.isSome = true := by
          simpa [FieldType.hasTextKeys] using hkeys
        cases helement.symm.trans (convertKind_message hmessage _)
      have hvalue : element.Gives s
          ((inner, ⟨false, .ref kind.codeType⟩) ::
            (innerKey, ⟨false, .ref key.codeType⟩) :: Γ) .value :=
        gives_convertKind (hasShape_bound _ inner _) rfl helement
      have hname : (Expr.method (.name innerKey) .toString []).Gives s
          ((inner, ⟨false, .ref kind.codeType⟩) ::
            (innerKey, ⟨false, .ref key.codeType⟩) :: Γ) .text := by
        have hbound : (Expr.name innerKey).HasType s
            ((inner, ⟨false, .ref kind.codeType⟩) ::
              (innerKey, ⟨false, .ref key.codeType⟩) :: Γ)
            (.ref key.codeType) :=
          Expr.HasType.name (v := ⟨false, .ref key.codeType⟩) rfl
        exact (Expr.HasType.borrowing hbound
          (MethodName.Borrows.toString htext)).gives rfl
      have hbody := (Expr.HasType.pair hname hvalue).gives rfl
      exact gives_attributeOf .map
        (gives_gathered h hpresent
          (fun _ hυ => MethodName.Borrows.iterMap hυ) rfl
          (Expr.HasType.closurePair hkey hinner (by decide) hbody)
          MethodName.Takes.collectEntries)

theorem hasText_of_hasType_closure {element : Expr} {σ ρ τ : CodeType}
    (h : (Expr.closure (.pair innerKey inner)
      (.pair (.method (.name innerKey) .toString []) element)).HasType s Γ
        (.function (.pair σ ρ) τ)) : σ.hasText = true := by
  cases h with
  | closurePair _ _ _ hbody =>
      cases hbody.hasType with
      | pair hname _ =>
          rcases Expr.exists_receiver_type hname.hasType with
            ⟨υ, hkey, hborrows | htakes⟩
          · cases hborrows with
            | toString htext =>
                rcases hkey.exists_variable with ⟨v, hlookup, rfl⟩
                cases hlookup
                exact htext
          · cases htakes

theorem hasText_of_hasType_convert {value : Value} {key : Scalar}
    {kind : Kind} {e : Expr} {τ : CodeType}
    (he : value.convert (.map key kind) = some e) (h : e.HasType s Γ τ) :
    ∃ υ κ σ, value.expr.HasType s Γ υ ∧ υ.referent = .map κ σ ∧
      κ.hasText = true := by
  rcases Option.map_eq_some_iff.mp he with ⟨element, _, rfl⟩
  cases h with
  | turning hcollected _ =>
      rcases Expr.exists_receiver_type hcollected.hasType with
        ⟨φ, hmapped, hborrows | htakes⟩
      · cases hborrows
      · have hiterator : ∃ ρ, φ = .iterator ρ := by
          cases htakes <;> exact ⟨_, rfl⟩
        rcases hiterator with ⟨ρ, rfl⟩
        rcases Expr.exists_map_types hmapped with
          ⟨_, _, hentries, hclosure, hadapts⟩
        cases hadapts
        rcases Expr.exists_receiver_type hentries with
          ⟨υ, hvalue, hborrows | htakes⟩
        · cases hborrows with
          | iterList _ => cases hclosure
          | iterMap hmap =>
              have htext := hasText_of_hasType_closure hclosure
              exact ⟨υ, _, _, hvalue, hmap, htext⟩
        · cases htakes

end Value

end AccessChecks
