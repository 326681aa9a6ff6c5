import AccessChecks.Emission.Attributes
import AccessChecks.Proofs.Renumbering

/-!
# Renumbered values

## Values

Renumbering a value renumbers its expression.  Every use of a value makes of the
renumbered value the renumbered code.

## Hops and conversions

Hops issue no loop variable.  The names that closures and guards bind are fixed, and
none of them is that of a loop variable.
-/

namespace AccessChecks

namespace Value

variable (σ : Nat → Nat)

def renumber : Value → Value
  | place e => place (e.renumber σ)
  | ref e => ref (e.renumber σ)
  | maybe e => maybe (e.renumber σ)

theorem expr_renumber (value : Value) :
    (value.renumber σ).expr = value.expr.renumber σ := by
  cases value <;> rfl

theorem stepTo_renumber (x : String) (hop : Hop) (value : Value) :
    (value.renumber σ).stepTo x hop = (value.stepTo x hop).renumber σ := by
  cases value <;> cases hnull : hop.isNullable <;>
    simp (disch := decide) [stepTo, hnull, renumber, Pattern.renumber,
      Name.renumber_of_isPlain]

theorem elementsOf_renumber (x : String) (hop : Hop) (value : Value) :
    (value.renumber σ).elementsOf x hop =
      (value.elementsOf x hop).renumber σ := by
  cases value <;>
    simp (disch := decide) [elementsOf, renumber, Pattern.renumber,
      Name.renumber_of_isPlain]

theorem bindTo_renumber {x : String} (hx : Name.isPlain x = true)
    (value : Value) :
    (value.renumber σ).bindTo x =
      ((value.bindTo x).1.renumber σ, (value.bindTo x).2.renumber σ) := by
  cases value <;>
    simp [bindTo, renumber, Name.renumber_of_isPlain σ hx]

theorem whenPresent_renumber {body body' : Value → Option (List Stmt)}
    (h : ∀ value : Value, body' (value.renumber σ) =
      (body value).map (Stmt.renumberAll σ)) (value : Value) :
    (value.renumber σ).whenPresent body' =
      (value.whenPresent body).map (Stmt.renumberAll σ) := by
  cases value with
  | place e => exact h (place e)
  | ref e => exact h (ref e)
  | maybe e =>
      have hfound : body' (ref (.name found)) =
          (body (ref (.name found))).map (Stmt.renumberAll σ) := by
        have hname := h (ref (.name found))
        rwa [renumber, Expr.renumber,
          Name.renumber_of_isPlain σ (by decide)] at hname
      simp (disch := decide) [whenPresent, renumber, hfound, Function.comp_def,
        Name.renumber_of_isPlain]

theorem copied_renumber (value : Value) :
    (value.renumber σ).copied = value.copied.renumber σ := by
  cases value <;> rfl

theorem asText_renumber (value : Value) :
    (value.renumber σ).asText = value.asText.renumber σ := by
  cases value <;> rfl

theorem assignUnlessZero_renumber (kind : Kind) {x : String}
    (hx : Name.isPlain x = true) (value : Value) :
    (value.renumber σ).assignUnlessZero kind x =
      (value.assignUnlessZero kind x).renumber σ := by
  cases value <;> by_cases hkind : kind = .scalar .string <;>
    simp (disch := decide) [assignUnlessZero, hkind, renumber, expr, copied,
      Pattern.renumber, Name.renumber_of_isPlain, Name.renumber_of_isPlain σ hx]

/-!
## Hops
-/

open Emission

variable {σ}

theorem renumbers_step (s : Segment) (value : Value) :
    Renumbers σ (fun v w => w = v.renumber σ) (value.step s)
      ((value.renumber σ).step s) := by
  apply renumbers_map (renumbers_fieldName s.name)
  rintro x _ rfl
  exact stepTo_renumber σ x s.hop value

theorem renumbers_fanOut (s : Segment) (value : Value) :
    Renumbers σ (fun e e' => e' = e.renumber σ) (value.fanOut s)
      ((value.renumber σ).fanOut s) := by
  apply renumbers_map (renumbers_fieldName s.name)
  rintro x _ rfl
  exact elementsOf_renumber σ x s.hop value

theorem renumbers_follow (segments : List Segment) (value : Value) :
    Renumbers σ (fun v w => w = v.renumber σ) (value.follow segments)
      ((value.renumber σ).follow segments) := by
  induction segments generalizing value with
  | nil => exact renumbers_pure rfl
  | cons s rest ih =>
      rw [follow, follow, List.foldlM_cons, List.foldlM_cons]
      apply renumbers_bind (renumbers_step s value)
      rintro next _ rfl
      exact ih next

/-!
## Conversions
-/

variable (σ)

theorem convertKind_renumber (kind : Kind) (value : Value) :
    convertKind kind (value.renumber σ) =
      (convertKind kind value).map (Expr.renumber σ) := by
  cases kind with
  | message target => rfl
  | enum name =>
      simp [convertKind, copied_renumber]
  | scalar s =>
      cases s <;>
        simp [convertKind, copied_renumber, expr_renumber]

theorem convert_renumber (type : FieldType) (value : Value) :
    (value.renumber σ).convert type =
      (value.convert type).map (Expr.renumber σ) := by
  -- the closure parameter is no loop variable
  have helement : ∀ {kind e}, convertKind kind (ref (.name inner)) = some e →
      e.renumber σ = e := by
    intro kind e he
    have hname := convertKind_renumber σ kind (ref (.name inner))
    rw [renumber, Expr.renumber, Name.renumber_of_isPlain σ (by decide), he]
      at hname
    exact (Option.some.inj hname).symm
  cases type with
  | single kind => exact convertKind_renumber σ kind value
  | list kind | map _ kind =>
      rw [convert, convert]
      dsimp only
      cases hkind : convertKind kind (ref (.name inner)) with
      | none => rfl
      | some e =>
          simp (disch := decide) [expr_renumber, helement hkind, Pattern.renumber,
            Name.renumber_of_isPlain]

end Value

end AccessChecks
