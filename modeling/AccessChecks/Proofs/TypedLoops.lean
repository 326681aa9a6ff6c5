import AccessChecks.Emission.Walk
import AccessChecks.Proofs.TypedValues

/-!
# Types of emitted loops

## Variables of a piece of code

A piece of code binds variables of known names.  Those that were bound before keep
their types, and the other free names stay free.

## Loops

The loops of a walk are typed if the code at its end is, for a value of the type that
the path ends at.  That code runs with all variables from outside and with the loop
variables of the walk.
-/

namespace AccessChecks

open Emission Scope

namespace Stmt

def Binds (s : Schema) (bound : List String) (Γ : Scope)
    (body : List Stmt) : Prop :=
  ∃ locals : Scope, (∀ v ∈ locals, v.1 ∈ bound) ∧
    TypedAll s Γ body (locals ++ Γ)

variable {s : Schema} {bound : List String} {Γ : Scope} {body : List Stmt}

theorem binds_of_typedAll (h : TypedAll s Γ body Γ) : Binds s bound Γ body :=
  ⟨[], by simp, h⟩

theorem typedAll_of_binds_nil (h : Binds s [] Γ body) :
    TypedAll s Γ body Γ := by
  rcases h with ⟨locals, hlocals, htyped⟩
  cases locals with
  | nil => exact htyped
  | cons v rest => cases hlocals v List.mem_cons_self

theorem Binds.cons {x : String} {v : Variable} {statement : Stmt}
    (hstatement : Typed s Γ statement ((x, v) :: Γ)) (hx : x ∈ bound)
    (h : Binds s bound ((x, v) :: Γ) body) :
    Binds s bound Γ (statement :: body) := by
  rcases h with ⟨locals, hlocals, htyped⟩
  refine ⟨locals ++ [(x, v)], ?_, ?_⟩
  · intro w hw
    rcases List.mem_append.mp hw with hin | hlast
    · exact hlocals w hin
    · rw [List.mem_singleton.mp hlast]
      exact hx
  · rw [List.append_assoc]
    exact TypedAll.cons hstatement htyped

theorem Binds.mono (h : Binds s bound Γ body) {names : List String}
    (hnames : ∀ x ∈ bound, x ∈ names) : Binds s names Γ body := by
  rcases h with ⟨locals, hlocals, htyped⟩
  exact ⟨locals, fun v hv => hnames _ (hlocals v hv), htyped⟩

end Stmt

namespace Emission

variable {s : Schema} {names : List String} {needsLeaf : Bool}
  {leaf : Option Value → Emission (List Stmt)} {σ : CodeType}

/-- The code for every value at the end of a path is well typed, and the names in
`names` are free around it. -/
def EmitsLeaf (s : Schema) (bound names : List String) (σ : CodeType)
    (leaf : Option Value → Emission (List Stmt)) (Γ : Scope) : Prop :=
  ∀ Δ value issued, Γ.Extends Δ → Δ.Free names issued →
    value.HasShape s Δ σ →
    Emits issued (leaf (some value)) fun _ => Stmt.Binds s bound Δ

def EmitsCount (s : Schema) (bound names : List String)
    (leaf : Option Value → Emission (List Stmt)) (Γ : Scope) : Prop :=
  ∀ Δ issued, Γ.Extends Δ → Δ.Free names issued →
    Emits issued (leaf none) fun _ => Stmt.Binds s bound Δ

theorem emits_walk (bound : List String) (hinner : Value.inner ∈ names)
    {segments : List Segment}
    {Γ : Scope} {issued : Nat} {τ : CodeType} {value : Value}
    (hfree : Γ.Free names issued) (hvalue : value.HasShape s Γ τ)
    (htype : s.typeAt? τ segments = some σ)
    (hleaf : EmitsLeaf s bound names σ leaf Γ)
    (hnone : needsLeaf = false → EmitsCount s bound names leaf Γ) :
    Emits issued (walk needsLeaf leaf segments value) fun _ =>
      Stmt.Binds s bound Γ := by
  -- every loop binds one variable more, so the scope grows along the path
  induction segments generalizing Γ issued τ value with
  | nil =>
      cases htype
      exact hleaf Γ value issued (Extends.refl Γ) hfree hvalue
  | cons segment rest ih =>
      rcases Schema.typeAt?_cons htype with ⟨ρ, hbehind, hrest⟩
      have hfresh := hfree.names Value.inner hinner
      rw [walk]
      cases hcross : segment.crossesCollection with
      | false =>
          rw [Bool.not_false, if_pos rfl]
          apply emits_bind
          apply emits_mono (Value.emits_step hvalue hfresh hbehind hcross)
          intro later next hlater hnext
          exact ih (hfree.mono (fun _ hx => hx) hlater) hnext hrest hleaf hnone
      | true =>
          rw [Bool.not_true, if_neg (by decide)]
          apply emits_bind
          apply emits_mono (Value.emits_fanOut hvalue hfresh hbehind hcross)
          intro later elements hlater helements
          have hlaterFree := hfree.mono (fun _ hx => hx) hlater
          by_cases hbinds : (needsLeaf ||
              rest.any Segment.crossesCollection) = true
          · rw [if_pos hbinds]
            apply emits_bind
            apply emits_mono emits_nextLoop
            rintro _ _ _ ⟨rfl, rfl⟩
            have hx := hlaterFree.loops (later + 1) (Nat.lt_succ_self later)
            have hextends := extends_cons hx ⟨false, .ref ρ⟩
            apply emits_map
            apply emits_mono (ih (hlaterFree.cons_ofLoop ⟨false, .ref ρ⟩)
              (Value.hasShape_bound Γ _ ρ) hrest
              (fun Δ inner number hΔ => hleaf Δ inner number (hextends.trans hΔ))
              (fun hneeds Δ number hΔ =>
                hnone hneeds Δ number (hextends.trans hΔ)))
            rintro _ body _ ⟨locals, _, htyped⟩
            exact Stmt.binds_of_typedAll
              (Stmt.Typed.loop helements hx htyped).alone
          · rw [if_neg hbinds]
            rw [Bool.not_eq_true, Bool.or_eq_false_iff] at hbinds
            apply emits_map
            apply emits_mono
              (hnone hbinds.1 Γ later (Extends.refl Γ) hlaterFree)
            rintro _ body _ ⟨locals, _, htyped⟩
            exact Stmt.binds_of_typedAll
              (Stmt.Typed.count helements htyped).alone

end Emission

end AccessChecks
