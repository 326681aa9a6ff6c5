import AccessChecks.Emission.Walk
import Mathlib.Data.List.Forall2

/-!
# What emission yields

## Conditions on emitted code

Emission issues loop variables and may meet a name that is no identifier.  What it
emits does not depend on how many variables were issued before, up to the names of
the variables.  So a condition on emitted code is required of the code for every
number of issued variables.

## Steps of emission

The condition of a sequence is that of its second part, under the condition of the
first.  Emission fails only where a name is no identifier.
-/

namespace AccessChecks

namespace Emission

variable {α β : Type} {fails : IllegalName → Prop}

/-- However many loop variables were issued before, what is emitted meets `P`, or
emission has met a name in `fails`. -/
def Yields (fails : IllegalName → Prop) (emission : Emission α)
    (P : α → Prop) : Prop :=
  ∀ issued, match (emission.run.run issued).1 with
    | .ok a => P a
    | .error e => fails e

theorem yields_pure {P : α → Prop} {a : α} (h : P a) :
    Yields fails (pure a) P :=
  fun _ => h

theorem yields_throw {P : α → Prop} {e : IllegalName} (h : fails e) :
    Yields fails (throw e) P :=
  fun _ => h

theorem yields_bind {P : β → Prop} {first : Emission α}
    {next : α → Emission β}
    (h : Yields fails first fun a => Yields fails (next a) P) :
    Yields fails (first >>= next) P := by
  intro issued
  have hfirst := h issued
  change match (ExceptT.bindCont next (first.run.run issued).1
    (first.run.run issued).2).1 with
    | .ok b => P b
    | .error e => fails e
  cases hresult : (first.run.run issued).1 with
  | error e =>
      rw [hresult] at hfirst
      exact hfirst
  | ok a =>
      rw [hresult] at hfirst
      exact hfirst (first.run.run issued).2

theorem yields_mono {P Q : α → Prop} {emission : Emission α}
    (h : Yields fails emission P) (himp : ∀ a, P a → Q a) :
    Yields fails emission Q := by
  intro issued
  have hone := h issued
  cases hresult : (emission.run.run issued).1 with
  | error e =>
      rw [hresult] at hone
      exact hone
  | ok a =>
      rw [hresult] at hone
      exact himp a hone

theorem yields_map {P : β → Prop} {emission : Emission α} {f : α → β}
    (h : Yields fails emission fun a => P (f a)) :
    Yields fails (do return f (← emission)) P :=
  yields_bind (yields_mono h fun _ ha => yields_pure ha)

theorem exists_result_of_yields {P : α → Prop} {emission : Emission α}
    (h : Yields fails emission P) (hfails : ∀ e, ¬ fails e) (issued : Nat) :
    ∃ a, (emission.run.run issued).1 = .ok a ∧ P a := by
  have hone := h issued
  cases hresult : (emission.run.run issued).1 with
  | error e =>
      rw [hresult] at hone
      exact absurd hone (hfails e)
  | ok a =>
      rw [hresult] at hone
      exact ⟨a, rfl, hone⟩

theorem yields_mapM {f : α → Emission β} {R : α → β → Prop} {l : List α}
    (h : ∀ a ∈ l, Yields fails (f a) (R a)) :
    Yields fails (l.mapM f) (List.Forall₂ R l) := by
  induction l with
  | nil =>
      rw [List.mapM_nil]
      exact yields_pure List.Forall₂.nil
  | cons a rest ih =>
      rw [List.mapM_cons]
      apply yields_bind
      apply yields_mono (h a List.mem_cons_self)
      intro b hb
      apply yields_bind
      apply yields_mono (ih fun c hc => h c (List.mem_cons_of_mem a hc))
      intro bs hbs
      exact yields_pure (List.Forall₂.cons hb hbs)

/-!
## Names
-/

/-- Some segment is named by what makes no identifier. -/
def Illegal (segments : List Segment) (e : IllegalName) : Prop :=
  ∃ s ∈ segments, Name.ofField s.name = .error e

theorem yields_fieldName {s : Segment}
    (hfails : ∀ e, Illegal [s] e → fails e) :
    Yields fails (fieldName s.name) fun x => Name.ofField s.name = .ok x := by
  rw [fieldName]
  cases hname : Name.ofField s.name with
  | ok x => exact yields_pure rfl
  | error e =>
      apply yields_throw
      exact hfails e ⟨s, List.mem_singleton_self s, hname⟩

theorem yields_nextLoop :
    Yields fails nextLoop fun x => ∃ number, x = Name.ofLoop number :=
  fun issued => ⟨issued + 1, rfl⟩

theorem illegal_of_mem {s : Segment} {segments : List Segment}
    {e : IllegalName} (hmem : s ∈ segments) (h : Illegal [s] e) :
    Illegal segments e := by
  rcases h with ⟨t, ht, hname⟩
  rw [List.mem_singleton.mp ht] at hname
  exact ⟨s, hmem, hname⟩

theorem illegal_cons {s : Segment} {rest : List Segment} {e : IllegalName}
    (h : Illegal rest e) : Illegal (s :: rest) e := by
  rcases h with ⟨t, ht, hname⟩
  exact ⟨t, List.mem_cons_of_mem s ht, hname⟩

end Emission

namespace Name

theorem toList_ofLoop (number : Nat) :
    (ofLoop number).toList = 'v' :: Nat.toDigits 10 number := by
  rw [ofLoop, String.toList_append, Nat.toString_eq_repr, Nat.toList_repr]
  rfl

theorem ofLoop_ne (number : Nat) {name : String}
    (h : name.toList[1]?.any Char.isDigit = false) :
    ofLoop number ≠ name := by
  intro hname
  -- the second character of a loop variable is a digit
  rw [← hname, toList_ofLoop] at h
  cases hcases : Nat.toDigits 10 number with
  | nil => exact Nat.toDigits_ne_nil hcases
  | cons c rest =>
      have hc : c ∈ Nat.toDigits 10 number := by
        rw [hcases]
        exact List.mem_cons_self
      have hdigit : c.isDigit = true :=
        Nat.isDigit_of_mem_toDigits (by decide) (by decide) hc
      rw [hcases] at h
      simp [hdigit] at h

end Name

end AccessChecks
