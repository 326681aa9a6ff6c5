import AccessChecks.Emission.Body
import AccessChecks.Proofs.FreshNames

/-!
# Renumbering loop variables

## Code with other numbers

Code is renumbered by changing the number of each loop variable, where it is bound
and where it is read.  All other names stay.

## Code that differs in numbers only

Two bodies are the same up to the numbers of loop variables if each of them is a
renumbering of the other.  So variables that differ in one of them differ in the
other one too.

## Two runs of an emission

Emission only ever asks for the next loop variable.  So two runs of it that start at
different numbers issue their variables in step, and what they emit differs in the
numbers of these variables only.
-/

namespace AccessChecks

namespace Name

def loopNumber? (x : String) : Option Nat :=
  let number := Nat.ofDigitChars 10 x.toList.tail 0
  if ofLoop number = x then some number else none

theorem loopNumber?_ofLoop (number : Nat) :
    loopNumber? (ofLoop number) = some number := by
  have hdigits : Nat.ofDigitChars 10 (ofLoop number).toList.tail 0 = number := by
    rw [toList_ofLoop, List.tail_cons, Nat.ofDigitChars_ten_toDigits]
  rw [loopNumber?, hdigits, if_pos rfl]

theorem loopNumber?_of_isPlain {x : String} (h : isPlain x = true) :
    loopNumber? x = none := by
  rw [loopNumber?]
  exact if_neg (ofLoop_ne_of_isPlain _ h)

def renumber (σ : Nat → Nat) (x : String) : String :=
  match loopNumber? x with
  | some number => ofLoop (σ number)
  | none => x

variable (σ : Nat → Nat)

@[simp] theorem renumber_ofLoop (number : Nat) :
    renumber σ (ofLoop number) = ofLoop (σ number) := by
  rw [renumber, loopNumber?_ofLoop]

theorem renumber_of_isPlain {x : String} (h : isPlain x = true) :
    renumber σ x = x := by
  rw [renumber, loopNumber?_of_isPlain h]

end Name

/-!
## Code with other numbers
-/

namespace Pattern

def renumber (σ : Nat → Nat) : Pattern → Pattern
  | name x => name (Name.renumber σ x)
  | pair x y => pair (Name.renumber σ x) (Name.renumber σ y)

end Pattern

mutual

@[simp] def Expr.renumber (σ : Nat → Nat) : Expr → Expr
  | .name x => .name (Name.renumber σ x)
  | .item i => .item i
  | .text t => .text t
  | .number n => .number n
  | .field base x => .field (base.renumber σ) x
  | .method receiver m args =>
      .method (receiver.renumber σ) m (Expr.renumberAll σ args)
  | .call function args => .call function (Expr.renumberAll σ args)
  | .closure parameter body =>
      .closure (parameter.renumber σ) (body.renumber σ)
  | .pair a b => .pair (a.renumber σ) (b.renumber σ)
  | .unary op e => .unary op (e.renumber σ)
  | .binary op a b => .binary op (a.renumber σ) (b.renumber σ)
  | .record type fields => .record type (Expr.renumberRecord σ fields)
  | .choice test yes no =>
      .choice (test.renumber σ) (yes.renumber σ) (no.renumber σ)

@[simp] def Expr.renumberAll (σ : Nat → Nat) : List Expr → List Expr
  | [] => []
  | e :: rest => e.renumber σ :: Expr.renumberAll σ rest

@[simp] def Expr.renumberRecord (σ : Nat → Nat) :
    List (String × Expr) → List (String × Expr)
  | [] => []
  | (x, e) :: rest => (x, e.renumber σ) :: Expr.renumberRecord σ rest

end

mutual

@[simp] def Stmt.renumber (σ : Nat → Nat) : Stmt → Stmt
  | .bind isMutable x element value =>
      .bind isMutable (Name.renumber σ x) element (value.renumber σ)
  | .assign x value => .assign (Name.renumber σ x) (value.renumber σ)
  | .loop x elements body =>
      .loop (x.map (Name.renumber σ)) (elements.renumber σ)
        (Stmt.renumberAll σ body)
  | .guard test body => .guard (test.renumber σ) (Stmt.renumberAll σ body)
  | .unwrap x value body =>
      .unwrap (Name.renumber σ x) (value.renumber σ) (Stmt.renumberAll σ body)
  | .eval e => .eval (e.renumber σ)
  | .block body => .block (Stmt.renumberAll σ body)

@[simp] def Stmt.renumberAll (σ : Nat → Nat) : List Stmt → List Stmt
  | [] => []
  | s :: rest => s.renumber σ :: Stmt.renumberAll σ rest

end

namespace Stmt

variable (σ : Nat → Nat)

theorem renumberAll_eq_map : renumberAll σ = List.map (renumber σ) := by
  funext body
  induction body with
  | nil => rfl
  | cons s rest ih => rw [renumberAll, ih, List.map_cons]

theorem renumberAll_append (front back : List Stmt) :
    renumberAll σ (front ++ back) =
      renumberAll σ front ++ renumberAll σ back := by
  rw [renumberAll_eq_map, List.map_append]

theorem renumberAll_flatten (parts : List (List Stmt)) :
    renumberAll σ parts.flatten = (parts.map (renumberAll σ)).flatten := by
  rw [renumberAll_eq_map, List.map_flatten]

theorem isEmpty_renumberAll (body : List Stmt) :
    (renumberAll σ body).isEmpty = body.isEmpty := by
  cases body <;> rfl

end Stmt

namespace Body

def renumber (σ : Nat → Nat) (b : Body) : Body :=
  { statements := Stmt.renumberAll σ b.statements
    result := b.result.renumber σ }

def SameUpToNumbers (b c : Body) : Prop :=
  (∃ σ, b.renumber σ = c) ∧ ∃ σ, c.renumber σ = b

end Body

/-!
## Two runs of an emission
-/

namespace Emission

/-- The numbers issued after `issued` become those issued after `issued'`. -/
def Moves (σ : Nat → Nat) (issued issued' : Nat) : Prop :=
  ∀ count, σ (issued + (count + 1)) = issued' + (count + 1)

theorem Moves.next {σ : Nat → Nat} {issued issued' : Nat}
    (h : Moves σ issued issued') : Moves σ (issued + 1) (issued' + 1) := by
  intro count
  have hassoc : ∀ n, n + 1 + (count + 1) = n + (count + 1 + 1) := by
    intro n
    omega
  rw [hassoc, hassoc]
  exact h (count + 1)

theorem moves_shift (issued issued' : Nat) :
    Moves (fun number => number - issued + issued') issued issued' := by
  intro count
  dsimp only
  omega

/-- Two runs end in step: what they emit is related, or both meet the same name. -/
inductive InStep {α : Type} (σ : Nat → Nat) (R : α → α → Prop) :
    Except IllegalName α × Nat → Except IllegalName α × Nat → Prop where
  | emitted {a b : α} {later later' : Nat} :
      R a b → Moves σ later later' → InStep σ R (.ok a, later) (.ok b, later')
  | failed (e : IllegalName) (later later' : Nat) :
      InStep σ R (.error e, later) (.error e, later')

/-- Runs of the two emissions that start in step end in step. -/
def Renumbers {α : Type} (σ : Nat → Nat) (R : α → α → Prop)
    (first second : Emission α) : Prop :=
  ∀ issued issued', Moves σ issued issued' →
    InStep σ R (first.run.run issued) (second.run.run issued')

section

variable {α β : Type} {σ : Nat → Nat} {R : α → α → Prop} {Q : β → β → Prop}

theorem renumbers_pure {a b : α} (h : R a b) :
    Renumbers σ R (pure a) (pure b) :=
  fun _ _ hmoves => InStep.emitted h hmoves

theorem renumbers_throw (e : IllegalName) :
    Renumbers σ R (throw e) (throw e) :=
  fun issued issued' _ => InStep.failed e issued issued'

theorem renumbers_bind {first second : Emission α} {next next' : α → Emission β}
    (h : Renumbers σ R first second)
    (hnext : ∀ a b, R a b → Renumbers σ Q (next a) (next' b)) :
    Renumbers σ Q (first >>= next) (second >>= next') := by
  intro issued issued' hmoves
  change InStep σ Q
    (ExceptT.bindCont next (first.run.run issued).1 (first.run.run issued).2)
    (ExceptT.bindCont next' (second.run.run issued').1
      (second.run.run issued').2)
  have hstep := h issued issued' hmoves
  generalize first.run.run issued = ran at hstep
  generalize second.run.run issued' = ran' at hstep
  cases hstep with
  | emitted hab hlater => exact hnext _ _ hab _ _ hlater
  | failed e later later' => exact InStep.failed e later later'

theorem renumbers_map {first second : Emission α} {f f' : α → β}
    (h : Renumbers σ R first second) (hf : ∀ a b, R a b → Q (f a) (f' b)) :
    Renumbers σ Q (do return f (← first)) (do return f' (← second)) :=
  renumbers_bind h fun a b hab => renumbers_pure (hf a b hab)

theorem renumbers_mapM {γ : Type} {f f' : γ → Emission β} {l : List γ}
    (h : ∀ a ∈ l, Renumbers σ Q (f a) (f' a)) :
    Renumbers σ (List.Forall₂ Q) (l.mapM f) (l.mapM f') := by
  induction l with
  | nil =>
      rw [List.mapM_nil, List.mapM_nil]
      exact renumbers_pure List.Forall₂.nil
  | cons a rest ih =>
      rw [List.mapM_cons, List.mapM_cons]
      apply renumbers_bind (h a List.mem_cons_self)
      intro b b' hb
      apply renumbers_bind (ih fun c hc => h c (List.mem_cons_of_mem a hc))
      intro bs bs' hbs
      exact renumbers_pure (List.Forall₂.cons hb hbs)

theorem renumbers_nextLoop :
    Renumbers σ (fun x y => y = Name.renumber σ x) nextLoop nextLoop := by
  intro issued issued' hmoves
  apply InStep.emitted _ hmoves.next
  change Name.ofLoop (issued' + 1) = Name.renumber σ (Name.ofLoop (issued + 1))
  rw [Name.renumber_ofLoop, ← hmoves 0]

theorem renumbers_fieldName (name : String) :
    Renumbers σ Eq (fieldName name) (fieldName name) := by
  rw [fieldName]
  cases Name.ofField name with
  | ok x => exact renumbers_pure rfl
  | error e => exact renumbers_throw e

end

end Emission

end AccessChecks
