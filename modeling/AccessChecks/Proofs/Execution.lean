import AccessChecks.Code.Evaluation

/-!
# Running emitted statements

## Environments

A change to a variable reaches its innermost binding, keeps the other variables
and keeps the order of bindings.  So it passes over the variables of a block, and
leaving the block keeps it.

## Gathering

Emitted code gathers its results in a list variable.  What a piece of code appends
to the list is all that stays of it, apart from variables of its own, which are
bound on top.

## Loops

The results of a loop are those of its body, one element after the other.
-/

namespace AccessChecks

namespace Environment

theorem lookup_cons_self {α : Type} (x : String) (d : α)
    (env : List (String × α)) : List.lookup x ((x, d) :: env) = some d := by
  simp

theorem lookup_cons_ne {α : Type} {x y : String} (h : y ≠ x) (d : α)
    (env : List (String × α)) :
    List.lookup x ((y, d) :: env) = env.lookup x := by
  rw [List.lookup_cons]
  have hne : (x == y) = false := by simpa using Ne.symm h
  rw [hne]

theorem lookup_update_self {x : String} {old : Data} {env : Environment}
    (h : env.lookup x = some old) (d : Data) :
    (env.update x d).lookup x = some d := by
  induction env with
  | nil => cases h
  | cons pair rest ih =>
      rcases pair with ⟨y, e⟩
      rw [update]
      split
      · rename_i hxy
        rw [hxy]
        exact lookup_cons_self y d rest
      · rename_i hxy
        rw [lookup_cons_ne (Ne.symm hxy)] at h ⊢
        exact ih h

theorem lookup_update_ne {x y : String} (h : x ≠ y) (d : Data)
    (env : Environment) :
    (env.update x d).lookup y = env.lookup y := by
  induction env with
  | nil => rfl
  | cons pair rest ih =>
      rcases pair with ⟨z, e⟩
      rw [update]
      split
      · rename_i hxz
        rw [hxz] at h
        rw [lookup_cons_ne h, lookup_cons_ne h]
      · rw [List.lookup_cons, List.lookup_cons, ih]

@[simp] theorem length_update (x : String) (d : Data) (env : Environment) :
    (env.update x d).length = env.length := by
  induction env with
  | nil => rfl
  | cons pair rest ih =>
      rcases pair with ⟨y, e⟩
      rw [update]
      split
      · rfl
      · simp [ih]

@[simp] theorem update_update (x : String) (d e : Data) (env : Environment) :
    (env.update x d).update x e = env.update x e := by
  induction env with
  | nil => rfl
  | cons pair rest ih =>
      rcases pair with ⟨y, old⟩
      by_cases h : x = y
      · simp [update, h]
      · simp [update, h, ih]

theorem update_same {x : String} {d : Data} {env : Environment}
    (h : env.lookup x = some d) : env.update x d = env := by
  induction env with
  | nil => rfl
  | cons pair rest ih =>
      rcases pair with ⟨y, e⟩
      by_cases hxy : x = y
      · rw [hxy, lookup_cons_self] at h
        rw [update, if_pos hxy, Option.some.inj h]
      · rw [lookup_cons_ne (Ne.symm hxy)] at h
        rw [update, if_neg hxy, ih h]

theorem update_cons_ne {x y : String} (h : x ≠ y) (d e : Data)
    (env : Environment) :
    update x d ((y, e) :: env) = (y, e) :: env.update x d := by
  rw [update, if_neg h]

theorem update_cons_self (x : String) (d e : Data) (env : Environment) :
    update x d ((x, e) :: env) = (x, d) :: env := by
  rw [update, if_pos rfl]

theorem lookup_append_of_not_bound {α : Type} {x : String}
    {locals : List (String × α)} (h : ∀ p ∈ locals, p.1 ≠ x)
    (env : List (String × α)) :
    List.lookup x (locals ++ env) = env.lookup x := by
  induction locals with
  | nil => rfl
  | cons pair rest ih =>
      rw [List.cons_append, lookup_cons_ne (h pair List.mem_cons_self)]
      exact ih fun p hp => h p (List.mem_cons_of_mem _ hp)

theorem leave_append {size : Nat} (locals : Environment)
    {env : Environment} (h : env.length = size) :
    leave size (locals ++ env) = env := by
  rw [leave, List.length_append, h, Nat.add_sub_cancel, List.drop_left]

theorem leave_self {size : Nat} {env : Environment} (h : env.length = size) :
    leave size env = env :=
  leave_append [] h

end Environment

namespace Stmt

theorem execAll_append (env : Environment) (front back : List Stmt) :
    execAll env (front ++ back) =
      (execAll env front).bind fun env => execAll env back := by
  induction front generalizing env with
  | nil => rfl
  | cons s rest ih =>
      rw [List.cons_append, execAll, execAll, Option.bind_assoc]
      congr 1
      funext next
      exact ih next

theorem execAll_singleton (env : Environment) (s : Stmt) :
    execAll env [s] = s.exec env := by
  rw [execAll]
  cases s.exec env <;> rfl

/-!
## Gathering
-/

/-- The statements append `new` to the list `acc`, and bind no variables but
those named in `bound`. -/
def Appends (acc : String) (bound : List String) (new : List Data)
    (env : Environment) (body : List Stmt) : Prop :=
  ∀ soFar, env.lookup acc = some (.list soFar) →
    ∃ locals : Environment, (∀ p ∈ locals, p.1 ∈ bound) ∧
      execAll env body = some (locals ++ env.update acc (.list (soFar ++ new)))

theorem Appends.mono {acc : String} {bound more : List String}
    {new : List Data} {env : Environment} {body : List Stmt}
    (h : Appends acc bound new env body) (hsub : ∀ x ∈ bound, x ∈ more) :
    Appends acc more new env body := by
  intro soFar hacc
  rcases h soFar hacc with ⟨locals, hlocals, hrun⟩
  exact ⟨locals, fun p hp => hsub p.1 (hlocals p hp), hrun⟩

theorem Appends.of_binding {acc x : String} {bound : List String}
    {new : List Data} {env : Environment} {d : Data}
    {binding body : List Stmt} (hx : acc ≠ x)
    (hbinding : execAll env binding = some ((x, d) :: env))
    (h : Appends acc bound new ((x, d) :: env) body) :
    Appends acc (x :: bound) new env (binding ++ body) := by
  intro soFar hacc
  have hacc' : List.lookup acc ((x, d) :: env) = some (.list soFar) := by
    rw [Environment.lookup_cons_ne (Ne.symm hx)]
    exact hacc
  rcases h soFar hacc' with ⟨locals, hlocals, hrun⟩
  refine ⟨locals ++ [(x, d)], ?_, ?_⟩
  · intro p hp
    rcases List.mem_append.mp hp with hlocal | hlast
    · exact List.mem_cons_of_mem x (hlocals p hlocal)
    · rw [List.mem_singleton.mp hlast]
      exact List.mem_cons_self
  · rw [execAll_append, hbinding, Option.bind_some, hrun,
      Environment.update_cons_ne hx, List.append_assoc]
    rfl

theorem appends_push {acc : String} {env : Environment} {e : Expr} {d : Data}
    (he : e.eval env = some d) :
    Appends acc [] [d] env [.eval (.method (.name acc) .push [e])] := by
  intro soFar hacc
  refine ⟨[], by simp, ?_⟩
  rw [execAll_singleton, exec, Expr.execute, hacc, he]
  rfl

/-!
## Loops
-/

def enterLoop (x : Option String) (d : Data) (env : Environment) :
    Environment :=
  match x with
  | some x => (x, d) :: env
  | none => env

def round (x : Option String) (body : List Stmt) (env : Environment)
    (d : Data) : Option Environment :=
  (execAll (enterLoop x d env) body).map (Environment.leave env.length)

theorem exec_loop {x : Option String} {elements : Expr} {body : List Stmt}
    {env : Environment} {items : List Data}
    (helements : elements.eval env = some (.list items)) :
    (Stmt.loop x elements body).exec env =
      items.foldlM (round x body) env := by
  rw [exec, helements]
  rfl

theorem round_eq {acc : String} {x : Option String} {body : List Stmt}
    {env : Environment} {d : Data} {bound : List String} {soFar new : List Data}
    (hacc : env.lookup acc = some (.list soFar)) (hx : ∀ y ∈ x, acc ≠ y)
    (hbody : Appends acc bound new (enterLoop x d env) body) :
    round x body env d = some (env.update acc (.list (soFar ++ new))) := by
  cases x with
  | none =>
      rcases hbody soFar hacc with ⟨locals, _, hrun⟩
      rw [round, hrun, Option.map_some]
      rw [Environment.leave_append locals (by rw [Environment.length_update]; rfl)]
      rfl
  | some y =>
      have hy : acc ≠ y := hx y rfl
      have hinner : List.lookup acc ((y, d) :: env) = some (.list soFar) := by
        rw [Environment.lookup_cons_ne (Ne.symm hy)]
        exact hacc
      rcases hbody soFar hinner with ⟨locals, _, hrun⟩
      rw [round, hrun, Option.map_some, enterLoop,
        Environment.update_cons_ne hy, List.append_cons]
      rw [Environment.leave_append (locals ++ [(y, d)])
        (Environment.length_update acc _ env)]

theorem foldlM_round {acc : String} {x : Option String} {body : List Stmt}
    {env : Environment} {items : List Data} {bound : List String}
    {f : Data → List Data} {soFar : List Data}
    (hacc : env.lookup acc = some (.list soFar)) (hx : ∀ y ∈ x, acc ≠ y)
    (hbody : ∀ d ∈ items, ∀ before,
      Appends acc bound (f d)
        (enterLoop x d (env.update acc (.list before))) body) :
    items.foldlM (round x body) env =
      some (env.update acc (.list (soFar ++ items.flatMap f))) := by
  induction items generalizing env soFar with
  | nil =>
      rw [List.flatMap_nil, List.append_nil, Environment.update_same hacc]
      rfl
  | cons d rest ih =>
      have hfirst : Appends acc bound (f d) (enterLoop x d env) body := by
        have h := hbody d List.mem_cons_self soFar
        rw [Environment.update_same hacc] at h
        exact h
      rw [List.foldlM_cons, round_eq hacc hx hfirst]
      change rest.foldlM (round x body) _ = _
      rw [ih (Environment.lookup_update_self hacc _), List.flatMap_cons,
        Environment.update_update, List.append_assoc]
      intro e he before
      rw [Environment.update_update]
      exact hbody e (List.mem_cons_of_mem d he) before

theorem appends_loop {acc : String} {x : Option String} {elements : Expr}
    {body : List Stmt} {env : Environment} {items : List Data}
    {bound : List String} {f : Data → List Data}
    (helements : elements.eval env = some (.list items))
    (hx : ∀ y ∈ x, acc ≠ y)
    (hbody : ∀ d ∈ items, ∀ before,
      Appends acc bound (f d)
        (enterLoop x d (env.update acc (.list before))) body) :
    Appends acc [] (items.flatMap f) env [.loop x elements body] := by
  -- a round changes only the list, so the body may rely on the other variables
  intro soFar hacc
  refine ⟨[], by simp, ?_⟩
  rw [execAll_singleton, exec_loop helements,
    foldlM_round hacc hx hbody, List.nil_append]

end Stmt

end AccessChecks
