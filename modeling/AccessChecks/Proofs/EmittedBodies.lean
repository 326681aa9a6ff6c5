import AccessChecks.Proofs.EmittedChecks

/-!
# Emitted bodies

## Instances

The code at the end of the resource path keeps the instance in a variable, unless
its checks read nothing from it.

## Running a body

A body pushes the checks of all instances in turn, and its result has them in that
order.

## Bodies of discovered resources

The paths of a discovered resource can be read on every request, so the body that
is emitted for it computes the expected configuration for every request.
-/

namespace AccessChecks

open Reading Stmt

namespace Emission

section

variable {s : Schema} {r : Resource} {permission : String}

def instanceVariables : List String :=
  resourceRoot :: checkVariables

def Permits (permission : String) (env : Environment) : Prop :=
  env.lookup permissionVariable = some (.string permission)

theorem stable_permits :
    Stable checksVariable fun (_ : Unit) => Permits permission := by
  constructor
  · intro _ number d env h
    rw [Permits, Environment.lookup_cons_ne
      (Name.ofLoop_ne number (by decide))]
    exact h
  · intro _ items env h
    rw [Permits, Environment.lookup_update_ne (by decide)]
    exact h

theorem yields_checksOf_none
    (htenant : r.HasSingleTenant)
    (hneeds : r.needsInstance = false) :
    Yields r.IllegalOn (checksOf r none) fun body =>
      ∀ env v, Permits permission env →
        Appends checksVariable instanceVariables (checksData r permission v)
          env body := by
  apply yields_mono
    (yields_checksOf (s := default) htenant (fun _ => hneeds))
  intro body hbody env v hpermits
  have happends := hbody env .absent v
    ⟨hpermits, fun value hvalue => by cases hvalue⟩
    fun e _ => Resource.readable_of_not_needsInstance _ hneeds e
  exact happends.mono fun x hx => List.mem_cons_of_mem _ hx

theorem yields_instanceChecks
    (htenant : r.HasSingleTenant) (value : Value) :
    Yields r.IllegalOn (instanceChecks r (some value))
      (Gathers checksVariable instanceVariables
        (fun (_ : Unit) => Permits permission) (fun _ => r.Readable s)
        (fun _ => checksData r permission) [] value) := by
  rw [instanceChecks]
  cases hneeds : r.needsInstance with
  | true =>
      rw [if_pos rfl]
      apply yields_map
      apply yields_mono
        (yields_checksOf (s := s) htenant (fun h => by cases h))
      intro body hbody _ env v hpermits hdenotes hreadable
      rcases Value.exec_bindTo (x := resourceRoot) hdenotes with
        ⟨d, hbind, hkept⟩
      rw [reached, List.flatMap_singleton]
      apply Appends.of_binding (by decide)
        ((execAll_singleton env _).trans hbind)
      apply hbody _ d v _ hreadable
      constructor
      · rw [Environment.lookup_cons_ne (by decide)]
        exact hpermits
      · intro inst hinst
        rw [← Option.some.inj hinst]
        exact ⟨Environment.lookup_cons_self _ d env, hkept⟩
  | false =>
      rw [if_neg (by decide)]
      apply yields_mono (yields_checksOf_none htenant hneeds)
      intro body hbody _ env v hpermits _ _
      rw [reached, List.flatMap_singleton]
      exact hbody env v hpermits

theorem yields_instances
    (htenant : r.HasSingleTenant) (value : Value) :
    Yields r.IllegalOn
      (walk r.needsInstance (instanceChecks r) r.path.segments value)
      (Gathers checksVariable instanceVariables
        (fun (_ : Unit) => Permits permission) (fun _ => r.Readable s)
        (fun _ => checksData r permission) r.path.segments value) := by
  apply yields_walk (by decide) stable_permits
  · intro leaf
    exact yields_instanceChecks htenant leaf
  · intro hneeds
    apply yields_mono (yields_checksOf_none htenant hneeds)
    intro body hbody _ env v hpermits
    exact hbody env v hpermits
  · intro e he
    exact ⟨r.path, Or.inl rfl, he⟩

/-!
## Running a body
-/

theorem eval_statedMode (env : Environment) (mode : Option BulkMode) :
    (statedMode r mode).eval env =
      some (if r.isMultiple then .present (.mode (mode.getD .allOf))
        else .absent) := by
  rw [statedMode]
  cases r.isMultiple <;> rfl

theorem eval_result {env : Environment} {mode : Option BulkMode}
    {checks : List Check} {kind : CheckKind}
    (hkind : env.lookup kindVariable = some (.kind kind))
    (hchecks : env.lookup checksVariable = some (.list (checks.map .check))) :
    (Expr.record .checkConfig
      [(kindVariable, .name kindVariable), ("mode", statedMode r mode),
        (checksVariable, .name checksVariable)]).eval env =
      some (.config ⟨kind,
        if r.isMultiple then some (mode.getD .allOf) else none, checks⟩) := by
  have hlist : (checks.map Data.check).mapM Data.asCheck? = some checks :=
    mapM_map_inverse (f := Data.check) (g := Data.asCheck?) (fun _ => rfl)
      checks
  simp only [Expr.eval, Expr.evalRecord, hkind, hchecks, eval_statedMode,
    Option.bind_some, Option.map_some]
  cases r.isMultiple with
  | true =>
      change (List.mapM Data.asCheck? (checks.map Data.check)).map _ = _
      rw [hlist]
      rfl
  | false =>
      change (List.mapM Data.asCheck? (checks.map Data.check)).map _ = _
      rw [hlist]
      rfl

theorem eval_kind {env : Environment} {items : List Data}
    (hchecks : env.lookup checksVariable = some (.list items)) :
    (Expr.choice
      (.binary .exceeds (.method (.name checksVariable) .len []) (.number 1))
      (.item (.kind .bulk)) (.item (.kind .single))).eval env =
      some (.kind (CheckKind.forCount items.length)) := by
  have hcount : (Expr.method (.name checksVariable) .len []).eval env =
      some (.count items.length) := by
    rw [Expr.eval, Expr.eval, hchecks]
    rfl
  have htest : (Expr.binary .exceeds
      (.method (.name checksVariable) .len []) (.number 1)).eval env =
      some (.bool (items.length > 1)) := by
    rw [Expr.eval, hcount]
    change some (Data.bool (decide ((items.length : Int) > 1))) = _
    congr 2
    exact decide_eq_decide.mpr (by omega)
  rw [Expr.eval, htest, CheckKind.forCount]
  by_cases hmany : items.length > 1
  · simp [hmany, Data.asBool?, Data.bool, Expr.eval, Item.value?]
  · simp [hmany, Data.asBool?, Data.bool, Expr.eval, Item.value?]

def entryVariables (permission : String) (d : Data) : Environment :=
  [(checksVariable, .list []), (permissionVariable, .string permission),
    (requestRoot, d), ("self", d)]

theorem run_gathering {instances : List Stmt} {mode : Option BulkMode}
    {checks : List Check} {d : Data}
    (happends : Appends checksVariable instanceVariables (checks.map .check)
      (entryVariables permission d) instances) :
    Body.run
      { statements :=
          [.bind false requestRoot none (.name "self"),
            .bind false permissionVariable none (.text permission),
            .bind true checksVariable (some .check) (.call .newList [])] ++
          instances ++
          [.bind false kindVariable none
            (.choice
              (.binary .exceeds (.method (.name checksVariable) .len [])
                (.number 1))
              (.item (.kind .bulk)) (.item (.kind .single)))]
        result :=
          .record .checkConfig
            [(kindVariable, .name kindVariable), ("mode", statedMode r mode),
              (checksVariable, .name checksVariable)] } d =
      some
        { kind := CheckKind.forCount checks.length
          mode := if r.isMultiple then some (mode.getD .allOf) else none
          checks := checks } := by
  rcases happends [] rfl with ⟨locals, hlocals, hrun⟩
  -- what the code of the instances bound hides neither the checks nor the kind
  have hchecks : List.lookup checksVariable
      (locals ++ (entryVariables permission d).update checksVariable
        (.list (checks.map .check))) = some (.list (checks.map .check)) := by
    rw [Environment.lookup_append_of_not_bound]
    · rfl
    · intro p hp heq
      have hmem := hlocals p hp
      rw [heq] at hmem
      exact absurd hmem (by decide)
  have hprelude : execAll [("self", d)]
      [.bind false requestRoot none (.name "self"),
        .bind false permissionVariable none (.text permission),
        .bind true checksVariable (some .check) (.call .newList [])] =
      some (entryVariables permission d) := rfl
  have hkind := eval_kind hchecks
  rw [List.length_map] at hkind
  rw [Body.run, execAll_append, execAll_append, hprelude, Option.bind_some,
    hrun, Option.bind_some, execAll_singleton, exec, List.nil_append, hkind,
    Option.map_some, Option.bind_some,
    eval_result (Environment.lookup_cons_self kindVariable _ _)
      ((Environment.lookup_cons_ne (by decide) _ _).trans hchecks)]

theorem yields_gatedBody (mode : Option BulkMode)
    (htenant : r.HasSingleTenant) :
    Yields r.IllegalOn (gatedBody r permission mode) fun body =>
      ∀ d, Fits (r.Readable s) r.path.segments d →
        body.run d = some (r.configIn permission mode d) := by
  apply yields_map
  apply yields_mono (yields_instances htenant (.ref (.name requestRoot)))
  intro instances hgathers d hfits
  have happends := hgathers () (entryVariables permission d) (some d) rfl
    ⟨d, rfl, rfl⟩ (fun e he => by rw [← Option.some.inj he]; exact hfits)
  have hchecks : (reached r.path.segments (some d)).flatMap
      (checksData r permission) =
      (r.checksIn permission d).map .check := by
    rw [Resource.checksIn, List.map_flatMap]
    rfl
  rw [hchecks] at happends
  exact run_gathering happends

end

end Emission

/-!
## Bodies of discovered resources
-/

theorem yields_gatedBody_of_discover {s : Schema} {target : MessageRef}
    {r : Resource} (found : (discover s target).1 = some r)
    (permission : String) (mode : Option BulkMode) :
    Emission.Yields r.IllegalOn (Emission.gatedBody r permission mode)
      fun body => ∀ d, s.Holds (.message target) d →
        body.run d = some (r.configIn permission mode d) := by
  apply Emission.yields_mono
    (Emission.yields_gatedBody mode (hasSingleTenant_of_discover found))
  intro body hbody d hd
  exact hbody d (readable_of_discover found hd)

end AccessChecks
