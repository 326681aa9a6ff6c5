import AccessChecks.Proofs.EmittedAttributes

/-!
# Emitted checks

## One check

The code of a check binds its id, its tenant and its attributes, and pushes the
check that these make up.  All three are read off the same instance.

## Instances

The code of an instance pushes its checks, one or as many as the id path reaches.
The code of a body does so for every instance that the resource path reaches.

## Bodies

A body counts the checks that it pushed, and its result has them in that order.
-/

namespace AccessChecks

open Reading Stmt

namespace Resource

def IllegalOn (r : Resource) (e : IllegalName) : Prop :=
  ∃ p, (p = r.path ∨ r.usableIdPath = some p ∨ r.usableTenantPath = some p ∨
      ∃ name, (name, p) ∈ r.attributePaths) ∧
    Emission.Illegal p.segments e

theorem paths_of_not_needsInstance {r : Resource}
    (h : r.needsInstance = false) :
    r.usableIdPath = none ∧ r.usableTenantPath = none ∧
      r.attributePaths = [] := by
  simpa [needsInstance, and_assoc] using h

theorem readable_of_not_needsInstance {r : Resource} (s : Schema)
    (h : r.needsInstance = false) (d : Data) : r.Readable s d := by
  rcases paths_of_not_needsInstance h with ⟨hid, htenant, hattributes⟩
  constructor
  · intro p hp
    rw [hid] at hp
    cases hp
  · intro p hp
    rw [htenant] at hp
    cases hp
  · intro e he
    rw [hattributes] at he
    cases he

end Resource

namespace Emission

section

variable {s : Schema} {r : Resource} {permission : String}

/-- The variables around the code of an instance: the permission, and what the
instance is read from. -/
structure CheckScope (permission : String) (instance_ : Option Value)
    (d : Data) (v : Option Data) (env : Environment) : Prop where
  permission : env.lookup permissionVariable = some (.string permission)
  inst : ∀ value ∈ instance_, InstanceIn value d v env

theorem CheckScope.cons {instance_ : Option Value} {d : Data}
    {v : Option Data} {env : Environment}
    (h : CheckScope permission instance_ d v env) {x : String}
    (hpermission : x ≠ permissionVariable) (hroot : x ≠ resourceRoot)
    (e : Data) : CheckScope permission instance_ d v ((x, e) :: env) := by
  constructor
  · rw [Environment.lookup_cons_ne hpermission]
    exact h.permission
  · intro value hvalue
    exact (h.inst value hvalue).cons hroot e

theorem CheckScope.update {instance_ : Option Value} {d : Data}
    {v : Option Data} {env : Environment}
    (h : CheckScope permission instance_ d v env) (e : Data) :
    CheckScope permission instance_ d v (env.update checksVariable e) := by
  constructor
  · rw [Environment.lookup_update_ne (by decide)]
    exact h.permission
  · intro value hvalue
    have hinst := h.inst value hvalue
    refine { hinst with lookup := ?_ }
    rw [Environment.lookup_update_ne (by decide)]
    exact hinst.lookup

/-!
## One check
-/

def checkVariables : List String :=
  [idVariable, tenantVariable, attributesVariable]

theorem appends_pushCheck {env : Environment} {id tenant : String}
    {attributes : Attributes}
    (hpermission : env.lookup permissionVariable = some (.string permission))
    (hid : env.lookup idVariable = some (.string id))
    (htenant : env.lookup tenantVariable = some (.string tenant))
    (hattributes : env.lookup attributesVariable =
      some (.attributes attributes)) :
    Appends checksVariable []
      [.check ⟨tenant, permission, ⟨r.resourceType, id, attributes⟩⟩] env
      [pushCheck r] := by
  apply appends_push
  simp only [Expr.eval, Expr.evalRecord, Expr.evalAll, hpermission, hid,
    htenant, hattributes, Option.bind_some, Option.map_some]
  rfl

theorem readsKey_tenant {p : AccessPath} {v : Option Data}
    (hreadable : ∀ e ∈ v, r.Readable s e)
    (hp : r.usableTenantPath = some p) : ReadsKey s p v := by
  intro e he
  exact (hreadable e he).tenant p hp

theorem readsKey_id {p : AccessPath} {v : Option Data}
    (hreadable : ∀ e ∈ v, r.Readable s e)
    (hp : r.usableIdPath = some p) : ReadsKey s p v := by
  intro e he
  exact (hreadable e he).id p hp

theorem readsAttribute {v : Option Data}
    (hreadable : ∀ e ∈ v, r.Readable s e) {entry : String × AccessPath}
    (hentry : entry ∈ r.attributePaths) : ReadsAttribute s entry.2 v := by
  intro e he
  exact (hreadable e he).attributes entry hentry

theorem yields_checkOf {instance_ : Option Value} {id : List Stmt}
    (htenant : r.HasSingleTenant)
    (hnone : instance_ = none → r.needsInstance = false) :
    Yields r.IllegalOn (checkOf r instance_ id) fun body =>
      ∀ env d v text, CheckScope permission instance_ d v env →
        (∀ e ∈ v, r.Readable s e) →
        execAll env id = some ((idVariable, .string text) :: env) →
        Appends checksVariable checkVariables
          [.check (r.checkAt permission v text)] env body := by
  apply yields_bind
  apply yields_mono
    (yields_bindKey (by decide) (by decide)
      (fun h => (Resource.paths_of_not_needsInstance (hnone h)).2.1) htenant
      fun p hp e he => ⟨p, Or.inr (Or.inr (Or.inl hp)), he⟩)
  intro tenant hbindTenant
  apply yields_bind
  apply yields_mono
    (yields_bindAttributes
      (fun h => (Resource.paths_of_not_needsInstance (hnone h)).2.2)
      fun entry hentry e he =>
        ⟨entry.2, Or.inr (Or.inr (Or.inr ⟨entry.1, hentry⟩)), he⟩)
  intro attributes hbindAttributes
  apply yields_pure
  intro env d v text hscope hreadable hid
  have hscopeId := hscope.cons (x := idVariable) (by decide) (by decide)
    (.string text)
  have hscopeTenant := hscopeId.cons (x := tenantVariable) (by decide)
    (by decide) (.string (keyAt r.usableTenantPath defaultTenant v))
  have hscopeAll := hscopeTenant.cons (x := attributesVariable) (by decide)
    (by decide) (.attributes (r.attributesAt v))
  rw [List.append_assoc, List.append_assoc]
  apply Appends.of_binding (by decide) hid
  apply Appends.of_binding (by decide)
    (hbindTenant s _ d v defaultTenant hscopeId.inst
      (fun p hp => readsKey_tenant hreadable hp) rfl)
  apply Appends.of_binding (by decide)
    (hbindAttributes s _ d v hscopeTenant.inst
      fun entry hentry => readsAttribute hreadable hentry)
  exact appends_pushCheck hscopeAll.permission rfl rfl rfl

/-!
## Instances
-/

def checksData (r : Resource) (permission : String) (v : Option Data) :
    List Data :=
  (r.checksAt permission v).map .check

def checksOfId (r : Resource) (permission : String)
    (c : Data × Option Data) (leaf : Option Data) : List Data :=
  [.check (r.checkAt permission c.2 ((leaf.bind Data.text?).getD ""))]

/-- What holds around the code of an instance holds around the code of its ids. -/
def IdScope (s : Schema) (r : Resource) (permission : String)
    (instance_ : Option Value) (c : Data × Option Data)
    (env : Environment) : Prop :=
  CheckScope permission instance_ c.1 c.2 env ∧
    ∀ e ∈ c.2, r.Readable s e

theorem stable_idScope (instance_ : Option Value) :
    Stable checksVariable (IdScope s r permission instance_) := by
  constructor
  · rintro c number e env ⟨hscope, hreadable⟩
    refine ⟨hscope.cons ?_ ?_ e, hreadable⟩
    · exact Name.ofLoop_ne number (by decide)
    · exact Name.ofLoop_ne number (by decide)
  · rintro c items env ⟨hscope, hreadable⟩
    exact ⟨hscope.update (.list items), hreadable⟩

def idWalk (r : Resource) (p : AccessPath) (value : Value) :
    Emission (List Stmt) :=
  walk true
    (fun id =>
      checkOf r (some value)
        [.bind false idVariable none
          ((id.map Value.asText).getD (.call .newText []))])
    p.segments value

theorem yields_idWalk {value : Value} {p : AccessPath}
    (hp : r.usableIdPath = some p)
    (htenant : r.HasSingleTenant) :
    Yields r.IllegalOn (idWalk r p value)
      (Gathers checksVariable checkVariables
        (IdScope s r permission (some value))
        (fun _ e => ∃ kind text zero, KeyData kind e text zero)
        (checksOfId r permission) p.segments value) := by
  apply yields_walk (by decide) (stable_idScope (some value))
  · intro leaf
    apply yields_mono (yields_checkOf htenant (fun h => by cases h))
    intro body hbody c env v hscope hdenotes hkey
    rw [reached, List.flatMap_singleton]
    apply hbody env c.1 c.2 _ hscope.1 hscope.2
    rw [execAll_singleton, exec, Option.map_some, Option.getD_some,
      Value.eval_asText hdenotes hkey]
    rfl
  · intro hneeded
    cases hneeded
  · intro e he
    exact ⟨p, Or.inr (Or.inl hp), he⟩

theorem flatMap_checksOfId {p : AccessPath} (hp : r.usableIdPath = some p)
    (hcross : p.crossesCollection = true) (d : Data) (v : Option Data) :
    (reached p.segments v).flatMap (checksOfId r permission (d, v)) =
      checksData r permission v := by
  rw [checksData, Resource.checksAt, Resource.idsAt, Resource.fansOut, hp,
    Option.any_some, hcross, if_pos rfl, Resource.idLeaves, hp,
    List.map_map, List.map_map, List.map_eq_flatMap]
  rfl

theorem yields_fanOut {value : Value} {p : AccessPath}
    (hp : r.usableIdPath = some p) (hcross : p.crossesCollection = true)
    (htenant : r.HasSingleTenant) :
    Yields r.IllegalOn (idWalk r p value) fun body =>
      ∀ env d v, CheckScope permission (some value) d v env →
        (∀ e ∈ v, r.Readable s e) →
        Appends checksVariable checkVariables (checksData r permission v) env
          body := by
  apply yields_mono (yields_idWalk (s := s) hp htenant)
  intro body hbody env d v hscope hreadable
  have hfits : ∀ e ∈ v,
      Fits (fun e => ∃ kind text zero, KeyData kind e text zero)
        p.segments e := by
    intro e he
    rcases (hreadable e he).id p hp with ⟨kind, _, hid, hfits⟩
    exact hfits.mono fun leaf hleaf => ⟨kind, exists_keyData hid hleaf⟩
  have happends := hbody (d, v) env v ⟨hscope, hreadable⟩
    (hscope.inst value rfl).denotes hfits
  rw [flatMap_checksOfId hp hcross] at happends
  exact happends

theorem checksData_of_not_fansOut (hfan : r.fansOut = false)
    (v : Option Data) :
    checksData r permission v =
      [.check (r.checkAt permission v (keyAt r.usableIdPath "" v))] := by
  rw [checksData, Resource.checksAt, Resource.idsAt, hfan,
    if_neg (by decide)]
  rfl

theorem yields_checksOf {instance_ : Option Value}
    (htenant : r.HasSingleTenant)
    (hnone : instance_ = none → r.needsInstance = false) :
    Yields r.IllegalOn (checksOf r instance_) fun body =>
      ∀ env d v, CheckScope permission instance_ d v env →
        (∀ e ∈ v, r.Readable s e) →
        Appends checksVariable checkVariables (checksData r permission v) env
          body := by
  cases hp : r.usableIdPath with
  | none =>
      have hfan : r.fansOut = false := by
        rw [Resource.fansOut, hp]
        rfl
      rw [checksOf]
      · apply yields_mono (yields_checkOf htenant hnone)
        intro body hbody env d v hscope hreadable
        rw [checksData_of_not_fansOut hfan, hp]
        exact hbody env d v _ hscope hreadable rfl
      · intro path _ hsome
        rw [hp] at hsome
        cases hsome
  | some p =>
      cases instance_ with
      | none =>
          have hid := (Resource.paths_of_not_needsInstance (hnone rfl)).1
          rw [hp] at hid
          cases hid
      | some value =>
          unfold checksOf
          rw [hp]
          dsimp only
          cases hcross : p.crossesCollection with
          | true =>
              rw [if_pos rfl]
              exact yields_fanOut hp hcross htenant
          | false =>
              have hfan : r.fansOut = false := by
                rw [Resource.fansOut, hp, Option.any_some, hcross]
              rw [if_neg (by decide)]
              apply yields_bind
              apply yields_mono
                (yields_bindKey (by decide) (by decide) (fun h => by cases h)
                  (fun q hq => by rw [← Option.some.inj hq]; exact hcross)
                  fun q hq e he => ⟨q, Or.inr (Or.inl (hp.trans hq)), he⟩)
              intro id hbindId
              apply yields_mono (yields_checkOf htenant (fun h => by cases h))
              intro body hbody env d v hscope hreadable
              rw [checksData_of_not_fansOut hfan, hp]
              apply hbody env d v _ hscope hreadable
              apply hbindId s env d v "" hscope.inst _ rfl
              intro q hq
              exact readsKey_id hreadable (hp.trans hq)

end

end Emission

end AccessChecks
