import AccessChecks.Proofs.EmittedConversions
import AccessChecks.Proofs.EmittedKeys
import AccessChecks.Proofs.EmittedLoops

/-!
# Emitted attributes

## Present values

Code for a present value changes one variable outside.  It runs if the value is
there, and is skipped otherwise.

## Insertions

An attribute is inserted directly, or gathered first and inserted if something was
gathered.  Either way the attributes change by what the path reads off the
instance.

## Attributes of an instance

The attributes start empty, and each path makes its insertion.
-/

namespace AccessChecks

open Reading Stmt

namespace Value

/-- The code that is emitted for a present value, whatever its expression is,
changes the variable `x` to `new`. -/
def Sets (x : String) (new : Data) (env : Environment) (d : Data)
    (body : Value → Option (List Stmt)) : Prop :=
  ∀ inner value statements, (∀ y, y ≠ found → inner.lookup y = env.lookup y) →
    value.Reads inner d → body value = some statements →
    execAll inner statements = some (inner.update x new)

theorem exec_whenPresent {x : String} {env : Environment} {leaf : Value}
    {v : Option Data} {new : Data → Data}
    {body : Value → Option (List Stmt)} (hx : x ≠ found)
    (hleaf : leaf.Denotes env v) (hbody : ∀ value, (body value).isSome = true)
    (hsets : ∀ d ∈ v, Sets x (new d) env d body) :
    execAll env ((leaf.whenPresent body).getD []) =
      some (v.elim env fun d => env.update x (new d)) := by
  cases leaf with
  | place e =>
      rcases hleaf with ⟨d, rfl, he⟩
      rcases Option.isSome_iff_exists.mp (hbody (place e)) with
        ⟨statements, hstatements⟩
      rw [whenPresent, hstatements, Option.getD_some]
      · exact hsets d rfl env _ _ (fun _ _ => rfl) (reads_place he) hstatements
      · intro _ h
        cases h
  | ref e =>
      rcases hleaf with ⟨d, rfl, he⟩
      rcases Option.isSome_iff_exists.mp (hbody (ref e)) with
        ⟨statements, hstatements⟩
      rw [whenPresent, hstatements, Option.getD_some]
      · exact hsets d rfl env _ _ (fun _ _ => rfl) (reads_ref he) hstatements
      · intro _ h
        cases h
  | maybe e =>
      change e.eval env = some (Data.optional v) at hleaf
      rcases Option.isSome_iff_exists.mp (hbody (ref (.name found))) with
        ⟨statements, hstatements⟩
      rw [whenPresent, hstatements, Option.map_some, Option.getD_some,
        execAll_singleton, exec, hleaf, Option.bind_some]
      cases v with
      | none => rfl
      | some d =>
          have hrun := hsets d rfl ((found, d) :: env) _ _
            (fun y hy => Environment.lookup_cons_ne (Ne.symm hy) d env)
            (reads_ref (eval_bound found d env)) hstatements
          change (execAll ((found, d) :: env) statements).map _ = _
          rw [hrun, Environment.update_cons_ne hx]
          exact congrArg some
            (Environment.leave_append [(found, d)]
              (Environment.length_update x _ env))

end Value

/-!
## Insertions
-/

namespace Entries

def insert? {α : Type} (entries : Entries α) (name : String) (a : Option α) :
    Entries α :=
  a.elim entries (insert entries name)

end Entries

namespace Emission

theorem exec_insertAttribute {env : Environment} {entries : Attributes}
    {name : String} {e : Expr} {a : AttributeValue}
    (hentries : env.lookup attributesVariable = some (.attributes entries))
    (he : e.eval env = some (.value a)) :
    (insertAttribute name e).exec env =
      some (env.update attributesVariable
        (.attributes (Entries.insert entries name a))) := by
  rw [insertAttribute, exec, Expr.execute, hentries, he]
  rfl

def ReadsAttribute (s : Schema) (p : AccessPath) (v : Option Data) : Prop :=
  ∀ d ∈ v, ∃ type, p.leafType = some type ∧
    Fits (s.HoldsValue type) p.segments d

/-- Running the statements inserts the attribute that the path reads off the
instance. -/
def Inserts (inst : Value) (name : String) (p : AccessPath)
    (body : List Stmt) : Prop :=
  ∀ s env d v entries, InstanceIn inst d v env → ReadsAttribute s p v →
    env.lookup attributesVariable = some (.attributes entries) →
    execAll env body =
      some (env.update attributesVariable
        (.attributes (Entries.insert? entries name (p.attributeAt v))))

theorem inserts_nil {inst : Value} {name : String} {p : AccessPath}
    (h : ∀ v, p.attributeAt v = none) : Inserts inst name p [] := by
  intro s env d v entries _ _ hentries
  rw [h, Entries.insert?, Option.elim_none, Environment.update_same hentries]
  rfl

theorem attributeAt_of_leafType {p : AccessPath} {type : FieldType}
    (hleaf : p.leafType = some type) (htype : type.isAttributeType = true)
    (v : Option Data) :
    p.attributeAt v =
      if p.crossesCollection then
        if (p.gathered type v).isEmpty then none
        else some (.list (p.gathered type v))
      else (valueAt p.segments v).bind type.attribute? := by
  rw [AccessPath.attributeAt, hleaf, Option.bind_some, htype]
  rfl

theorem attributeAt_of_not_attributeType {p : AccessPath} {type : FieldType}
    (hleaf : p.leafType = some type) (htype : type.isAttributeType = false)
    (v : Option Data) : p.attributeAt v = none := by
  rw [AccessPath.attributeAt, hleaf, Option.bind_some, htype]
  rfl

theorem ReadsAttribute.fits {s : Schema} {p : AccessPath} {v : Option Data}
    {type : FieldType} (h : ReadsAttribute s p v)
    (hleaf : p.leafType = some type) :
    ∀ d ∈ v, Fits (s.HoldsValue type) p.segments d := by
  intro d hd
  rcases h d hd with ⟨other, hother, hfits⟩
  rw [hleaf] at hother
  cases hother
  exact hfits

/-!
## Direct insertions
-/

theorem sets_insertAttribute {s : Schema} {type : FieldType} {name : String}
    {env : Environment} {entries : Attributes} {d : Data} {a : AttributeValue}
    (hd : s.HoldsValue type d) (ha : type.attribute? d = some a)
    (hentries : env.lookup attributesVariable = some (.attributes entries)) :
    Value.Sets attributesVariable
      (.attributes (Entries.insert entries name a)) env d
      (fun value => (value.convert type).map fun converted =>
        [insertAttribute name converted]) := by
  intro inner value statements hlookup hvalue hstatements
  rcases Option.map_eq_some_iff.mp hstatements with ⟨e, he, rfl⟩
  rw [execAll_singleton]
  apply exec_insertAttribute
  · rw [hlookup attributesVariable (by decide)]
    exact hentries
  · rw [Value.eval_convert hd hvalue he, ha]
    rfl

theorem inserts_direct {name : String} {p : AccessPath} {type : FieldType}
    {inst leaf : Value} (hleaf : p.leafType = some type)
    (htype : type.isAttributeType = true) (hcross : p.crossesCollection = false)
    (hfollow : inst.Follows leaf p.segments) :
    Inserts inst name p
      ((leaf.whenPresent fun value =>
        (value.convert type).map fun converted =>
          [insertAttribute name converted]).getD []) := by
  intro s env d v entries hinst hreads hentries
  rcases hfollow env v (s.HoldsValue type) hinst.denotes (hreads.fits hleaf)
    with ⟨hdenotes, hholds⟩
  have hconvert : ∀ value : Value,
      ((value.convert type).map fun converted =>
        [insertAttribute name converted]).isSome = true := by
    intro value
    rw [Option.isSome_map, Value.isSome_convert, htype]
  have hsets : ∀ e ∈ valueAt p.segments v,
      Value.Sets attributesVariable
        (.attributes (Entries.insert? entries name (type.attribute? e))) env e
        (fun value => (value.convert type).map fun converted =>
          [insertAttribute name converted]) := by
    intro e he
    rcases Option.isSome_iff_exists.mp
      (isSome_attribute_of_holdsValue htype (hholds e he)) with ⟨a, ha⟩
    rw [ha]
    exact sets_insertAttribute (hholds e he) ha hentries
  rw [Value.exec_whenPresent (by decide) hdenotes hconvert hsets,
    attributeAt_of_leafType hleaf htype, hcross, if_neg (by decide)]
  cases valueAt p.segments v with
  | none =>
      exact congrArg some (Environment.update_same hentries).symm
  | some e => rfl

/-!
## Gathered insertions
-/

def gatheredAt (type : FieldType) (leaf : Option Data) : List Data :=
  ((leaf.bind type.attribute?).map Data.value).toList

theorem flatMap_gatheredAt (type : FieldType) (p : AccessPath)
    (v : Option Data) :
    (reached p.segments v).flatMap (gatheredAt type) =
      (p.gathered type v).map .value := by
  rw [AccessPath.gathered, List.map_filterMap,
    List.filterMap_eq_flatMap_toList]
  rfl

theorem appends_gathered {s : Schema} {type : FieldType}
    (htype : type.isAttributeType = true) {leaf : Value} {env : Environment}
    {v : Option Data} (hleaf : leaf.Denotes env v)
    (hholds : ∀ d ∈ v, s.HoldsValue type d) :
    Appends valuesVariable [] (gatheredAt type v) env
      ((leaf.whenPresent fun value =>
        (value.convert type).map fun converted =>
          [.eval (.method (.name valuesVariable) .push [converted])]).getD
        []) := by
  intro soFar hvalues
  have hconvert : ∀ value : Value,
      ((value.convert type).map fun converted =>
        [Stmt.eval (.method (.name valuesVariable) .push [converted])]).isSome =
        true := by
    intro value
    rw [Option.isSome_map, Value.isSome_convert, htype]
  have hsets : ∀ d ∈ v,
      Value.Sets valuesVariable (.list (soFar ++ gatheredAt type (some d))) env d
        (fun value => (value.convert type).map fun converted =>
          [.eval (.method (.name valuesVariable) .push [converted])]) := by
    intro d hd inner value statements hlookup hvalue hstatements
    rcases Option.isSome_iff_exists.mp
      (isSome_attribute_of_holdsValue htype (hholds d hd)) with ⟨a, ha⟩
    rcases Option.map_eq_some_iff.mp hstatements with ⟨e, he, rfl⟩
    have heval := Value.eval_convert (hholds d hd) hvalue he
    rw [ha] at heval
    have hinner : inner.lookup valuesVariable = some (.list soFar) := by
      rw [hlookup valuesVariable (by decide)]
      exact hvalues
    rw [gatheredAt, Option.bind_some, ha, execAll_singleton, exec,
      Expr.execute, hinner, heval]
    rfl
  refine ⟨[], by simp, ?_⟩
  rw [Value.exec_whenPresent (by decide) hleaf hconvert hsets]
  cases v with
  | none =>
      rw [gatheredAt, Option.bind_none, Option.map_none, Option.toList_none,
        List.append_nil, Environment.update_same hvalues]
      rfl
  | some d => rfl

theorem yields_gathering {fails : IllegalName → Prop} {type : FieldType}
    (htype : type.isAttributeType = true) {segments : List Segment}
    (hfails : ∀ e, Illegal segments e → fails e) (inst : Value) :
    Yields fails
      (walk true
        (fun leaf =>
          pure ((leaf.bind fun leaf =>
            leaf.whenPresent fun value =>
              (value.convert type).map fun converted =>
                [.eval
                  (.method (.name valuesVariable) .push [converted])]).getD []))
        segments inst)
      (Gathers valuesVariable [] (fun _ _ => True)
        (fun s : Schema => s.HoldsValue type) (fun _ => gatheredAt type)
        segments inst) := by
  apply yields_walk (by decide) _ _ _ hfails
  · constructor
    · intro _ _ _ _ h
      exact h
    · intro _ _ _ h
      exact h
  · intro leaf
    apply yields_pure
    intro s env v _ hdenotes hholds
    rw [reached, List.flatMap_singleton]
    exact appends_gathered htype hdenotes hholds
  · intro hneeded
    cases hneeded

theorem eval_gatheredSome (values : List AttributeValue) (env : Environment) :
    (Expr.unary .not (.method (.name valuesVariable) .isEmpty [])).eval
        ((valuesVariable, .list (values.map .value)) :: env) =
      some (.bool (!values.isEmpty)) := by
  have hvalues := Value.eval_bound valuesVariable
    (.list (values.map .value)) env
  rw [Expr.eval, Expr.eval, hvalues, Option.bind_some, Data.invoke,
    List.isEmpty_map]
  rfl

theorem eval_gatheredList (values : List AttributeValue) (env : Environment) :
    (Expr.call (.attributeOf .list) [.name valuesVariable]).eval
        ((valuesVariable, .list (values.map .value)) :: env) =
      some (.value (.list values)) := by
  have hvalues := Value.eval_bound valuesVariable
    (.list (values.map .value)) env
  rw [Value.eval_call hvalues, Data.apply, AttributeForm.build?,
    mapM_map_inverse (f := Data.value) (g := Data.asValue?) (fun _ => rfl)]
  rfl

theorem exec_gathering {name : String} {env : Environment}
    {entries : Attributes} {collected : List Stmt}
    {values : List AttributeValue}
    (hentries : env.lookup attributesVariable = some (.attributes entries))
    (hcollected :
      Appends valuesVariable [] (values.map .value)
        ((valuesVariable, .list []) :: env) collected) :
    execAll env
        [.block
          ([.bind true valuesVariable (some .attributeType)
              (.call .newList [])] ++
            collected ++
            [.guard
              (.unary .not (.method (.name valuesVariable) .isEmpty []))
              [insertAttribute name
                (.call (.attributeOf .list) [.name valuesVariable])]])] =
      some (env.update attributesVariable
        (.attributes (Entries.insert? entries name
          (if values.isEmpty then none else some (.list values))))) := by
  -- the gathered values go out of scope with the block, so only the insertion
  -- stays
  rcases hcollected [] (Environment.lookup_cons_self _ _ env) with
    ⟨locals, hlocals, hrun⟩
  have hnil : locals = [] := by
    cases locals with
    | nil => rfl
    | cons p rest => cases hlocals p List.mem_cons_self
  rw [hnil, List.nil_append, List.nil_append,
    Environment.update_cons_self] at hrun
  have hinner : List.lookup attributesVariable
      ((valuesVariable, .list (values.map .value)) :: env) =
      some (.attributes entries) := by
    rw [Environment.lookup_cons_ne (by decide)]
    exact hentries
  have hbind : (Stmt.bind true valuesVariable (some .attributeType)
      (.call .newList [])).exec env =
      some ((valuesVariable, .list []) :: env) := rfl
  rw [execAll_singleton, exec, List.append_assoc, List.singleton_append,
    execAll, hbind, Option.bind_some, execAll_append, hrun, Option.bind_some,
    execAll_singleton, Value.exec_guard (eval_gatheredSome values env)]
  cases hempty : values.isEmpty with
  | true =>
      rw [if_pos rfl, if_pos rfl, Entries.insert?, Option.elim_none,
        Environment.update_same hentries]
      exact congrArg some
        (Environment.leave_append [(valuesVariable, _)] rfl)
  | false =>
      rw [if_neg (by decide), if_neg (by decide), execAll_singleton,
        exec_insertAttribute hinner (eval_gatheredList values env),
        Option.map_some, Environment.update_cons_ne (by decide)]
      have hlength := Environment.length_update attributesVariable
        (.attributes (Entries.insert entries name (.list values))) env
      rw [Environment.leave_self (by simp)]
      exact congrArg some
        (Environment.leave_append [(valuesVariable, _)] hlength)

/-!
## Insertions of a path
-/

theorem yields_insertionOf {fails : IllegalName → Prop} {name : String}
    {p : AccessPath} (hfails : ∀ e, Illegal p.segments e → fails e)
    (inst : Value) :
    Yields fails (insertionOf name p inst) (Inserts inst name p) := by
  rw [insertionOf]
  cases hleaf : p.leafType with
  | none =>
      apply yields_pure
      apply inserts_nil
      intro v
      rw [AccessPath.attributeAt, hleaf, Option.bind_none]
  | some type =>
      dsimp only
      cases hcross : p.crossesCollection with
      | false =>
          rw [Bool.not_false, if_pos rfl]
          apply yields_map
          apply yields_mono (Value.yields_follow hcross hfails inst)
          intro leaf hfollow
          cases htype : type.isAttributeType with
          | true => exact inserts_direct hleaf htype hcross hfollow
          | false =>
              have hnone : ∀ value : Value, value.convert type = none := by
                intro value
                have hsome := Value.isSome_convert type value
                rw [htype] at hsome
                exact Option.isNone_iff_eq_none.mp
                  (Option.isSome_eq_false_iff.mp hsome)
              have hnil : (leaf.whenPresent fun value =>
                  (value.convert type).map fun converted =>
                    [insertAttribute name converted]) = none := by
                cases leaf <;> simp [Value.whenPresent, hnone]
              rw [hnil]
              exact inserts_nil (attributeAt_of_not_attributeType hleaf htype)
      | true =>
          rw [Bool.not_true, if_neg (by decide)]
          cases htype : type.isAttributeType with
          | false =>
              rw [Bool.not_false, if_pos rfl]
              apply yields_pure
              exact inserts_nil (attributeAt_of_not_attributeType hleaf htype)
          | true =>
              rw [Bool.not_true, if_neg (by decide)]
              apply yields_map
              apply yields_mono (yields_gathering htype hfails inst)
              intro collected hgathers s env d v entries hinst hreads hentries
              have hinner := hinst.cons (x := valuesVariable) (by decide)
                (.list [])
              have happends := hgathers s _ v trivial hinner.denotes
                (hreads.fits hleaf)
              rw [flatMap_gatheredAt] at happends
              rw [exec_gathering hentries happends,
                attributeAt_of_leafType hleaf htype, hcross, if_pos rfl]

/-!
## Attributes of an instance
-/

theorem exec_insertions {inst : Value} {paths : Entries AccessPath}
    {insertions : List (List Stmt)}
    (hinserts : List.Forall₂ (fun e body => Inserts inst e.1 e.2 body) paths
      insertions)
    {s : Schema} {env : Environment} {d : Data} {v : Option Data}
    {entries : Attributes} (hinst : InstanceIn inst d v env)
    (hreads : ∀ e ∈ paths, ReadsAttribute s e.2 v) :
    execAll ((attributesVariable, .attributes entries) :: env)
        insertions.flatten =
      some ((attributesVariable, .attributes
        (paths.foldl
          (fun entries e =>
            Entries.insert? entries e.1 (e.2.attributeAt v)) entries)) ::
          env) := by
  induction hinserts generalizing entries with
  | nil => rfl
  | @cons e body rest others hfirst _ ih =>
      have hinner := hinst.cons (x := attributesVariable) (by decide)
        (.attributes entries)
      rw [List.flatten_cons, execAll_append,
        hfirst s _ d v entries hinner (hreads e List.mem_cons_self)
          (Environment.lookup_cons_self _ _ env),
        Option.bind_some, Environment.update_cons_self,
        ih fun other hother => hreads other (List.mem_cons_of_mem e hother)]
      rfl

theorem attributesAt_eq_foldl (r : Resource) (v : Option Data) :
    r.attributesAt v =
      r.attributePaths.foldl
        (fun entries e => Entries.insert? entries e.1 (e.2.attributeAt v))
        [] := by
  rw [Resource.attributesAt, Entries.ofPairs, List.foldl_filterMap]
  congr 1
  funext entries e
  cases e.2.attributeAt v <;> rfl

theorem yields_bindAttributes {fails : IllegalName → Prop} {r : Resource}
    {instance_ : Option Value}
    (hnone : instance_ = none → r.attributePaths = [])
    (hfails : ∀ e ∈ r.attributePaths, ∀ error,
      Illegal e.2.segments error → fails error) :
    Yields fails (bindAttributes r.attributePaths instance_) fun body =>
      ∀ s env d v, (∀ inst ∈ instance_, InstanceIn inst d v env) →
        (∀ e ∈ r.attributePaths, ReadsAttribute s e.2 v) →
        execAll env body =
          some ((attributesVariable, .attributes (r.attributesAt v)) ::
            env) := by
  cases instance_ with
  | none =>
      apply yields_pure
      intro s env d v _ _
      rw [attributesAt_eq_foldl, hnone rfl]
      rfl
  | some inst =>
      apply yields_map
      apply yields_mono
        (yields_mapM fun e he => yields_insertionOf (hfails e he) inst)
      intro insertions hinserts s env d v hinst hreads
      have hbind : ∀ isMutable, (Stmt.bind isMutable attributesVariable none
          (.call .newAttributes [])).exec env =
          some ((attributesVariable, .attributes []) :: env) := fun _ => rfl
      rw [execAll, hbind, Option.bind_some,
        exec_insertions hinserts (hinst inst rfl) hreads,
        attributesAt_eq_foldl]

end Emission

end AccessChecks
