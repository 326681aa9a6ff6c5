import AccessChecks.Emission.Attributes
import AccessChecks.Proofs.Emitting
import AccessChecks.Proofs.Execution
import AccessChecks.Proofs.ExpectedChecks

/-!
# What emitted values denote

## Shapes

A place and a reference denote a value that is there.  An optional reference
denotes one that may be absent.

## Hops

Each hop emits an expression for what it leads to: the shape of the expression
follows the hop, and so does what it denotes.
-/

namespace AccessChecks

open Reading

namespace Data

def optional : Option Data → Data
  | none => absent
  | some d => present d

end Data

namespace Value

theorem eval_bound (x : String) (d : Data) (env : Environment) :
    (Expr.name x).eval ((x, d) :: env) = some d := by
  rw [Expr.eval, Environment.lookup_cons_self]

def Denotes (env : Environment) : Value → Option Data → Prop
  | place e, v | ref e, v => ∃ d, v = some d ∧ e.eval env = some d
  | maybe e, v => e.eval env = some (Data.optional v)

theorem behind_eq {s : Segment} {x : String} {d w : Data}
    (hx : Name.ofField s.name = .ok x) (hw : d.field? x = some w) :
    d.behind s = if s.hop.isNullable then w.present? else some w := by
  rw [Data.behind, Data.member?_of_ofField d hx, hw, Option.bind_some]

theorem denotes_stepTo {env : Environment} {value : Value} {v : Option Data}
    {s : Segment} {rest : List Segment} {x : String} {P : Data → Prop}
    (h : value.Denotes env v) (hx : Name.ofField s.name = .ok x)
    (hs : s.crossesCollection = false)
    (hfits : ∀ d ∈ v, Fits P (s :: rest) d) :
    (value.stepTo x s.hop).Denotes env (v.bind (Data.behind s)) := by
  have hplain : ∀ {d : Data}, v = some d → ∀ {e : Expr}, e.eval env = some d →
      ((place e).stepTo x s.hop).Denotes env (v.bind (Data.behind s)) := by
    rintro d rfl e he
    rcases hfits d rfl x hx with ⟨w, hw, hform⟩
    rw [Option.bind_some, behind_eq hx hw]
    rcases Segment.hop_of_not_crosses hs with hhop | hhop
    · rw [hhop]
      exact ⟨w, rfl, by rw [Expr.eval, he, Option.bind_some, hw]⟩
    · rw [hhop] at hform ⊢
      change Expr.eval env (.method (.field e x) .asRef []) = _
      rw [Expr.eval, Expr.eval, he, Option.bind_some, hw]
      rcases hform with rfl | ⟨content, rfl, _⟩
      · rfl
      · rfl
  cases value with
  | place e =>
      rcases h with ⟨d, hv, he⟩
      exact hplain hv he
  | ref e =>
      rcases h with ⟨d, hv, he⟩
      exact hplain hv he
  | maybe e =>
      change e.eval env = some (Data.optional v) at h
      cases v with
      | none =>
          cases hhop : s.hop <;>
            simp [stepTo, Hop.isNullable, Denotes, Expr.eval, h,
              Data.optional, Data.adapt]
      | some d =>
          rcases hfits d rfl x hx with ⟨w, hw, hform⟩
          rw [Option.bind_some, behind_eq hx hw]
          rcases Segment.hop_of_not_crosses hs with hhop | hhop
          · rw [hhop]
            simp [stepTo, Hop.isNullable, Denotes, Expr.eval, h,
              Data.optional, Data.adapt, Pattern.bindTo, hw, UnaryOp.apply]
          · rw [hhop] at hform ⊢
            rcases hform with rfl | ⟨content, rfl, _⟩ <;>
              simp [stepTo, Hop.isNullable, Denotes, Expr.eval, h,
                Data.optional, Data.adapt, Pattern.bindTo, hw, Data.invoke,
                Data.present?]

theorem eval_elementsOf {env : Environment} {value : Value} {v : Option Data}
    {s : Segment} {rest : List Segment} {x : String} {P : Data → Prop}
    (h : value.Denotes env v) (hx : Name.ofField s.name = .ok x)
    (hs : s.crossesCollection = true)
    (hfits : ∀ d ∈ v, Fits P (s :: rest) d) :
    (value.elementsOf x s.hop).eval env =
      some (.list (v.toList.flatMap (Data.elements s))) := by
  have hinvoke : ∀ d ∈ v, ∃ w, d.field? x = some w ∧
      Data.invoke (elementsOf.elements s.hop) w =
        some (.list (d.elements s)) := by
    intro d hd
    rcases hfits d hd x hx with ⟨w, hw, hform⟩
    refine ⟨w, hw, ?_⟩
    rw [Data.elements, Data.member?_of_ofField d hx, hw]
    rcases Segment.hop_of_crosses hs with hhop | hhop
    · rw [hhop] at hform ⊢
      rcases hform with ⟨items, rfl, _⟩
      rfl
    · rw [hhop] at hform ⊢
      rcases hform with ⟨entries, rfl, _⟩
      rfl
  have hplain : ∀ {d : Data}, v = some d → ∀ {e : Expr}, e.eval env = some d →
      (Expr.method (.field e x) (elementsOf.elements s.hop) []).eval env =
        some (.list (v.toList.flatMap (Data.elements s))) := by
    rintro d rfl e he
    rcases hinvoke d rfl with ⟨w, hw, helements⟩
    rw [Expr.eval, Expr.eval, he, Option.bind_some, hw, Option.bind_some,
      helements]
    simp
  cases value with
  | place e =>
      rcases h with ⟨d, hv, he⟩
      exact hplain hv he
  | ref e =>
      rcases h with ⟨d, hv, he⟩
      exact hplain hv he
  | maybe e =>
      change e.eval env = some (Data.optional v) at h
      cases v with
      | none =>
          simp [elementsOf, Expr.eval, h, Data.optional, Data.invoke,
            Data.adapt]
      | some d =>
          rcases hinvoke d rfl with ⟨w, hw, helements⟩
          have hiter : Data.invoke .intoIter (.present d) =
              some (.list [d]) := rfl
          simp [elementsOf, Expr.eval, h, Data.optional, hiter,
            Data.adapt, Pattern.bindTo, hw, helements, Data.items?]

/-!
## Paths without collections
-/

theorem yields_step {fails : IllegalName → Prop} {value : Value} {s : Segment}
    (hs : s.crossesCollection = false)
    (hfails : ∀ e, Emission.Illegal [s] e → fails e) :
    Emission.Yields fails (value.step s) fun next =>
      ∀ env v P rest, value.Denotes env v →
        (∀ d ∈ v, Fits P (s :: rest) d) →
        next.Denotes env (v.bind (Data.behind s)) := by
  apply Emission.yields_map
  apply Emission.yields_mono (Emission.yields_fieldName hfails)
  intro x hx env v P rest hvalue hfits
  exact denotes_stepTo hvalue hx hs hfits

theorem fits_bind_behind {s : Segment} {rest : List Segment}
    {P : Data → Prop} {v : Option Data} (hs : s.crossesCollection = false)
    (hfits : ∀ d ∈ v, Fits P (s :: rest) d) :
    ∀ d ∈ v.bind (Data.behind s), Fits P rest d := by
  intro d hd
  rcases Option.bind_eq_some_iff.mp hd with ⟨base, hbase, hbehind⟩
  exact fits_behind hs (hfits base hbase) hbehind

def Follows (value leaf : Value) (segments : List Segment) : Prop :=
  ∀ env v P, value.Denotes env v → (∀ d ∈ v, Fits P segments d) →
    leaf.Denotes env (valueAt segments v) ∧ ∀ d ∈ valueAt segments v, P d

theorem yields_follow {fails : IllegalName → Prop} {segments : List Segment}
    (hcross : segments.any Segment.crossesCollection = false)
    (hfails : ∀ e, Emission.Illegal segments e → fails e) (value : Value) :
    Emission.Yields fails (value.follow segments) fun leaf =>
      Follows value leaf segments := by
  induction segments generalizing value with
  | nil =>
      apply Emission.yields_pure
      intro env v P hvalue hfits
      exact ⟨hvalue, hfits⟩
  | cons s rest ih =>
      rw [List.any_cons, Bool.or_eq_false_iff] at hcross
      rw [follow, List.foldlM_cons]
      apply Emission.yields_bind
      apply Emission.yields_mono
        (yields_step hcross.1 fun e he =>
          hfails e (Emission.illegal_of_mem List.mem_cons_self he))
      intro next hnext
      apply Emission.yields_mono
        (ih hcross.2 (fun e he => hfails e (Emission.illegal_cons he)) next)
      intro leaf hleaf env v P hvalue hfits
      exact hleaf env _ P (hnext env v P rest hvalue hfits)
        (fits_bind_behind hcross.1 hfits)

/-!
## Bound values
-/

/-- The value is kept in a variable: it denotes `v` wherever the variable is
bound to `d`. -/
def KeptIn (x : String) (d : Data) (value : Value) (v : Option Data) : Prop :=
  ∀ env : Environment, env.lookup x = some d → value.Denotes env v

theorem exec_bindTo {x : String} {env : Environment} {value : Value}
    {v : Option Data} (h : value.Denotes env v) :
    ∃ d, (value.bindTo x).1.exec env = some ((x, d) :: env) ∧
      KeptIn x d (value.bindTo x).2 v := by
  cases value with
  | place e =>
      rcases h with ⟨d, rfl, he⟩
      refine ⟨d, ?_, fun inner hinner => ⟨d, rfl, hinner⟩⟩
      rw [bindTo, Stmt.exec, Expr.eval, he]
      rfl
  | ref e =>
      rcases h with ⟨d, rfl, he⟩
      refine ⟨d, ?_, fun inner hinner => ⟨d, rfl, hinner⟩⟩
      rw [bindTo, Stmt.exec, he]
      rfl
  | maybe e =>
      change e.eval env = some (Data.optional v) at h
      refine ⟨Data.optional v, ?_, fun inner hinner => hinner⟩
      rw [bindTo, Stmt.exec, h]
      rfl

end Value

end AccessChecks
