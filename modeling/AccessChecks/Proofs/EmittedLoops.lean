import AccessChecks.Proofs.EmittedValues

/-!
# Emitted loops

## What a walk appends

Walking a path emits one loop for each collection on it.  The loops gather in a
list: for everything that the path reaches, in this order, what the code at its
end appends there.

## Counting loops

If the value at the end is not needed, the innermost loop only counts.  It still
has one round for each element, and so appends as much as a loop that binds it.
-/

namespace AccessChecks

open Reading Stmt Value

namespace Emission

/-- What holds of the variables outside of a walk, in a context `c`, is not
changed by loop variables or by what is gathered in `acc`. -/
structure Stable {C : Type} (acc : String)
    (scope : C → Environment → Prop) : Prop where
  push : ∀ c number d env, scope c env →
    scope c ((Name.ofLoop number, d) :: env)
  update : ∀ c items env, scope c env →
    scope c (env.update acc (.list items))

/-- For everything that the segments reach from what a value denotes, the code
appends `new` to `acc`. -/
def Gathers {C : Type} (acc : String) (bound : List String)
    (scope : C → Environment → Prop) (P : C → Data → Prop)
    (new : C → Option Data → List Data) (segments : List Segment)
    (value : Value) (body : List Stmt) : Prop :=
  ∀ c env v, scope c env → value.Denotes env v →
    (∀ d ∈ v, Fits (P c) segments d) →
    Appends acc bound ((reached segments v).flatMap (new c)) env body

section

variable {C : Type} {fails : IllegalName → Prop} {acc : String}
  {bound : List String} {scope : C → Environment → Prop}
  {P : C → Data → Prop} {new : C → Option Data → List Data}

theorem reached_cons_of_not_crosses {s : Segment} {rest : List Segment}
    (hs : s.crossesCollection = false) (v : Option Data) :
    reached (s :: rest) v = reached rest (v.bind (Data.behind s)) := by
  rw [reached]
  simp [hs]

theorem flatMap_reached_cons {s : Segment} {rest : List Segment}
    (hs : s.crossesCollection = true) (v : Option Data)
    (f : Option Data → List Data) :
    (reached (s :: rest) v).flatMap f =
      (v.toList.flatMap (Data.elements s)).flatMap fun d =>
        (reached rest (some d)).flatMap f := by
  rw [reached, if_pos hs, List.flatMap_assoc]

theorem fits_of_mem_elements {s : Segment} {rest : List Segment}
    {Q : Data → Prop} {v : Option Data} {d : Data}
    (hs : s.crossesCollection = true)
    (hfits : ∀ e ∈ v, Fits Q (s :: rest) e)
    (hd : d ∈ v.toList.flatMap (Data.elements s)) : Fits Q rest d := by
  rcases List.mem_flatMap.mp hd with ⟨base, hbase, helement⟩
  exact fits_elements hs (hfits base (Option.mem_toList.mp hbase)) helement

theorem gathers_loop {s : Segment} {rest : List Segment} {value : Value}
    {x : String} {number : Nat} {body : List Stmt}
    (hacc : acc.toList[1]?.any Char.isDigit = false)
    (hstable : Stable acc scope)
    (hs : s.crossesCollection = true) (hx : Name.ofField s.name = .ok x)
    (hbody : Gathers acc bound scope P new rest
      (.ref (.name (Name.ofLoop number))) body) :
    Gathers acc [] scope P new (s :: rest) value
      [.loop (some (Name.ofLoop number)) (value.elementsOf x s.hop) body] := by
  intro c env v hscope hvalue hfits
  rw [flatMap_reached_cons hs]
  apply appends_loop (eval_elementsOf hvalue hx hs hfits)
  · intro y hy
    rw [← Option.some.inj hy]
    exact Ne.symm (Name.ofLoop_ne number hacc)
  · intro d hd before
    have hinner := hstable.push c number d _ (hstable.update c before env hscope)
    apply hbody c _ (some d) hinner
    · exact ⟨d, rfl, Environment.lookup_cons_self _ d _⟩
    · intro e he
      rw [← Option.some.inj he]
      exact fits_of_mem_elements hs hfits hd

/-- A counting loop gathers as if it bound its elements, if its body gathers the
same whatever they are. -/
theorem gathers_counting_loop {s : Segment} {rest : List Segment}
    {value : Value} {x : String} {body : List Stmt}
    (hstable : Stable acc scope)
    (hs : s.crossesCollection = true)
    (hrest : rest.any Segment.crossesCollection = false)
    (hx : Name.ofField s.name = .ok x)
    (hbody : ∀ c env v, scope c env → Appends acc bound (new c v) env body) :
    Gathers acc [] scope P new (s :: rest) value
      [.loop none (value.elementsOf x s.hop) body] := by
  intro c env v hscope hvalue hfits
  rw [flatMap_reached_cons hs]
  apply appends_loop (eval_elementsOf hvalue hx hs hfits)
  · intro y hy
    cases hy
  · intro d hd before
    rw [reached_eq_singleton hrest, List.flatMap_singleton]
    exact hbody c _ _ (hstable.update c before env hscope)

theorem yields_walk {needsLeaf : Bool}
    {leaf : Option Value → Emission (List Stmt)}
    (hacc : acc.toList[1]?.any Char.isDigit = false)
    (hstable : Stable acc scope)
    (hsome : ∀ value, Yields fails (leaf (some value)) fun body =>
      Gathers acc bound scope P new [] value body)
    (hnone : needsLeaf = false → Yields fails (leaf none) fun body =>
      ∀ c env v, scope c env → Appends acc bound (new c v) env body)
    {segments : List Segment} (hfails : ∀ e, Illegal segments e → fails e)
    (value : Value) :
    Yields fails (walk needsLeaf leaf segments value) fun body =>
      Gathers acc bound scope P new segments value body := by
  induction segments generalizing value with
  | nil => exact hsome value
  | cons s rest ih =>
      have hhead : ∀ e, Illegal [s] e → fails e := fun e he =>
        hfails e (illegal_of_mem List.mem_cons_self he)
      have hrest : ∀ e, Illegal rest e → fails e := fun e he =>
        hfails e (illegal_cons he)
      rw [walk]
      cases hs : s.crossesCollection with
      | false =>
          rw [Bool.not_false, if_pos rfl]
          apply yields_bind
          apply yields_mono (yields_step hs hhead)
          intro next hnext
          apply yields_mono (ih hrest next)
          intro body hbody c env v hscope hvalue hfits
          rw [reached_cons_of_not_crosses hs]
          exact hbody c env _ hscope (hnext env v _ rest hvalue hfits)
            (fits_bind_behind hs hfits)
      | true =>
          rw [Bool.not_true, if_neg (by decide)]
          apply yields_bind
          apply yields_map
          apply yields_mono (yields_fieldName hhead)
          intro x hx
          have hmono : ∀ {body : List Stmt},
              Gathers acc [] scope P new (s :: rest) value body →
              Gathers acc bound scope P new (s :: rest) value body := by
            intro body hbody c env v hscope hvalue hfits
            exact (hbody c env v hscope hvalue hfits).mono (by simp)
          by_cases hbinds : (needsLeaf ||
              rest.any Segment.crossesCollection) = true
          · rw [if_pos hbinds]
            apply yields_bind
            apply yields_mono yields_nextLoop
            rintro _ ⟨number, rfl⟩
            apply yields_map
            apply yields_mono (ih hrest _)
            intro body hbody
            exact hmono (gathers_loop hacc hstable hs hx hbody)
          · rw [if_neg hbinds]
            rw [Bool.not_eq_true, Bool.or_eq_false_iff] at hbinds
            apply yields_map
            apply yields_mono (hnone hbinds.1)
            intro body hbody
            exact hmono
              (gathers_counting_loop hstable hs hbinds.2 hx hbody)

end

end Emission

end AccessChecks
