import AccessChecks.Access
import AccessChecks.Proofs.RenumberedValues

/-!
# Renumbered bodies

## Loops

A walk issues one loop variable for each loop that binds its element.  The code at its
end is emitted once, for the value that the walk has led to.

## Checks

The keys, the attributes and the checks of a renumbered instance are the renumbered
keys, attributes and checks.

## Bodies

The body of a method is the same up to the numbers of its loop variables, however many
of them were issued before.
-/

namespace AccessChecks

open Value

namespace Emission

variable {σ : Nat → Nat}

def Renumbered (σ : Nat → Nat) (body body' : List Stmt) : Prop :=
  body' = Stmt.renumberAll σ body

/-- Two emissions for values emit renumbered code for renumbered values. -/
def RenumbersLeaf (σ : Nat → Nat)
    (leaf leaf' : Option Value → Emission (List Stmt)) : Prop :=
  ∀ value : Option Value, Renumbers σ (Renumbered σ) (leaf value)
    (leaf' (value.map (Value.renumber σ)))

theorem renumbers_walk {needsLeaf : Bool}
    {leaf leaf' : Option Value → Emission (List Stmt)}
    (h : RenumbersLeaf σ leaf leaf') (segments : List Segment) (value : Value) :
    Renumbers σ (Renumbered σ) (walk needsLeaf leaf segments value)
      (walk needsLeaf leaf' segments (value.renumber σ)) := by
  induction segments generalizing value with
  | nil => exact h (some value)
  | cons s rest ih =>
      rw [walk, walk]
      cases s.crossesCollection with
      | false =>
          rw [Bool.not_false, if_pos rfl, if_pos rfl]
          apply renumbers_bind (renumbers_step s value)
          rintro next _ rfl
          exact ih next
      | true =>
          rw [Bool.not_true, if_neg (by decide), if_neg (by decide)]
          apply renumbers_bind (renumbers_fanOut s value)
          rintro elements _ rfl
          by_cases hbinds : (needsLeaf ||
              rest.any Segment.crossesCollection) = true
          · rw [if_pos hbinds, if_pos hbinds]
            apply renumbers_bind renumbers_nextLoop
            rintro x _ rfl
            apply renumbers_map (ih (.ref (.name x)))
            rintro body _ rfl
            rfl
          · rw [if_neg hbinds, if_neg hbinds]
            apply renumbers_map (h none)
            rintro body _ rfl
            rfl

/-!
## Attributes
-/

theorem renumber_insertAttribute (name : String) (value : Expr) :
    (insertAttribute name value).renumber σ =
      insertAttribute name (value.renumber σ) := by
  simp (disch := decide) [insertAttribute, Name.renumber_of_isPlain]

theorem whenPresent_convert_renumber {build : Expr → Stmt}
    (hbuild : ∀ e : Expr, (build e).renumber σ = build (e.renumber σ))
    (type : FieldType) (leaf : Value) :
    ((leaf.renumber σ).whenPresent fun value =>
        (value.convert type).map fun e => [build e]) =
      (leaf.whenPresent fun value =>
        (value.convert type).map fun e => [build e]).map
          (Stmt.renumberAll σ) := by
  apply whenPresent_renumber
  intro value
  rw [convert_renumber, Option.map_map, Option.map_map]
  congr 1
  funext e
  simp [hbuild]

theorem getD_map_renumberAll (body : Option (List Stmt)) :
    (body.map (Stmt.renumberAll σ)).getD [] =
      Stmt.renumberAll σ (body.getD []) := by
  cases body <;> rfl

theorem renumbersLeaf_gather (type : FieldType) :
    RenumbersLeaf σ
      (fun leaf => pure ((leaf.bind fun leaf => leaf.whenPresent fun value =>
        (value.convert type).map fun e =>
          [.eval (.method (.name valuesVariable) .push [e])]).getD []))
      (fun leaf => pure ((leaf.bind fun leaf => leaf.whenPresent fun value =>
        (value.convert type).map fun e =>
          [.eval (.method (.name valuesVariable) .push [e])]).getD [])) := by
  intro leaf
  apply renumbers_pure
  cases leaf with
  | none => rfl
  | some leaf =>
      rw [Renumbered, Option.map_some, Option.bind_some, Option.bind_some,
        whenPresent_convert_renumber, getD_map_renumberAll]
      intro e
      simp (disch := decide) [Name.renumber_of_isPlain]

theorem renumbers_insertionOf (name : String) (path : AccessPath)
    (instance_ : Value) :
    Renumbers σ (Renumbered σ) (insertionOf name path instance_)
      (insertionOf name path (instance_.renumber σ)) := by
  rw [insertionOf, insertionOf]
  cases path.leafType with
  | none => exact renumbers_pure rfl
  | some type =>
      dsimp only
      by_cases hcross : (!path.crossesCollection) = true
      · rw [if_pos hcross, if_pos hcross]
        apply renumbers_map (renumbers_follow path.segments instance_)
        rintro leaf _ rfl
        rw [Renumbered, whenPresent_convert_renumber (fun e =>
          renumber_insertAttribute name e), getD_map_renumberAll]
      · rw [if_neg hcross, if_neg hcross]
        by_cases htype : (!type.isAttributeType) = true
        · rw [if_pos htype, if_pos htype]
          exact renumbers_pure rfl
        · rw [if_neg htype, if_neg htype]
          apply renumbers_map (renumbers_walk (renumbersLeaf_gather type)
            path.segments instance_)
          rintro collected _ rfl
          simp (disch := decide) [Renumbered, Stmt.renumberAll_append,
            renumber_insertAttribute, Name.renumber_of_isPlain]

theorem eq_map_of_forall₂_renumbered {parts parts' : List (List Stmt)}
    (h : List.Forall₂ (Renumbered σ) parts parts') :
    parts' = parts.map (Stmt.renumberAll σ) := by
  induction h with
  | nil => rfl
  | cons hpart _ ih => rw [hpart, ih, List.map_cons]

theorem renumbers_bindAttributes (paths : Entries AccessPath)
    (instance_ : Option Value) :
    Renumbers σ (Renumbered σ) (bindAttributes paths instance_)
      (bindAttributes paths (instance_.map (Value.renumber σ))) := by
  have hbound : ∀ parts parts', List.Forall₂ (Renumbered σ) parts parts' →
      Renumbers σ (Renumbered σ)
        (pure (.bind (!parts.flatten.isEmpty) attributesVariable none
          (.call .newAttributes []) :: parts.flatten))
        (pure (.bind (!parts'.flatten.isEmpty) attributesVariable none
          (.call .newAttributes []) :: parts'.flatten)) := by
    intro parts parts' hparts
    apply renumbers_pure
    rw [eq_map_of_forall₂_renumbered hparts, ← Stmt.renumberAll_flatten,
      Stmt.isEmpty_renumberAll]
    simp (disch := decide) [Renumbered, Name.renumber_of_isPlain]
  cases instance_ with
  | none => exact renumbers_bind (renumbers_pure List.Forall₂.nil) hbound
  | some value =>
      refine renumbers_bind (renumbers_mapM ?_) hbound
      intro entry _
      exact renumbers_insertionOf entry.1 entry.2 value

/-!
## Checks
-/

theorem renumbers_bindKey {x : String} (hx : Name.isPlain x = true)
    {default_ : Expr} (hdefault : default_.renumber σ = default_)
    (path : Option AccessPath) (instance_ : Option Value) :
    Renumbers σ (Renumbered σ) (bindKey x default_ path instance_)
      (bindKey x default_ path (instance_.map (Value.renumber σ))) := by
  have hbind : ∀ isMutable : Bool,
      (Stmt.bind isMutable x none default_).renumber σ =
        .bind isMutable x none default_ := by
    intro isMutable
    rw [Stmt.renumber, hdefault, Name.renumber_of_isPlain σ hx]
  cases path with
  | none => exact renumbers_pure (by simp only [Renumbered, Stmt.renumberAll, hbind])
  | some path =>
      cases instance_ with
      | none =>
          exact renumbers_pure (by simp only [Renumbered, Stmt.renumberAll, hbind])
      | some value =>
          apply renumbers_map (renumbers_follow path.segments value)
          rintro leaf _ rfl
          rw [Renumbered, Stmt.renumberAll, hbind]
          congr 1
          split
          · rename_i kind _
            rw [assignUnlessZero_renumber σ kind hx]
            rfl
          · rfl
          · rfl
          · rfl

theorem renumber_pushCheck (resource : Resource) :
    (pushCheck resource).renumber σ = pushCheck resource := by
  simp (disch := decide) [pushCheck, Name.renumber_of_isPlain]

theorem renumbers_checkOf (resource : Resource) (instance_ : Option Value)
    {id id' : List Stmt} (hid : Renumbered σ id id') :
    Renumbers σ (Renumbered σ) (checkOf resource instance_ id)
      (checkOf resource (instance_.map (Value.renumber σ)) id') := by
  rw [checkOf, checkOf]
  apply renumbers_bind (renumbers_bindKey (by decide) rfl _ instance_)
  rintro tenant _ rfl
  apply renumbers_map (renumbers_bindAttributes _ instance_)
  rintro attributes _ rfl
  rw [Renumbered, hid, Stmt.renumberAll_append, Stmt.renumberAll_append,
    Stmt.renumberAll_append, Stmt.renumberAll, Stmt.renumberAll,
    renumber_pushCheck]

theorem renumbered_bindId {e e' : Expr} (he : e' = e.renumber σ) :
    Renumbered σ [.bind false idVariable none e]
      [.bind false idVariable none e'] := by
  rw [Renumbered, Stmt.renumberAll, Stmt.renumberAll, Stmt.renumber, he,
    Name.renumber_of_isPlain σ (by decide)]

theorem renumbers_checksOf (resource : Resource) (instance_ : Option Value) :
    Renumbers σ (Renumbered σ) (checksOf resource instance_)
      (checksOf resource (instance_.map (Value.renumber σ))) := by
  unfold checksOf
  cases resource.usableIdPath with
  | none => exact renumbers_checkOf resource instance_ (renumbered_bindId rfl)
  | some path =>
      cases instance_ with
      | none => exact renumbers_checkOf resource none (renumbered_bindId rfl)
      | some value =>
          dsimp only [Option.map_some]
          by_cases hcross : path.crossesCollection = true
          · rw [if_pos hcross, if_pos hcross]
            apply renumbers_walk
            intro id
            apply renumbers_checkOf resource (some value)
            apply renumbered_bindId
            cases id with
            | none => rfl
            | some id => exact asText_renumber σ id
          · rw [if_neg hcross, if_neg hcross]
            apply renumbers_bind
              (renumbers_bindKey (by decide) rfl (some path) (some value))
            intro id id' hid
            exact renumbers_checkOf resource (some value) hid

theorem renumbersLeaf_instanceChecks (resource : Resource) :
    RenumbersLeaf σ (instanceChecks resource) (instanceChecks resource) := by
  intro value
  cases value with
  | none => exact renumbers_checksOf resource none
  | some value =>
      rw [Option.map_some, instanceChecks, instanceChecks]
      by_cases hneeds : resource.needsInstance = true
      · rw [if_pos hneeds, if_pos hneeds, bindTo_renumber σ (by decide)]
        apply renumbers_map
          (renumbers_checksOf resource (some (value.bindTo resourceRoot).2))
        rintro checks _ rfl
        rfl
      · rw [if_neg hneeds, if_neg hneeds]
        exact renumbers_checksOf resource none

/-!
## Bodies
-/

theorem renumber_statedMode (resource : Resource) (mode : Option BulkMode) :
    (statedMode resource mode).renumber σ = statedMode resource mode := by
  rw [statedMode]
  split <;> rfl

theorem renumbers_gatedBody (resource : Resource) (permission : String)
    (mode : Option BulkMode) :
    Renumbers σ (fun b c => c = b.renumber σ)
      (gatedBody resource permission mode)
      (gatedBody resource permission mode) := by
  have hrequest : (Value.ref (.name requestRoot)).renumber σ =
      .ref (.name requestRoot) := by
    rw [Value.renumber, Expr.renumber, Name.renumber_of_isPlain σ (by decide)]
  have hwalk := @renumbers_walk σ resource.needsInstance _ _
    (renumbersLeaf_instanceChecks (σ := σ) resource) resource.path.segments
    (.ref (.name requestRoot))
  rw [hrequest] at hwalk
  apply renumbers_map hwalk
  rintro instances _ rfl
  simp (disch := decide) [Body.renumber, Stmt.renumberAll_append, renumber_statedMode,
    Name.renumber_of_isPlain]

end Emission

namespace ResolvedMethod

open Emission

theorem renumbers_body (σ : Nat → Nat) (m : ResolvedMethod) :
    Renumbers σ (fun b c => c = b.renumber σ) m.body m.body := by
  rw [body]
  split
  · exact renumbers_pure rfl
  · exact renumbers_pure rfl
  · exact renumbers_gatedBody _ _ _

theorem exists_body_sameUpToNumbers {m : ResolvedMethod} {issued : Nat}
    {b : Body} (emitted : (m.body.run.run issued).1 = .ok b) (issued' : Nat) :
    ∃ c, (m.body.run.run issued').1 = .ok c ∧ b.SameUpToNumbers c := by
  -- the two runs stay in step whichever of them is renumbered
  have hforth := renumbers_body _ m issued issued' (moves_shift issued issued')
  have hback := renumbers_body _ m issued' issued (moves_shift issued' issued)
  generalize m.body.run.run issued = ran at emitted hforth hback
  generalize m.body.run.run issued' = ran' at hforth hback ⊢
  cases hforth with
  | failed e later later' => cases emitted
  | emitted hbody _ =>
      cases emitted
      cases hback with
      | emitted hbody' _ => exact ⟨_, rfl, ⟨_, hbody.symm⟩, _, hbody'.symm⟩

end ResolvedMethod

end AccessChecks
