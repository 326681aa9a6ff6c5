import AccessChecks.Proofs.CheckSites

/-!
# Order and number of checks

## Instances

A path is cut at its first collection.  The segments before it lead to the value
whose elements are gone over, and from each element the rest of the path goes on.
Without a collection there is one result, present or not.

## Checks

The checks of a request are those of its instances, one instance after the other.
An instance has one check, unless its ids are behind a collection: then there is one
check for each of them.
-/

namespace AccessChecks

namespace Reading

mutual

/-- What segments reach from a value, in order. -/
inductive Reaches : List Segment → Option Data → List (Option Data) → Prop where
  | single {segments : List Segment} {v : Option Data} :
      segments.any Segment.crossesCollection = false →
      Reaches segments v [valueAt segments v]
  | absent {front rest : List Segment} {s : Segment} {v : Option Data} :
      front.any Segment.crossesCollection = false →
      s.crossesCollection = true → valueAt front v = none →
      Reaches (front ++ s :: rest) v []
  | elements {front rest : List Segment} {s : Segment} {v : Option Data}
      {d : Data} {results : List (Option Data)} :
      front.any Segment.crossesCollection = false →
      s.crossesCollection = true → valueAt front v = some d →
      ReachesFrom rest (d.elements s) results →
      Reaches (front ++ s :: rest) v results

inductive ReachesFrom : List Segment → List Data → List (Option Data) →
    Prop where
  | nil {segments : List Segment} : ReachesFrom segments [] []
  | cons {segments : List Segment} {d : Data} {others : List Data}
      {results more : List (Option Data)} :
      Reaches segments (some d) results →
      ReachesFrom segments others more →
      ReachesFrom segments (d :: others) (results ++ more)

end

theorem reachesFrom_flatMap {segments : List Segment}
    {f : Data → List (Option Data)}
    (h : ∀ d, Reaches segments (some d) (f d)) (items : List Data) :
    ReachesFrom segments items (items.flatMap f) := by
  induction items with
  | nil => exact ReachesFrom.nil
  | cons d others ih =>
      rw [List.flatMap_cons]
      exact ReachesFrom.cons (h d) ih

theorem reaches_reached_append (front segments : List Segment)
    (hfront : front.any Segment.crossesCollection = false) (v : Option Data) :
    Reaches (front ++ segments) v (reached (front ++ segments) v) := by
  -- over what is left behind the segments before the cut
  induction segments generalizing front v with
  | nil =>
      rw [List.append_nil, reached_eq_singleton hfront]
      exact Reaches.single hfront
  | cons s rest ih =>
      cases hs : s.crossesCollection with
      | false =>
          have hlonger : (front ++ [s]).any Segment.crossesCollection = false := by
            rw [List.any_append, hfront]
            simp [hs]
          rw [List.append_cons]
          exact ih _ hlonger v
      | true =>
          rw [reached_cut hfront hs]
          cases hv : valueAt front v with
          | none => exact Reaches.absent hfront hs hv
          | some d =>
              apply Reaches.elements hfront hs hv
              apply reachesFrom_flatMap
              intro e
              exact ih [] rfl (some e)

theorem reaches_reached (segments : List Segment) (v : Option Data) :
    Reaches segments v (reached segments v) :=
  reaches_reached_append [] segments rfl v

end Reading

open Reading

namespace Resource

/-- The checks of one instance. -/
inductive ChecksFrom (r : Resource) (permission : String) (v : Option Data) :
    List Check → Prop where
  | one :
      (∀ p, r.usableIdPath = some p → p.crossesCollection = false) →
      ChecksFrom r permission v
        [r.checkAt permission v (keyAt r.usableIdPath "" v)]
  | each {p : AccessPath} {ids : List (Option Data)} :
      r.usableIdPath = some p → p.crossesCollection = true →
      Reaches p.segments v ids →
      ChecksFrom r permission v
        (ids.map fun id =>
          r.checkAt permission v ((id.bind Data.text?).getD ""))

theorem checksFrom_checksAt (r : Resource) (permission : String)
    (v : Option Data) :
    r.ChecksFrom permission v (r.checksAt permission v) := by
  cases hp : r.usableIdPath with
  | none =>
      have hids : r.idsAt v = [keyAt r.usableIdPath "" v] := by
        rw [idsAt, fansOut, hp]
        rfl
      rw [checksAt, hids]
      apply ChecksFrom.one
      intro p hsome
      rw [hp] at hsome
      cases hsome
  | some p =>
      cases hcross : p.crossesCollection with
      | false =>
          have hids : r.idsAt v = [keyAt r.usableIdPath "" v] := by
            rw [idsAt, fansOut, hp, Option.any_some, hcross]
            rfl
          rw [checksAt, hids]
          apply ChecksFrom.one
          intro q hq
          rw [hp] at hq
          rw [← Option.some.inj hq]
          exact hcross
      | true =>
          have hids : r.idsAt v = (reached p.segments v).map fun id =>
              (id.bind Data.text?).getD "" := by
            rw [idsAt, fansOut, hp, Option.any_some, hcross, if_pos rfl,
              idLeaves, hp]
          rw [checksAt, hids, List.map_map]
          exact ChecksFrom.each hp hcross (reaches_reached p.segments v)

end Resource

/-- A gated body pushes the checks of the instances that the resource path reaches,
one instance after the other. -/
theorem gatedBody_pushes_checks_in_order {s : Schema} {target : MessageRef}
    {r : Resource} (found : (discover s target).1 = some r)
    (permission : String) (mode : Option BulkMode) :
    Emission.Yields r.IllegalOn (Emission.gatedBody r permission mode)
      fun body => ∀ d, s.Holds (.message target) d →
        ∃ config instances groups, body.run d = some config ∧
          Reaches r.path.segments (some d) instances ∧
          List.Forall₂ (r.ChecksFrom permission) instances groups ∧
          config.checks = groups.flatten := by
  apply Emission.yields_mono
    (yields_gatedBody_of_discover found permission mode)
  intro body hrun d hd
  refine ⟨_, r.instancesIn d, (r.instancesIn d).map (r.checksAt permission),
    hrun d hd, reaches_reached _ _, ?_, rfl⟩
  rw [List.forall₂_map_right_iff]
  exact List.forall₂_same.mpr fun v _ => r.checksFrom_checksAt permission v

theorem gatedBody_docSchema_pushes :
    (discover Sample.docSchema ⟨"Get"⟩).1 = some Sample.docResource ∧
    ∃ body config instances groups,
      ((Emission.gatedBody Sample.docResource "view" none).run.run 0).1 =
        .ok body ∧
      body.run Sample.request = some config ∧
      Reaches Sample.docResource.path.segments (some Sample.request)
        instances ∧
      List.Forall₂ (Sample.docResource.ChecksFrom "view") instances groups ∧
      config.checks = groups.flatten := by
  refine ⟨Sample.discover_docSchema, ?_⟩
  rcases Emission.exists_result_of_yields
    (gatedBody_pushes_checks_in_order Sample.discover_docSchema "view" none)
    Sample.not_illegalOn_docResource 0 with ⟨body, hbody, hchecks⟩
  rcases hchecks Sample.request Sample.holds_request with
    ⟨config, instances, groups, hrun⟩
  exact ⟨body, config, instances, groups, hbody, hrun⟩

end AccessChecks
