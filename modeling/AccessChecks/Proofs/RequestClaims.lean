import Mathlib.Data.List.Nodup
import AccessChecks.Proofs.Emitting
import AccessChecks.Proofs.PlanFaults

/-!
# Claims of request types

## Requests of a package

The requests of methods that belong to a package are listed once each, in the order in
which they are used first.

## Conflicts in order

A method reports a conflict if its access key is not that of the first method for its
request.  The conflicts of a list of methods are those of its methods, one after the
other.

## Plans

The claims of a plan follow the requests of its package, and of its faults just the
conflicts come from claiming.

## Implementations

Each claim has one implementation, with the body of the method that makes the claim.
-/

namespace AccessChecks

namespace Schema

def isIn (s : Schema) (package : String) (target : MessageRef) : Bool :=
  (s.message? target).any fun m => m.package == package

theorem isIn_iff {s : Schema} {package : String} {target : MessageRef} :
    s.isIn package target = true ↔ s.HasIn package target := by
  simp [isIn, HasIn, Option.any_eq_true]

instance (s : Schema) (package : String) (target : MessageRef) :
    Decidable (s.HasIn package target) :=
  decidable_of_iff _ isIn_iff

end Schema

namespace Diagnostic

def isConflict : Diagnostic → Bool
  | conflictingRequestType _ _ _ => true
  | _ => false

end Diagnostic

theorem Method.Fault.not_isConflict {s : Schema} {service : String} {m : Method}
    {d : Diagnostic} (h : m.Fault s service d) : d.isConflict = false := by
  cases h with
  | conflicting => rfl
  | unnamed => rfl
  | unguarded => rfl
  | resource _ _ hfault =>
      cases hfault with
      | @key key _ _ _ => cases key <;> rfl
      | visit hvisit =>
          rcases hvisit with ⟨before, a, after, _, hfault⟩
          cases hfault <;> rfl

namespace ResolvedMethod

variable (s : Schema) (package : String)

/-- The requests of methods that belong to a package, each where it is used first. -/
def requestsIn (methods : List ResolvedMethod) : List MessageRef :=
  ((methods.map request).filter (s.isIn package)).eraseDups

def conflictOf (before : List ResolvedMethod) (m : ResolvedMethod) :
    List Diagnostic :=
  match firstFor? before m.request with
  | none => []
  | some first =>
      if s.HasIn package m.request ∧ first.accessKey ≠ m.accessKey then
        [.conflictingRequestType m.request.name first.label m.label]
      else []

def conflictsAfter (before : List ResolvedMethod) :
    List ResolvedMethod → List Diagnostic
  | [] => []
  | m :: rest =>
      conflictOf s package before m ++ conflictsAfter (before ++ [m]) rest

variable {s package} {methods : List ResolvedMethod} {m : ResolvedMethod}

theorem mem_requestsIn {target : MessageRef} :
    target ∈ requestsIn s package methods ↔
      (∃ m ∈ methods, m.request = target) ∧ s.HasIn package target := by
  rw [requestsIn, List.mem_eraseDups, List.mem_filter, List.mem_map,
    Schema.isIn_iff]

theorem firstFor?_eq_none_iff {target : MessageRef} :
    firstFor? methods target = none ↔ ∀ m ∈ methods, m.request ≠ target := by
  simp [firstFor?, List.find?_eq_none]

theorem requestsIn_concat (methods : List ResolvedMethod) (m : ResolvedMethod) :
    requestsIn s package (methods ++ [m]) =
      requestsIn s package methods ++
        if s.HasIn package m.request ∧ firstFor? methods m.request = none then
          [m.request]
        else [] := by
  rw [requestsIn, List.map_append, List.filter_append, List.eraseDups_append,
    ← requestsIn, List.map_singleton]
  congr 1
  by_cases hin : s.HasIn package m.request
  · rw [List.filter_cons_of_pos (Schema.isIn_iff.mpr hin), List.filter_nil,
      List.removeAll]
    cases hfirst : firstFor? methods m.request with
    | none =>
        rw [if_pos ⟨hin, rfl⟩, List.filter_cons_of_pos]
        · rfl
        · simpa [Schema.isIn_iff, hin] using firstFor?_eq_none_iff.mp hfirst
    | some first =>
        rw [if_neg (by simp), List.filter_cons_of_neg]
        · rfl
        · simpa [Schema.isIn_iff, hin] using ⟨first, mem_of_firstFor? hfirst⟩
  · rw [if_neg fun h => hin h.1,
      List.filter_cons_of_neg fun h => hin (Schema.isIn_iff.mp h)]
    rfl

theorem nodup_requestsIn (methods : List ResolvedMethod) :
    (requestsIn s package methods).Nodup := by
  induction methods using List.reverseRecOn with
  | nil => exact List.nodup_nil
  | append_singleton front m ih =>
      rw [requestsIn_concat]
      split
      · rename_i hnew
        refine List.nodup_append.mpr ⟨ih, by simp, ?_⟩
        intro target htarget last hlast hsame
        rcases (mem_requestsIn.mp htarget).1 with ⟨n, hn, hrequest⟩
        rw [hsame, List.mem_singleton.mp hlast] at hrequest
        exact firstFor?_eq_none_iff.mp hnew.2 n hn hrequest
      · rw [List.append_nil]
        exact ih

theorem conflictOf_of_not_hasIn {before : List ResolvedMethod}
    (h : ¬ s.HasIn package m.request) : conflictOf s package before m = [] := by
  rw [conflictOf]
  split
  · rfl
  · exact if_neg fun hin => h hin.1

theorem conflictsAfter_concat (before : List ResolvedMethod) :
    conflictsAfter s package before (methods ++ [m]) =
      conflictsAfter s package before methods ++
        conflictOf s package (before ++ methods) m := by
  induction methods generalizing before with
  | nil => simp [conflictsAfter]
  | cons n rest ih =>
      rw [List.cons_append, conflictsAfter, ih, conflictsAfter,
        List.append_assoc, List.append_assoc, List.singleton_append]

end ResolvedMethod

/-!
## Plans
-/

namespace Plan

open ResolvedMethod

variable {s : Schema} {package : String} {methods : List ResolvedMethod}
  {reports : List Diagnostic} {p : Plan}

/-- A plan after some methods: it has one claim for each request of the package, and
the conflicts among its faults are those of the methods. -/
structure Claimed (s : Schema) (package : String)
    (methods : List ResolvedMethod) (p : Plan) : Prop where
  requests : p.claims.map (fun c => c.method.request) =
    requestsIn s package methods
  known : ∀ c ∈ p.claims, s.message? c.method.request = some c.request
  conflicts : p.faults.filter Diagnostic.isConflict =
    conflictsAfter s package [] methods

theorem claimed_nil (s : Schema) (package : String) : Claimed s package [] {} :=
  { requests := rfl
    known := fun c hc => by cases hc
    conflicts := rfl }

theorem Claimed.requests_concat_of_first (h : Claimed s package methods p)
    {m first : ResolvedMethod} (hfirst : firstFor? methods m.request = some first) :
    p.claims.map (fun c => c.method.request) =
      requestsIn s package (methods ++ [m]) := by
  rw [requestsIn_concat, if_neg, List.append_nil, h.requests]
  rintro ⟨_, hnone⟩
  rw [hfirst] at hnone
  cases hnone

theorem Claimed.claimFor (h : Claimed s package methods p)
    (hafter : After s package methods reports p) (m : ResolvedMethod) :
    Claimed s package (methods ++ [m]) (p.claimFor s package m) := by
  have hconflicts : conflictsAfter s package [] (methods ++ [m]) =
      conflictsAfter s package [] methods ++ conflictOf s package ([] ++ methods) m :=
    conflictsAfter_concat []
  rw [List.nil_append, ← h.conflicts] at hconflicts
  rcases hafter.claimFor_cases m with
    ⟨hnot, hstep⟩ | ⟨request, hknown, hin, hnew, hstep⟩ |
      ⟨first, hin, hfirst, ⟨hkeys, hstep⟩ | ⟨hkeys, hstep⟩⟩
  · rw [hstep]
    exact
      { requests := by
          rw [requestsIn_concat, if_neg fun hin => hnot hin.1, List.append_nil,
            h.requests]
        known := h.known
        conflicts := by
          rw [hconflicts, conflictOf_of_not_hasIn hnot, List.append_nil] }
  · rw [hstep]
    exact
      { requests := by
          rw [requestsIn_concat, if_pos ⟨hin, hnew⟩, List.map_append,
            h.requests, List.map_singleton]
        known := by
          intro c hc
          rcases List.mem_append.mp hc with hold | hlast
          · exact h.known c hold
          · rw [List.mem_singleton.mp hlast]
            exact hknown
        conflicts := by
          rw [hconflicts, conflictOf, hnew, List.append_nil] }
  · rw [hstep]
    exact
      { requests := h.requests_concat_of_first hfirst
        known := h.known
        conflicts := by
          rw [hconflicts, conflictOf, hfirst]
          simp [hkeys] }
  · rw [hstep]
    exact
      { requests := h.requests_concat_of_first hfirst
        known := h.known
        conflicts := by
          rw [List.filter_append, hconflicts, conflictOf, hfirst]
          simp [hkeys, hin, Diagnostic.isConflict] }

theorem Claimed.claimAll (h : Claimed s package methods p)
    (hafter : After s package methods reports p) (more : List ResolvedMethod) :
    Claimed s package (methods ++ more)
      (more.foldl (Plan.claimFor s package) p) := by
  induction more generalizing methods p with
  | nil =>
      rw [List.append_nil]
      exact h
  | cons m rest ih =>
      rw [List.append_cons]
      exact ih (h.claimFor hafter m) (hafter.claimFor m)

theorem Claimed.report (h : Claimed s package methods p)
    {more : List Diagnostic} (hmore : ∀ d ∈ more, d.isConflict = false) :
    Claimed s package methods { p with faults := p.faults ++ more } :=
  { requests := h.requests
    known := h.known
    conflicts := by
      have hnone : more.filter Diagnostic.isConflict = [] :=
        List.filter_eq_nil_iff.mpr fun d hd => by simp [hmore d hd]
      rw [List.filter_append, hnone, List.append_nil, h.conflicts] }

theorem Claimed.addServices (h : Claimed s package methods p)
    (hafter : After s package methods reports p) (services : List Service) :
    Claimed s package
      (methods ++ services.flatMap fun v => (v.resolve s).1)
      (services.foldl (Plan.addService s package) p) := by
  induction services generalizing methods reports p with
  | nil => simpa using h
  | cons service rest ih =>
      rw [List.flatMap_cons, ← List.append_assoc]
      refine ih (Claimed.claimAll (h.report ?_) (hafter.report _) _)
        (hafter.addService service)
      intro d hd
      rcases List.mem_flatMap.mp hd with ⟨resolved, hresolved, hreport⟩
      rcases List.mem_map.mp hresolved with ⟨m, _, rfl⟩
      exact ((m.mem_resolve_iff_fault s service.name d).mp hreport).not_isConflict

end Plan

/-!
## Files
-/

namespace SchemaFile

open ResolvedMethod

def ownRequests (s : Schema) (f : SchemaFile) : List MessageRef :=
  ((f.methods.map fun entry => entry.2.input).filter
    (s.isIn f.package)).eraseDups

theorem ownRequests_eq (s : Schema) (f : SchemaFile) :
    f.ownRequests s = requestsIn s f.package (f.resolvedMethods s) := by
  rw [requestsIn, resolvedMethods, List.map_map]
  rfl

def conflicts (s : Schema) (f : SchemaFile) : List Diagnostic :=
  conflictsAfter s f.package [] (f.resolvedMethods s)

theorem flatMap_resolve_eq (s : Schema) (f : SchemaFile) :
    (f.services.flatMap fun v => (v.resolve s).1) = f.resolvedMethods s := by
  simp [resolvedMethods, methods, Service.resolve, List.map_flatMap,
    Function.comp_def]

theorem after_plan (s : Schema) (f : SchemaFile) :
    ∃ reports, Plan.After s f.package (f.resolvedMethods s) reports
      (f.plan s) := by
  have hafter := (Plan.after_nil s f.package).addServices f.services
  rw [List.nil_append, flatMap_resolve_eq] at hafter
  exact ⟨_, hafter⟩

theorem claimed_plan (s : Schema) (f : SchemaFile) :
    Plan.Claimed s f.package (f.resolvedMethods s) (f.plan s) := by
  have hclaimed := (Plan.claimed_nil s f.package).addServices
    (Plan.after_nil s f.package) f.services
  rwa [List.nil_append, flatMap_resolve_eq] at hclaimed

theorem firstFor?_of_mem_claims {s : Schema} {f : SchemaFile} {c : Claim}
    (h : c ∈ (f.plan s).claims) :
    firstFor? (f.resolvedMethods s) c.method.request = some c.method := by
  rcases f.after_plan s with ⟨reports, hafter⟩
  have hclaimed := f.claimed_plan s
  have hmem : c.method.request ∈ requestsIn s f.package (f.resolvedMethods s) := by
    rw [← hclaimed.requests]
    exact List.mem_map.mpr ⟨c, h, rfl⟩
  rw [← hafter.claims _ (mem_requestsIn.mp hmem).2]
  -- no other claim has the request
  have hdistinct : (requestsIn s f.package (f.resolvedMethods s)).Nodup :=
    nodup_requestsIn _
  rw [← hclaimed.requests] at hdistinct
  cases hfound : (f.plan s).claims.find? fun d =>
      d.method.request == c.method.request with
  | none =>
      have hnone := List.find?_eq_none.mp hfound c h
      simp at hnone
  | some d =>
      have hsame : d.method.request = c.method.request := by
        simpa using List.find?_some hfound
      rw [List.inj_on_of_nodup_map hdistinct (List.mem_of_find?_eq_some hfound) h
        hsame]
      rfl

end SchemaFile

/-!
## Implementations of claims
-/

namespace Claim

/-- The item is the implementation of the claim, with its loop variables numbered from
some number on. -/
def Emits (c : Claim) (item : Implementation) : Prop :=
  Name.ofMessage c.request = .ok item.type ∧
    ∃ issued, (c.method.body.run.run issued).1 = .ok item.body

theorem yields_implementation (c : Claim) :
    Emission.Yields (fun _ => True) c.implementation c.Emits := by
  have hbody : Emission.Yields (fun _ => True) c.method.body fun b =>
      ∃ issued, (c.method.body.run.run issued).1 = .ok b := by
    intro issued
    cases hresult : (c.method.body.run.run issued).1 with
    | error e => trivial
    | ok b => exact ⟨issued, hresult⟩
  apply Emission.yields_bind
  apply Emission.yields_mono hbody
  intro b hb
  rw [Emission.implementation]
  cases htype : Name.ofMessage c.request with
  | error e => exact Emission.yields_throw trivial
  | ok type => exact Emission.yields_pure ⟨htype, hb⟩

theorem forall₂_emits {claims : List Claim} {items : List Implementation}
    {P : Claim → Prop} (emitted : implementations claims = .ok items)
    (h : ∀ c ∈ claims, P c) :
    List.Forall₂ (fun c item => P c ∧ c.Emits item) claims items := by
  have hyields : Emission.Yields (fun _ => True)
      (claims.mapM Claim.implementation)
      (List.Forall₂ (fun c item => P c ∧ c.Emits item) claims) := by
    apply Emission.yields_mapM
    intro c hc
    apply Emission.yields_mono c.yields_implementation
    intro item hitem
    exact ⟨h c hc, hitem⟩
  have hone := hyields 0
  rw [implementations] at emitted
  rwa [emitted] at hone

end Claim

end AccessChecks
