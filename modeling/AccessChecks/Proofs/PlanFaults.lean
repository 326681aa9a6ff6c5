import AccessChecks.Generation
import AccessChecks.Proofs.ResourceFaults

/-!
# Faults of a file

## Methods

A public method names no permission.  Any other method names one, and its request
leads to a resource without a fault of its own.

## Claims

Among the methods with one request type the first one claims the type, and each
later one with another access key is in conflict with it.  A request type that is
not known, or that belongs to another package, is claimed by no method.

## Plans

The faults of a plan are those of its methods together with their conflicts.
-/

namespace AccessChecks

namespace Schema

def resourceSite? (s : Schema) (target : MessageRef) : Option ResourceSite :=
  (s.message? target).bind (findResource s ⟨requestRoot, []⟩)

end Schema

theorem discover_eq (s : Schema) (target : MessageRef) :
    discover s target =
      match s.resourceSite? target with
      | none => (none, [])
      | some site => (some (site.describe s).1, (site.describe s).2) := rfl

theorem mem_discover_faults_iff (s : Schema) (target : MessageRef)
    (d : Diagnostic) :
    d ∈ (discover s target).2 ↔
      ∃ site, s.resourceSite? target = some site ∧ site.Fault s d := by
  rw [discover_eq]
  cases s.resourceSite? target with
  | none => simp
  | some site => simp [ResourceSite.mem_describe_iff_fault]

/-!
## Methods
-/

namespace Method

theorem statedPermission_eq_some_iff {m : Method} {permission : String} :
    m.statedPermission = some permission ↔
      m.permission = some permission ∧ permission ≠ "" := by
  simp [statedPermission, Option.filter_eq_some_iff]

theorem statedPermission_eq_none_iff {m : Method} :
    m.statedPermission = none ↔ ∀ p ∈ m.permission, p = "" := by
  simp [statedPermission, Option.filter_eq_none_iff]

/-- A method is at fault by itself. -/
inductive Fault (s : Schema) (service : String) (m : Method) :
    Diagnostic → Prop where
  | conflicting {permission : String} :
      m.isPublic = true → m.permission = some permission → permission ≠ "" →
      Fault s service m
        (.conflictingAccessAnnotations service m.name permission)
  | unnamed :
      m.isPublic = false → (∀ p ∈ m.permission, p = "") →
      Fault s service m (.missingPermissionOrPublic service m.name)
  | unguarded :
      m.isPublic = false → (discover s m.input).1 = none →
      Fault s service m
        (.missingResourceForGatedMethod service m.name m.input.name)
  | resource {site : ResourceSite} {d : Diagnostic} :
      m.isPublic = false → s.resourceSite? m.input = some site →
      site.Fault s d → Fault s service m d

theorem mem_access_of_isPublic {s : Schema} {service : String} {m : Method}
    (h : m.isPublic = true) (d : Diagnostic) :
    d ∈ (m.access s service).2 ↔
      ∃ p, m.statedPermission = some p ∧
        d = .conflictingAccessAnnotations service m.name p := by
  rw [access, h]
  cases m.statedPermission <;> simp

theorem mem_access_of_gated {s : Schema} {service : String} {m : Method}
    (h : m.isPublic = false) (d : Diagnostic) :
    d ∈ (m.access s service).2 ↔
      d ∈ (discover s m.input).2 ∨
      (m.statedPermission = none ∧
        d = .missingPermissionOrPublic service m.name) ∨
      ((discover s m.input).1 = none ∧
        d = .missingResourceForGatedMethod service m.name m.input.name) := by
  rw [access, h]
  cases m.statedPermission <;> cases hfound : (discover s m.input).1 <;>
    simp [hfound]

theorem mem_resolve_iff_fault (s : Schema) (service : String) (m : Method)
    (d : Diagnostic) : d ∈ (m.resolve s service).2 ↔ m.Fault s service d := by
  change d ∈ (m.access s service).2 ↔ _
  cases hpublic : m.isPublic with
  | true =>
      rw [mem_access_of_isPublic hpublic]
      constructor
      · rintro ⟨p, hp, rfl⟩
        rw [statedPermission_eq_some_iff] at hp
        exact Fault.conflicting hpublic hp.1 hp.2
      · intro hfault
        cases hfault with
        | conflicting _ hp hne =>
            exact ⟨_, statedPermission_eq_some_iff.mpr ⟨hp, hne⟩, rfl⟩
        | unnamed h => rw [hpublic] at h; cases h
        | unguarded h => rw [hpublic] at h; cases h
        | resource h => rw [hpublic] at h; cases h
  | false =>
      rw [mem_access_of_gated hpublic, mem_discover_faults_iff,
        statedPermission_eq_none_iff]
      constructor
      · rintro (⟨site, hsite, hfault⟩ | ⟨hnone, rfl⟩ | ⟨hnone, rfl⟩)
        · exact Fault.resource hpublic hsite hfault
        · exact Fault.unnamed hpublic hnone
        · exact Fault.unguarded hpublic hnone
      · intro hfault
        cases hfault with
        | conflicting h => rw [hpublic] at h; cases h
        | unnamed _ hnone => exact Or.inr (Or.inl ⟨hnone, rfl⟩)
        | unguarded _ hnone => exact Or.inr (Or.inr ⟨hnone, rfl⟩)
        | resource _ hsite hfault => exact Or.inl ⟨_, hsite, hfault⟩

/-- The annotations of a method decide its access: it is public and names no
permission, or it names one and its request leads to a resource that is well
formed. -/
inductive WellFormed (s : Schema) (m : Method) : Prop where
  | isPublic :
      m.isPublic = true → (∀ p ∈ m.permission, p = "") → WellFormed s m
  | gated {permission : String} {r : Resource} :
      m.isPublic = false →
      m.permission = some permission → permission ≠ "" →
      (discover s m.input).1 = some r →
      (∀ site, s.resourceSite? m.input = some site → site.WellFormed s) →
      WellFormed s m

theorem wellFormed_iff_forall_not_fault {s : Schema} {service : String}
    {m : Method} : m.WellFormed s ↔ ∀ d, ¬ m.Fault s service d := by
  constructor
  · intro hwell d hfault
    cases hwell with
    | isPublic hpublic hnone =>
        cases hfault with
        | conflicting _ hp hne => exact hne (hnone _ hp)
        | unnamed h => rw [hpublic] at h; cases h
        | unguarded h => rw [hpublic] at h; cases h
        | resource h => rw [hpublic] at h; cases h
    | gated hgated hp hne hfound hsites =>
        cases hfault with
        | conflicting h => rw [hgated] at h; cases h
        | unnamed _ hnone => exact hne (hnone _ hp)
        | unguarded _ hnone => rw [hnone] at hfound; cases hfound
        | resource _ hsite hfault =>
            exact ResourceSite.wellFormed_iff_forall_not_fault.mp
              (hsites _ hsite) d hfault
  · intro hnone
    cases hpublic : m.isPublic with
    | true =>
        apply WellFormed.isPublic hpublic
        intro p hp
        by_contra hne
        exact hnone _ (Fault.conflicting hpublic hp hne)
    | false =>
        cases hstated : m.statedPermission with
        | none =>
            rw [statedPermission_eq_none_iff] at hstated
            exact absurd (Fault.unnamed hpublic hstated) (hnone _)
        | some permission =>
            rw [statedPermission_eq_some_iff] at hstated
            cases hfound : (discover s m.input).1 with
            | none => exact absurd (Fault.unguarded hpublic hfound) (hnone _)
            | some r =>
                apply WellFormed.gated hpublic hstated.1 hstated.2 hfound
                intro site hsite
                apply ResourceSite.wellFormed_iff_forall_not_fault.mpr
                intro d hfault
                exact hnone d (Fault.resource hpublic hsite hfault)

end Method

/-!
## Claims
-/

namespace Schema

def HasIn (s : Schema) (package : String) (target : MessageRef) : Prop :=
  ∃ request, s.message? target = some request ∧ request.package = package

end Schema

namespace ResolvedMethod

def firstFor? (methods : List ResolvedMethod) (target : MessageRef) :
    Option ResolvedMethod :=
  methods.find? fun m => m.request == target

theorem firstFor?_concat (methods : List ResolvedMethod) (m : ResolvedMethod)
    (target : MessageRef) :
    firstFor? (methods ++ [m]) target =
      (firstFor? methods target).or
        (if m.request = target then some m else none) := by
  rw [firstFor?, List.find?_append]
  by_cases h : m.request = target
  · simp [h, firstFor?]
  · have hne : (m.request == target) = false := by simpa using h
    simp [h, hne, firstFor?]

/-- A method after others is in conflict with the one that claims its request
type. -/
inductive Conflict (s : Schema) (package : String)
    (before : List ResolvedMethod) (m : ResolvedMethod) : Diagnostic → Prop where
  | keys {first : ResolvedMethod} :
      s.HasIn package m.request →
      firstFor? before m.request = some first →
      first.accessKey ≠ m.accessKey →
      Conflict s package before m
        (.conflictingRequestType m.request.name first.label m.label)

def ConflictIn (s : Schema) (package : String)
    (methods : List ResolvedMethod) (d : Diagnostic) : Prop :=
  ∃ before m after, methods = before ++ m :: after ∧
    Conflict s package before m d

theorem conflictIn_concat_iff {s : Schema} {package : String}
    {methods : List ResolvedMethod} {m : ResolvedMethod} {d : Diagnostic} :
    ConflictIn s package (methods ++ [m]) d ↔
      ConflictIn s package methods d ∨ Conflict s package methods m d := by
  constructor
  · rintro ⟨before, n, after, hsplit, hconflict⟩
    rcases List.eq_nil_or_concat after with rfl | ⟨front, last, rfl⟩
    · rw [List.append_inj_left' hsplit rfl]
      cases List.append_inj_right' hsplit rfl
      exact Or.inr hconflict
    · rw [List.concat_eq_append, ← List.cons_append, ← List.append_assoc]
        at hsplit
      rw [List.append_inj_left' hsplit rfl]
      exact Or.inl ⟨before, n, front, rfl, hconflict⟩
  · rintro (⟨before, n, after, rfl, hconflict⟩ | hconflict)
    · exact ⟨before, n, after ++ [m], by simp, hconflict⟩
    · exact ⟨methods, m, [], rfl, hconflict⟩

theorem mem_of_firstFor? {methods : List ResolvedMethod} {target : MessageRef}
    {first : ResolvedMethod} (h : firstFor? methods target = some first) :
    first ∈ methods ∧ first.request = target :=
  ⟨List.mem_of_find?_eq_some h, by simpa using List.find?_some h⟩

theorem accessKey_firstFor? {s : Schema} {package : String}
    {methods : List ResolvedMethod}
    (hnone : ∀ d, ¬ ConflictIn s package methods d) {m : ResolvedMethod}
    (hmem : m ∈ methods) (hclaim : s.HasIn package m.request) :
    (firstFor? methods m.request).map accessKey = some m.accessKey := by
  rcases List.append_of_mem hmem with ⟨before, after, hsplit⟩
  have hwhole : firstFor? methods m.request =
      (firstFor? before m.request).or (some m) := by
    rw [hsplit, firstFor?, List.find?_append, List.find?_cons, BEq.rfl]
    rfl
  rw [hwhole]
  cases hfirst : firstFor? before m.request with
  | none => rfl
  | some first =>
      rw [Option.some_or, Option.map_some]
      by_contra hne
      have hkeys : first.accessKey ≠ m.accessKey := fun h => hne (by rw [h])
      exact hnone _
        ⟨before, m, after, hsplit, Conflict.keys hclaim hfirst hkeys⟩

theorem forall_not_conflictIn_iff {s : Schema} {package : String}
    {methods : List ResolvedMethod} :
    (∀ d, ¬ ConflictIn s package methods d) ↔
      ∀ m ∈ methods, ∀ n ∈ methods, m.request = n.request →
        s.HasIn package m.request → m.accessKey = n.accessKey := by
  constructor
  · intro hnone m hm n hn hsame hclaim
    have hfirst := accessKey_firstFor? hnone hm hclaim
    rw [hsame] at hfirst hclaim
    rw [accessKey_firstFor? hnone hn hclaim] at hfirst
    exact (Option.some.inj hfirst).symm
  · rintro hkeys d ⟨before, m, after, rfl, hconflict⟩
    cases hconflict with
    | keys hclaim hfirst hne =>
        rcases mem_of_firstFor? hfirst with ⟨hmem, hsame⟩
        rw [← hsame] at hclaim
        exact hne (hkeys _ (List.mem_append_left _ hmem) m
          (List.mem_append_right _ List.mem_cons_self) hsame hclaim)

end ResolvedMethod

/-!
## Plans
-/

namespace Plan

open ResolvedMethod

/-- A plan after some methods: their first ones claim their request types, and its
faults are the reports made so far together with their conflicts. -/
structure After (s : Schema) (package : String)
    (methods : List ResolvedMethod) (reports : List Diagnostic) (p : Plan) :
    Prop where
  claims : ∀ target, s.HasIn package target →
    (p.claims.find? fun c => c.method.request == target).map Claim.method =
      firstFor? methods target
  faults : ∀ d, d ∈ p.faults ↔
    d ∈ reports ∨ ConflictIn s package methods d

variable {s : Schema} {package : String} {methods : List ResolvedMethod}
  {reports : List Diagnostic} {p : Plan}

theorem after_nil (s : Schema) (package : String) :
    After s package [] [] {} :=
  { claims := fun _ _ => rfl
    faults := by
      intro d
      constructor
      · intro h
        cases h
      · rintro (h | ⟨before, m, after, hsplit, _⟩)
        · cases h
        · cases before <;> cases hsplit }

theorem After.report (h : After s package methods reports p)
    (more : List Diagnostic) :
    After s package methods (reports ++ more)
      { p with faults := p.faults ++ more } :=
  { claims := h.claims
    faults := by
      intro d
      rw [List.mem_append, List.mem_append, h.faults d]
      tauto }

theorem After.concat_of_not_hasIn (h : After s package methods reports p)
    {m : ResolvedMethod} (hnot : ¬ s.HasIn package m.request) :
    After s package (methods ++ [m]) reports p :=
  { claims := by
      intro target htarget
      have hne : m.request ≠ target := by
        rintro rfl
        exact hnot htarget
      rw [firstFor?_concat, if_neg hne, Option.or_none, h.claims target htarget]
    faults := by
      intro d
      rw [h.faults d, conflictIn_concat_iff]
      constructor
      · exact Or.imp_right Or.inl
      · rintro (hreport | hconflict | ⟨hclaim, _, _⟩)
        · exact Or.inl hreport
        · exact Or.inr hconflict
        · exact absurd hclaim hnot }

theorem After.concat_claim (h : After s package methods reports p)
    {m : ResolvedMethod} (request : Message)
    (hfirst : firstFor? methods m.request = none) :
    After s package (methods ++ [m]) reports
      { p with claims := p.claims ++ [⟨m, request⟩] } :=
  { claims := by
      intro target htarget
      rw [firstFor?_concat, ← h.claims target htarget, List.find?_append]
      by_cases hsame : m.request = target
      · cases p.claims.find? fun c => c.method.request == target <;>
          simp [hsame]
      · have hne : (m.request == target) = false := by simpa using hsame
        cases p.claims.find? fun c => c.method.request == target <;>
          simp [hsame]
    faults := by
      intro d
      rw [conflictIn_concat_iff, h.faults d]
      constructor
      · exact Or.imp_right Or.inl
      · rintro (hreport | hconflict | ⟨_, hsome, _⟩)
        · exact Or.inl hreport
        · exact Or.inr hconflict
        · rw [hfirst] at hsome
          cases hsome }

theorem claims_concat_of_first (h : After s package methods reports p)
    {m first : ResolvedMethod}
    (hfirst : firstFor? methods m.request = some first) {target : MessageRef}
    (htarget : s.HasIn package target) :
    (p.claims.find? fun c => c.method.request == target).map Claim.method =
      firstFor? (methods ++ [m]) target := by
  rw [h.claims target htarget, firstFor?_concat]
  by_cases hsame : m.request = target
  · rw [← hsame, hfirst]
    rfl
  · rw [if_neg hsame, Option.or_none]

theorem After.concat_agreeing (h : After s package methods reports p)
    {m first : ResolvedMethod}
    (hfirst : firstFor? methods m.request = some first)
    (hkeys : first.accessKey = m.accessKey) :
    After s package (methods ++ [m]) reports p :=
  { claims := fun _ htarget => claims_concat_of_first h hfirst htarget
    faults := by
      intro d
      rw [conflictIn_concat_iff, h.faults d]
      constructor
      · exact Or.imp_right Or.inl
      · rintro (hreport | hconflict | ⟨_, hsome, hne⟩)
        · exact Or.inl hreport
        · exact Or.inr hconflict
        · rw [hfirst] at hsome
          cases hsome
          exact absurd hkeys hne }

theorem After.concat_conflict (h : After s package methods reports p)
    {m first : ResolvedMethod} (hclaim : s.HasIn package m.request)
    (hfirst : firstFor? methods m.request = some first)
    (hkeys : first.accessKey ≠ m.accessKey) :
    After s package (methods ++ [m]) reports
      { p with
        faults := p.faults ++
          [.conflictingRequestType m.request.name first.label m.label] } :=
  { claims := fun _ htarget => claims_concat_of_first h hfirst htarget
    faults := by
      intro d
      rw [conflictIn_concat_iff, List.mem_append, h.faults d,
        List.mem_singleton]
      constructor
      · rintro ((hreport | hconflict) | rfl)
        · exact Or.inl hreport
        · exact Or.inr (Or.inl hconflict)
        · exact Or.inr (Or.inr (Conflict.keys hclaim hfirst hkeys))
      · rintro (hreport | hconflict | ⟨_, hsome, _⟩)
        · exact Or.inl (Or.inl hreport)
        · exact Or.inl (Or.inr hconflict)
        · rw [hfirst] at hsome
          cases hsome
          exact Or.inr rfl }

theorem After.claimFor_cases (h : After s package methods reports p)
    (m : ResolvedMethod) :
    (¬ s.HasIn package m.request ∧ p.claimFor s package m = p) ∨
    (∃ request, s.message? m.request = some request ∧
      s.HasIn package m.request ∧ firstFor? methods m.request = none ∧
      p.claimFor s package m =
        { p with claims := p.claims ++ [⟨m, request⟩] }) ∨
    ∃ first, s.HasIn package m.request ∧
      firstFor? methods m.request = some first ∧
      (first.accessKey = m.accessKey ∧ p.claimFor s package m = p ∨
        first.accessKey ≠ m.accessKey ∧
          p.claimFor s package m =
            { p with
              faults := p.faults ++
                [.conflictingRequestType m.request.name first.label m.label] }) := by
  rw [Plan.claimFor]
  cases hrequest : s.message? m.request with
  | none =>
      refine Or.inl ⟨?_, rfl⟩
      rintro ⟨request, hsome, _⟩
      rw [hrequest] at hsome
      cases hsome
  | some request =>
      dsimp only
      by_cases hpackage : request.package = package
      · have hin : s.HasIn package m.request := ⟨request, hrequest, hpackage⟩
        have hclaims := h.claims m.request hin
        rw [if_neg (by simpa using hpackage)]
        refine Or.inr ?_
        cases hfound : p.claims.find? fun c => c.method.request == m.request with
        | none =>
            rw [hfound] at hclaims
            exact Or.inl ⟨request, rfl, hin, hclaims.symm, rfl⟩
        | some claim =>
            rw [hfound] at hclaims
            refine Or.inr ⟨claim.method, hin, hclaims.symm, ?_⟩
            by_cases hkeys : claim.method.accessKey = m.accessKey
            · exact Or.inl ⟨hkeys, if_pos hkeys⟩
            · exact Or.inr ⟨hkeys, if_neg hkeys⟩
      · rw [if_pos hpackage]
        refine Or.inl ⟨?_, rfl⟩
        rintro ⟨other, hsome, hother⟩
        rw [hrequest] at hsome
        cases hsome
        exact hpackage hother

theorem After.claimFor (h : After s package methods reports p)
    (m : ResolvedMethod) :
    After s package (methods ++ [m]) reports
      (p.claimFor s package m) := by
  rcases h.claimFor_cases m with
    ⟨hnot, hstep⟩ | ⟨request, _, _, hnew, hstep⟩ |
      ⟨first, hin, hfirst, ⟨hkeys, hstep⟩ | ⟨hkeys, hstep⟩⟩
  · rw [hstep]
    exact h.concat_of_not_hasIn hnot
  · rw [hstep]
    exact h.concat_claim request hnew
  · rw [hstep]
    exact h.concat_agreeing hfirst hkeys
  · rw [hstep]
    exact h.concat_conflict hin hfirst hkeys

theorem After.claimAll (h : After s package methods reports p)
    (more : List ResolvedMethod) :
    After s package (methods ++ more) reports
      (more.foldl (Plan.claimFor s package) p) := by
  induction more generalizing methods p with
  | nil =>
      rw [List.append_nil]
      exact h
  | cons m rest ih =>
      rw [List.append_cons]
      exact ih (h.claimFor m)

theorem After.addService (h : After s package methods reports p)
    (service : Service) :
    After s package (methods ++ (service.resolve s).1)
      (reports ++ (service.resolve s).2) (p.addService s package service) :=
  (h.report (service.resolve s).2).claimAll (service.resolve s).1

theorem After.addServices (h : After s package methods reports p)
    (services : List Service) :
    After s package (methods ++ services.flatMap fun v => (v.resolve s).1)
      (reports ++ services.flatMap fun v => (v.resolve s).2)
      (services.foldl (Plan.addService s package) p) := by
  induction services generalizing methods reports p with
  | nil => simpa using h
  | cons service rest ih =>
      rw [List.flatMap_cons, List.flatMap_cons, ← List.append_assoc,
        ← List.append_assoc]
      exact ih (h.addService service)

end Plan

namespace SchemaFile

def methods (f : SchemaFile) : List (String × Method) :=
  f.services.flatMap fun service =>
    service.methods.map fun m => (service.name, m)

def resolvedMethods (s : Schema) (f : SchemaFile) : List ResolvedMethod :=
  f.methods.map fun entry => (entry.2.resolve s entry.1).1

inductive Fault (s : Schema) (f : SchemaFile) : Diagnostic → Prop where
  | method {service : String} {m : Method} {d : Diagnostic} :
      (service, m) ∈ f.methods → m.Fault s service d → Fault s f d
  | conflict {d : Diagnostic} :
      ResolvedMethod.ConflictIn s f.package (f.resolvedMethods s) d →
      Fault s f d

theorem mem_plan_faults_iff (s : Schema) (f : SchemaFile) (d : Diagnostic) :
    d ∈ (f.plan s).faults ↔ f.Fault s d := by
  have hafter := (Plan.after_nil s f.package).addServices f.services
  have hmethods : (f.services.flatMap fun v => (v.resolve s).1) =
      f.resolvedMethods s := by
    simp [resolvedMethods, methods, Service.resolve, List.map_flatMap,
      Function.comp_def]
  have hreports : (d ∈ f.services.flatMap fun v => (v.resolve s).2) ↔
      ∃ entry ∈ f.methods, entry.2.Fault s entry.1 d := by
    simp only [methods, Service.resolve, List.flatMap_map, List.mem_flatMap,
      List.mem_map, Method.mem_resolve_iff_fault]
    constructor
    · rintro ⟨service, hservice, m, hm, hfault⟩
      exact ⟨_, ⟨service, hservice, m, hm, rfl⟩, hfault⟩
    · rintro ⟨_, ⟨service, hservice, m, hm, rfl⟩, hfault⟩
      exact ⟨service, hservice, m, hm, hfault⟩
  have hfaults := hafter.faults d
  rw [List.nil_append, List.nil_append, hmethods, hreports] at hfaults
  change d ∈ (f.plan s).faults ↔ _ at hfaults
  rw [hfaults]
  constructor
  · rintro (⟨⟨service, m⟩, hmem, hfault⟩ | hconflict)
    · exact Fault.method hmem hfault
    · exact Fault.conflict hconflict
  · intro hfault
    cases hfault with
    | method hmem hfault => exact Or.inl ⟨_, hmem, hfault⟩
    | conflict hconflict => exact Or.inr hconflict

end SchemaFile

end AccessChecks
