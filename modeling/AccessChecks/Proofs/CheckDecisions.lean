import AccessChecks.Proofs.CheckSites

/-!
# Decisions on checks

## Combining outcomes

A configuration without checks allows nothing, and a configuration without a mode
leaves the decision to its one check.  Otherwise all outcomes have to allow, or one
of them, as the mode says.  An outcome that turns to allowing never takes a decision
back.

## Kind and mode of a request

The mode of a configuration is fixed by the paths of the resource, and its kind by
the number of its checks.  Only a path through a collection leads to several checks,
so a configuration that has several states how to combine them.
-/

namespace AccessChecks

open Reading

namespace BulkMode

theorem combine_allOf_eq_true_iff (outcomes : List Bool) :
    allOf.combine outcomes = true ↔
      outcomes ≠ [] ∧ ∀ outcome ∈ outcomes, outcome = true := by
  simp [combine]

theorem combine_anyOf_eq_true_iff (outcomes : List Bool) :
    anyOf.combine outcomes = true ↔ true ∈ outcomes := by
  cases outcomes with
  | nil => simp [combine]
  | cons outcome rest => simp [combine]

/-- Where the first outcome allows, the second one does. -/
def Keeps (outcome later : Bool) : Prop :=
  outcome = true → later = true

theorem forall_true_of_keeps {outcomes later : List Bool}
    (h : List.Forall₂ Keeps outcomes later)
    (allowed : ∀ outcome ∈ outcomes, outcome = true) :
    ∀ outcome ∈ later, outcome = true := by
  induction h with
  | nil => simp
  | cons hkeeps _ ih =>
      intro outcome hmem
      rcases List.mem_cons.mp hmem with rfl | hrest
      · exact hkeeps (allowed _ List.mem_cons_self)
      · apply ih _ outcome hrest
        intro other hother
        exact allowed other (List.mem_cons_of_mem _ hother)

theorem true_mem_of_keeps {outcomes later : List Bool}
    (h : List.Forall₂ Keeps outcomes later) (allowed : true ∈ outcomes) :
    true ∈ later := by
  induction h with
  | nil => cases allowed
  | cons hkeeps _ ih =>
      rcases List.mem_cons.mp allowed with rfl | hrest
      · rw [hkeeps rfl]
        exact List.mem_cons_self
      · exact List.mem_cons_of_mem _ (ih hrest)

theorem combine_of_keeps (mode : BulkMode) {outcomes later : List Bool}
    (h : List.Forall₂ Keeps outcomes later)
    (allowed : mode.combine outcomes = true) : mode.combine later = true := by
  cases mode with
  | allOf =>
      rw [combine_allOf_eq_true_iff] at allowed ⊢
      constructor
      · rintro rfl
        exact allowed.1 (List.forall₂_nil_right_iff.mp h)
      · exact forall_true_of_keeps h allowed.2
  | anyOf =>
      rw [combine_anyOf_eq_true_iff] at allowed ⊢
      exact true_mem_of_keeps h allowed

end BulkMode

namespace CheckConfig

def decision (c : CheckConfig) (outcomes : List Bool) : Bool :=
  c.modeOrDefault.combine outcomes

/-- The decision on outcomes of the checks, one for each, fails closed. -/
structure FailsClosed (c : CheckConfig) (outcomes : List Bool) : Prop where
  none : c.checks = [] → c.decision outcomes = false
  sole : c.mode = .none →
    ∃ outcome, outcomes = [outcome] ∧ c.decision outcomes = outcome
  allOf : c.modeOrDefault = .allOf →
    (c.decision outcomes = true ↔
      c.checks ≠ [] ∧ ∀ outcome ∈ outcomes, outcome = true)
  anyOf : c.modeOrDefault = .anyOf →
    (c.decision outcomes = true ↔ true ∈ outcomes)
  keeps : ∀ later, List.Forall₂ BulkMode.Keeps outcomes later →
    c.decision outcomes = true → c.decision later = true

theorem failsClosed_of_length_eq {c : CheckConfig}
    (one : c.mode = .none → c.checks.length = 1) {outcomes : List Bool}
    (each : outcomes.length = c.checks.length) : c.FailsClosed outcomes :=
  { none := by
      intro hchecks
      rw [hchecks, List.length_nil, List.length_eq_zero_iff] at each
      rw [decision, each, BulkMode.combine_nil]
    sole := by
      intro hmode
      rw [one hmode, List.length_eq_one_iff] at each
      rcases each with ⟨outcome, rfl⟩
      exact ⟨outcome, rfl, BulkMode.combine_singleton _ outcome⟩
    allOf := by
      intro hmode
      have hempty : outcomes ≠ [] ↔ c.checks ≠ [] := by
        rw [← List.length_pos_iff, ← List.length_pos_iff, each]
      rw [decision, hmode, BulkMode.combine_allOf_eq_true_iff, hempty]
    anyOf := by
      intro hmode
      rw [decision, hmode, BulkMode.combine_anyOf_eq_true_iff]
    keeps := fun later hkeeps => BulkMode.combine_of_keeps _ hkeeps }

end CheckConfig

/-!
## Kind and mode of a request
-/

namespace Resource

def CrossesCollection (r : Resource) : Prop :=
  r.path.crossesCollection = true ∨
    ∃ p, r.usableIdPath = some p ∧ p.crossesCollection = true

theorem isMultiple_eq_true_iff (r : Resource) :
    r.isMultiple = true ↔ r.CrossesCollection := by
  rw [isMultiple, Bool.or_eq_true, Option.any_eq_true]
  rfl

theorem length_checksIn_of_not_isMultiple {r : Resource}
    (h : r.isMultiple = false) (permission : String) (request : Data) :
    (r.checksIn permission request).length = 1 := by
  rw [isMultiple, Bool.or_eq_false_iff] at h
  have hinstances : r.instancesIn request =
      [valueAt r.path.segments (some request)] :=
    reached_eq_singleton h.1 (some request)
  have hids : ∀ v, r.idsAt v = [keyAt r.usableIdPath "" v] := by
    intro v
    rw [idsAt, fansOut, h.2]
    rfl
  rw [checksIn, hinstances, List.flatMap_singleton, checksAt, hids]
  rfl

/-- The kind, the mode and the checks of a configuration fit one another. -/
structure Governs (r : Resource) (mode : Option BulkMode) (c : CheckConfig) :
    Prop where
  kind : c.kind = CheckKind.forCount c.checks.length
  mode : ∀ m, c.mode = some m ↔ r.CrossesCollection ∧ m = mode.getD .allOf
  one : c.mode = none → c.checks.length = 1
  bulk : c.kind = .bulk → c.mode.isSome
  failsClosed : ∀ outcomes : List Bool, outcomes.length = c.checks.length →
    c.FailsClosed outcomes

theorem mode_configIn (r : Resource) (permission : String)
    (mode : Option BulkMode) (request : Data) (m : BulkMode) :
    (r.configIn permission mode request).mode = some m ↔
      r.CrossesCollection ∧ m = mode.getD .allOf := by
  rw [← isMultiple_eq_true_iff, configIn]
  cases r.isMultiple with
  | true => simp [eq_comm]
  | false => simp

theorem length_checks_configIn {r : Resource} {permission : String}
    {mode : Option BulkMode} {request : Data}
    (h : (r.configIn permission mode request).mode = none) :
    (r.configIn permission mode request).checks.length = 1 := by
  apply length_checksIn_of_not_isMultiple
  rw [configIn] at h
  cases hmultiple : r.isMultiple with
  | true => simp [hmultiple] at h
  | false => rfl

theorem governs_configIn (r : Resource) (permission : String)
    (mode : Option BulkMode) (request : Data) :
    r.Governs mode (r.configIn permission mode request) :=
  { kind := rfl
    mode := r.mode_configIn permission mode request
    one := length_checks_configIn
    bulk := by
      intro hkind
      cases hmode : (r.configIn permission mode request).mode with
      | some m => rfl
      | none =>
          -- one check makes no bulk check
          change CheckKind.forCount
            (r.configIn permission mode request).checks.length = .bulk at hkind
          rw [length_checks_configIn hmode] at hkind
          cases hkind
    failsClosed := fun outcomes each =>
      CheckConfig.failsClosed_of_length_eq length_checks_configIn each }

end Resource

/-- The configuration that a gated body computes decides as its mode says, and
allows nothing without a check. -/
theorem gatedBody_decides_by_mode {s : Schema} {target : MessageRef}
    {r : Resource} (found : (discover s target).1 = some r)
    (permission : String) (mode : Option BulkMode) :
    Emission.Yields r.IllegalOn (Emission.gatedBody r permission mode)
      fun body => ∀ d, s.Holds (.message target) d →
        ∃ config, body.run d = some config ∧ r.Governs mode config := by
  apply Emission.yields_mono
    (yields_gatedBody_of_discover found permission mode)
  intro body hrun d hd
  exact ⟨_, hrun d hd, r.governs_configIn permission mode d⟩

theorem gatedBody_docSchema_decides :
    (discover Sample.docSchema ⟨"Get"⟩).1 = some Sample.docResource ∧
    ∃ body config,
      ((Emission.gatedBody Sample.docResource "view"
        (some .anyOf)).run.run 0).1 = .ok body ∧
      body.run Sample.request = some config ∧
      Sample.docResource.Governs (some .anyOf) config := by
  refine ⟨Sample.discover_docSchema, ?_⟩
  rcases Emission.exists_result_of_yields
    (gatedBody_decides_by_mode Sample.discover_docSchema "view" (some .anyOf))
    Sample.not_illegalOn_docResource 0 with ⟨body, hbody, hdecides⟩
  rcases hdecides Sample.request Sample.holds_request with ⟨config, hrun⟩
  exact ⟨body, config, hbody, hrun⟩

end AccessChecks
