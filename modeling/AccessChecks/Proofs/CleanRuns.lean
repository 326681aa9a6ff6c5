import Mathlib
import AccessChecks.Proofs.PlanFaults

/-!
# Clean runs

## Runs

A file whose code can be laid out adds all its faults to the reports of a run, and
nothing else.  No report is lost over the files that come later, and none is left
out for those that were made before, except for an equal one.

## Well-formed schemas

A file is well formed if each of its methods is, and if the methods with one request
type of its package agree on access.  A run over files whose code can be laid out
reports nothing exactly if all files are well formed.
-/

namespace AccessChecks

namespace SchemaFile

/-- The code of the file has legal names and can be laid out. -/
def Renders (s : Schema) (options : Options) (f : SchemaFile) : Prop :=
  ∃ items page, implementations (f.plan s).claims = .ok items ∧
    options.runtime.page items = .ok page

/-- What is made of a file from the implementations of its claims. -/
inductive ComesTo (s : Schema) (options : Options) (f : SchemaFile)
    (items : List Implementation) : Option GeneratedFile × List Diagnostic → Prop where
  | nothing : f.services = [] → ComesTo s options f items (none, [])
  | file {page : String} : f.services ≠ [] → options.runtime.page items = .ok page →
      ComesTo s options f items
        (some ⟨outputName f.name options.fileSuffix, header f.name ++ page⟩,
          (f.plan s).faults)
  | report {reason : String} : f.services ≠ [] →
      options.runtime.page items = .error reason →
      ComesTo s options f items (none, (f.plan s).faults ++ [.render f.name reason])

section

variable {s : Schema} {options : Options} {f : SchemaFile}

theorem renders_of_any {path : CodePath} (hpath : options.runtime = .names path)
    (h : (implementations (f.plan s).claims).toOption.any (fun items =>
      (items.findSome? (Implementation.unreadable? path)).isNone) = true) :
    f.Renders s options := by
  rcases (Option.any_eq_true _ _).mp h with ⟨items, hitems, hreadable⟩
  refine ⟨items, Implementation.page path items, ?_, ?_⟩
  · cases hresult : implementations (f.plan s).claims with
    | error e =>
        rw [hresult] at hitems
        cases hitems
    | ok found =>
        rw [hresult] at hitems
        cases hitems
        rfl
  · rw [hpath, RuntimePath.page, Option.isNone_iff_eq_none.mp hreadable]

theorem plan_of_no_services (h : f.services = []) : f.plan s = {} := by
  rw [plan, h]
  rfl

theorem generate_of_no_services (h : f.services = []) :
    f.generate s options = .ok (none, []) := by
  rw [generate, h]
  rfl

theorem generate_of_services (h : f.services ≠ []) :
    f.generate s options = (implementations (f.plan s).claims).map fun items =>
      match options.runtime.page items with
      | .ok page =>
          (some ⟨outputName f.name options.fileSuffix, header f.name ++ page⟩,
            (f.plan s).faults)
      | .error reason => (none, (f.plan s).faults ++ [.render f.name reason]) := by
  have hservices : ¬ f.services.isEmpty = true := by
    rw [List.isEmpty_iff]
    exact h
  rw [generate, if_neg hservices]
  dsimp only
  cases implementations (f.plan s).claims with
  | error e => rfl
  | ok items =>
      dsimp only [bind, Except.bind, Except.map]
      cases options.runtime.page items <;> rfl

theorem exists_file_of_renders (h : f.Renders s options) (hservices : f.services ≠ []) :
    ∃ file, f.generate s options = .ok (some file, (f.plan s).faults) := by
  rcases h with ⟨items, page, hitems, hpage⟩
  rw [generate_of_services hservices, hitems]
  dsimp only [Except.map]
  rw [hpage]
  exact ⟨_, rfl⟩

theorem exists_generate_of_renders (h : f.Renders s options) :
    ∃ file, f.generate s options = .ok (file, (f.plan s).faults) := by
  by_cases hservices : f.services = []
  · rw [generate_of_no_services hservices, plan_of_no_services hservices]
    exact ⟨none, rfl⟩
  · rcases exists_file_of_renders h hservices with ⟨file, hfile⟩
    exact ⟨some file, hfile⟩

theorem exists_comesTo_of_generate {result : Option GeneratedFile × List Diagnostic}
    (generated : f.generate s options = .ok result) :
    ∃ items, implementations (f.plan s).claims = .ok items ∧
      f.ComesTo s options items result := by
  by_cases hservices : f.services = []
  · rw [generate_of_no_services hservices] at generated
    rw [plan_of_no_services hservices, ← Except.ok.inj generated]
    exact ⟨[], rfl, ComesTo.nothing hservices⟩
  · rw [generate_of_services hservices] at generated
    cases hitems : implementations (f.plan s).claims with
    | error e =>
        rw [hitems] at generated
        cases generated
    | ok items =>
        rw [hitems] at generated
        refine ⟨items, rfl, ?_⟩
        dsimp only [Except.map] at generated
        rw [← Except.ok.inj generated]
        cases hpage : options.runtime.page items with
        | ok page => exact ComesTo.file hservices hpage
        | error reason => exact ComesTo.report hservices hpage

namespace ComesTo

variable {items : List Implementation} {result : Option GeneratedFile × List Diagnostic}

theorem exists_page (h : f.ComesTo s options items result) {file : GeneratedFile}
    (hfile : file ∈ result.1) :
    ∃ page, options.runtime.page items = .ok page ∧
      file = ⟨outputName f.name options.fileSuffix, header f.name ++ page⟩ := by
  cases h with
  | nothing _ => cases hfile
  | file _ hpage => exact ⟨_, hpage, (Option.some.inj hfile).symm⟩
  | report _ _ => cases hfile

theorem exists_reports (h : f.ComesTo s options items result) :
    ∃ reasons : List String,
      result.2 = (f.plan s).faults ++ reasons.map (Diagnostic.render f.name) := by
  cases h with
  | nothing hservices =>
      rw [plan_of_no_services hservices]
      exact ⟨[], rfl⟩
  | file _ _ => exact ⟨[], (List.append_nil _).symm⟩
  | report _ _ => exact ⟨[_], rfl⟩

end ComesTo

end

/-- Every method of the file is well formed, and methods that share a request type
of its package agree on access. -/
structure WellFormed (s : Schema) (f : SchemaFile) : Prop where
  methods : ∀ service m, (service, m) ∈ f.methods → m.WellFormed s
  keys : ∀ m ∈ f.resolvedMethods s, ∀ n ∈ f.resolvedMethods s,
    m.request = n.request → s.HasIn f.package m.request →
      m.accessKey = n.accessKey

theorem wellFormed_iff_forall_not_fault {s : Schema} {f : SchemaFile} :
    f.WellFormed s ↔ ∀ d, ¬ f.Fault s d := by
  constructor
  · intro hwell d hfault
    cases hfault with
    | method hmem hfault =>
        exact Method.wellFormed_iff_forall_not_fault.mp
          (hwell.methods _ _ hmem) d hfault
    | conflict hconflict =>
        exact ResolvedMethod.forall_not_conflictIn_iff.mpr hwell.keys d
          hconflict
  · intro hnone
    constructor
    · intro service m hmem
      apply Method.wellFormed_iff_forall_not_fault.mpr
      intro d hfault
      exact hnone d (Fault.method hmem hfault)
    · apply ResolvedMethod.forall_not_conflictIn_iff.mp
      intro d hconflict
      exact hnone d (Fault.conflict hconflict)

end SchemaFile

/-!
## Runs
-/

theorem exists_generate_files {s : Schema} {options : Options}
    {files : List SchemaFile}
    (rendered : ∀ f ∈ files, f.Renders s options) (start : Output) :
    ∃ output,
      files.foldlM (fun output file => do
        return output.add (← file.generate s options)) start =
          (.ok output : Except IllegalName Output) ∧
      ∀ d, d ∈ output.diagnostics.items ↔
        d ∈ start.diagnostics.items ∨ ∃ f ∈ files, f.Fault s d := by
  induction files generalizing start with
  | nil => exact ⟨start, rfl, by simp⟩
  | cons f rest ih =>
      rcases SchemaFile.exists_generate_of_renders
        (rendered f List.mem_cons_self) with ⟨file, hfile⟩
      rcases ih (fun g hg => rendered g (List.mem_cons_of_mem f hg))
        (start.add (file, (f.plan s).faults)) with ⟨output, hrun, hreports⟩
      refine ⟨output, ?_, ?_⟩
      · rw [List.foldlM_cons, hfile]
        exact hrun
      · intro d
        rw [hreports, Output.add, Diagnostics.mem_reportAll,
          SchemaFile.mem_plan_faults_iff, List.exists_mem_cons_iff, or_assoc]

/-- A run over files that can be laid out is clean if and only if all of them are
well formed, and it reports every fault of every file. -/
theorem generate_clean_iff_wellFormed (s : Schema) (options : Options)
    (rendered : ∀ f ∈ s.files, f.Renders s options) :
    ∃ output, generate s options = .ok output ∧
      (output.diagnostics.items = [] ↔ ∀ f ∈ s.files, f.WellFormed s) ∧
      ∀ d, d ∈ output.diagnostics.items ↔ ∃ f ∈ s.files, f.Fault s d := by
  rcases exists_generate_files rendered {} with ⟨output, hrun, hreports⟩
  have hfaults : ∀ d, d ∈ output.diagnostics.items ↔
      ∃ f ∈ s.files, f.Fault s d := by
    intro d
    rw [hreports]
    simp
  refine ⟨output, hrun, ?_, hfaults⟩
  rw [List.eq_nil_iff_forall_not_mem]
  constructor
  · intro hnone f hf
    apply SchemaFile.wellFormed_iff_forall_not_fault.mpr
    intro d hfault
    exact hnone d ((hfaults d).mpr ⟨f, hf, hfault⟩)
  · intro hwell d hmem
    rcases (hfaults d).mp hmem with ⟨f, hf, hfault⟩
    exact SchemaFile.wellFormed_iff_forall_not_fault.mp (hwell f hf) d hfault

def noteSchema : Schema :=
  { messages :=
      [{ package := "", name := "Note", resourceType := some "note"
         fields :=
          [⟨"id", .single (.scalar .string), false, false, ⟨true, false, none⟩⟩,
            ⟨"tags", .list (.scalar .string), false, false,
              ⟨false, false, some "tags"⟩⟩] }]
    files :=
      [{ name := "notes.proto", package := ""
         services :=
          [⟨"Notes",
            [{ name := "Get", input := ⟨"Note"⟩, permission := some "view" },
              { name := "Put", input := ⟨"Note"⟩, permission := some "edit" },
              { name := "Ping", input := ⟨"Empty"⟩, isPublic := true }]⟩] }] }

theorem generate_noteSchema_reports :
    (∀ f ∈ noteSchema.files, f.Renders noteSchema {}) ∧
    ∃ output, generate noteSchema {} = .ok output ∧
      (output.diagnostics.items = [] ↔
        ∀ f ∈ noteSchema.files, f.WellFormed noteSchema) ∧
      ∀ d, d ∈ output.diagnostics.items ↔
        ∃ f ∈ noteSchema.files, f.Fault noteSchema d := by
  have rendered : ∀ f ∈ noteSchema.files, f.Renders noteSchema {} := by
    intro f hf
    rw [List.mem_singleton.mp hf]
    apply SchemaFile.renders_of_any rfl
    cbv
  exact ⟨rendered, generate_clean_iff_wellFormed noteSchema {} rendered⟩

end AccessChecks
