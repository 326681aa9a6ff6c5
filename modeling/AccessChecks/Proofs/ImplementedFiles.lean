import AccessChecks.Proofs.IsolatedFiles
import AccessChecks.Proofs.OnePerRequest

/-!
# Requests of several files

## Results of a run

A run puts the results of its files together: the generated files in order, and the
reports of all of them.

## Reports of a file

Two methods of a file that disagree on a request of its package are reported, the later
one of them or both against the first method for the request.

## Implementations of a run

Every file keeps its own claims.  So a request is implemented once in the code for each
file of its package that uses it, and methods of different files are not compared.
-/

namespace AccessChecks

open ResolvedMethod

variable {s : Schema} {options : Options}

/-!
## Results of a run
-/

def SchemaFile.Reports (s : Schema) (options : Options) (f : SchemaFile)
    (d : Diagnostic) : Prop :=
  ∃ result, f.generate s options = .ok result ∧ d ∈ result.2

theorem SchemaFile.reports_iff {f : SchemaFile}
    {result : Option GeneratedFile × List Diagnostic}
    (generated : f.generate s options = .ok result) {d : Diagnostic} :
    f.Reports s options d ↔ d ∈ result.2 := by
  constructor
  · intro h
    rcases h with ⟨other, hother, hd⟩
    cases generated.symm.trans hother
    exact hd
  · intro hd
    exact ⟨result, generated, hd⟩

theorem exists_results_of_foldlM {files : List SchemaFile} {start output : Output}
    (h : files.foldlM (fun output file => do
      return output.add (← file.generate s options)) start =
        (.ok output : Except IllegalName Output)) :
    ∃ results,
      List.Forall₂ (fun f result => SchemaFile.generate s options f = .ok result)
        files results ∧
      output.files = start.files ++ results.flatMap (fun result => result.1.toList) ∧
      ∀ d, d ∈ output.diagnostics.items ↔
        d ∈ start.diagnostics.items ∨ ∃ f ∈ files, f.Reports s options d := by
  induction files generalizing start with
  | nil =>
      cases h
      refine ⟨[], List.Forall₂.nil, ?_, ?_⟩
      · simp
      · simp
  | cons f rest ih =>
      rw [List.foldlM_cons] at h
      cases hfile : f.generate s options with
      | error e =>
          rw [hfile] at h
          cases h
      | ok result =>
          rw [hfile] at h
          rcases ih h with ⟨results, hresults, hfiles, hreports⟩
          refine ⟨result :: results, List.Forall₂.cons hfile hresults, ?_, ?_⟩
          · rw [hfiles, Output.add, List.flatMap_cons, List.append_assoc]
          · intro d
            rw [hreports, Output.add, Diagnostics.mem_reportAll,
              List.exists_mem_cons_iff, SchemaFile.reports_iff hfile, or_assoc]

theorem exists_results_of_generate {output : Output}
    (generated : generate s options = .ok output) :
    ∃ results,
      List.Forall₂ (fun f result => SchemaFile.generate s options f = .ok result)
        s.files results ∧
      output.files = results.flatMap (fun result => result.1.toList) ∧
      ∀ d, d ∈ output.diagnostics.items ↔ ∃ f ∈ s.files, f.Reports s options d := by
  rcases exists_results_of_foldlM generated with ⟨results, hresults, hfiles, hreports⟩
  refine ⟨results, hresults, hfiles, ?_⟩
  intro d
  rw [hreports]
  simp

namespace SchemaFile

variable {f : SchemaFile}

/-!
## Reports of a file
-/

theorem mem_reports_iff_conflictIn
    {result : Option GeneratedFile × List Diagnostic}
    (generated : f.generate s options = .ok result) {d : Diagnostic}
    (hd : d.isConflict = true) :
    d ∈ result.2 ↔ ConflictIn s f.package (f.resolvedMethods s) d := by
  rcases exists_comesTo_of_generate generated with ⟨_, _, comes⟩
  rcases comes.exists_reports with ⟨reasons, hfaults⟩
  rw [hfaults, List.mem_append, mem_plan_faults_iff]
  constructor
  · intro h
    rcases h with hfault | hrender
    · cases hfault with
      | method _ hmethod =>
          rw [hmethod.not_isConflict] at hd
          cases hd
      | conflict hconflict => exact hconflict
    · rcases List.mem_map.mp hrender with ⟨reason, _, hreason⟩
      rw [← hreason] at hd
      cases hd
  · intro hconflict
    exact Or.inl (Fault.conflict hconflict)

end SchemaFile

theorem ResolvedMethod.conflictIn_of_accessKey_ne {package : String}
    {methods : List ResolvedMethod} {first m : ResolvedMethod} (hm : m ∈ methods)
    (hin : s.HasIn package m.request)
    (hfirst : firstFor? methods m.request = some first)
    (hkeys : first.accessKey ≠ m.accessKey) :
    ConflictIn s package methods
      (.conflictingRequestType m.request.name first.label m.label) := by
  rcases List.append_of_mem hm with ⟨before, after, hsplit⟩
  refine ⟨before, m, after, hsplit, Conflict.keys hin ?_ hkeys⟩
  rw [hsplit, firstFor?, List.find?_append, List.find?_cons, BEq.rfl, ← firstFor?]
    at hfirst
  cases hbefore : firstFor? before m.request with
  | none =>
      rw [hbefore] at hfirst
      cases hfirst
      exact absurd rfl hkeys
  | some other =>
      rw [hbefore] at hfirst
      exact hfirst

theorem ResolvedMethod.exists_conflictIn_of_accessKey_ne {package : String}
    {methods : List ResolvedMethod} {m n : ResolvedMethod} (hm : m ∈ methods)
    (hn : n ∈ methods) (hsame : m.request = n.request)
    (hin : s.HasIn package m.request) (hkeys : m.accessKey ≠ n.accessKey) :
    ∃ first later, firstFor? methods m.request = some first ∧
      (later = m ∨ later = n) ∧
      ConflictIn s package methods
        (.conflictingRequestType m.request.name first.label later.label) := by
  cases hfirst : firstFor? methods m.request with
  | none => exact absurd rfl (firstFor?_eq_none_iff.mp hfirst m hm)
  | some first =>
      by_cases hagrees : first.accessKey = m.accessKey
      · rw [← hagrees] at hkeys
        refine ⟨first, n, rfl, Or.inr rfl, ?_⟩
        rw [hsame] at hin hfirst ⊢
        exact conflictIn_of_accessKey_ne hn hin hfirst hkeys
      · exact ⟨first, m, rfl, Or.inl rfl,
          conflictIn_of_accessKey_ne hm hin hfirst hagrees⟩

namespace SchemaFile

variable {f : SchemaFile}

/-!
## Implementations of a run
-/

/-- The generated file has one implementation for each of the requests, with the body
of the first method of its source for it. -/
structure Implements (s : Schema) (options : Options) (f : SchemaFile)
    (requests : List MessageRef) (g : GeneratedFile) : Prop where
  name : g.name = outputName f.name options.fileSuffix
  distinct : requests.Nodup
  content : ∃ items page, List.Forall₂ (f.ImplementsFirst s) requests items ∧
    options.runtime.page items = .ok page ∧ g.content = header f.name ++ page

theorem exists_file_of_clean {result : Option GeneratedFile × List Diagnostic}
    (generated : f.generate s options = .ok result) (clean : result.2 = []) :
    (f.services = [] ∧ result.1 = none) ∨
      (f.services ≠ [] ∧ ∃ g, result.1 = some g) := by
  rcases exists_comesTo_of_generate generated with ⟨_, _, comes⟩
  cases comes with
  | nothing hservices => exact Or.inl ⟨hservices, rfl⟩
  | file hservices _ => exact Or.inr ⟨hservices, _, rfl⟩
  | report _ _ =>
      exact absurd clean (List.append_ne_nil_of_right_ne_nil _ (List.cons_ne_nil _ _))

theorem implements_of_generate {result : Option GeneratedFile × List Diagnostic}
    (generated : f.generate s options = .ok result) {g : GeneratedFile}
    (hg : result.1 = some g) : f.Implements s options (f.ownRequests s) g := by
  rcases exists_comesTo_of_generate generated with ⟨items, hitems, comes⟩
  rcases comes.exists_page hg with ⟨page, hpage, rfl⟩
  exact
    { name := rfl
      distinct := by
        rw [ownRequests_eq]
        exact nodup_requestsIn _
      content := ⟨items, page, forall₂_implementsFirst hitems, hpage, rfl⟩ }

theorem ownRequests_of_no_services (h : f.services = []) : f.ownRequests s = [] := by
  unfold ownRequests methods
  rw [h]
  rfl

def withServices (files : List SchemaFile) : List SchemaFile :=
  files.filter fun f => !f.services.isEmpty

theorem forall₂_implements {files : List SchemaFile}
    {results : List (Option GeneratedFile × List Diagnostic)}
    (generated : List.Forall₂
      (fun f result => SchemaFile.generate s options f = .ok result) files results)
    (clean : ∀ f ∈ files, ∀ d, ¬ f.Reports s options d) :
    List.Forall₂ (fun f g => f.Implements s options (f.ownRequests s) g)
      (withServices files) (results.flatMap fun result => result.1.toList) := by
  induction generated with
  | nil => exact List.Forall₂.nil
  | @cons f result rest results hfile _ ih =>
      have hrest := ih fun other hother => clean other (List.mem_cons_of_mem f hother)
      have hclean : result.2 = [] := by
        rw [List.eq_nil_iff_forall_not_mem]
        intro d hd
        exact clean f List.mem_cons_self d ((reports_iff hfile).mpr hd)
      rw [List.flatMap_cons, withServices]
      rcases exists_file_of_clean hfile hclean with ⟨hservices, hnone⟩ | ⟨hservices, g, hg⟩
      · rw [hnone, List.filter_cons_of_neg (by simp [hservices])]
        exact hrest
      · rw [hg, List.filter_cons_of_pos (by simp [hservices])]
        exact List.Forall₂.cons (implements_of_generate hfile hg) hrest

theorem forall₂_implements_of_generate {output : Output}
    (generated : AccessChecks.generate s options = .ok output)
    (clean : output.diagnostics.items = []) :
    List.Forall₂ (fun f g => f.Implements s options (f.ownRequests s) g)
      (withServices s.files) output.files := by
  rcases exists_results_of_generate generated with
    ⟨results, hresults, hfiles, hreports⟩
  rw [hfiles]
  apply forall₂_implements hresults
  intro f hf d hd
  have hmem := (hreports d).mpr ⟨f, hf, hd⟩
  rw [clean] at hmem
  cases hmem

theorem forall₂_exists_implements {files sources : List SchemaFile}
    {generated : List GeneratedFile}
    (h : List.Forall₂ (fun f g => f.Implements s options (f.ownRequests s) g)
      sources generated) (hsources : ∀ f ∈ sources, f ∈ files) :
    List.Forall₂ (fun requests g => ∃ f ∈ files, f.Implements s options requests g)
      (sources.map (ownRequests s)) generated := by
  induction h with
  | nil => exact List.Forall₂.nil
  | @cons f g rest generated hf _ ih =>
      exact List.Forall₂.cons ⟨f, hsources f List.mem_cons_self, hf⟩
        (ih fun other hother => hsources other (List.mem_cons_of_mem f hother))

theorem countP_ownRequests (files : List SchemaFile) (target : MessageRef) :
    (((withServices files).map (ownRequests s)).countP fun requests =>
      target ∈ requests) = files.countP fun f => target ∈ f.ownRequests s := by
  rw [List.countP_map, withServices, List.countP_filter]
  apply List.countP_congr
  intro f _
  by_cases hservices : f.services = []
  · simp [ownRequests_of_no_services hservices]
  · simp [hservices]

end SchemaFile

/-- If a run reports nothing, each of its generated files has one implementation for
each of its requests, and a request is implemented in as many of them as there are
files of its package that use it.  The conflicts that a run reports are those between
methods of one file, and whenever two methods of a file disagree on a request of its
package, there is one. -/
theorem generate_implements_requests_per_file {s : Schema} {options : Options}
    {output : Output} (generated : generate s options = .ok output) :
    (output.diagnostics.items = [] →
      ∃ implemented : List (List MessageRef),
        List.Forall₂
          (fun requests g => ∃ f ∈ s.files, f.Implements s options requests g)
          implemented output.files ∧
        ∀ target, (implemented.countP fun requests => target ∈ requests) =
          s.files.countP fun f => target ∈ f.ownRequests s) ∧
    (∀ d, d.isConflict = true →
      (d ∈ output.diagnostics.items ↔
        ∃ f ∈ s.files, ConflictIn s f.package (f.resolvedMethods s) d)) ∧
    ∀ f ∈ s.files, ∀ m ∈ f.resolvedMethods s, ∀ n ∈ f.resolvedMethods s,
      m.request = n.request → s.HasIn f.package m.request →
      m.accessKey ≠ n.accessKey →
      ∃ first later, firstFor? (f.resolvedMethods s) m.request = some first ∧
        (later = m ∨ later = n) ∧
        .conflictingRequestType m.request.name first.label later.label ∈
          output.diagnostics.items := by
  rcases exists_results_of_generate generated with
    ⟨results, hresults, hfiles, hreports⟩
  have hconflicts : ∀ d, d.isConflict = true →
      (d ∈ output.diagnostics.items ↔
        ∃ f ∈ s.files, ConflictIn s f.package (f.resolvedMethods s) d) := by
    intro d hd
    rw [hreports]
    apply exists_congr
    intro f
    apply and_congr_right
    intro hf
    rcases SchemaFile.exists_mem_zip_of_forall₂ hresults hf with ⟨result, _, hresult⟩
    rw [SchemaFile.reports_iff hresult]
    exact SchemaFile.mem_reports_iff_conflictIn hresult hd
  constructor
  · intro hclean
    have himplements := SchemaFile.forall₂_implements_of_generate generated hclean
    refine ⟨_, ?_, SchemaFile.countP_ownRequests s.files⟩
    apply SchemaFile.forall₂_exists_implements himplements
    intro f hf
    exact List.mem_of_mem_filter hf
  constructor
  · exact hconflicts
  · intro f hf m hm n hn hsame hin hkeys
    rcases exists_conflictIn_of_accessKey_ne hm hn hsame hin hkeys with
      ⟨first, later, hfirst, hlater, hconflict⟩
    exact ⟨first, later, hfirst, hlater, (hconflicts _ rfl).mpr ⟨f, hf, hconflict⟩⟩

namespace Sample

def pageSchema : Schema := ⟨pages, [printFile, shredFile]⟩

theorem exists_generate_pageSchema :
    ∃ output, generate pageSchema {} = .ok output ∧ output.diagnostics.items = [] := by
  have hrendered : ∀ f ∈ pageSchema.files, f.Renders pageSchema {} := renders_pageFiles
  rcases exists_generate_files hrendered {} with ⟨output, hrun, hreports⟩
  have hfaults : ∀ f ∈ pageSchema.files, (f.plan pageSchema).faults = [] := by
    intro f hf
    rcases List.mem_cons.mp hf with hprint | hlast
    · rw [hprint]
      cbv
    · rw [List.mem_singleton.mp hlast]
      cbv
  refine ⟨output, hrun, ?_⟩
  rw [List.eq_nil_iff_forall_not_mem]
  intro d hd
  rcases (hreports d).mp hd with hstart | ⟨f, hf, hfault⟩
  · cases hstart
  · rw [← SchemaFile.mem_plan_faults_iff, hfaults f hf] at hfault
    cases hfault

end Sample

/-- The pages are implemented in two generated files, although the methods for them
disagree on access, and nothing is reported. -/
theorem pages_implemented_twice :
    ∃ output print shred printer shredder,
      generate Sample.pageSchema {} = .ok output ∧
      output.diagnostics.items = [] ∧
      output.files = [print, shred] ∧
      Sample.printFile.Implements Sample.pageSchema {} [⟨"Pages"⟩] print ∧
      Sample.shredFile.Implements Sample.pageSchema {} [⟨"Pages"⟩] shred ∧
      Sample.printFile.resolvedMethods Sample.pageSchema = [printer] ∧
      Sample.shredFile.resolvedMethods Sample.pageSchema = [shredder] ∧
      printer.request = shredder.request ∧
      printer.accessKey ≠ shredder.accessKey := by
  rcases Sample.exists_generate_pageSchema with ⟨output, hrun, hclean⟩
  have himplements := SchemaFile.forall₂_implements_of_generate hrun hclean
  have hprint : Sample.printFile.ownRequests Sample.pageSchema = [⟨"Pages"⟩] := by
    cbv
  have hshred : Sample.shredFile.ownRequests Sample.pageSchema = [⟨"Pages"⟩] := by
    cbv
  change List.Forall₂ _ [Sample.printFile, Sample.shredFile] output.files at himplements
  generalize hfiles : output.files = files at himplements
  cases himplements with
  | cons hfirst hrest =>
      cases hrest with
      | cons hsecond hnil =>
          cases hnil
          rw [hprint] at hfirst
          rw [hshred] at hsecond
          exact ⟨output, _, _, _, _, hrun, hclean, hfiles, hfirst, hsecond, rfl, rfl,
            rfl, by decide⟩

theorem generate_pages_implements_requests_per_file :
    ∃ output implemented,
      generate Sample.pageSchema {} = .ok output ∧
      output.diagnostics.items = [] ∧
      List.Forall₂
        (fun requests g => ∃ f ∈ Sample.pageSchema.files,
          f.Implements Sample.pageSchema {} requests g)
        implemented output.files ∧
      (implemented.countP fun requests => ⟨"Pages"⟩ ∈ requests) = 2 := by
  rcases Sample.exists_generate_pageSchema with ⟨output, hrun, hclean⟩
  rcases (generate_implements_requests_per_file hrun).1 hclean with
    ⟨implemented, himplemented, hcount⟩
  refine ⟨output, implemented, hrun, hclean, himplemented, ?_⟩
  rw [hcount]
  cbv

end AccessChecks
