import Mathlib.Data.List.ReduceOption
import AccessChecks.Proofs.AgreeingSchemas
import AccessChecks.Proofs.CleanRuns

/-!
# Files on their own

## Runs one after another

The outcome of a run is followed by that of another one if the files of the second are
put behind those of the first, and the reports that the first one has not made behind
those that it has.  A run over more files goes on as a run of its own would.

## One file

What is generated from a file depends on the messages, the options and the file.  Its
loop variables are numbered from one, whatever was generated before.
-/

namespace AccessChecks

namespace Diagnostics

/-- The reports of one run, then those of another one that were not made before. -/
def followedBy (ds es : Diagnostics) : Diagnostics :=
  ⟨ds.items ++ es.items.filter fun d => d ∉ ds.items⟩

theorem followedBy_assoc (ds es fs : Diagnostics) :
    (ds.followedBy es).followedBy fs = ds.followedBy (es.followedBy fs) := by
  simp only [followedBy, List.filter_append, List.filter_filter, List.append_assoc]
  congr 3
  apply List.filter_congr
  intro d _
  by_cases hd : d ∈ ds.items
  · simp [hd]
  · simp [hd]

theorem report_followedBy (ds es : Diagnostics) (d : Diagnostic) :
    (ds.followedBy es).report d = ds.followedBy (es.report d) := by
  by_cases hes : d ∈ es.items
  · have hmem : d ∈ (ds.followedBy es).items := by
      by_cases hds : d ∈ ds.items
      · simp [followedBy, hds]
      · simp [followedBy, hds, hes]
    rw [report, report, if_pos hmem, if_pos hes]
  · by_cases hds : d ∈ ds.items
    · simp [report, followedBy, hds, hes]
    · simp [report, followedBy, hds, hes]

theorem reportAll_eq_followedBy (ds : Diagnostics) (reports : List Diagnostic) :
    ds.reportAll reports = ds.followedBy (({} : Diagnostics).reportAll reports) := by
  induction reports using List.reverseRecOn with
  | nil => simp [reportAll, followedBy]
  | append_singleton reports d ih =>
      have hlast (start : Diagnostics) : start.reportAll (reports ++ [d]) =
          (start.reportAll reports).report d :=
        List.foldl_append
      rw [hlast, hlast, ih, report_followedBy]

end Diagnostics

namespace Output

def followedBy (o p : Output) : Output :=
  { files := o.files ++ p.files
    diagnostics := o.diagnostics.followedBy p.diagnostics }

theorem followedBy_assoc (o p q : Output) :
    (o.followedBy p).followedBy q = o.followedBy (p.followedBy q) := by
  simp only [followedBy, Diagnostics.followedBy_assoc, List.append_assoc]

theorem followedBy_empty (o : Output) : o.followedBy {} = o := by
  simp [followedBy, Diagnostics.followedBy]

theorem add_eq_followedBy (o : Output)
    (file : Option GeneratedFile × List Diagnostic) :
    o.add file = o.followedBy (Output.add {} file) := by
  rw [add, Diagnostics.reportAll_eq_followedBy]
  rfl

end Output

/-!
## Runs over files
-/

def generateFrom (messages : List Message) (options : Options) (start : Output)
    (files : List SchemaFile) : Except IllegalName Output :=
  files.foldlM (fun output file => do
    return output.add (← file.generate ⟨messages, []⟩ options)) start

section

variable (messages : List Message) (options : Options)

theorem generate_eq_generateFrom (files : List SchemaFile) :
    generate ⟨messages, files⟩ options = generateFrom messages options {} files := by
  have halone (f : SchemaFile) :
      f.generate ⟨messages, files⟩ options = f.generate ⟨messages, []⟩ options :=
    @SchemaFile.generate_eq_of_message?_eq ⟨messages, files⟩ ⟨messages, []⟩ rfl f
      options
  simp only [generate, generateFrom, halone]

theorem generateFrom_cons (start : Output) (f : SchemaFile) (rest : List SchemaFile) :
    generateFrom messages options start (f :: rest) = (do
      let file ← f.generate ⟨messages, []⟩ options
      generateFrom messages options (start.add file) rest) := by
  simp only [generateFrom, List.foldlM_cons, bind_assoc, pure_bind]

theorem generateFrom_eq_followedBy (start : Output) (files : List SchemaFile) :
    generateFrom messages options start files = (do
      let o ← generateFrom messages options {} files
      return start.followedBy o) := by
  induction files generalizing start with
  | nil => exact congrArg Except.ok start.followedBy_empty.symm
  | cons f rest ih =>
      rw [generateFrom_cons, generateFrom_cons, bind_assoc]
      congr 1
      funext file
      rw [ih (start.add file), ih (Output.add {} file), start.add_eq_followedBy]
      simp only [bind_assoc, pure_bind, Output.followedBy_assoc]

theorem generate_cons (f : SchemaFile) (rest : List SchemaFile) :
    generate ⟨messages, f :: rest⟩ options = (do
      let file ← f.generate ⟨messages, []⟩ options
      let later ← generate ⟨messages, rest⟩ options
      return (Output.add {} file).followedBy later) := by
  rw [generate_eq_generateFrom, generate_eq_generateFrom, generateFrom_cons]
  congr 1
  funext file
  rw [generateFrom_eq_followedBy]

theorem generate_append (front back : List SchemaFile) :
    generate ⟨messages, front ++ back⟩ options = (do
      let o ← generate ⟨messages, front⟩ options
      let p ← generate ⟨messages, back⟩ options
      return o.followedBy p) := by
  rw [generate_eq_generateFrom, generate_eq_generateFrom, generate_eq_generateFrom]
  have hsplit : generateFrom messages options {} (front ++ back) = (do
      let o ← generateFrom messages options {} front
      generateFrom messages options o back) :=
    List.foldlM_append
  rw [hsplit]
  congr 1
  funext o
  rw [generateFrom_eq_followedBy]

end

/-!
## What a file yields
-/

namespace SchemaFile

/-- What is generated from a file in a run over it alone.  Its name is made of that of
the file, and its code has the implementations for the file, with loop variables
numbered from one. -/
structure YieldsAlone (messages : List Message) (options : Options) (f : SchemaFile)
    (yielded : Option GeneratedFile) : Prop where
  run : (AccessChecks.generate ⟨messages, [f]⟩ options).map Output.files =
    .ok yielded.toList
  name : ∀ g ∈ yielded, g.name = outputName f.name options.fileSuffix
  content : ∀ g ∈ yielded, ∃ items page,
    (((f.plan ⟨messages, []⟩).claims.mapM Claim.implementation).run.run 0).1 =
      .ok items ∧
    options.runtime.page items = .ok page ∧ g.content = header f.name ++ page

theorem yieldsAlone_of_generate {messages : List Message} {options : Options}
    {f : SchemaFile} {file : Option GeneratedFile × List Diagnostic}
    (h : f.generate ⟨messages, []⟩ options = .ok file) :
    f.YieldsAlone messages options file.1 := by
  rcases exists_comesTo_of_generate h with ⟨items, hitems, comes⟩
  exact
    { run := by
        rw [generate_cons, h]
        exact congrArg Except.ok (List.append_nil _)
      name := by
        intro g hg
        rcases comes.exists_page hg with ⟨page, _, rfl⟩
        rfl
      content := by
        intro g hg
        rcases comes.exists_page hg with ⟨page, hpage, rfl⟩
        exact ⟨items, page, hitems, hpage, rfl⟩ }

theorem forall₂_yieldsAlone {messages : List Message} {options : Options}
    {files : List SchemaFile} {o : Output}
    (h : AccessChecks.generate ⟨messages, files⟩ options = .ok o) :
    ∃ yielded, List.Forall₂ (YieldsAlone messages options) files yielded ∧
      o.files = yielded.reduceOption := by
  induction files generalizing o with
  | nil =>
      cases h
      exact ⟨[], List.Forall₂.nil, rfl⟩
  | cons f rest ih =>
      rw [generate_cons] at h
      cases hfile : f.generate ⟨messages, []⟩ options with
      | error e =>
          rw [hfile] at h
          cases h
      | ok file =>
          cases hlater : AccessChecks.generate ⟨messages, rest⟩ options with
          | error e =>
              rw [hfile, hlater] at h
              cases h
          | ok later =>
              rw [hfile, hlater] at h
              cases h
              rcases ih hlater with ⟨yielded, hyielded, hfiles⟩
              refine ⟨file.1 :: yielded, ?_, ?_⟩
              · exact List.Forall₂.cons (yieldsAlone_of_generate hfile) hyielded
              · change file.1.toList ++ later.files = _
                rw [hfiles]
                cases file.1 with
                | none => rfl
                | some g => rfl

end SchemaFile

/-- A run over some files and then more of them gives the outcome of the first ones,
followed by that of a run over the others, which starts anew.  The generated files are
those that each file yields alone. -/
theorem generate_isolates_files (messages : List Message) (options : Options)
    (front back : List SchemaFile) :
    generate ⟨messages, front ++ back⟩ options =
      (do
        let o ← generate ⟨messages, front⟩ options
        let p ← generate ⟨messages, back⟩ options
        return o.followedBy p) ∧
    ∀ o, generate ⟨messages, front ++ back⟩ options = .ok o →
      ∃ yielded,
        List.Forall₂ (SchemaFile.YieldsAlone messages options) (front ++ back)
          yielded ∧
        o.files = yielded.reduceOption := by
  constructor
  · exact generate_append messages options front back
  · intro o h
    exact SchemaFile.forall₂_yieldsAlone h

namespace Sample

def pages : List Message :=
  [{ package := "", name := "Pages", resourceType := some "page"
     fields :=
      [⟨"ids", .list (.scalar .string), false, false, ⟨true, false, none⟩⟩] }]

def pageFile (name service method permission : String) : SchemaFile :=
  { name := name, package := ""
    services :=
      [⟨service,
        [{ name := method, input := ⟨"Pages"⟩, permission := some permission }]⟩] }

def printFile : SchemaFile := pageFile "print.proto" "Printer" "Print" "view"

def shredFile : SchemaFile := pageFile "shred.proto" "Shredder" "Shred" "purge"

theorem renders_pageFiles :
    ∀ f ∈ [printFile, shredFile], f.Renders ⟨pages, [printFile, shredFile]⟩ {} := by
  intro f hf
  apply SchemaFile.renders_of_any rfl
  rcases List.mem_cons.mp hf with rfl | hlast
  · cbv
  · rw [List.mem_singleton.mp hlast]
    cbv

end Sample

theorem generate_pages_isolates_files :
    ∃ o print shred,
      generate ⟨Sample.pages, [Sample.printFile, Sample.shredFile]⟩ {} = .ok o ∧
      Sample.printFile.YieldsAlone Sample.pages {} print ∧
      Sample.shredFile.YieldsAlone Sample.pages {} shred ∧
      o.files = [print, shred].reduceOption := by
  rcases exists_generate_files Sample.renders_pageFiles {} with ⟨o, hrun, -⟩
  rcases (generate_isolates_files Sample.pages {} [Sample.printFile]
    [Sample.shredFile]).2 o hrun with ⟨yielded, hyielded, hfiles⟩
  cases hyielded with
  | cons hprint hrest =>
      cases hrest with
      | cons hshred hnil =>
          cases hnil
          exact ⟨o, _, _, hrun, hprint, hshred, hfiles⟩

end AccessChecks
