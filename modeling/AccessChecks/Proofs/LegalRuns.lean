import AccessChecks.Proofs.DecidedConfigs
import AccessChecks.Proofs.ImplementedFiles
import AccessChecks.Proofs.UsableNames

/-!
# Runs with legal names

## Runs that come to an end

A run comes to an end exactly if the implementations of every file can be made.  With
identifiers for names, this takes a type for each claimed request and nothing else.

## Names that stop a run

An underscore and a digit make an identifier, but no type.
-/

namespace AccessChecks

/-- All messages of the schema, those around them and their fields are called by
identifiers. -/
structure Schema.IsNamed (s : Schema) : Prop where
  messages : ∀ m ∈ s.messages, m.IsNamed
  fields : ∀ m ∈ s.messages, ∀ f ∈ m.fields, Name.isIdentifier f.name = true

theorem Schema.IsNamed.hasLegalFields {s : Schema} (h : s.IsNamed) : s.HasLegalFields := by
  intro m hm f hf
  rcases Name.exists_ofField (h.fields m hm f hf) with ⟨x, hx, _⟩
  exact ⟨x, hx⟩

/-!
## Runs that come to an end
-/

namespace SchemaFile

variable {s : Schema} {options : Options} {f : SchemaFile}

theorem exists_generate_iff :
    (∃ result, f.generate s options = .ok result) ↔
      ∃ items, implementations (f.plan s).claims = .ok items := by
  constructor
  · rintro ⟨result, hresult⟩
    rcases exists_comesTo_of_generate hresult with ⟨items, hitems, _⟩
    exact ⟨items, hitems⟩
  · rintro ⟨items, hitems⟩
    by_cases hservices : f.services = []
    · exact ⟨_, generate_of_no_services hservices⟩
    · rw [generate_of_services hservices, hitems]
      exact ⟨_, rfl⟩

theorem ofMessage_of_implementations {items : List Implementation}
    (h : implementations (f.plan s).claims = .ok items) :
    ∀ c ∈ (f.plan s).claims, ∃ type, Name.ofMessage c.request = .ok type := by
  have hemits := Claim.forall₂_emits h (P := fun _ => True) fun _ _ => trivial
  intro c hc
  rcases exists_mem_zip_of_forall₂ hemits hc with ⟨item, _, _, htype, _⟩
  exact ⟨item.type, htype⟩

end SchemaFile

theorem exists_foldlM_of_generate {s : Schema} {options : Options} {files : List SchemaFile}
    (h : ∀ f ∈ files, ∃ result, f.generate s options = .ok result) (start : Output) :
    ∃ output, files.foldlM (fun output file => do
      return output.add (← file.generate s options)) start =
        (.ok output : Except IllegalName Output) := by
  induction files generalizing start with
  | nil => exact ⟨start, rfl⟩
  | cons f rest ih =>
      rcases h f List.mem_cons_self with ⟨result, hresult⟩
      rw [List.foldlM_cons, hresult]
      exact ih (fun g hg => h g (List.mem_cons_of_mem f hg)) (start.add result)

theorem exists_generate_iff_forall {s : Schema} {options : Options} :
    (∃ output, generate s options = .ok output) ↔
      ∀ f ∈ s.files, ∃ result, f.generate s options = .ok result := by
  constructor
  · rintro ⟨output, houtput⟩ f hf
    rcases exists_results_of_generate houtput with ⟨results, hresults, _⟩
    rcases SchemaFile.exists_mem_zip_of_forall₂ hresults hf with ⟨result, _, hresult⟩
    exact ⟨result, hresult⟩
  · intro h
    exact exists_foldlM_of_generate h {}

theorem Schema.IsNamed.exists_generate_iff {s : Schema} (named : s.IsNamed)
    (options : Options) :
    (∃ output, generate s options = .ok output) ↔
      ∀ f ∈ s.files, ∀ c ∈ (f.plan s).claims, Name.LeadsWithLetter c.request.name := by
  have hnamed : ∀ f : SchemaFile, ∀ c ∈ (f.plan s).claims, c.request.IsNamed :=
    fun f c hc => named.messages c.request (mem_of_message? ((f.claimed_plan s).known c hc))
  rw [exists_generate_iff_forall]
  constructor
  · intro h f hf c hc
    rcases SchemaFile.exists_generate_iff.mp (h f hf) with ⟨items, hitems⟩
    exact (hnamed f c hc).exists_ofMessage_iff.mp
      (SchemaFile.ofMessage_of_implementations hitems c hc)
  · intro h f hf
    apply SchemaFile.exists_generate_iff.mpr
    rcases SchemaFile.exists_implementations_of_claims (f := f) named.hasLegalFields
      (fun c hc => (hnamed f c hc).exists_ofMessage_iff.mpr (h f hf c hc)) with
      ⟨items, hitems, _⟩
    exact ⟨items, hitems⟩

/-!
## Names that stop a run
-/

/-- Every identifier names a field, in a usable way unless it is the underscore.  A message
called by identifiers has a type path of usable names if its own name leads with a letter;
otherwise its name is put in Pascal case, which makes no identifier, and the run stops
there.  Nothing else stops a run over such names. -/
theorem legal_names_of_identifiers (name : String) (m : Message) (s : Schema)
    (options : Options) :
    (Name.isIdentifier name = true →
      ∃ x, Name.ofField name = .ok x ∧ Name.UsableFor x name) ∧
    (m.IsNamed →
      (Name.LeadsWithLetter m.name → ∃ modules type,
        Name.ofMessage m = .ok (modules ++ [type]) ∧
          List.Forall₂ Name.UsableFor modules m.parents ∧ Name.Usable type) ∧
      (¬ Name.LeadsWithLetter m.name →
        Name.ofMessage m = .error ⟨Words.pascal m.name⟩)) ∧
    (s.IsNamed →
      ((∃ output, generate s options = .ok output) ↔
        ∀ f ∈ s.files, ∀ c ∈ (f.plan s).claims,
          Name.LeadsWithLetter c.request.name)) := by
  refine ⟨?_, ?_, ?_⟩
  · intro h
    exact Name.exists_ofField h
  · intro named
    exact ⟨named.exists_ofMessage, named.ofMessage_eq_error⟩
  · intro named
    exact named.exists_generate_iff options

namespace Sample

def openSchema (m : Message) : Schema :=
  { messages := [m]
    files := [{
      name := "t.proto", package := "", services := [{
        name := "S", methods := [{ name := "Get", input := m.reference, isPublic := true }] }] }] }

def digitMessage : Message :=
  { package := "", name := "_1" }

def keywordMessage : Message :=
  { package := "", parents := ["Type", "_"], name := "__self"
    fields := [⟨"crate", .single (.scalar .string), false, false, {}⟩,
      ⟨"_2Fn", .single (.scalar .string), false, false, {}⟩] }

theorem isNamed_openSchema {m : Message} (named : m.IsNamed)
    (hfields : ∀ f ∈ m.fields, Name.isIdentifier f.name = true) :
    (openSchema m).IsNamed := by
  constructor
  · intro other hother
    rw [List.mem_singleton.mp hother]
    exact named
  · intro other hother
    rw [List.mem_singleton.mp hother]
    exact hfields

end Sample

/-- An underscore and a digit are an identifier, but as the name of a claimed request they
stop the run.  The underscore alone names a field in a way that is not usable. -/
theorem generate_underscore_digit :
    (Sample.openSchema Sample.digitMessage).IsNamed ∧
      Name.ofMessage Sample.digitMessage = .error ⟨"1"⟩ ∧
      generate (Sample.openSchema Sample.digitMessage) {} = .error ⟨"1"⟩ ∧
      Name.isIdentifier "_" = true ∧ Name.ofField "_" = .ok "_" ∧ ¬ Name.Usable "_" := by
  have named : Sample.digitMessage.IsNamed := ⟨by decide, by decide⟩
  refine ⟨Sample.isNamed_openSchema named (by decide), ?_, ?_, ?_, ?_, ?_⟩
  · cbv
  · cbv
  · decide
  · decide
  · exact Name.not_usable_underscore

theorem legal_names_of_identifiers_keywords :
    (∃ x, Name.ofField "_2Fn" = .ok x ∧ Name.UsableFor x "_2Fn") ∧
      (∃ modules type, Name.ofMessage Sample.keywordMessage = .ok (modules ++ [type]) ∧
        List.Forall₂ Name.UsableFor modules ["Type", "_"] ∧ Name.Usable type) ∧
      ∃ output, generate (Sample.openSchema Sample.keywordMessage) {} = .ok output := by
  have named : Sample.keywordMessage.IsNamed := ⟨by decide, by decide⟩
  have hleads : Name.LeadsWithLetter Sample.keywordMessage.name := by
    decide
  have namedSchema := Sample.isNamed_openSchema named (by decide)
  rcases legal_names_of_identifiers "_2Fn" Sample.keywordMessage
    (Sample.openSchema Sample.keywordMessage) {} with ⟨hfield, hmessage, hrun⟩
  refine ⟨hfield (by decide), (hmessage named).1 hleads, ?_⟩
  apply (hrun namedSchema).mpr
  intro f _ c hc
  have hmem := Schema.mem_of_message? ((f.claimed_plan _).known c hc)
  rw [List.mem_singleton.mp hmem]
  exact hleads

end AccessChecks
