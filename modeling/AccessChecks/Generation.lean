import AccessChecks.Access
import AccessChecks.Options

/-!
# Generation

## Claims

Within a file the first method of each request type claims it, provided that the
type is known and belongs to the package of the file.  A later method with the
same request either agrees on access or is in conflict.

## Files

Every file with a service yields one generated file with an implementation for
each claimed request type.  Loop variables are numbered through a file.
-/

namespace AccessChecks

structure Claim where
  method : ResolvedMethod
  request : Message
deriving DecidableEq, Repr, Inhabited

structure Plan where
  claims : List Claim := []
  faults : List Diagnostic := []
deriving DecidableEq, Repr, Inhabited

namespace Plan

def claimFor (schema : Schema) (package : String) (p : Plan)
    (m : ResolvedMethod) : Plan :=
  match schema.message? m.request with
  | none => p
  | some request =>
      if request.package ≠ package then p
      else
        match p.claims.find? fun c => c.method.request == m.request with
        | none => { p with claims := p.claims ++ [⟨m, request⟩] }
        | some first =>
            if first.method.accessKey = m.accessKey then p
            else
              let conflict :=
                .conflictingRequestType m.request.name first.method.label
                  m.label
              { p with faults := p.faults ++ [conflict] }

def addService (schema : Schema) (package : String) (p : Plan)
    (s : Service) : Plan :=
  let resolved := s.resolve schema
  resolved.1.foldl (claimFor schema package)
    { p with faults := p.faults ++ resolved.2 }

end Plan

namespace SchemaFile

def plan (schema : Schema) (f : SchemaFile) : Plan :=
  f.services.foldl (Plan.addService schema f.package) {}

end SchemaFile

structure GeneratedFile where
  name : String
  content : String
deriving DecidableEq, Repr, Inhabited

def outputName (source suffix : String) : String :=
  let name := source.toList
  let ending := ".proto".toList
  let stem :=
    if ending.isSuffixOf name then name.take (name.length - ending.length)
    else name
  String.ofList stem ++ suffix

def header (source : String) : String :=
  "// @generated by protoc-gen-permit from " ++ source ++ ". DO NOT EDIT.\n\n"

namespace Claim

def implementation (c : Claim) : Emission Implementation := do
  let body ← c.method.body
  Emission.implementation c.request body

end Claim

def implementations (claims : List Claim) :
    Except IllegalName (List Implementation) :=
  ((claims.mapM Claim.implementation).run.run 0).1

namespace SchemaFile

/-- The faults of a file, and the file generated from it.  A file without services
yields none, and neither does code that cannot be read, which is a fault. -/
def generate (schema : Schema) (options : Options) (f : SchemaFile) :
    Except IllegalName (Option GeneratedFile × List Diagnostic) := do
  if f.services.isEmpty then return (none, [])
  let plan := f.plan schema
  let items ← implementations plan.claims
  match options.runtime.page items with
  | .ok page =>
      let content := header f.name ++ page
      return (some ⟨outputName f.name options.fileSuffix, content⟩, plan.faults)
  | .error reason => return (none, plan.faults ++ [.render f.name reason])

end SchemaFile

structure Output where
  files : List GeneratedFile := []
  diagnostics : Diagnostics := {}
deriving DecidableEq, Repr, Inhabited

namespace Output

def isOk (o : Output) : Bool :=
  o.diagnostics.isEmpty

def add (o : Output) (file : Option GeneratedFile × List Diagnostic) : Output :=
  { files := o.files ++ file.1.toList
    diagnostics := o.diagnostics.reportAll file.2 }

end Output

/-- Generates all files of a schema.  Faults do not stop the run; a name that is
no identifier does. -/
def generate (schema : Schema) (options : Options) :
    Except IllegalName Output :=
  schema.files.foldlM
    (fun output file => do
      return output.add (← file.generate schema options))
    {}

end AccessChecks
