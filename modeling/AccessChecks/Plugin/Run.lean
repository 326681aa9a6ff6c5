import AccessChecks.Descriptor.Schema
import AccessChecks.Plugin.Request
import AccessChecks.Plugin.Response

/-!
# Answering requests

## Answers

Wrong options and faults in the schema are answered by a response with an error.
Options are looked at first, before any descriptor.

## Failures

A request that cannot be read, descriptors that do not fit together and a file that
is missing have no response.
-/

namespace AccessChecks

namespace Plugin

inductive Failure where
  | unreadableRequest
  | inconsistentDescriptors
  | missingFile (name : String)
  | illegalName (name : IllegalName)
deriving DecidableEq, Repr, Inhabited

namespace Failure

def message : Failure → String
  | unreadableRequest => "decoding CodeGeneratorRequest"
  | inconsistentDescriptors => "building descriptor pool"
  | missingFile name => "file `" ++ name ++ "` is not in the request"
  | illegalName name => "`" ++ name.text ++ "` is not an identifier"

end Failure

namespace Request

/-- The pool of the descriptors.  They are put together in an encoded set, which is read
as a whole. -/
def pool (r : Request) : Except Failure Descriptor.Pool :=
  match Descriptor.Pool.ofSet? (Descriptor.writeSet r.descriptors) with
  | some pool => .ok pool
  | none => .error .inconsistentDescriptors

def schema (r : Request) (annotations : String) : Except Failure Schema := do
  let pool ← r.pool
  match pool.schema annotations r.filesToGenerate with
  | .ok schema => return schema
  | .error name => throw (.missingFile name)

def respond (reader : RuntimeReader) (r : Request) : Except Failure Response :=
  match Options.ofParameter reader (r.parameter.getD "") with
  | .error e => .ok (.ofError e.message)
  | .ok options => do
      let schema ← r.schema options.annotations
      match generate schema options with
      | .ok output => return .ofOutput output
      | .error name => throw (.illegalName name)

end Request

def run (reader : RuntimeReader) (bytes : List UInt8) :
    Except Failure (List UInt8) := do
  match Request.ofBytes? bytes with
  | none => throw .unreadableRequest
  | some request =>
      let response ← request.respond reader
      return response.toBytes

end Plugin

end AccessChecks
