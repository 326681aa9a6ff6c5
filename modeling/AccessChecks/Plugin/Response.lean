import AccessChecks.Generation
import AccessChecks.Wire.Shape

/-!
# Responses

A response has either the generated files or one error text.  It always says which
features of schemas are supported.
-/

namespace AccessChecks

namespace Plugin

structure Response where
  error : Option String := none
  files : List GeneratedFile := []
deriving DecidableEq, Repr, Inhabited

namespace Response

/-- The supported features: the keyword `optional` in files where every field is
optional. -/
def supportedFeatures : Nat := 1

def ofFiles (files : List GeneratedFile) : Response :=
  { files := files }

def ofError (text : String) : Response :=
  { error := some text }

/-- The response on the outcome of a generation: no files if anything is wrong. -/
def ofOutput (output : Output) : Response :=
  if output.isOk then ofFiles output.files
  else ofError output.diagnostics.text

def fileRecords (f : GeneratedFile) : List Wire.Record :=
  [.block 1 (Wire.bytesOfText f.name), .block 15 (Wire.bytesOfText f.content)]

def toRecords (r : Response) : List Wire.Record :=
  (r.error.toList.map fun text => .block 1 (Wire.bytesOfText text)) ++
    [.number 2 supportedFeatures] ++
    r.files.map fun f => .block 15 (Wire.writeAll (fileRecords f))

def toBytes (r : Response) : List UInt8 :=
  Wire.writeAll r.toRecords

end Response

end Plugin

end AccessChecks
