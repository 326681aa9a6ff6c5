import AccessChecks.Wire.Shape

/-!
# Requests

A request names the files to generate, carries one parameter text and holds the
descriptors of these files and of everything that they import.  Descriptors stay
encoded, since extensions in them are not known before all of them are read.
-/

namespace AccessChecks

namespace Plugin

structure Request where
  filesToGenerate : List String := []
  parameter : Option String := none
  descriptors : List (List UInt8) := []
deriving DecidableEq, Repr, Inhabited

namespace Request

def shape : Wire.Shape Unit :=
  ⟨[(1, .text), (2, .text), (15, .bytes)], false⟩

def nestingLimit : Nat := 100

def ofRecords (records : List Wire.Record) : Request :=
  { filesToGenerate := Wire.texts 1 records
    parameter := Wire.lastText? 2 records
    descriptors := Wire.blocks 15 records }

def ofBytes? (bytes : List UInt8) : Option Request :=
  (Wire.readAs? (fun _ => shape) nestingLimit () bytes).map ofRecords

def toRecords (r : Request) : List Wire.Record :=
  (r.filesToGenerate.map fun name => .block 1 (Wire.bytesOfText name)) ++
    (r.parameter.toList.map fun text => .block 2 (Wire.bytesOfText text)) ++
    r.descriptors.map fun bytes => .block 15 bytes

def toBytes (r : Request) : List UInt8 :=
  Wire.writeAll r.toRecords

end Request

end Plugin

end AccessChecks
