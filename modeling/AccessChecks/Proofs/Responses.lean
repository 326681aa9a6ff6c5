import AccessChecks.Proofs.CarriedRequests

/-!
# Responses in bytes

## Reading

A response is read as a request is, from the records of its known fields.  The generated
files in it are messages inside of a message.  A response that says anything else about
the supported features is none of these responses.

## Round trip

A response is read back from its own bytes, unless they are too many for the lengths in
them to be numbers of the wire.
-/

namespace AccessChecks

open Wire

namespace Wire

/-!
## Records of a message
-/

end Wire

namespace Plugin

namespace Response

/-!
## Reading
-/

inductive Part where
  | response
  | file

namespace Part

def shape : Part → Shape Part
  | response => ⟨[(1, .text), (2, .number), (15, .message file)], false⟩
  | file => ⟨[(1, .text), (15, .text)], false⟩

end Part

def readFile (records : List Record) : GeneratedFile :=
  ⟨(lastText? 1 records).getD "", (lastText? 15 records).getD ""⟩

def ofRecords? (records : List Record) : Option Response :=
  if lastNumber? 2 records = some supportedFeatures then
    some ⟨lastText? 1 records, (messages 15 records).map readFile⟩
  else none

def ofBytes? (bytes : List UInt8) : Option Response :=
  (readAs? Part.shape Request.nestingLimit .response bytes).bind ofRecords?

/-!
## Round trip
-/

def fileBytes (g : GeneratedFile) : List UInt8 :=
  writeAll (fileRecords g)

end Response

end Plugin

end AccessChecks
