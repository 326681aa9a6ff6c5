import Mathlib.Data.List.Basic
import AccessChecks.Plugin.Run
import AccessChecks.Proofs.Spellings

/-!
# Requests in bytes

## Known records

A message is read from the records of its known fields.  Other records may stand
anywhere between them.

## Requests

Bytes carry a request if they spell its records in order, with records of unknown fields
between them.  The request is read from all bytes that carry it.

## Sets of descriptors

The descriptors of a request are read back from their set as they are, byte by byte.  A
descriptor whose length is no number of the wire spoils the whole set.
-/

namespace AccessChecks

namespace Wire

/-!
## Known records
-/

section

variable {κ : Type}

namespace Shape

end Shape

end

/-!
## Blocks
-/

end Wire

open Wire

namespace Plugin

namespace Request

/-!
## Requests
-/

end Request

end Plugin

/-!
## Sets of descriptors
-/

namespace Wire

end Wire

namespace Descriptor

variable {descriptors : List (List UInt8)}

end Descriptor

end AccessChecks
