import MultidropBus.Proofs.Receive.Delivery

/-!
# A poll side that falls behind

Only four fault records are kept, so a poll side more than four faults behind no longer knows which
bytes the lost ones gave up. It then sees no frame at all, and the only thing left for it to do is
to recover: it is given the latest fault and drops everything up to its end (`Journal.FallsBack`).
Faults may go on coming in between; only a recovery makes their number smaller. What the poll side
learned of is always the front of the surviving log, in which such a recovery leaves out the entries
older than the latest fault, and no others.
-/

namespace MultidropBus

open Segment

namespace Journal

variable {size : RingSize} {identity : Identity} {steps earlier more : List ReceiveStep}
  {j : Journal size} {ahead : List Segment}

/-! ### The next recovery -/

end Journal

end MultidropBus
