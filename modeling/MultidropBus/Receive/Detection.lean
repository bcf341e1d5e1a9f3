import MultidropBus.Fault
import MultidropBus.Frame.Codec

/-!
# Finding a frame at the read cursor

The oldest bytes of the ring, up to a limit, start with a whole frame, or with the beginning of one,
or with no header at all. Looking consumes nothing. A header that announces a frame longer than the
ring, or longer than any frame may be, counts as none, since waiting for its end would block the
ring for ever.
-/

namespace MultidropBus

/-- The longest frame that a ring can hold whole. -/
def frameLimit (size : RingSize) : Nat := min size.slots maxFrameSize

def Header.fits (h : Header) (size : RingSize) : Bool := h.frameLength ≤ frameLimit size

inductive Detection
  /-- Too few bytes to tell, or the beginning of a frame. -/
  | idle
  /-- A whole frame with a valid header. -/
  | complete (header : Header)
  /-- No acceptable header. -/
  | mismatch
deriving DecidableEq, Repr

/-- Looks at the oldest `available` bytes of the ring. -/
def Ring.detect {size : RingSize} (r : Ring size) (available : Nat) : Detection :=
  let buffered := min available r.occupancy
  if buffered < headerSize then .idle
  else
    match Header.validate (r.window 0 headerSize) with
    | .error _ => .mismatch
    | .ok header =>
      if !header.fits size then .mismatch
      else if header.frameLength ≤ buffered then .complete header
      else .idle

end MultidropBus
