import MultidropBus.Fault
import MultidropBus.Frame.Codec
import MultidropBus.Identity.Basic

/-!
# The receive path of a station

Two sides share the ring and the fault latch. The receiver runs in the interrupt: it waits for an
address byte that the identity accepts, follows the frame behind it byte by byte, and stores what it
takes in the ring. The poll side finds the frames again in the ring and keeps its own account of
what it retired, skipped and flushed.

The ring, the latch and the receiver's counters outlive a restart. The state of the receiver and
everything on the poll side start anew.
-/

namespace MultidropBus

/-- What the receiver counts. -/
structure ReceiveCounters where
  /-- Address bytes for this station. -/
  accepted : Nat := 0
  /-- Frames received up to their announced length. -/
  completed : Nat := 0
  /-- Address bytes for others. -/
  foreign : Nat := 0
  /-- Headers that failed their check or announced too long a frame. -/
  rejected : Nat := 0
  lineErrors : Nat := 0
  /-- Bytes lost to a full ring. -/
  overflows : Nat := 0
  /-- Frames cut short by a new address byte. -/
  truncated : Nat := 0
deriving DecidableEq, Repr

def ReceiveCounters.countFault (c : ReceiveCounters) : FaultKind → ReceiveCounters
  | .line _ => { c with lineErrors := c.lineErrors + 1 }
  | .overflow => { c with overflows := c.overflows + 1 }
  | .truncated => { c with truncated := c.truncated + 1 }

/-- A frame of which some bytes have come in. -/
structure InFlight where
  /-- The position of its first byte. -/
  start : Cursor
  /-- How many of its bytes are stored. -/
  received : Nat
  /-- Its header, as far as received. -/
  header : Vector UInt8 headerSize
  /-- Its whole length, once the header is in. -/
  frameLength : Option Nat
deriving DecidableEq, Repr

def InFlight.begin (start : Cursor) : InFlight :=
  ⟨start, 0, Vector.replicate headerSize 0, none⟩

inductive ReceiverState
  /-- Waiting for an address byte for this station. -/
  | filtering
  /-- Inside a frame for this station. -/
  | receiving (frame : InFlight)
deriving DecidableEq, Repr

/-- What only the poll side knows. -/
structure PollSide where
  /-- The number of the last fault handled. -/
  handled : Nat := 0
  /-- Frames retired. -/
  retired : Nat := 0
  /-- Bytes skipped after a bad header. -/
  skipped : Nat := 0
  /-- Bytes given up with faults. -/
  flushed : Nat := 0
  /-- The buffer into which frames are copied for reading; it keeps the bytes of earlier ones. -/
  snapshot : Bytes := List.replicate maxFrameSize 0
deriving DecidableEq, Repr

structure ReceivePath (size : RingSize) where
  identity : Identity
  ring : Ring size
  faults : FaultLatch
  counters : ReceiveCounters
  state : ReceiverState
  poll : PollSide
deriving DecidableEq, Repr

namespace ReceivePath

variable {size : RingSize}

def fresh (identity : Identity) : ReceivePath size :=
  ⟨identity, .empty, .empty, {}, .filtering, {}⟩

/-- Hands the buffers to a new receiver and a new poll side. -/
def restart (p : ReceivePath size) (identity : Identity) : ReceivePath size :=
  ⟨identity, p.ring, p.faults, p.counters, .filtering, {}⟩

def isReceiving (p : ReceivePath size) : Bool :=
  match p.state with
  | .filtering => false
  | .receiving _ => true

end ReceivePath

end MultidropBus
