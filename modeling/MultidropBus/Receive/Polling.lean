import MultidropBus.Receive.Basic
import MultidropBus.Receive.Detection

/-!
# The poll side of the receive path

The status of the bus is computed from the ring and the fault latch whenever it is asked for. Frames
that came in before a fault are still handed out: the poll side may look at everything up to the
start of the frame that the oldest unhandled fault abandoned. Once nothing is left in front of it
the bus is faulted, and recovery drops the abandoned bytes. After faults whose records are gone
nothing in front of the latest one can be trusted, so nothing is looked at.
-/

namespace MultidropBus

inductive BusStatus
  /-- Nothing to do, or a frame is still coming in. -/
  | idle
  | completeFrame
  /-- The oldest bytes are no acceptable header; skip one. -/
  | headerMismatch
  /-- A frame was abandoned; recover. -/
  | faulted
deriving DecidableEq, Repr

namespace ReceivePath

variable {size : RingSize}

/-- The number of bytes in the ring. -/
def buffered (p : ReceivePath size) : Nat := p.ring.occupancy

def pendingFault? (p : ReceivePath size) : Option Fault := p.faults.pending? p.poll.handled

/-- How many of the oldest bytes may be looked at. A fault whose span starts behind the read cursor
leaves none. -/
def readable (p : ReceivePath size) : Nat :=
  match p.pendingFault? with
  | none => p.buffered
  | some fault =>
    if 0 < fault.missed then 0
    else
      let ahead := (fault.record.start - p.ring.read).toNat
      if ahead ≤ p.buffered then ahead else 0

def detection (p : ReceivePath size) : Detection := p.ring.detect p.readable

def status (p : ReceivePath size) : BusStatus :=
  match p.detection with
  | .idle => if p.pendingFault?.isSome then .faulted else .idle
  | .complete _ => .completeFrame
  | .mismatch => .headerMismatch

/-- The header of the whole frame at the read cursor, if there is one. -/
def completeHeader? (p : ReceivePath size) : Option Header :=
  match p.detection with
  | .complete header => some header
  | _ => none

/-- The frame at the read cursor, read from a copy in the snapshot. It stays in the ring. -/
def currentFrame (p : ReceivePath size) : Option Frame × ReceivePath size :=
  match p.completeHeader? with
  | none => (none, p)
  | some header =>
    let bytes := (p.ring.peekWindow 0 (p.poll.snapshot.take header.frameLength)).2
    let snapshot := bytes ++ p.poll.snapshot.drop header.frameLength
    ((Frame.parse bytes).toOption, { p with poll := { p.poll with snapshot := snapshot } })

/-- The bytes of the frame at the read cursor. They stay in the ring. -/
def copyFrame? (p : ReceivePath size) : Option Bytes :=
  match p.completeHeader? with
  | none => none
  | some header =>
    if header.frameLength ≤ maxFrameSize then
      some (p.ring.peekWindow 0 (List.replicate header.frameLength 0)).2
    else none

/-- Drops the frame at the read cursor, and tells whether there was one. -/
def retire (p : ReceivePath size) : Bool × ReceivePath size :=
  match p.completeHeader? with
  | none => (false, p)
  | some header =>
    (true, { p with
      ring := (p.ring.advance header.frameLength).2
      poll := { p.poll with retired := p.poll.retired + 1 } })

/-- Drops the oldest byte, and tells whether there was one. -/
def skip (p : ReceivePath size) : Bool × ReceivePath size :=
  let advanced := p.ring.advance 1
  if advanced.1 = 0 then (false, p)
  else
    (true, { p with
      ring := advanced.2
      poll := { p.poll with skipped := p.poll.skipped + 1 } })

/-- Handles the pending fault of a faulted bus: drops everything up to the end of the abandoned
frame, and tells what the fault was. In any other state it does nothing. -/
def recover (p : ReceivePath size) : Option FaultKind × ReceivePath size :=
  if p.status ≠ .faulted then (none, p)
  else
    match p.pendingFault? with
    | none => (none, p)
    | some fault =>
      let advanced := p.ring.advanceTo fault.record.stop
      (some fault.record.kind, { p with
        ring := advanced.2
        poll := { p.poll with
          handled := fault.number
          flushed := p.poll.flushed + advanced.1 } })

end ReceivePath

end MultidropBus
