import MultidropBus.Frame.Codec

/-!
# The transmit slot

One frame at a time waits in a slot of 64 bytes. The poll side fills the slot while the transmitter
is idle; from then on it belongs to the transmit interrupt until the frame is out. Loading a short
frame leaves the tail of a longer earlier one in place, behind the length.
-/

namespace MultidropBus

inductive TransmitPhase
  /-- Nothing to send; the slot belongs to the poll side. -/
  | idle
  /-- A frame is loaded and waits for the interrupt. -/
  | pending
  /-- Its bytes are being written. -/
  | sending
  /-- All of them are written; the last one is still on its way out. -/
  | draining
deriving DecidableEq, Repr

inductive SendError
  /-- A frame is still in flight. -/
  | busy
  /-- The frame cannot be sent at all. -/
  | frame (e : FrameError)
deriving DecidableEq, Repr

structure TransmitSlot where
  bytes : Vector UInt8 maxFrameSize
  length : Nat
  phase : TransmitPhase
deriving DecidableEq, Repr

namespace TransmitSlot

def empty : TransmitSlot := ⟨Vector.replicate maxFrameSize 0, 0, .idle⟩

/-- Copies a frame in and marks it as waiting. A refused frame changes nothing. -/
def load (s : TransmitSlot) (frame : Bytes) : Except SendError Unit × TransmitSlot :=
  if s.phase ≠ .idle then (.error .busy, s)
  else if maxFrameSize < frame.length then (.error (.frame .payloadTooLarge), s)
  else if frame = [] then (.error (.frame .incomplete), s)
  else
    (.ok (), { s with
      bytes := Vector.ofFn fun i => frame.getD i s.bytes[i]
      length := frame.length
      phase := .pending })

/-- The byte of the loaded frame at an index, if the frame is that long. -/
def byte? (s : TransmitSlot) (index : Nat) : Option UInt8 :=
  if s.length ≤ index then none else s.bytes[index]?

/-- The loaded frame. -/
def frame (s : TransmitSlot) : Bytes := s.bytes.toList.take s.length

end TransmitSlot

end MultidropBus
