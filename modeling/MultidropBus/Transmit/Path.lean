import MultidropBus.Line.DriverEnable
import MultidropBus.Line.Event
import MultidropBus.Transmit.Slot

/-!
# The transmit path of a station

The poll side loads a frame and requests the interrupt. The interrupt then takes the frame through
its phases, one event at a time:

* a waiting frame starts: the driver is enabled, the first byte is written with the address mark;
* a free transmit register takes the next byte, and after the last one the end is awaited;
* once the last stop bit is out, the driver is released.

Events that do not fit the phase are ignored, so the pump can be called on every pass of an
interrupt that serves other purposes too.
-/

namespace MultidropBus

structure TransmitPath where
  slot : TransmitSlot
  /-- The index of the next byte to write. -/
  cursor : Nat
  /-- The transceiver drives the bus while its pin is low. -/
  activeLow : Bool
  /-- Frames that are fully out. -/
  sent : Nat
deriving DecidableEq, Repr

/-- What becomes of a request to send. -/
structure SendOutcome where
  result : Except SendError Unit
  path : TransmitPath
  actions : List TransmitAction

namespace TransmitPath

def fresh (activeLow : Bool) : TransmitPath := ⟨.empty, 0, activeLow, 0⟩

/-- Hands the slot to a new transmitter, which releases the line. -/
def restart (p : TransmitPath) (activeLow : Bool) : TransmitPath × List TransmitAction :=
  (⟨p.slot, 0, activeLow, p.sent⟩, [.drive (DriverEnable.releasedLevel activeLow)])

def phase (p : TransmitPath) : TransmitPhase := p.slot.phase

def isTransmitting (p : TransmitPath) : Bool := p.phase != .idle

def setPhase (p : TransmitPath) (phase : TransmitPhase) : TransmitPath :=
  { p with slot := { p.slot with phase := phase } }

/-- Queues an encoded frame. -/
def sendFrame (p : TransmitPath) (frame : Bytes) : SendOutcome :=
  match p.slot.load frame with
  | (.ok (), slot) => ⟨.ok (), { p with slot := slot }, [.requestInterrupt]⟩
  | (.error e, slot) => ⟨.error e, { p with slot := slot }, []⟩

/-- Encodes a frame and queues it. A busy transmitter refuses before it looks at the payload. -/
def send (p : TransmitPath) (destination source : Address) (payload : Bytes) : SendOutcome :=
  if p.isTransmitting then ⟨.error .busy, p, []⟩
  else
    match Frame.encodeInto destination source payload (List.replicate maxFrameSize 0) with
    | (.ok length, buffer) => p.sendFrame (buffer.take length)
    | (.error e, _) => ⟨.error (.frame e), p, []⟩

/-- Starts the waiting frame. -/
def start (p : TransmitPath) : TransmitPath × List TransmitAction :=
  match p.slot.byte? 0 with
  | none => (p.setPhase .idle, [])
  | some first =>
    ({ p with cursor := 1 }.setPhase .sending,
      [.drive (DriverEnable.assertedLevel p.activeLow), .markAddress, .write first,
        .listen .bufferEmpty])

/-- Writes the next byte, or turns to waiting for the end after the last one. -/
def next (p : TransmitPath) : TransmitPath × List TransmitAction :=
  match p.slot.byte? p.cursor with
  | some byte => ({ p with cursor := p.cursor + 1 }, [.write byte])
  | none => (p.setPhase .draining, [.unlisten .bufferEmpty, .listen .complete])

/-- Releases the line: the stop bit of the last byte is out. -/
def finish (p : TransmitPath) : TransmitPath × List TransmitAction :=
  ({ p with sent := p.sent + 1 }.setPhase .idle,
    [.unlisten .complete, .drive (DriverEnable.releasedLevel p.activeLow)])

/-- Handles one transmit event. -/
def pump (p : TransmitPath) (event : TransmitEvent) : TransmitPath × List TransmitAction :=
  match p.phase, event with
  | .pending, .kick => p.start
  | .pending, .bufferEmpty => p.start
  | .sending, .bufferEmpty => p.next
  | .draining, .complete => p.finish
  | _, _ => (p, [])

end TransmitPath

end MultidropBus
