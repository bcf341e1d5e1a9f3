import MultidropBus.Line.Recorder
import MultidropBus.Poll.Answer
import MultidropBus.Station

/-!
# A station on a recording line

The bench wires one station and one outbox to one recording line: the receiver's address filter, the
transmitter, the driver-enable pin and the interrupt request all end in the same record. What a
station does can so be read off the record. A transmitter that fills the log ends the run.
-/

namespace MultidropBus

structure Bench (size : RingSize) (depth : Nat) where
  station : Station size
  outbox : Outbox depth
  line : LineRecorder
deriving DecidableEq, Repr

/-- What a step of the bench answers, and the bench after it. -/
abbrev Bench.Result (size : RingSize) (depth : Nat) (α : Type) :=
  Except LogFull (α × Bench size depth)

namespace Bench

variable {size : RingSize} {depth : Nat}

/-- Starts the station anew; its buffers, the outbox and the record stay. -/
def restart (b : Bench size depth) (identity : Identity) : Except LogFull (Bench size depth) :=
  let restarted := b.station.restart identity
  (b.line.performAll restarted.2).map fun line => { b with station := restarted.1, line := line }

/-- A started station with empty buffers on an empty record. -/
def start (identity : Identity) : Except LogFull (Bench size depth) :=
  restart ⟨.blank identity, .empty, {}⟩ identity

/-- Prepares the hardware for an identity: settings, armed filter, released line. -/
def initialise (b : Bench size depth) (identity : Identity) : Bench size depth :=
  let line := (b.line.configure identity.lineSettings).filter .arm
  { b with line := line.drive (DriverEnable.releasedLevel identity.driveActiveLow) }

def receive (b : Bench size depth) (event : LineEvent) : Bench size depth :=
  let received := b.station.receive.receive event
  { b with
    station := { b.station with receive := received.1 }
    line := b.line.filterAll received.2 }

def poll {α : Type} (b : Bench size depth) (step : ReceivePath size → α × ReceivePath size) :
    α × Bench size depth :=
  let done := step b.station.receive
  (done.1, { b with station := { b.station with receive := done.2 } })

def pump (b : Bench size depth) (event : TransmitEvent) : Except LogFull (Bench size depth) :=
  let pumped := b.station.transmit.pump event
  (b.line.performAll pumped.2).map fun line =>
    { b with station := { b.station with transmit := pumped.1 }, line := line }

/-- Offers bytes to the transmitter, as a frame to encode or as an encoded one. -/
def transmit (b : Bench size depth) (send : TransmitPath → SendOutcome) :
    Result size depth (Except SendError Unit) :=
  let outcome := send b.station.transmit
  (b.line.performAll outcome.actions).map fun line =>
    (outcome.result, { b with
      station := { b.station with transmit := outcome.path }
      line := line })

def answerPoll (b : Bench size depth) (frame : Frame) (own : Address) :
    Result size depth (Except SendError (Option PollMessage)) :=
  let outcome := b.station.transmit.answerPoll b.outbox frame own
  (b.line.performAll outcome.actions).map fun line =>
    (outcome.result, { b with
      station := { b.station with transmit := outcome.path }
      outbox := outcome.outbox
      line := line })

/-- Reports a free transmit register for as long as the station listens for it, at most `room`
times. -/
def feed (b : Bench size depth) : Nat → Except LogFull (Bench size depth)
  | 0 => .ok b
  | room + 1 =>
    if b.line.listensBufferEmpty && b.station.transmit.isTransmitting then do
      let b ← b.pump .bufferEmpty
      b.feed room
    else .ok b

/-- Takes the loaded frame through all its phases. No frame needs more reports of a free register
than it has bytes, and one for its end. -/
def drain (b : Bench size depth) : Except LogFull (Bench size depth) := do
  let b ← b.pump .kick
  let b ← b.feed (maxFrameSize + 1)
  b.pump .complete

end Bench

end MultidropBus
