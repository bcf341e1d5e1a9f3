import MultidropBus.Line.DriverEnable
import MultidropBus.Line.Event
import MultidropBus.Line.Settings

/-!
# A recording line

A line that carries out every action by writing it down: how often the address filter was armed,
which bytes were written with which mark, which interrupts are enabled, where the driver-enable pin
stands. The log of written bytes holds 256 entries. A byte that finds it full is refused, and the
refusal ends the run: nothing that the station would have done after it takes place.
-/

namespace MultidropBus

/-- The number of bytes that a recording line can log. -/
def recorderCapacity : Nat := 256

structure LineRecorder where
  filterArmed : Bool := false
  /-- How often filtering was armed. -/
  arms : Nat := 0
  /-- How often filtering was disarmed. -/
  disarms : Nat := 0
  /-- Whether the next byte written carries the address mark. -/
  nextIsAddress : Bool := false
  /-- The bytes written so far, each with its address mark. -/
  written : List (UInt8 × Bool) := []
  listensBufferEmpty : Bool := false
  listensComplete : Bool := false
  /-- How often the transmit interrupt was requested. -/
  requests : Nat := 0
  settings : Option LineSettings := none
  driveHigh : Bool := false
  /-- How often the driver-enable pin went from low to high. -/
  driveRises : Nat := 0
deriving DecidableEq, Repr

/-- The byte, with its address mark, that found the log full. -/
structure LogFull where
  byte : UInt8
  address : Bool
deriving DecidableEq, Repr

namespace LineRecorder

def filter (r : LineRecorder) : FilterAction → LineRecorder
  | .arm => { r with filterArmed := true, arms := r.arms + 1 }
  | .disarm => { r with filterArmed := false, disarms := r.disarms + 1 }

def filterAll (r : LineRecorder) (actions : List FilterAction) : LineRecorder :=
  actions.foldl filter r

def listens (r : LineRecorder) : TransmitInterrupt → Bool
  | .bufferEmpty => r.listensBufferEmpty
  | .complete => r.listensComplete

def setListening (r : LineRecorder) (on : Bool) : TransmitInterrupt → LineRecorder
  | .bufferEmpty => { r with listensBufferEmpty := on }
  | .complete => { r with listensComplete := on }

/-- Only a change from low to high counts as a rise. -/
def drive (r : LineRecorder) (high : Bool) : LineRecorder :=
  { r with
    driveHigh := high
    driveRises := if high && !r.driveHigh then r.driveRises + 1 else r.driveRises }

/-- The address mark is used up by the next byte, and by that byte only. -/
def write (r : LineRecorder) (byte : UInt8) : Except LogFull LineRecorder :=
  if r.written.length < recorderCapacity then
    .ok { r with nextIsAddress := false, written := r.written ++ [(byte, r.nextIsAddress)] }
  else .error ⟨byte, r.nextIsAddress⟩

def perform (r : LineRecorder) : TransmitAction → Except LogFull LineRecorder
  | .markAddress => .ok { r with nextIsAddress := true }
  | .write byte => r.write byte
  | .listen source => .ok (r.setListening true source)
  | .unlisten source => .ok (r.setListening false source)
  | .drive high => .ok (r.drive high)
  | .requestInterrupt => .ok { r with requests := r.requests + 1 }

/-- Carries out actions in order, up to the first refusal. -/
def performAll (r : LineRecorder) : List TransmitAction → Except LogFull LineRecorder
  | [] => .ok r
  | action :: rest =>
    match r.perform action with
    | .ok r => r.performAll rest
    | .error e => .error e

def configure (r : LineRecorder) (settings : LineSettings) : LineRecorder :=
  { r with settings := some settings }

def clearWritten (r : LineRecorder) : LineRecorder := { r with written := [] }

/-- Whether the pin stands at the level at which the transceiver drives the bus. -/
def isDriving (r : LineRecorder) (activeLow : Bool) : Bool :=
  DriverEnable.isAsserted ⟨activeLow, r.driveHigh⟩

end LineRecorder

end MultidropBus
