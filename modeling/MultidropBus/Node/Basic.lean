import MultidropBus.Board.Serial
import MultidropBus.Log.Entry
import MultidropBus.Poll.Answer
import MultidropBus.Station

/-!
# The state of a node

A node is a keypad on the bus. Its interrupt handler owns the receiver and the transmitter of a
station, its bus task the poll side and the outbox, its key task the key. The handler wakes the bus
task by raising the activity signal; the key task hands over key codes in a channel of four; a
ticker asks for statistics once a minute. A signal holds one value until it is taken.
-/

namespace MultidropBus

/-- Key codes that can wait for the bus task. -/
def keyChannelSize : Nat := 4

/-- How long a key settles after an edge, in milliseconds. -/
def debounceTime : Nat := 20

/-- How often statistics are asked for, in milliseconds. -/
def statisticsInterval : Nat := 60000

/-- The code of the only key. -/
def keyCode : UInt8 := 1

inductive MainTask
  /-- The serial interface refused its settings, and the node stopped. -/
  | halted (e : SettingsError)
  /-- Everything runs; the next statistics are due at the given time. -/
  | ticking (due : Nat)
deriving DecidableEq, Repr

/-- Where the bus task stands. Each state but the first three is followed by one operation on the
station, and interrupts may come in between any two of them. -/
inductive BusTask
  | absent
  | spawned
  /-- Waiting for activity, a key code or a request for statistics. -/
  | waiting
  /-- About to look at the status of the bus. -/
  | examining
  /-- About to copy a whole frame. -/
  | copying
  /-- About to handle the copy of a frame. -/
  | handling (bytes : Bytes)
  /-- About to retire a frame. -/
  | retiring
  /-- About to skip a byte. -/
  | skipping
  /-- About to recover from a fault. -/
  | recovering
deriving DecidableEq, Repr

inductive KeyTask
  | absent
  | spawned
  /-- Waiting for a falling edge after the given number of them. -/
  | awaitingFall (seen : Nat)
  /-- Letting the key settle until the given time. -/
  | settling (due : Nat)
  /-- Waiting for a rising edge after the given number of them. -/
  | awaitingRise (seen : Nat)
deriving DecidableEq, Repr

structure Node where
  identity : Identity
  board : Board
  /-- The serial driver inside the interrupt handler. -/
  serial : SerialDriver
  station : Station defaultRingSize
  outbox : Outbox defaultOutboxDepth
  /-- The interrupt handler is in place and its interrupt enabled. -/
  installed : Bool
  /-- The handler received something since the bus task last took the signal. -/
  activity : Bool
  /-- Key codes on their way to the bus task. -/
  keys : List UInt8
  /-- Statistics were asked for. -/
  statisticsRequested : Bool
  main : MainTask
  bus : BusTask
  key : KeyTask
  /-- Milliseconds since start. -/
  clock : Nat
  keyHigh : Bool
  /-- Falling edges of the key pin so far. -/
  falls : Nat
  /-- Rising edges of the key pin so far. -/
  rises : Nat
  log : List LogEntry
deriving DecidableEq, Repr

namespace Node

def write (n : Node) (entry : LogEntry) : Node := { n with log := n.log ++ [entry] }

/-- Puts a new receive path in place. -/
def setReceive (n : Node) (path : ReceivePath defaultRingSize) : Node :=
  { n with station := { n.station with receive := path } }

/-- Puts a new transmit path in place and carries out what it asked for. -/
def setTransmit (n : Node) (path : TransmitPath) (actions : List TransmitAction) : Node :=
  let performed := n.serial.performAll n.board actions
  { n with
    station := { n.station with transmit := path }
    serial := performed.1
    board := performed.2 }

end Node

end MultidropBus
