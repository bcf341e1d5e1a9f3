import MultidropBus.Node.Basic

/-!
# The bus task

The bus task sleeps until there is activity, a key code or a request for statistics, in this order
of preference. After activity it works through the ring until the bus is idle: polls are answered
from the outbox, other frames are logged, bad headers are skipped byte by byte, faults are recovered
from. A key press becomes a frame to the keypads' group and waits in the outbox for the master's
next `send`.

A step is one operation on the station, or one decision between two of them.
-/

namespace MultidropBus

/-- The payload that reports a key: the letters `KEY`, a blank and the last digit of its code. -/
def keyPayload (code : UInt8) : Bytes := [0x4B, 0x45, 0x59, 0x20, 0x30 + code % 10]

namespace Node

def toBusTask (n : Node) (task : BusTask) : Node := { n with bus := task }

/-- Queues the report of a key. -/
def queueKey (n : Node) (code : UInt8) : Node :=
  match n.outbox.enqueue Address.pinpadEvents n.identity.address (keyPayload code) with
  | (.ok (), outbox) => { n with outbox := outbox }.write (.keyQueued code outbox.pending)
  | (.error e, outbox) => { n with outbox := outbox }.write (.keyDropped code e)

def logStatistics (n : Node) : Node :=
  let stats := n.station.stats
  n.write (.statistics stats.framesCompleted stats.framesSent stats.faults n.outbox.pending)

/-- Handles the copy of a frame: answers it if it is a poll, and logs it otherwise. -/
def handleFrame (n : Node) (bytes : Bytes) : Node :=
  match Frame.parse bytes with
  | .error e => n.write (.frameUnparseable e)
  | .ok frame =>
    let outcome := n.station.transmit.answerPoll n.outbox frame n.identity.address
    let n := { n with outbox := outcome.outbox }.setTransmit outcome.path outcome.actions
    match outcome.result with
    | .ok (some message) => n.write (.pollAnswered message frame.source)
    | .ok none => n.write (.frameReceived frame.source frame.destination frame.payload)
    | .error e => n.write (.pollAnswerFailed e)

/-- Takes the first thing that the waiting task is ready for, if there is one. -/
def select? (n : Node) : Option Node :=
  if n.activity then some ({ n with activity := false }.toBusTask .examining)
  else
    match n.keys with
    | code :: keys => some ({ n with keys := keys }.queueKey code)
    | [] =>
      if n.statisticsRequested then some { n with statisticsRequested := false }.logStatistics
      else none

/-- One step of the bus task; `none` if it has nothing to do. -/
def busStep? (n : Node) : Option Node :=
  match n.bus with
  | .absent => none
  | .spawned => some ((n.write .busTaskStarted).toBusTask .waiting)
  | .waiting => n.select?
  | .examining =>
    match n.station.receive.status with
    | .idle => some (n.toBusTask .waiting)
    | .completeFrame => some (n.toBusTask .copying)
    | .headerMismatch => some (n.toBusTask .skipping)
    | .faulted => some (n.toBusTask .recovering)
  | .copying =>
    match n.station.receive.copyFrame? with
    | some bytes => some (n.toBusTask (.handling bytes))
    | none => some (n.toBusTask .retiring)
  | .handling bytes => some ((n.handleFrame bytes).toBusTask .retiring)
  | .retiring => some ((n.setReceive n.station.receive.retire.2).toBusTask .examining)
  | .skipping => some ((n.setReceive n.station.receive.skip.2).toBusTask .examining)
  | .recovering =>
    let recovered := n.station.receive.recover
    let n := n.setReceive recovered.2
    match recovered.1 with
    | some kind => some ((n.write (.faultHandled kind)).toBusTask .examining)
    | none => some (n.toBusTask .examining)

def busSteps (n : Node) : Nat → Node
  | 0 => n
  | room + 1 =>
    match n.busStep? with
    | some n => n.busSteps room
    | none => n

/-- A bound on the steps that the bus task takes without being interrupted. Each round of four steps
uses up a byte or a fault; besides there are the start, one look at an idle bus, the signals and the
key codes. -/
def busRoom (n : Node) : Nat :=
  let path := n.station.receive
  4 * (path.buffered + path.faults.unhandled path.poll.handled) + n.keys.length + 4

/-- Runs the bus task until it waits for something. -/
def pollBus (n : Node) : Node := n.busSteps n.busRoom

end Node

end MultidropBus
