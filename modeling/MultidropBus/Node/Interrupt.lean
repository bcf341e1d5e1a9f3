import MultidropBus.Node.Basic

/-!
# The interrupt handler

One interrupt serves reception, transmission and the requests of the node itself. A pass of the
handler takes events from the line until the driver yields none, and signals activity if there were
any. Then it kicks the transmitter, because a requested interrupt carries no flag, and gives it at
most one more event.
-/

namespace MultidropBus.Node

/-- Takes events from the line, at most `room` of them, and tells whether there was one. -/
def receiveEvents (n : Node) : Nat → Bool × Node
  | 0 => (false, n)
  | room + 1 =>
    match n.serial.readEvent n.board with
    | (none, board) => (false, { n with board := board })
    | (some event, board) =>
      let received := n.station.receive.receive event
      let n := { n with board := board, serial := n.serial.filterAll received.2 }
      (true, ((n.setReceive received.1).receiveEvents room).2)

/-- Gives one event to the transmitter. -/
def pump (n : Node) (event : TransmitEvent) : Node :=
  let pumped := n.station.transmit.pump event
  n.setTransmit pumped.1 pumped.2

/-- One pass of the handler. Every event uses up an arrival, so there are no more events than
arrivals; the last look finds none. -/
def interrupt (n : Node) : Node :=
  if !n.installed then n
  else
    let taken := n.receiveEvents (n.board.arrivals.length + 1)
    let n := if taken.1 then { taken.2 with activity := true } else taken.2
    let n := n.pump .kick
    match SerialDriver.pendingEvent n.board with
    | (some event, board) => { n with board := board }.pump event
    | (none, board) => { n with board := board }

/-- The serial interface raises its interrupt: more words arrived, and the transmit flags are as
given. Requests made so far are served with it. -/
def raiseInterrupt (n : Node) (arrivals : List Arrival) (transmitEmpty transmitComplete : Bool) :
    Node :=
  interrupt { n with
    board := { n.board with
      arrivals := n.board.arrivals ++ arrivals
      transmitEmpty := transmitEmpty
      transmitComplete := transmitComplete
      requests := 0 } }

end MultidropBus.Node
