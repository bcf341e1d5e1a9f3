import MultidropBus.Receive.Polling
import MultidropBus.Receive.Tracking
import MultidropBus.Transmit.Path

/-!
# Stations

A station is a receive path and a transmit path side by side. They share no state, so the receiver,
the transmitter and the poll side may take turns in any order.
-/

namespace MultidropBus

structure Station (size : RingSize) where
  receive : ReceivePath size
  transmit : TransmitPath
deriving DecidableEq, Repr

/-- All that a station counts. -/
structure BusStats where
  framesAccepted : Nat
  framesCompleted : Nat
  framesRetired : Nat
  foreignAddresses : Nat
  rejectedHeaders : Nat
  lineErrors : Nat
  overflows : Nat
  truncated : Nat
  bytesSkipped : Nat
  bytesFlushed : Nat
  framesSent : Nat
deriving DecidableEq, Repr

/-- The number of faults, of all kinds. -/
def BusStats.faults (s : BusStats) : Nat := s.lineErrors + s.overflows + s.truncated

namespace Station

variable {size : RingSize}

/-- Gives the buffers of a station to a new receiver, a new transmitter and a new poll side. -/
def restart (s : Station size) (identity : Identity) : Station size × List TransmitAction :=
  let transmit := s.transmit.restart identity.driveActiveLow
  (⟨s.receive.restart identity, transmit.1⟩, transmit.2)

/-- A station with empty buffers, not yet started. -/
def blank (identity : Identity) : Station size :=
  ⟨.fresh identity, .fresh identity.driveActiveLow⟩

/-- A started station with empty buffers. -/
def start (identity : Identity) : Station size × List TransmitAction :=
  (blank identity).restart identity

def stats (s : Station size) : BusStats where
  framesAccepted := s.receive.counters.accepted
  framesCompleted := s.receive.counters.completed
  framesRetired := s.receive.poll.retired
  foreignAddresses := s.receive.counters.foreign
  rejectedHeaders := s.receive.counters.rejected
  lineErrors := s.receive.counters.lineErrors
  overflows := s.receive.counters.overflows
  truncated := s.receive.counters.truncated
  bytesSkipped := s.receive.poll.skipped
  bytesFlushed := s.receive.poll.flushed
  framesSent := s.transmit.sent

end Station

end MultidropBus
