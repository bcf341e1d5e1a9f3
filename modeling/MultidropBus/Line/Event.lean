/-!
# What happens on the line, and what is asked of it

The hardware reports to a station in *events*: a received byte with its address mark, a line error,
a free transmit register, a drained shift register, or a request that the station made itself. A
station answers with *actions*, which it lists in the order in which they take effect. Every piece
of hardware behind the same station is one interpretation of these actions.
-/

namespace MultidropBus

inductive LineError
  /-- A byte arrived before the one before it was read. -/
  | overrun
  /-- The stop bit is missing. -/
  | framing
  | parity
  | noise
deriving DecidableEq, Repr

inductive LineEvent
  /-- A byte came in; `address` is its ninth bit. -/
  | byte (data : UInt8) (address : Bool)
  /-- The hardware saw an error; the byte that carried it, if any, is lost. -/
  | error (e : LineError)
deriving DecidableEq, Repr

/-- The two sources of transmit interrupts, which are enabled one by one. -/
inductive TransmitInterrupt
  /-- The transmit register can take the next byte. -/
  | bufferEmpty
  /-- The last byte is out on the line. -/
  | complete
deriving DecidableEq, Repr

inductive TransmitEvent
  | bufferEmpty
  | complete
  /-- The station asked for the interrupt because it loaded a new frame. -/
  | kick
deriving DecidableEq, Repr

/-- What the receiver asks of the hardware. -/
inductive FilterAction
  /-- Ignore data bytes until the next address byte. -/
  | arm
  /-- Deliver every byte. -/
  | disarm
deriving DecidableEq, Repr

/-- What the transmitter asks of the hardware. -/
inductive TransmitAction
  /-- Set the ninth bit of the next byte written. -/
  | markAddress
  | write (byte : UInt8)
  | listen (source : TransmitInterrupt)
  | unlisten (source : TransmitInterrupt)
  /-- Put the driver-enable pin to a level. -/
  | drive (high : Bool)
  /-- Request the transmit interrupt. -/
  | requestInterrupt
deriving DecidableEq, Repr

end MultidropBus
