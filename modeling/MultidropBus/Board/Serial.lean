import MultidropBus.Board.Registers
import MultidropBus.Identity.Basic
import MultidropBus.Line.DriverEnable
import MultidropBus.Line.Event

/-!
# The serial driver

The driver turns register reads into events and actions into register writes. The hardware can match
one address only, while a node also listens to groups and to everyone. So the driver filters by
itself: while the filter is armed, it drops data words before they reach the receiver. Of several
errors on one word the first in the order overrun, framing, parity, noise is reported, all are
cleared, and the word is lost.
-/

namespace MultidropBus

/-- What the driver remembers between interrupts. -/
structure SerialDriver where
  /-- Data words are dropped. -/
  filtering : Bool := true
  /-- The next byte written carries the address mark. -/
  nextIsAddress : Bool := false
deriving DecidableEq, Repr

/-- The error that a status register reports. -/
def lineErrorOf (status : UInt32) : Option LineError :=
  if hasBits status overrunBit then some .overrun
  else if hasBits status framingBit then some .framing
  else if hasBits status parityBit then some .parity
  else if hasBits status noiseBit then some .noise
  else none

/-- The enable bit of a transmit interrupt. -/
def TransmitInterrupt.enableBit : TransmitInterrupt → UInt32
  | bufferEmpty => emptyInterruptBit
  | complete => completeInterruptBit

namespace SerialDriver

/-- Takes the next event from the line, if there is one. A dropped data word yields none, though
more words may wait behind it. -/
def readEvent (d : SerialDriver) (b : Board) : Option LineEvent × Board :=
  let status := b.readStatus.1
  let b := b.readStatus.2
  match lineErrorOf status with
  | some e =>
    let b := if hasBits status readyBit then b.readData.2 else b
    (some (.error e), b.writeClear (status &&& errorBits))
  | none =>
    if hasBits status readyBit then
      let word := b.readData.1
      let b := b.readData.2
      let address := hasBits word addressBit
      if d.filtering && !address then (none, b)
      else (some (.byte word.toUInt8 address), b)
    else (none, b)

/-- The transmit event behind the current interrupt, if any. Only enabled sources count, since the
transmit register is free whenever the line rests. -/
def pendingEvent (b : Board) : Option TransmitEvent × Board :=
  let status := b.readStatus.1
  let b := b.readStatus.2
  if hasBits b.control1 emptyInterruptBit && hasBits status emptyBit then (some .bufferEmpty, b)
  else if hasBits b.control1 completeInterruptBit && hasBits status completeBit then
    (some .complete, b)
  else (none, b)

def filter (d : SerialDriver) : FilterAction → SerialDriver
  | .arm => { d with filtering := true }
  | .disarm => { d with filtering := false }

def filterAll (d : SerialDriver) (actions : List FilterAction) : SerialDriver :=
  actions.foldl filter d

def perform (d : SerialDriver) (b : Board) : TransmitAction → SerialDriver × Board
  | .markAddress => ({ d with nextIsAddress := true }, b)
  | .write byte =>
    ({ d with nextIsAddress := false },
      b.writeData (byte.toUInt32 ||| bitIf d.nextIsAddress addressBit))
  | .listen source => (d, b.writeControl1 (b.control1 ||| source.enableBit))
  | .unlisten source => (d, b.writeControl1 (b.control1 &&& ~~~source.enableBit))
  | .drive high => (d, b.drive high)
  | .requestInterrupt => (d, b.requestInterrupt)

def performAll (d : SerialDriver) (b : Board) : List TransmitAction → SerialDriver × Board
  | [] => (d, b)
  | action :: rest =>
    let performed := d.perform b action
    performed.1.performAll performed.2 rest

/-- Applies settings, clears what is left of the past, and enables the receive interrupts. That
comes last, because settings disable all interrupts. Seven data bits are refused before anything is
touched. -/
def configure (b : Board) (s : LineSettings) : Except SettingsError Unit × Board :=
  if s.dataBits = .seven then (.error .dataParityNotSupported, b)
  else
    match b.applySettings s with
    | (.error e, b) => (.error e, b)
    | (.ok (), b) =>
      let b := b.readStatus.2
      let b := b.writeClear (errorBits ||| completeBit)
      let b := b.writeControl3 (b.control3 ||| errorInterruptBit)
      (.ok (), b.writeControl1 (b.control1 ||| receiveInterruptBit))

/-- Prepares the serial interface and the transceiver for an identity: settings, armed filter,
released line. If the settings are refused, nothing else is done. -/
def initialise (d : SerialDriver) (b : Board) (identity : Identity) :
    Except SettingsError Unit × SerialDriver × Board :=
  match configure b identity.lineSettings with
  | (.error e, b) => (.error e, d, b)
  | (.ok (), b) =>
    (.ok (), d.filter .arm, b.drive (DriverEnable.releasedLevel identity.driveActiveLow))

end SerialDriver

end MultidropBus
