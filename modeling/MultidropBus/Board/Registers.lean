import MultidropBus.Line.Settings
import MultidropBus.Bytes

/-!
# The board

A board has one serial interface with its registers and one driver-enable pin. Received words wait
in a queue; the status register shows the state of the first of them together with the two transmit
flags, and reading the data register takes its word. Control registers keep what is written to them,
the transmit register passes it on. Every write to a register or the pin is logged in order, with
writes that change nothing among them.
-/

namespace MultidropBus

/-- The error flags of a received word. -/
structure ErrorFlags where
  parity : Bool
  framing : Bool
  noise : Bool
  overrun : Bool
deriving DecidableEq, Repr

/-- A word on its way in: its nine bits, the errors it came with, and whether it still waits to be
read. -/
structure Arrival where
  word : UInt32
  errors : ErrorFlags
  ready : Bool
deriving DecidableEq, Repr

/-- Why a serial interface does not take settings. -/
inductive SettingsError
  | baudrateTooLow
  | baudrateTooHigh
  | receiverOrTransmitterDisabled
  /-- No such combination of data bits and parity. -/
  | dataParityNotSupported
deriving DecidableEq, Repr

inductive SerialHalf
  | transmit
  | receive
deriving DecidableEq, Repr

inductive BoardWrite
  | clear (value : UInt32)
  | control1 (value : UInt32)
  | control3 (value : UInt32)
  | data (value : UInt32)
  /-- The level given to the driver-enable pin. -/
  | drive (high : Bool)
  | settings (half : SerialHalf) (s : LineSettings)
deriving DecidableEq, Repr

/-! ### Bits of the registers -/

/-- In the first control register: interrupt on received words. -/
def receiveInterruptBit : UInt32 := 0x20

/-- In the first control register: interrupt on a finished transmission. -/
def completeInterruptBit : UInt32 := 0x40

/-- In the first control register: interrupt on a free transmit register. -/
def emptyInterruptBit : UInt32 := 0x80

/-- In the first control register: both transmit interrupts. -/
def transmitInterruptBits : UInt32 := emptyInterruptBit ||| completeInterruptBit

/-- In the third control register: interrupt on line errors. -/
def errorInterruptBit : UInt32 := 0x01

def parityBit : UInt32 := 0x01
def framingBit : UInt32 := 0x02
def noiseBit : UInt32 := 0x04
def overrunBit : UInt32 := 0x08

/-- All error bits of the status and clear registers. -/
def errorBits : UInt32 := 0x0F

/-- In the status register: a word waits to be read. -/
def readyBit : UInt32 := 0x20

/-- In the status and clear registers: a transmission is finished. -/
def completeBit : UInt32 := 0x40

/-- In the status register: the transmit register is free. -/
def emptyBit : UInt32 := 0x80

/-- The ninth bit of a word. -/
def addressBit : UInt32 := 0x100

/-- Whether a register value has any of the given bits. -/
def hasBits (value bits : UInt32) : Bool := value &&& bits != 0

def bitIf (b : Bool) (bit : UInt32) : UInt32 := if b then bit else 0

namespace ErrorFlags

def none : ErrorFlags := ⟨false, false, false, false⟩

def ofBits (value : UInt32) : ErrorFlags :=
  ⟨hasBits value parityBit, hasBits value framingBit, hasBits value noiseBit,
    hasBits value overrunBit⟩

def bits (e : ErrorFlags) : UInt32 :=
  bitIf e.parity parityBit ||| bitIf e.framing framingBit ||| bitIf e.noise noiseBit
    ||| bitIf e.overrun overrunBit

def any (e : ErrorFlags) : Bool := e.parity || e.framing || e.noise || e.overrun

/-- The flags that stay when those in `value` are cleared. -/
def clear (e : ErrorFlags) (value : UInt32) : ErrorFlags :=
  ⟨e.parity && !hasBits value parityBit, e.framing && !hasBits value framingBit,
    e.noise && !hasBits value noiseBit, e.overrun && !hasBits value overrunBit⟩

theorem clear_bits (e : ErrorFlags) : e.clear e.bits = none := by
  cases e with | mk parity framing noise overrun =>
    cases parity <;> cases framing <;> cases noise <;> cases overrun <;> rfl

end ErrorFlags

namespace Arrival

/-- Whether something about this word is still to be dealt with. -/
def isPending (a : Arrival) : Bool := a.ready || a.errors.any

def bits (a : Arrival) : UInt32 := a.errors.bits ||| bitIf a.ready readyBit

end Arrival

structure Board where
  /-- Words on their way in, the first one in the data register. -/
  arrivals : List Arrival := []
  /-- The transmit register is free. -/
  transmitEmpty : Bool := false
  /-- The last transmission is finished. -/
  transmitComplete : Bool := false
  control1 : UInt32 := 0
  control3 : UInt32 := 0
  /-- How often the serial interrupt was requested since it last ran. -/
  requests : Nat := 0
  driveHigh : Bool := false
  writes : List BoardWrite := []
  /-- Why the serial interface refuses all settings, if it does. -/
  refusal : Option SettingsError := none
  /-- What settings that are taken leave in the first control register: the halves that are switched
  on, the length of a word. -/
  settledControl1 : UInt32 := 0
deriving DecidableEq, Repr

namespace Board

def record (b : Board) (w : BoardWrite) : Board := { b with writes := b.writes ++ [w] }

/-- Reading the status register first drops the words that are dealt with. -/
def readStatus (b : Board) : UInt32 × Board :=
  let arrivals := b.arrivals.dropWhile (!·.isPending)
  let line :=
    match arrivals with
    | [] => 0
    | first :: _ => first.bits
  let flags := bitIf b.transmitComplete completeBit ||| bitIf b.transmitEmpty emptyBit
  (line ||| flags, { b with arrivals := arrivals })

/-- Reading the data register takes the word of the first arrival, which is no longer ready then. -/
def readData (b : Board) : UInt32 × Board :=
  match b.arrivals with
  | [] => (0, b)
  | first :: rest => (first.word, { b with arrivals := { first with ready := false } :: rest })

/-- Writing the clear register clears error flags of the first arrival and the completion flag. -/
def writeClear (b : Board) (value : UInt32) : Board :=
  let arrivals :=
    match b.arrivals with
    | [] => []
    | first :: rest => { first with errors := first.errors.clear value } :: rest
  { b with
    arrivals := arrivals
    transmitComplete := b.transmitComplete && !hasBits value completeBit }.record (.clear value)

def writeControl1 (b : Board) (value : UInt32) : Board :=
  { b with control1 := value }.record (.control1 value)

def writeControl3 (b : Board) (value : UInt32) : Board :=
  { b with control3 := value }.record (.control3 value)

def writeData (b : Board) (value : UInt32) : Board := b.record (.data value)

def drive (b : Board) (high : Bool) : Board := { b with driveHigh := high }.record (.drive high)

def requestInterrupt (b : Board) : Board := { b with requests := b.requests + 1 }

/-- Gives settings to both halves of the serial interface, which rewrites the first control
register. -/
def applySettings (b : Board) (s : LineSettings) : Except SettingsError Unit × Board :=
  match b.refusal with
  | some e => (.error e, b)
  | none =>
    let b := (b.record (.settings .transmit s)).record (.settings .receive s)
    (.ok (), { b with control1 := b.settledControl1 })

end Board

end MultidropBus
