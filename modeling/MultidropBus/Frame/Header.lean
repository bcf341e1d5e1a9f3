import MultidropBus.Address
import MultidropBus.Bytes

/-!
# Frame headers

A frame starts with six bytes: destination, source, header checksum, a reserved payload checksum and
the payload length in two bytes, high byte first. The header checksum is the sum of the other five
bytes modulo 256, so any change to a single header byte shows. The payload checksum is written as
`255` and never looked at: whoever needs an intact payload puts a check inside it.
-/

namespace MultidropBus

def headerSize : Nat := 6

/-- The largest frame any station has to hold. -/
def maxFrameSize : Nat := 64

def maxPayloadSize : Nat := maxFrameSize - headerSize

def reservedPayloadChecksum : UInt8 := 255

inductive FrameError
  /-- The payload does not fit the largest frame. -/
  | payloadTooLarge
  | invalidChecksum
  /-- Bytes of the header or of the announced payload are missing. -/
  | incomplete
  | bufferTooSmall
deriving DecidableEq, Repr

structure Header where
  destination : Address
  source : Address
  /-- The header checksum as it stands on the wire, right or wrong. -/
  checksum : UInt8
  payloadChecksum : UInt8
  /-- The number of payload bytes that follow. -/
  length : UInt16
deriving DecidableEq, Repr

def highByte (n : UInt16) : UInt8 := UInt8.ofNat (n.toNat / 256)

def lowByte (n : UInt16) : UInt8 := UInt8.ofNat (n.toNat % 256)

def ofHighLow (high low : UInt8) : UInt16 := UInt16.ofNat (high.toNat * 256 + low.toNat)

theorem ofHighLow_bytes (n : UInt16) : ofHighLow (highByte n) (lowByte n) = n := by
  apply UInt16.toNat_inj.1
  have := n.toNat_lt
  simp only [ofHighLow, highByte, lowByte, UInt16.toNat_ofNat', UInt8.toNat_ofNat']
  omega

namespace Header

/-- The sum of the five other header bytes, modulo 256. -/
def checksumOf (destination source payloadChecksum : UInt8) (length : UInt16) : UInt8 :=
  destination + source + payloadChecksum + highByte length + lowByte length

/-- The header under which a payload of `length` bytes is sent. -/
def announce (destination source : Address) (length : UInt16) : Header where
  destination := destination
  source := source
  checksum := checksumOf destination source reservedPayloadChecksum length
  payloadChecksum := reservedPayloadChecksum
  length := length

def isValid (h : Header) : Bool :=
  h.checksum == checksumOf h.destination h.source h.payloadChecksum h.length

/-- The number of bytes, header included, of the frame that this header announces. -/
def frameLength (h : Header) : Nat := headerSize + h.length.toNat

def toBytes (h : Header) : Bytes :=
  [h.destination, h.source, h.checksum, h.payloadChecksum, highByte h.length, lowByte h.length]

/-- The fields at the start of a byte string, unchecked; `none` if there are fewer than six bytes.
-/
def ofBytes? : Bytes → Option Header
  | d :: s :: c :: p :: high :: low :: _ => some ⟨d, s, c, p, ofHighLow high low⟩
  | _ => none

/-- The header at the start of a byte string, if it is whole and its checksum is right. -/
def validate (bytes : Bytes) : Except FrameError Header :=
  match ofBytes? bytes with
  | none => .error .incomplete
  | some h => if h.isValid then .ok h else .error .invalidChecksum

theorem toBytes_length (h : Header) : h.toBytes.length = headerSize := rfl

theorem ofBytes?_toBytes (h : Header) (rest : Bytes) : ofBytes? (h.toBytes ++ rest) = some h := by
  simp [toBytes, ofBytes?, ofHighLow_bytes]

theorem announce_isValid (destination source : Address) (length : UInt16) :
    (announce destination source length).isValid := by
  simp [announce, isValid]

theorem validate_announce (destination source : Address) (length : UInt16) (rest : Bytes) :
    validate ((announce destination source length).toBytes ++ rest)
      = .ok (announce destination source length) := by
  simp [validate, ofBytes?_toBytes, announce_isValid]

end Header

end MultidropBus
