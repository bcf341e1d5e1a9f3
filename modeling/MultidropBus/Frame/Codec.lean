import MultidropBus.Frame.Header

/-!
# Frames

A frame is a header and the payload it announces. Writing a frame computes the header from the
payload; reading one checks the header and takes as many payload bytes as it announces, whatever
follows them.
-/

namespace MultidropBus

structure Frame where
  header : Header
  payload : Bytes
deriving DecidableEq, Repr

namespace Frame

def destination (f : Frame) : Address := f.header.destination

def source (f : Frame) : Address := f.header.source

/-- The size on the wire that the header announces. -/
def size (f : Frame) : Nat := f.header.frameLength

/-- An outgoing frame around a payload. -/
def build (destination source : Address) (payload : Bytes) : Except FrameError Frame :=
  if maxPayloadSize < payload.length then .error .payloadTooLarge
  else .ok ⟨.announce destination source (UInt16.ofNat payload.length), payload⟩

/-- The wire form: six header bytes, then the payload. -/
def wire (destination source : Address) (payload : Bytes) : Bytes :=
  (Header.announce destination source (UInt16.ofNat payload.length)).toBytes ++ payload

/-- Writes a frame over the front of a buffer and answers the number of bytes written. A payload
that no frame can hold is refused before a buffer that cannot hold this one; either way the buffer
stays as it was. -/
def encodeInto (destination source : Address) (payload buffer : Bytes) :
    Except FrameError Nat × Bytes :=
  if maxPayloadSize < payload.length then (.error .payloadTooLarge, buffer)
  else if buffer.length < headerSize + payload.length then (.error .bufferTooSmall, buffer)
  else (.ok (headerSize + payload.length), overwrite buffer (wire destination source payload))

/-- A frame as a byte string of its own, which any payload of at most 58 bytes has. -/
def encode (destination source : Address) (payload : Bytes) : Except FrameError Bytes :=
  if maxPayloadSize < payload.length then .error .payloadTooLarge
  else .ok (wire destination source payload)

/-- The frame at the start of a byte string. Bytes after the announced payload are ignored. -/
def parse (bytes : Bytes) : Except FrameError Frame :=
  match Header.validate bytes with
  | .error e => .error e
  | .ok header =>
    if bytes.length < header.frameLength then .error .incomplete
    else .ok ⟨header, (bytes.take header.frameLength).drop headerSize⟩

/-- Only addresses and payload are written; checksums and length are computed afresh. -/
def writeInto (f : Frame) (buffer : Bytes) : Except FrameError Nat × Bytes :=
  encodeInto f.destination f.source f.payload buffer

theorem wire_length (destination source : Address) (payload : Bytes) :
    (wire destination source payload).length = headerSize + payload.length := by
  simp [wire, Header.toBytes_length]

theorem encode_eq_ok_iff (destination source : Address) (payload bytes : Bytes) :
    encode destination source payload = .ok bytes
      ↔ payload.length ≤ maxPayloadSize ∧ bytes = wire destination source payload := by
  simp only [encode]
  split
  · simp; omega
  · simp only [Except.ok.injEq]
    exact ⟨fun h => ⟨by omega, h.symm⟩, fun h => h.2.symm⟩

end Frame

end MultidropBus
