import MultidropBus.Frame.Codec

/-!
# What is written, and what is read back

Writing and reading a frame are told by the bytes on the wire alone. A byte string starts with an
intact header if it has six bytes and the third is the sum of the five others modulo 256; the fifth
and the sixth byte are the length of the payload, high byte first.

* Writing is refused for a payload that no frame can hold, or else for a buffer that cannot hold
  this one, and a refusal leaves the buffer alone. What is written otherwise reads back as it was
  given, whatever follows it (`Frame.Writes`).
* Reading fails for bytes that are missing and for a bad checksum, and for nothing else. A frame
  that was read and is written again gives the same bytes, except that the reserved byte is written
  as 255: where it was another one, it changes, and so does the checksum, which counts it
  (`Frame.Reads`).
-/

namespace MultidropBus

/-! ### The bytes of a header -/

/-- The sum, modulo 256, of the five header bytes beside the checksum. -/
def headerSum (bytes : Bytes) : Nat :=
  ((bytes.getD 0 0).toNat + (bytes.getD 1 0).toNat + (bytes.getD 3 0).toNat
    + (bytes.getD 4 0).toNat + (bytes.getD 5 0).toNat) % 256

/-- The third byte is the sum of the other header bytes. -/
def ChecksumHolds (bytes : Bytes) : Prop := (bytes.getD 2 0).toNat = headerSum bytes

/-- The payload length in the fifth and the sixth byte, high byte first. -/
def announcedLength (bytes : Bytes) : Nat := (bytes.getD 4 0).toNat * 256 + (bytes.getD 5 0).toNat

instance (bytes : Bytes) : Decidable (ChecksumHolds bytes) :=
  inferInstanceAs (Decidable ((bytes.getD 2 0).toNat = headerSum bytes))

theorem ofHighLow_toNat (high low : UInt8) :
    (ofHighLow high low).toNat = high.toNat * 256 + low.toNat := by
  have hhigh := high.toNat_lt
  have hlow := low.toNat_lt
  rw [ofHighLow, UInt16.toNat_ofNat']
  omega

theorem highByte_ofHighLow (high low : UInt8) : highByte (ofHighLow high low) = high := by
  have hhigh := high.toNat_lt
  have hlow := low.toNat_lt
  apply UInt8.toNat_inj.1
  rw [highByte, ofHighLow_toNat, UInt8.toNat_ofNat']
  omega

theorem lowByte_ofHighLow (high low : UInt8) : lowByte (ofHighLow high low) = low := by
  have hhigh := high.toNat_lt
  have hlow := low.toNat_lt
  apply UInt8.toNat_inj.1
  rw [lowByte, ofHighLow_toNat, UInt8.toNat_ofNat']
  omega

namespace Header

/-- The header that the first six bytes spell. -/
def front (bytes : Bytes) : Header where
  destination := bytes.getD 0 0
  source := bytes.getD 1 0
  checksum := bytes.getD 2 0
  payloadChecksum := bytes.getD 3 0
  length := ofHighLow (bytes.getD 4 0) (bytes.getD 5 0)

theorem front_frameLength (bytes : Bytes) :
    (front bytes).frameLength = headerSize + announcedLength bytes := by
  rw [frameLength, announcedLength, ← ofHighLow_toNat]
  rfl

theorem front_isValid_iff (bytes : Bytes) : (front bytes).isValid ↔ ChecksumHolds bytes := by
  rw [isValid, beq_iff_eq, ChecksumHolds, headerSum, ← UInt8.toNat_inj]
  simp only [front, checksumOf, highByte_ofHighLow, lowByte_ofHighLow, UInt8.toNat_add]
  omega

theorem ofBytes?_eq_none_iff (bytes : Bytes) :
    ofBytes? bytes = none ↔ bytes.length < headerSize := by
  rcases bytes with _ | ⟨a, _ | ⟨b, _ | ⟨c, _ | ⟨d, _ | ⟨e, _ | ⟨f, rest⟩⟩⟩⟩⟩⟩ <;>
    simp [headerSize, ofBytes?]

/-- A header is spelled by the six bytes that it was read from. -/
theorem front_toBytes {bytes : Bytes} (h : headerSize ≤ bytes.length) :
    (front bytes).toBytes = bytes.take headerSize := by
  rcases bytes with _ | ⟨d, _ | ⟨s, _ | ⟨c, _ | ⟨p, _ | ⟨high, _ | ⟨low, rest⟩⟩⟩⟩⟩⟩
  all_goals simp [headerSize] at h
  simp [front, toBytes, headerSize, highByte_ofHighLow, lowByte_ofHighLow]

theorem validate_eq (bytes : Bytes) :
    validate bytes =
      if bytes.length < headerSize then .error .incomplete
      else if ChecksumHolds bytes then .ok (front bytes)
      else .error .invalidChecksum := by
  rcases Nat.lt_or_ge bytes.length headerSize with hshort | hlong
  · rw [validate, (ofBytes?_eq_none_iff bytes).2 hshort, if_pos hshort]
  · have hfront : ofBytes? bytes = some (front bytes) := by
      rw [← List.take_append_drop headerSize bytes, ← front_toBytes hlong, ofBytes?_toBytes,
        front_toBytes hlong, List.take_append_drop]
    rw [validate, hfront, if_neg (Nat.not_lt_of_le hlong)]
    simp only [front_isValid_iff]

theorem isValid_of_validate {bytes : Bytes} {header : Header} (h : validate bytes = .ok header) :
    header.isValid := by
  rw [validate_eq] at h
  split at h
  · cases h
  · split at h
    · rename_i hsum
      cases h
      exact (front_isValid_iff bytes).2 hsum
    · cases h

end Header

namespace Frame

variable {destination source : Address} {payload bytes : Bytes}

/-! ### Reading what was written -/

theorem announce_frameLength (destination source : Address)
    (hlen : payload.length ≤ maxPayloadSize) :
    (Header.announce destination source (UInt16.ofNat payload.length)).frameLength
      = headerSize + payload.length := by
  have hmax : maxPayloadSize < 2 ^ 16 := by decide
  have hsmall : payload.length < 2 ^ 16 := Nat.lt_of_le_of_lt hlen hmax
  show headerSize + (UInt16.ofNat payload.length).toNat = _
  rw [UInt16.toNat_ofNat', Nat.mod_eq_of_lt hsmall]

/-- A written frame reads back as it was given, whatever follows it. -/
theorem parse_wire_append (destination source : Address)
    (hlen : payload.length ≤ maxPayloadSize) (rest : Bytes) :
    parse (wire destination source payload ++ rest)
      = .ok ⟨.announce destination source (UInt16.ofNat payload.length), payload⟩ := by
  have hwire := wire_length destination source payload
  have hannounced := announce_frameLength destination source hlen
  have hwhole : (wire destination source payload ++ rest).take (headerSize + payload.length)
      = wire destination source payload := List.take_left' hwire
  have hvalid : Header.validate (wire destination source payload ++ rest)
      = .ok (.announce destination source (UInt16.ofNat payload.length)) := by
    rw [wire, List.append_assoc]
    exact Header.validate_announce destination source _ _
  rw [parse, hvalid]
  simp only [hannounced]
  rw [if_neg (by rw [List.length_append]; omega), hwhole]
  rfl

theorem parse_wire (destination source : Address) (hlen : payload.length ≤ maxPayloadSize) :
    parse (wire destination source payload)
      = .ok ⟨.announce destination source (UInt16.ofNat payload.length), payload⟩ := by
  have hread := parse_wire_append destination source hlen []
  rwa [List.append_nil] at hread

/-! ### Writing -/

theorem encodeInto_ok (destination source : Address) {buffer : Bytes}
    (hlen : payload.length ≤ maxPayloadSize)
    (hroom : headerSize + payload.length ≤ buffer.length) :
    encodeInto destination source payload buffer
      = (.ok (headerSize + payload.length),
        wire destination source payload ++ buffer.drop (headerSize + payload.length)) := by
  have hwire := wire_length destination source payload
  rw [encodeInto, if_neg (by omega), if_neg (by omega), overwrite_of_le _ _ (by omega), hwire]

/-- What comes of writing a frame over the front of a buffer. -/
structure Writes (destination source : Address) (payload buffer : Bytes) : Prop where
  tooLarge : (encodeInto destination source payload buffer).1 = .error .payloadTooLarge
    ↔ maxPayloadSize < payload.length
  tooSmall : (encodeInto destination source payload buffer).1 = .error .bufferTooSmall
    ↔ payload.length ≤ maxPayloadSize ∧ buffer.length < headerSize + payload.length
  /-- There are no other refusals, and a refusal leaves the buffer alone. -/
  refused : ∀ e, (encodeInto destination source payload buffer).1 = .error e →
    (e = .payloadTooLarge ∨ e = .bufferTooSmall)
      ∧ (encodeInto destination source payload buffer).2 = buffer
  written : payload.length ≤ maxPayloadSize → headerSize + payload.length ≤ buffer.length →
    ∃ written, written.length = headerSize + payload.length
      ∧ encodeInto destination source payload buffer
        = (.ok written.length, written ++ buffer.drop written.length)
      ∧ ∀ rest, ∃ frame, parse (written ++ rest) = .ok frame ∧ frame.destination = destination
        ∧ frame.source = source ∧ frame.payload = payload ∧ frame.size = written.length

theorem writes (destination source : Address) (payload buffer : Bytes) :
    Writes destination source payload buffer := by
  have hwire := wire_length destination source payload
  rcases Nat.lt_or_ge maxPayloadSize payload.length with hlarge | hlen
  · have hrefused : encodeInto destination source payload buffer
        = (.error .payloadTooLarge, buffer) := if_pos hlarge
    constructor
    · simp [hrefused, hlarge]
    · simp only [hrefused, Except.error.injEq, reduceCtorEq, false_iff]
      omega
    · simp [hrefused]
    · intro hlen
      omega
  rcases Nat.lt_or_ge buffer.length (headerSize + payload.length) with hsmall | hroom
  · have hrefused : encodeInto destination source payload buffer
        = (.error .bufferTooSmall, buffer) := by
      rw [encodeInto, if_neg (Nat.not_lt_of_le hlen), if_pos hsmall]
    constructor
    · simp [hrefused, hlen]
    · simp [hrefused, hlen, hsmall]
    · simp [hrefused]
    · intro _ hroom
      omega
  · have hwritten := encodeInto_ok destination source hlen hroom
    constructor
    · simp [hwritten, hlen]
    · simp [hwritten, hroom]
    · simp [hwritten]
    · intro _ _
      refine ⟨wire destination source payload, hwire, hwire.symm ▸ hwritten, fun rest => ?_⟩
      refine ⟨_, parse_wire_append destination source hlen rest, rfl, rfl, rfl, ?_⟩
      rw [hwire]
      exact announce_frameLength destination source hlen

/-! ### Reading -/

/-- Bytes are missing, or the checksum is wrong, or a frame is read. -/
theorem parse_cases (bytes : Bytes) :
    (bytes.length < headerSize
          ∨ ChecksumHolds bytes ∧ bytes.length < headerSize + announcedLength bytes)
        ∧ parse bytes = .error .incomplete
      ∨ (headerSize ≤ bytes.length ∧ ¬ ChecksumHolds bytes)
        ∧ parse bytes = .error .invalidChecksum
      ∨ (ChecksumHolds bytes ∧ headerSize + announcedLength bytes ≤ bytes.length)
        ∧ parse bytes
          = .ok ⟨.front bytes, (bytes.drop headerSize).take (announcedLength bytes)⟩ := by
  rw [parse, Header.validate_eq]
  rcases Nat.lt_or_ge bytes.length headerSize with hshort | hlong
  · rw [if_pos hshort]
    exact .inl ⟨.inl hshort, rfl⟩
  rw [if_neg (Nat.not_lt_of_le hlong)]
  by_cases hsum : ChecksumHolds bytes
  · simp only [if_pos hsum, Header.front_frameLength]
    rcases Nat.lt_or_ge bytes.length (headerSize + announcedLength bytes) with hpart | hwhole
    · rw [if_pos hpart]
      exact .inl ⟨.inr ⟨hsum, hpart⟩, rfl⟩
    · rw [if_neg (Nat.not_lt_of_le hwhole), List.drop_take, Nat.add_sub_cancel_left]
      exact .inr (.inr ⟨⟨hsum, hwhole⟩, rfl⟩)
  · rw [if_neg hsum]
    exact .inr (.inl ⟨⟨hlong, hsum⟩, rfl⟩)

theorem incomplete_iff (bytes : Bytes) :
    parse bytes = .error .incomplete
      ↔ bytes.length < headerSize
        ∨ ChecksumHolds bytes ∧ bytes.length < headerSize + announcedLength bytes := by
  rcases parse_cases bytes with ⟨h, hparse⟩ | ⟨h, hparse⟩ | ⟨h, hparse⟩
  · exact ⟨fun _ => h, fun _ => hparse⟩
  · simp only [hparse, Except.error.injEq, reduceCtorEq, false_iff]
    rintro (hshort | ⟨hsum, -⟩)
    · omega
    · exact h.2 hsum
  · simp only [hparse, reduceCtorEq, false_iff]
    omega

theorem invalidChecksum_iff (bytes : Bytes) :
    parse bytes = .error .invalidChecksum
      ↔ headerSize ≤ bytes.length ∧ ¬ ChecksumHolds bytes := by
  rcases parse_cases bytes with ⟨h, hparse⟩ | ⟨h, hparse⟩ | ⟨h, hparse⟩
  · simp only [hparse, Except.error.injEq, reduceCtorEq, false_iff]
    rintro ⟨hlong, hsum⟩
    rcases h with hshort | ⟨hsum', -⟩
    · omega
    · exact hsum hsum'
  · exact ⟨fun _ => h, fun _ => hparse⟩
  · simp only [hparse, reduceCtorEq, false_iff]
    exact fun hbad => hbad.2 h.1

theorem parse_eq_ok_iff {frame : Frame} :
    parse bytes = .ok frame ↔
      (ChecksumHolds bytes ∧ headerSize + announcedLength bytes ≤ bytes.length)
        ∧ frame = ⟨.front bytes, (bytes.drop headerSize).take (announcedLength bytes)⟩ := by
  rcases parse_cases bytes with ⟨h, hparse⟩ | ⟨h, hparse⟩ | ⟨h, hparse⟩
  · simp only [hparse, reduceCtorEq, false_iff]
    rintro ⟨⟨-, hwhole⟩, -⟩
    omega
  · simp only [hparse, reduceCtorEq, false_iff]
    exact fun hgood => h.2 hgood.1.1
  · rw [hparse, Except.ok.injEq, eq_comm]
    exact (and_iff_right h).symm

/-! ### Writing what was read -/

/-- A whole frame in front of other bytes is its header and the payload announced. -/
theorem take_eq_front (h : headerSize + announcedLength bytes ≤ bytes.length) :
    bytes.take (headerSize + announcedLength bytes)
      = (Header.front bytes).toBytes ++ (bytes.drop headerSize).take (announcedLength bytes) := by
  rw [Header.front_toBytes (Nat.le_trans (Nat.le_add_right _ _) h), List.take_add]

theorem payload_length_of_whole (h : headerSize + announcedLength bytes ≤ bytes.length) :
    ((bytes.drop headerSize).take (announcedLength bytes)).length = announcedLength bytes := by
  rw [List.length_take, List.length_drop]
  omega

/-- The header is computed afresh, with 255 for the reserved byte. -/
theorem announce_front_toBytes (bytes : Bytes) :
    (Header.announce (bytes.getD 0 0) (bytes.getD 1 0)
        (UInt16.ofNat (announcedLength bytes))).toBytes
      = [bytes.getD 0 0, bytes.getD 1 0,
        Header.checksumOf (bytes.getD 0 0) (bytes.getD 1 0) reservedPayloadChecksum
          (Header.front bytes).length,
        reservedPayloadChecksum, bytes.getD 4 0, bytes.getD 5 0] := by
  have hlength : UInt16.ofNat (announcedLength bytes)
      = ofHighLow (bytes.getD 4 0) (bytes.getD 5 0) := by
    rw [announcedLength, ← ofHighLow_toNat, UInt16.ofNat_toNat]
  rw [hlength]
  simp only [Header.announce, Header.toBytes, Header.front, highByte_ofHighLow, lowByte_ofHighLow]

/-- With an intact header, the checksum computed afresh is the old one exactly if the reserved byte
was 255. -/
theorem checksumOf_front (hsum : ChecksumHolds bytes) :
    Header.checksumOf (bytes.getD 0 0) (bytes.getD 1 0) reservedPayloadChecksum
        (Header.front bytes).length = bytes.getD 2 0
      ↔ bytes.getD 3 0 = reservedPayloadChecksum := by
  have hvalid := (Header.front_isValid_iff bytes).2 hsum
  rw [Header.isValid, beq_iff_eq] at hvalid
  change bytes.getD 2 0 = Header.checksumOf (bytes.getD 0 0) (bytes.getD 1 0) (bytes.getD 3 0)
    (Header.front bytes).length at hvalid
  rw [hvalid]
  simp only [Header.checksumOf]
  constructor
  · intro h
    grind
  · rintro h
    rw [h]

/-- What comes of reading the front of a byte string, and of writing again what was read. -/
structure Reads (bytes : Bytes) : Prop where
  incomplete : parse bytes = .error .incomplete
    ↔ bytes.length < headerSize
      ∨ ChecksumHolds bytes ∧ bytes.length < headerSize + announcedLength bytes
  invalid : parse bytes = .error .invalidChecksum
    ↔ headerSize ≤ bytes.length ∧ ¬ ChecksumHolds bytes
  accepted : (∃ frame, parse bytes = .ok frame)
    ↔ ChecksumHolds bytes ∧ headerSize + announcedLength bytes ≤ bytes.length
  fields : ∀ frame, parse bytes = .ok frame →
    frame.header = ⟨bytes.getD 0 0, bytes.getD 1 0, bytes.getD 2 0, bytes.getD 3 0,
        UInt16.ofNat (announcedLength bytes)⟩
      ∧ frame.size = headerSize + announcedLength bytes
      ∧ frame.payload = (bytes.drop headerSize).take (announcedLength bytes)
      ∧ frame.payload.length = announcedLength bytes
  /-- Only the reserved byte and the checksum may change. -/
  again : ∀ frame, parse bytes = .ok frame → announcedLength bytes ≤ maxPayloadSize →
    ∀ buffer : Bytes, headerSize + announcedLength bytes ≤ buffer.length →
    ∃ written, written.length = headerSize + announcedLength bytes
      ∧ frame.writeInto buffer = (.ok written.length, written ++ buffer.drop written.length)
      ∧ (bytes.getD 3 0 = reservedPayloadChecksum → written = bytes.take written.length)
      ∧ (bytes.getD 3 0 ≠ reservedPayloadChecksum →
        ∀ i < written.length, written[i]? ≠ bytes[i]? ↔ i = 2 ∨ i = 3)

/-- Two headers with another checksum and another reserved byte differ there and nowhere else. -/
theorem differ_iff {d s c c' p p' high low : UInt8} (hc : c ≠ c') (hp : p ≠ p') (rest : Bytes)
    (i : Nat) :
    ([d, s, c, p, high, low] ++ rest)[i]? ≠ ([d, s, c', p', high, low] ++ rest)[i]?
      ↔ i = 2 ∨ i = 3 := by
  rcases i with _ | _ | _ | _ | _ | _ | i <;> simp [hc, hp]

/-- The bytes that are written for a frame that was read. -/
theorem wire_front (hsum : ChecksumHolds bytes)
    (hwhole : headerSize + announcedLength bytes ≤ bytes.length) :
    ∃ written, wire (bytes.getD 0 0) (bytes.getD 1 0)
        ((bytes.drop headerSize).take (announcedLength bytes)) = written
      ∧ written.length = headerSize + announcedLength bytes
      ∧ (bytes.getD 3 0 = reservedPayloadChecksum → written = bytes.take written.length)
      ∧ (bytes.getD 3 0 ≠ reservedPayloadChecksum →
        ∀ i < written.length, written[i]? ≠ bytes[i]? ↔ i = 2 ∨ i = 3) := by
  have hpayload := payload_length_of_whole hwhole
  have hlen := wire_length (bytes.getD 0 0) (bytes.getD 1 0)
    ((bytes.drop headerSize).take (announcedLength bytes))
  rw [hpayload] at hlen
  refine ⟨_, rfl, hlen, ?_, ?_⟩
  · intro hreserved
    rw [hlen, take_eq_front hwhole, wire, hpayload, announce_front_toBytes,
      (checksumOf_front hsum).2 hreserved]
    simp only [Header.toBytes, Header.front, highByte_ofHighLow, lowByte_ofHighLow, hreserved]
  · intro hreserved i hi
    have hchecksum := mt (checksumOf_front hsum).1 hreserved
    rw [hlen] at hi
    rw [← List.getElem?_take_of_lt (l := bytes) hi, take_eq_front hwhole, wire, hpayload,
      announce_front_toBytes]
    simp only [Header.toBytes, Header.front, highByte_ofHighLow, lowByte_ofHighLow]
    exact differ_iff hchecksum hreserved.symm _ i

theorem reads (bytes : Bytes) : Reads bytes where
  incomplete := incomplete_iff bytes
  invalid := invalidChecksum_iff bytes
  accepted := by
    simp only [parse_eq_ok_iff, exists_and_left, exists_eq, and_true]
  fields := by
    intro frame hframe
    obtain ⟨⟨-, hwhole⟩, rfl⟩ := parse_eq_ok_iff.1 hframe
    refine ⟨?_, Header.front_frameLength bytes, rfl, payload_length_of_whole hwhole⟩
    rw [announcedLength, ← ofHighLow_toNat, UInt16.ofNat_toNat]
    rfl
  again := by
    intro frame hframe hlen buffer hroom
    obtain ⟨⟨hsum, hwhole⟩, rfl⟩ := parse_eq_ok_iff.1 hframe
    obtain ⟨written, hwire, hlength, hsame, hchanged⟩ := wire_front hsum hwhole
    have hpayload := payload_length_of_whole hwhole
    have hroom' : headerSize + ((bytes.drop headerSize).take (announcedLength bytes)).length
        ≤ buffer.length := hpayload.symm ▸ hroom
    have hwritten := encodeInto_ok (bytes.getD 0 0) (bytes.getD 1 0)
      (hpayload.symm ▸ hlen) hroom'
    rw [hpayload, hwire, ← hlength] at hwritten
    exact ⟨written, hlength, hwritten, hsame, hchanged⟩

/-- **Reading undoes writing, writing undoes reading, and refusals leave no trace.** -/
theorem writes_and_reads :
    (∀ destination source payload buffer, Writes destination source payload buffer)
      ∧ ∀ bytes, Reads bytes :=
  ⟨writes, reads⟩

/-- The reserved byte was 0 and is written as 255. -/
example : (parse [5, 0, 6, 0, 0, 1, 9]).toOption.map (fun f => (f.writeInto (List.replicate 8 7)).2)
    = some [5, 0, 5, 255, 0, 1, 9, 7] := by
  decide +kernel

end Frame

end MultidropBus
