import MultidropBus.Proofs.Frame.Damage
import MultidropBus.Proofs.Receive.Resting

/-!
# A receiver that hears a damaged header

The sixth byte of a frame tells whether its header is good. A receiver that waits for a frame and
has room for a header follows the frame that far, whatever the ring holds and wherever its cursors
stand (`ReceivePath.receiveAll_beginning`). If the header is bad the receiver waits again from there
on, and the rest of the frame passes by (`ReceivePath.receiveAll_bad_header`). The header says where
the frame goes, so damage may bring a frame to a station that it was not sent to, or lead it past
the one that it was sent to; neither completes it (`Caught.of_checksum`).
-/

namespace MultidropBus

/-- The sixth byte, with what stands before and behind it. -/
theorem Header.exists_split {bytes : Bytes} (hlong : headerSize ≤ bytes.length) :
    ∃ front last rest, bytes = front ++ last :: rest ∧ (front ++ [last]).length = headerSize
      ∧ bytes.take headerSize = front ++ [last] := by
  have hpos : 0 < headerSize := by decide
  have hlt : headerSize - 1 < bytes.length := by omega
  have hbytes : bytes = bytes.take (headerSize - 1)
      ++ bytes[headerSize - 1] :: bytes.drop (headerSize - 1 + 1) := by
    rw [← List.drop_eq_getElem_cons hlt, List.take_append_drop]
  have hsix : (bytes.take (headerSize - 1) ++ [bytes[headerSize - 1]]).length = headerSize := by
    rw [List.length_append, List.length_take, List.length_singleton]
    omega
  refine ⟨_, _, _, hbytes, hsix, ?_⟩
  conv => lhs; rw [hbytes]
  rw [List.append_cons, List.take_left' hsix]

namespace ReceivePath

variable {size : RingSize} {p : ReceivePath size}

/-! ### Byte by byte -/

/-- The path once the ring has grown inside a frame, of which these bytes are known. -/
def inside (p : ReceivePath size) (ring : Ring size) (start : Cursor) (bytes : Bytes) :
    ReceivePath size :=
  { p with ring := ring, state := .receiving (.ofBytes size start bytes) }

/-- **One byte more**, as long as the reading of the bytes so far is not done: it is stored, and the
reading with it decides. -/
theorem receive_inside {start : Cursor} {before : Bytes}
    (hstate : p.state = .receiving (.ofBytes size start before))
    (hidle : Detection.ofBytes size before = .idle) {byte : UInt8} {ring : Ring size}
    (hpush : p.ring.push? byte = some ring) :
    p.receive (.byte byte false)
      = match Detection.ofBytes size (before ++ [byte]) with
        | .idle => (p.inside ring start (before ++ [byte]), [])
        | .complete _ =>
          ({ p with
              ring := ring
              counters := { p.counters with completed := p.counters.completed + 1 }
              state := .filtering }, [.arm])
        | .mismatch =>
          ({ p with
              ring := ring
              counters := { p.counters with rejected := p.counters.rejected + 1 }
              state := .filtering }, [.arm]) := by
  rw [receive, receiveData, hstate]
  simp only [store, hpush, InFlight.track_ofBytes size start before byte hidle]
  cases Detection.ofBytes size (before ++ [byte]) with
  | idle => rfl
  | complete header => rfl
  | mismatch => rfl

/-- Up to five bytes of a frame go into the ring and are remembered. -/
theorem receiveAll_beginning {start : Cursor} {before : Bytes}
    (hstate : p.state = .receiving (.ofBytes size start before)) (data : Bytes)
    (hshort : before.length + data.length < headerSize)
    (hroom : p.buffered + data.length ≤ size.slots) :
    ∃ ring : Ring size, ring.read = p.ring.read ∧ ring.toList = p.ring.toList ++ data
      ∧ p.receiveAll (data.map (.byte · false)) = (p.inside ring start (before ++ data), []) := by
  induction data generalizing p before with
  | nil =>
    refine ⟨p.ring, rfl, (List.append_nil _).symm, ?_⟩
    rw [List.append_nil, inside, ← hstate]
    rfl
  | cons byte rest ih =>
    rw [List.length_cons] at hshort hroom
    obtain ⟨ring, hpush, hoccupancy⟩ := Journal.push?_of_room (r := p.ring)
      (show p.buffered < size.slots by omega) byte
    have hidle : Detection.ofBytes size before = .idle :=
      Detection.ofBytes_idle_iff.2 (.inl (by omega))
    have hnext : Detection.ofBytes size (before ++ [byte]) = .idle := by
      refine Detection.ofBytes_idle_iff.2 (.inl ?_)
      rw [List.length_append, List.length_singleton]
      omega
    have hbyte : p.receive (.byte byte false)
        = (p.inside ring start (before ++ [byte]), []) := by
      rw [receive_inside hstate hidle hpush, hnext]
    have hbuffered : (p.inside ring start (before ++ [byte])).buffered = p.buffered + 1 :=
      hoccupancy
    obtain ⟨last, hread, hlist, hrest⟩ := ih (p := p.inside ring start (before ++ [byte])) rfl
      (by rw [List.length_append, List.length_singleton]; omega) (by omega)
    refine ⟨last, hread.trans (Ring.push?_read hpush), ?_, ?_⟩
    · rw [hlist, show (p.inside ring start (before ++ [byte])).ring = ring from rfl,
        Ring.toList_push? hpush, List.append_assoc]
      rfl
    · rw [List.map_cons, receiveAll, hbyte, hrest, List.append_assoc]
      rfl

/-- A bad header goes into the ring, and what follows it does not. -/
theorem receiveAll_bad_header {start : Cursor}
    (hstate : p.state = .receiving (.ofBytes size start [])) {bytes : Bytes}
    (hlong : headerSize ≤ bytes.length) (hbad : acceptableHeader? size bytes = none)
    (hroom : p.buffered + headerSize ≤ size.slots) :
    ∃ ring : Ring size, ring.read = p.ring.read
      ∧ ring.toList = p.ring.toList ++ bytes.take headerSize
      ∧ p.receiveAll (bytes.map (.byte · false))
        = ({ p with
              ring := ring
              counters := { p.counters with rejected := p.counters.rejected + 1 }
              state := .filtering }, [.arm]) := by
  have hpos : 0 < headerSize := by decide
  obtain ⟨front, last, rest, hbytes, hsix, hheader⟩ := Header.exists_split hlong
  have hfive : front.length + 1 = headerSize := by
    rw [← hsix, List.length_append, List.length_singleton]
  obtain ⟨ring, hread, hlist, hfront⟩ := receiveAll_beginning hstate front
    (by rw [List.length_nil]; omega) (by omega)
  rw [List.nil_append] at hfront
  have hoccupancy : ring.occupancy = p.ring.occupancy + front.length := by
    rw [← ring.toList_length, hlist, List.length_append, p.ring.toList_length]
  have hbuffered : p.ring.occupancy + headerSize ≤ size.slots := hroom
  obtain ⟨six, hpush, -⟩ := Journal.push?_of_room (r := ring) (by omega) last
  have hidle : Detection.ofBytes size front = .idle :=
    Detection.ofBytes_idle_iff.2 (.inl (by omega))
  have hmismatch : Detection.ofBytes size (front ++ [last]) = .mismatch := by
    refine Detection.ofBytes_mismatch_iff.2 ⟨hsix.ge, ?_⟩
    rw [← hheader, acceptableHeader?_take size _ (Nat.le_refl _), hbad]
  -- The sixth byte ends the frame, and the others come between frames.
  have hlast := receive_inside (p := p.inside ring start front) rfl hidle hpush
  rw [hmismatch] at hlast
  refine ⟨six, (Ring.push?_read hpush).trans hread, ?_, ?_⟩
  · rw [Ring.toList_push? hpush, hlist, hheader, List.append_assoc]
  · rw [hbytes, List.map_append, receiveAll_append, hfront, List.map_cons, receiveAll, hlast]
    simp only
    rw [receiveAll_data rfl]
    rfl

/-! ### From the address byte on -/

/-- The path once an accepted address byte is awaited by the ring. -/
def begun (p : ReceivePath size) : ReceivePath size :=
  { p with
    counters := { p.counters with accepted := p.counters.accepted + 1 }
    state := .receiving (.ofBytes size p.ring.write []) }

/-- An accepted address byte is the first byte of a frame. -/
theorem receiveAll_accepted (hstate : p.state = .filtering) {address : Address}
    (haccepts : p.identity.accepts address = true) (rest : Bytes) :
    p.receiveAll (LineEvent.ofFrame (address :: rest))
      = ((p.begun.receiveAll ((address :: rest).map (.byte · false))).1,
        .disarm :: (p.begun.receiveAll ((address :: rest).map (.byte · false))).2) := by
  have hfirst : p.receive (.byte address true)
      = ((p.begun.receive (.byte address false)).1,
        .disarm :: (p.begun.receive (.byte address false)).2) := by
    rw [receive, receiveAddress, hstate]
    simp only [acceptAddress, if_pos haccepts, InFlight.begin_eq size]
    rfl
  rw [LineEvent.ofFrame_cons, receiveAll, hfirst]
  rfl

/-- What a receiver that waits for a frame makes of the bytes of a bad one, of any number of them.
The latch, the snapshot and the read cursor stay as they are, and no frame is completed. -/
structure Discards (p : ReceivePath size) (bytes : Bytes) : Prop where
  /-- The destination that the header shows is not this station. -/
  foreign : p.identity.accepts (Header.front bytes).destination = false → ∀ n, 0 < n →
    p.receiveAll (LineEvent.ofFrame (bytes.take n)) = (p.addForeign 1, [])
  /-- Until the header is in, its bytes are stored. -/
  begun : p.identity.accepts (Header.front bytes).destination = true → ∀ n, 0 < n →
    n < headerSize →
    ∃ ring : Ring size, ring.read = p.ring.read ∧ ring.toList = p.ring.toList ++ bytes.take n
      ∧ p.receiveAll (LineEvent.ofFrame (bytes.take n))
        = ({ p with
              ring := ring
              counters := { p.counters with accepted := p.counters.accepted + 1 }
              state := .receiving (.ofBytes size p.ring.write (bytes.take n)) }, [.disarm])
  /-- From the sixth byte on the receiver waits for the next frame. -/
  rejected : p.identity.accepts (Header.front bytes).destination = true → ∀ n, headerSize ≤ n →
    ∃ ring : Ring size, ring.read = p.ring.read
      ∧ ring.toList = p.ring.toList ++ bytes.take headerSize
      ∧ p.receiveAll (LineEvent.ofFrame (bytes.take n))
        = ({ p with
              ring := ring
              counters := { p.counters with
                accepted := p.counters.accepted + 1
                rejected := p.counters.rejected + 1 }
              state := .filtering }, [.disarm, .arm])

theorem discards (hstate : p.state = .filtering) (hroom : p.buffered + headerSize ≤ size.slots)
    {bytes : Bytes} (hlong : headerSize ≤ bytes.length)
    (hbad : acceptableHeader? size bytes = none) : p.Discards bytes := by
  have hpos : 0 < headerSize := by decide
  -- However many bytes come in, the destination is the first of them.
  have hfirst : ∀ n, 0 < n → ∃ rest, bytes.take n = (Header.front bytes).destination :: rest := by
    intro n hn
    obtain ⟨n, rfl⟩ := Nat.exists_eq_add_of_le' hn
    cases bytes with
    | nil => exact absurd hlong (Nat.not_le_of_lt hpos)
    | cons byte rest => exact ⟨rest.take n, rfl⟩
  have hbegun : p.begun.buffered = p.buffered := rfl
  constructor
  case foreign =>
    intro hother n hn
    obtain ⟨rest, htake⟩ := hfirst n hn
    rw [htake, receiveAll_foreign hstate hother]
  case begun =>
    intro haccepts n hn hshort
    have hlen : (bytes.take n).length = n := by
      rw [List.length_take]
      omega
    obtain ⟨rest, htake⟩ := hfirst n hn
    obtain ⟨ring, hread, hlist, hall⟩ := receiveAll_beginning (p := p.begun) rfl (bytes.take n)
      (by rw [hlen, List.length_nil]; omega) (by rw [hlen]; omega)
    refine ⟨ring, hread, hlist, ?_⟩
    rw [htake] at hall ⊢
    rw [receiveAll_accepted hstate haccepts, hall]
    rfl
  case rejected =>
    intro haccepts n hn
    have hlen : headerSize ≤ (bytes.take n).length := by
      rw [List.length_take]
      omega
    obtain ⟨rest, htake⟩ := hfirst n (by omega)
    obtain ⟨ring, hread, hlist, hall⟩ := receiveAll_bad_header (p := p.begun) rfl hlen
      ((acceptableHeader?_take size _ hn).trans hbad) (by omega)
    rw [List.take_take, Nat.min_eq_left hn] at hlist
    refine ⟨ring, hread, hlist, ?_⟩
    rw [htake] at hall ⊢
    rw [receiveAll_accepted hstate haccepts, hall]
    rfl

end ReceivePath

/-! ### Damage -/

/-- A header with a wrong checksum: nobody reads a frame in these bytes, and no station with room
for a header completes one. -/
structure Caught (bytes : Bytes) : Prop where
  validate : Header.validate bytes = .error .invalidChecksum
  parse : Frame.parse bytes = .error .invalidChecksum
  discards : ∀ {size : RingSize} (p : ReceivePath size), p.state = .filtering →
    p.buffered + headerSize ≤ size.slots → p.Discards bytes

theorem Caught.of_checksum {bytes : Bytes} (hlong : headerSize ≤ bytes.length)
    (hsum : ¬ ChecksumHolds bytes) : Caught bytes where
  validate := Header.validate_invalidChecksum hlong hsum
  parse := (Frame.invalidChecksum_iff bytes).2 ⟨hlong, hsum⟩
  discards p hstate hroom := by
    refine ReceivePath.discards hstate hroom hlong ?_
    rw [acceptableHeader?, Header.validate_invalidChecksum hlong hsum]

/-- **A damaged header is caught.** Changes of header bytes go through exactly if the bytes that are
summed change by as much as the checksum, and one changed byte never does. -/
theorem Frame.damaged_header_caught {destination source : Address}
    {payload buffer written : Bytes} {n : Nat}
    (hwritten : encodeInto destination source payload buffer = (.ok n, written)) :
    (∀ received : Bytes, headerSize ≤ received.length →
        ((∃ header, Header.validate received = .ok header)
            ↔ summedChange (written.take n) received % 256
              = byteChange (written.take n) received 2 % 256)
          ∧ ((∃ header, Header.validate received = .ok header) ∨ Caught received))
      ∧ ∀ i < headerSize, ∀ value : UInt8, (written.take n)[i]? ≠ some value →
        Caught ((written.take n).set i value) := by
  have hsent : ChecksumHolds (written.take n) := by
    rw [take_of_encodeInto hwritten]
    exact wire_checksumHolds destination source payload
  have hlong : headerSize ≤ (written.take n).length := by
    rw [take_of_encodeInto hwritten, wire_length]
    exact Nat.le_add_right _ _
  refine ⟨fun received hreceived => ?_, fun i hi value hchanged => ?_⟩
  · rw [Header.validate_ok_iff, ← checksumHolds_iff_changes hsent, and_iff_right hreceived]
    refine ⟨Iff.rfl, ?_⟩
    by_cases hsum : ChecksumHolds received
    · exact .inl hsum
    · exact .inr (.of_checksum hreceived hsum)
  · refine .of_checksum ?_ (not_checksumHolds_set hsent hlong hi hchanged)
    rw [List.length_set]
    exact hlong

/-- The destination 5 has become 7, and station 7 keeps no more than the header. Two changes that
make up for each other go through. -/
theorem Frame.misrouted_caught :
    encodeInto 5 1 [9] (List.replicate 8 0) = (.ok 7, [5, 1, 6, 255, 0, 1, 9, 0])
      ∧ ((ReceivePath.fresh (.keypad 7) : ReceivePath ⟨3, by decide⟩).receiveAll
          (LineEvent.ofFrame [7, 1, 6, 255, 0, 1, 9])).1.ring.toList = [7, 1, 6, 255, 0, 1]
      ∧ ∃ header, Header.validate [4, 2, 6, 255, 0, 1, 9] = .ok header := by
  have hwritten : encodeInto 5 1 [9] (List.replicate 8 0)
      = (.ok 7, [5, 1, 6, 255, 0, 1, 9, 0]) := by decide +kernel
  obtain ⟨hpasses, hone⟩ := damaged_header_caught hwritten
  have hcaught : Caught [7, 1, 6, 255, 0, 1, 9] := hone 0 (by decide) 7 (by decide)
  obtain ⟨ring, -, hlist, hall⟩ :=
    (hcaught.discards (ReceivePath.fresh (.keypad 7) : ReceivePath ⟨3, by decide⟩) rfl
      (by decide +kernel)).rejected (by decide +kernel) 7 (by decide)
  refine ⟨hwritten, ?_, (hpasses [4, 2, 6, 255, 0, 1, 9] (by decide)).1.2 (by decide)⟩
  rw [List.take_of_length_le (by decide)] at hall
  rw [hall]
  show ring.toList = _
  rw [hlist, ReceivePath.fresh, Ring.toList_empty]
  rfl

end MultidropBus
