import MultidropBus.Proofs.Receive.Handles

/-!
# One frame, however it is asked for

The status, the frame handed out, the copy of it and its retirement are worked out one by one, each
of them anew from the ring and the latch. They agree in every state whatever: there is a frame for
all of them or for none, and it is the same one, `ReceivePath.Presents`. Its bytes are the oldest in
the ring, they fit every buffer that they are copied to, and none of them belongs to the span of a
fault. What an earlier frame left in the snapshot does not show.
-/

namespace MultidropBus

/-- Eight slots, the fewest that hold a header. -/
def leastRingSize : RingSize := (RingSize.ofSlots? 8).get rfl

namespace ReceivePath

variable {size : RingSize} {p : ReceivePath size} {header : Header}

/-- The same receive path with other bytes in the snapshot. -/
def withSnapshot (p : ReceivePath size) (snapshot : Bytes) : ReceivePath size :=
  p.withPoll { p.poll with snapshot := snapshot }

/-- Everything that the poll side says and does about a frame at the read cursor. -/
structure Presents (p : ReceivePath size) (frame : Frame) : Prop where
  valid : frame.header.isValid
  payload : frame.payload.length = frame.header.length.toNat
  fits : frame.size ≤ min size.slots maxFrameSize
  buffered : frame.size ≤ p.buffered
  copied : p.copyFrame? = some (p.ring.toList.take frame.size)
  parsed : Frame.parse (p.ring.toList.take frame.size) = .ok frame
  /-- Whatever the snapshot holds, the frame is shown, and nothing but the snapshot changes. -/
  shown : ∀ snapshot : Bytes, snapshot.length = maxFrameSize →
    ∃ after : Bytes, after.length = maxFrameSize
      ∧ (p.withSnapshot snapshot).currentFrame = (some frame, p.withSnapshot after)
  /-- The frame lies in front of the span of the oldest fault not handled, which is the pending
  one. -/
  clear : ∀ fault, p.pendingFault? = some fault →
    fault.number = p.poll.handled + 1
      ∧ frame.size ≤ (fault.record.start - p.ring.read).toNat
      ∧ (fault.record.start - p.ring.read).toNat ≤ p.buffered
  retired : p.retire = (true, { p with
    ring := { p.ring with read := p.ring.read + UInt64.ofNat frame.size }
    poll := { p.poll with retired := p.poll.retired + 1 } })
  rest : p.retire.2.ring.toList = p.ring.toList.drop frame.size

/-! ### The frame that the detector finds -/

/-- The frame found is read from the oldest bytes of the ring. -/
theorem parse_of_complete (h : p.detection = .complete header) :
    Frame.parse (p.ring.toList.take header.frameLength)
      = .ok ⟨header, (p.ring.toList.take header.frameLength).drop headerSize⟩ := by
  have hsix := header.headerSize_le_frameLength
  have hlen := (frameLength_le h).1
  rw [detection_eq] at h
  have hheader := (Detection.ofBytes_complete_iff.1 h).1
  have hreadable : headerSize ≤ p.readable := by
    rw [visible, List.length_take] at hlen
    omega
  rw [visible, acceptableHeader?_take size _ hreadable,
    ← acceptableHeader?_take size _ hsix] at hheader
  rw [Frame.parse, (acceptableHeader?_eq_some_iff.1 hheader).1]
  have hwhole := take_length_of_complete (p := p) (by rw [detection_eq]; exact h)
  simp only [hwhole, Nat.lt_irrefl, if_false, List.take_take, Nat.min_self]

/-- A fault behind the frame found is the oldest one, and its span begins behind the frame. -/
theorem clear_of_complete (h : p.detection = .complete header) {fault : Fault}
    (hpending : p.pendingFault? = some fault) :
    fault.number = p.poll.handled + 1
      ∧ header.frameLength ≤ (fault.record.start - p.ring.read).toNat
      ∧ (fault.record.start - p.ring.read).toNat ≤ p.buffered := by
  have hsix := header.headerSize_le_frameLength
  have hpos : 0 < headerSize := by decide
  have hlen := (frameLength_le h).1
  rw [visible, List.length_take, readable, hpending] at hlen
  obtain ⟨log, hlogs⟩ := p.faults.exists_logs
  obtain ⟨i, -, -, hnumber, holdest | hmissed⟩ := hlogs.of_pending? hpending
  · simp only [holdest.1, Nat.lt_irrefl, if_false] at hlen
    rw [hnumber, holdest.2]
    split at hlen
    · rename_i hahead
      exact ⟨rfl, hlen.trans (Nat.min_le_left _ _), hahead⟩
    · omega
  · simp only [if_pos hmissed.1] at hlen
    omega

/-! ### The frame that is presented -/

theorem detection_withSnapshot (p : ReceivePath size) (snapshot : Bytes) :
    (p.withSnapshot snapshot).detection = p.detection :=
  detection_withPoll (pendingFault?_withPoll rfl)

/-- What an earlier frame left in the snapshot does not show in the frame handed out. -/
theorem shown_of_complete (h : p.detection = .complete header) {snapshot : Bytes}
    (hsnapshot : snapshot.length = maxFrameSize) :
    ∃ after : Bytes, after.length = maxFrameSize
      ∧ (p.withSnapshot snapshot).currentFrame
        = (some ⟨header, (p.ring.toList.take header.frameLength).drop headerSize⟩,
          p.withSnapshot after) := by
  have hshown := currentFrame_of_complete (p := p.withSnapshot snapshot)
    ((p.detection_withSnapshot snapshot).trans h) hsnapshot
  change (p.withSnapshot snapshot).currentFrame
    = ((Frame.parse (p.ring.toList.take header.frameLength)).toOption, p.withSnapshot
      (p.ring.toList.take header.frameLength ++ snapshot.drop header.frameLength)) at hshown
  rw [parse_of_complete h] at hshown
  refine ⟨_, ?_, hshown⟩
  have hmax := (frameLength_le h).2
  rw [List.length_append, take_length_of_complete h, List.length_drop, hsnapshot]
  omega

theorem retire_read_of_complete (h : p.detection = .complete header) :
    p.retire = (true, { p with
      ring := { p.ring with read := p.ring.read + UInt64.ofNat header.frameLength }
      poll := { p.poll with retired := p.poll.retired + 1 } }) := by
  have hle := frameLength_le_ring h
  rw [Ring.toList_length] at hle
  rw [retire_of_complete h]
  simp only [Ring.advance, Nat.min_eq_left hle]

theorem presents_of_complete (h : p.detection = .complete header) :
    p.Presents ⟨header, (p.ring.toList.take header.frameLength).drop headerSize⟩ where
  valid := by
    rw [detection_eq] at h
    have hheader := (Detection.ofBytes_complete_iff.1 h).1
    exact Header.isValid_of_validate (acceptableHeader?_eq_some_iff.1 hheader).1
  payload := by
    show ((p.ring.toList.take header.frameLength).drop headerSize).length = header.length.toNat
    rw [List.length_drop, take_length_of_complete h, Header.frameLength, Nat.add_sub_cancel_left]
  fits := Detection.complete_fits ((detection_eq p).symm.trans h)
  buffered := (frameLength_le_ring h).trans_eq p.ring.toList_length
  copied := copyFrame?_of_complete h
  parsed := parse_of_complete h
  shown := fun _ hsnapshot => shown_of_complete h hsnapshot
  clear := fun _ hpending => clear_of_complete h hpending
  retired := retire_read_of_complete h
  rest := by
    rw [retire_of_complete h]
    exact p.ring.toList_advance header.frameLength

/-- **The status, the frame, its copy and its retirement agree.** There is a frame for all four, the
same one, or for none of them, and then nothing changes. -/
theorem frame_questions_agree (p : ReceivePath size)
    (hsnapshot : p.poll.snapshot.length = maxFrameSize) :
    (p.status = .completeFrame ↔ p.currentFrame.1.isSome)
      ∧ (p.status = .completeFrame ↔ p.copyFrame?.isSome)
      ∧ (p.status = .completeFrame ↔ p.retire.1 = true)
      ∧ (p.status = .completeFrame → ∃ frame, p.Presents frame)
      ∧ (p.status ≠ .completeFrame → p.currentFrame.2 = p ∧ p.retire.2 = p) := by
  rw [Ne, status_completeFrame_iff]
  by_cases hfound : ∃ header, p.detection = .complete header
  · obtain ⟨header, h⟩ := hfound
    have hpresents := presents_of_complete h
    have hfound : ∃ header, p.detection = .complete header := ⟨header, h⟩
    rw [currentFrame_of_complete h hsnapshot, parse_of_complete h, hpresents.copied,
      hpresents.retired]
    exact ⟨iff_of_true hfound rfl, iff_of_true hfound rfl, iff_of_true hfound rfl,
      fun _ => ⟨_, hpresents⟩, fun hnone => absurd hfound hnone⟩
  · obtain ⟨hcurrent, hcopy, hretire⟩ := nothing_served hfound
    rw [hcurrent, hcopy, hretire]
    exact ⟨iff_of_false hfound Bool.false_ne_true, iff_of_false hfound Bool.false_ne_true,
      iff_of_false hfound Bool.false_ne_true, fun h => absurd h hfound, fun _ => ⟨rfl, rfl⟩⟩

/-- A full ring whose cursors wrapped: a frame of one payload byte, and behind it the one byte of a
frame that a framing error cut short. An earlier frame left its bytes in the snapshot. -/
def wrappedPath : ReceivePath leastRingSize where
  identity := .plain 5
  ring := ⟨#v[0xff, 0, 1, 0x2a, 5, 5, 0, 5], 5, 0 - 3⟩
  faults := FaultLatch.empty.raise ⟨.line .framing, 4, 5⟩
  counters := {}
  state := .filtering
  poll := { snapshot := List.replicate maxFrameSize 7 }

/-- All four find the frame, and retiring it leaves the byte in front of the end of the span. -/
theorem wrappedPath_agrees :
    wrappedPath.poll.snapshot.length = maxFrameSize
      ∧ wrappedPath.copyFrame? = some [5, 0, 5, 0xff, 0, 1, 0x2a]
      ∧ wrappedPath.currentFrame.1 = some ⟨⟨5, 0, 5, 0xff, 1⟩, [0x2a]⟩
      ∧ wrappedPath.retire.2.ring.toList = [5]
      ∧ ∃ frame, wrappedPath.Presents frame :=
  ⟨by decide, by decide +kernel, by decide +kernel, by decide +kernel,
    (frame_questions_agree wrappedPath (by decide)).2.2.2.1 (by decide +kernel)⟩

end ReceivePath

end MultidropBus
