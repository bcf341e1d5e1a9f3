import MultidropBus.Proofs.Receive.Moves

/-!
# The moves that a poll operation makes on a journal

The poll side looks at the oldest bytes of the ring, as many as it may (`ReceivePath.visible`), and
takes some of them. Each of its operations is one move, `Journal.take`, or nothing at all, and the
equations that say so ask only that the ring holds what was stored: they are as good for a read
cursor that has lost its way as for one on the border of a frame.
-/

namespace MultidropBus

namespace ReceivePath

variable {size : RingSize} {p : ReceivePath size}

/-- The bytes that the poll side may look at. -/
def visible (p : ReceivePath size) : Bytes := p.ring.toList.take p.readable

theorem detection_eq (p : ReceivePath size) : p.detection = Detection.ofBytes size p.visible :=
  p.ring.detect_eq p.readable

/-- Without faults the poll side may look at everything. -/
theorem visible_of_no_fault (h : p.pendingFault? = none) : p.visible = p.ring.toList := by
  have hreadable : p.readable = p.ring.toList.length := by
    rw [readable, h, Ring.toList_length]
    rfl
  rw [visible, hreadable, List.take_length]

theorem completeHeader?_eq_some_iff {header : Header} :
    p.completeHeader? = some header ↔ p.detection = .complete header := by
  rw [completeHeader?]
  cases p.detection <;> simp

theorem status_completeFrame_iff :
    p.status = .completeFrame ↔ ∃ header, p.detection = .complete header := by
  rw [status]
  cases p.detection with
  | idle => cases p.pendingFault? <;> simp
  | complete header => simp
  | mismatch => simp

theorem status_faulted_iff :
    p.status = .faulted ↔ p.detection = .idle ∧ p.pendingFault?.isSome := by
  rw [status]
  cases p.detection with
  | idle => cases p.pendingFault? <;> simp
  | complete header => simp
  | mismatch => simp

theorem status_idle_iff : p.status = .idle ↔ p.detection = .idle ∧ p.pendingFault? = none := by
  rw [status]
  cases p.detection with
  | idle => cases p.pendingFault? <;> simp
  | complete header => simp
  | mismatch => simp

/-- Nothing has come in, so there is nothing to do. -/
theorem status_fresh (identity : Identity) :
    (fresh identity : ReceivePath size).status = .idle := by
  have hempty : (fresh identity : ReceivePath size).visible = [] := by
    rw [visible, fresh, Ring.toList_empty, List.take_nil]
  refine status_idle_iff.2 ⟨?_, rfl⟩
  rw [detection_eq, hempty]
  rfl

theorem status_headerMismatch_iff : p.status = .headerMismatch ↔ p.detection = .mismatch := by
  rw [status]
  cases p.detection with
  | idle => cases p.pendingFault? <;> simp
  | complete header => simp
  | mismatch => simp

theorem recover_isSome_iff : p.recover.1.isSome ↔ p.status = .faulted := by
  rw [recover]
  by_cases hstatus : p.status = .faulted
  · obtain ⟨fault, hpending⟩ := Option.isSome_iff_exists.1 (status_faulted_iff.1 hstatus).2
    simp [hstatus, hpending]
  · simp [hstatus]

/-- Without a whole frame no question is answered with one, and nothing changes. -/
theorem nothing_served (h : ¬ ∃ header, p.detection = .complete header) :
    p.currentFrame = (none, p) ∧ p.copyFrame? = none ∧ p.retire = (false, p) := by
  have hnone : p.completeHeader? = none := by
    rw [Option.eq_none_iff_forall_ne_some]
    exact fun header hheader => h ⟨header, completeHeader?_eq_some_iff.1 hheader⟩
  simp only [currentFrame, copyFrame?, retire, hnone, and_self]

theorem nothing_served_of_idle (h : p.detection = .idle) :
    p.currentFrame = (none, p) ∧ p.copyFrame? = none ∧ p.retire = (false, p) := by
  refine nothing_served ?_
  rintro ⟨header, hcomplete⟩
  rw [h] at hcomplete
  cases hcomplete

/-- A frame is found among the bytes that may be looked at, and fits every buffer. -/
theorem frameLength_le {header : Header} (h : p.detection = .complete header) :
    header.frameLength ≤ p.visible.length ∧ header.frameLength ≤ maxFrameSize := by
  rw [detection_eq] at h
  exact ⟨(Detection.ofBytes_complete_iff.1 h).2,
    (Detection.complete_fits h).trans (Nat.min_le_right _ _)⟩

theorem visible_length_le (p : ReceivePath size) : p.visible.length ≤ p.ring.occupancy := by
  rw [visible, List.length_take, Ring.toList_length]
  exact Nat.min_le_right _ _

theorem frameLength_le_ring {header : Header} (h : p.detection = .complete header) :
    header.frameLength ≤ p.ring.toList.length := by
  have hall := p.visible_length_le
  rw [← Ring.toList_length] at hall
  exact (frameLength_le h).1.trans hall

theorem take_length_of_complete {header : Header} (h : p.detection = .complete header) :
    (p.ring.toList.take header.frameLength).length = header.frameLength := by
  rw [List.length_take, Nat.min_eq_left (frameLength_le_ring h)]

/-- A copy holds the oldest bytes of the ring. -/
theorem copyFrame?_of_complete {header : Header} (h : p.detection = .complete header) :
    p.copyFrame? = some (p.ring.toList.take header.frameLength) := by
  have hbytes := take_length_of_complete h
  rw [copyFrame?, completeHeader?_eq_some_iff.2 h]
  simp only [Ring.peekWindow, Ring.window_eq, List.drop_zero, List.length_replicate]
  rw [if_pos (frameLength_le h).2, overwrite_of_le _ _ (by rw [hbytes, List.length_replicate]),
    hbytes, List.drop_replicate, Nat.sub_self]
  simp

/-- The frame handed out is read from the same bytes as a copy. What the snapshot held before is
covered by them, or stays behind them. -/
theorem currentFrame_of_complete {header : Header} (h : p.detection = .complete header)
    (hsnapshot : p.poll.snapshot.length = maxFrameSize) :
    p.currentFrame = ((Frame.parse (p.ring.toList.take header.frameLength)).toOption,
      { p with poll := { p.poll with
        snapshot := p.ring.toList.take header.frameLength
          ++ p.poll.snapshot.drop header.frameLength } }) := by
  have hwindow : (p.poll.snapshot.take header.frameLength).length = header.frameLength := by
    rw [List.length_take, hsnapshot]
    exact Nat.min_eq_left (frameLength_le h).2
  have hbytes := take_length_of_complete h
  rw [currentFrame, completeHeader?_eq_some_iff.2 h]
  simp only [Ring.peekWindow, Ring.window_eq, List.drop_zero, hwindow]
  rw [overwrite_of_le _ _ (Nat.le_of_eq (hbytes.trans hwindow.symm)), hbytes,
    List.drop_of_length_le (Nat.le_of_eq hwindow), List.append_nil]

theorem currentFrame_fst (hsnapshot : p.poll.snapshot.length = maxFrameSize) :
    p.currentFrame.1 = p.copyFrame?.bind fun bytes => (Frame.parse bytes).toOption := by
  cases hheader : p.completeHeader? with
  | none => simp only [currentFrame, copyFrame?, hheader, Option.bind_none]
  | some header =>
    have hcomplete := completeHeader?_eq_some_iff.1 hheader
    rw [copyFrame?_of_complete hcomplete, currentFrame_of_complete hcomplete hsnapshot,
      Option.bind_some]

/-! ### What an operation leaves -/

/-- What the receiver waits for and what it counted are the same in both. -/
structure SameReceiver (p q : ReceivePath size) : Prop where
  state : q.state = p.state
  counters : q.counters = p.counters

theorem SameReceiver.refl (p : ReceivePath size) : p.SameReceiver p := ⟨rfl, rfl⟩

theorem SameReceiver.isReceiving {q : ReceivePath size} (h : p.SameReceiver q) :
    q.isReceiving = p.isReceiving := by
  rw [ReceivePath.isReceiving, ReceivePath.isReceiving, h.state]

theorem currentFrame_sameReceiver (p : ReceivePath size) : p.SameReceiver p.currentFrame.2 := by
  rw [currentFrame]
  cases p.completeHeader? <;> exact ⟨rfl, rfl⟩

theorem retire_sameReceiver (p : ReceivePath size) : p.SameReceiver p.retire.2 := by
  rw [retire]
  cases p.completeHeader? <;> exact ⟨rfl, rfl⟩

theorem skip_sameReceiver (p : ReceivePath size) : p.SameReceiver p.skip.2 := by
  simp only [skip]
  split <;> exact ⟨rfl, rfl⟩

theorem recover_sameReceiver (p : ReceivePath size) : p.SameReceiver p.recover.2 := by
  rw [recover]
  split
  · exact .refl p
  · cases p.pendingFault? <;> exact ⟨rfl, rfl⟩


theorem retire_of_complete {header : Header} (h : p.detection = .complete header) :
    p.retire = (true, { p with
      ring := (p.ring.advance header.frameLength).2
      poll := { p.poll with retired := p.poll.retired + 1 } }) := by
  rw [retire, completeHeader?_eq_some_iff.2 h]

theorem skip_of_nonempty (h : 0 < p.ring.occupancy) :
    p.skip = (true, { p with
      ring := (p.ring.advance 1).2
      poll := { p.poll with skipped := p.poll.skipped + 1 } }) := by
  have hsome : (p.ring.advance 1).1 ≠ 0 := by
    rw [Ring.advance_fst]
    omega
  simp only [skip, if_neg hsome]

/-- On a faulted bus there is a fault to recover from, and the ring holds all that it drops on the
way to the end of the span, wherever that may be. -/
theorem faulted (hstatus : p.status = .faulted) :
    ∃ fault n, p.detection = .idle ∧ p.pendingFault? = some fault ∧ n ≤ p.ring.occupancy
      ∧ p.ring.advanceTo fault.record.stop = (n, (p.ring.advance n).2) := by
  obtain ⟨hidle, hsome⟩ := status_faulted_iff.1 hstatus
  obtain ⟨fault, hpending⟩ := Option.isSome_iff_exists.1 hsome
  obtain ⟨n, hn, hadvance⟩ := p.ring.advanceTo_cases fault.record.stop
  exact ⟨fault, n, hidle, hpending, hn, hadvance⟩

theorem recover_of_pending {fault : Fault} {n : Nat} (hidle : p.detection = .idle)
    (hpending : p.pendingFault? = some fault)
    (hadvance : p.ring.advanceTo fault.record.stop = (n, (p.ring.advance n).2)) :
    p.recover = (some fault.record.kind, { p with
      ring := (p.ring.advance n).2
      poll := { p.poll with handled := fault.number, flushed := p.poll.flushed + n } }) := by
  have hstatus : p.status = .faulted := status_faulted_iff.2 ⟨hidle, by rw [hpending]; rfl⟩
  rw [recover, if_neg (not_not_intro hstatus), hpending]
  simp only [hadvance]

end ReceivePath

namespace Journal

variable {size : RingSize} {j : Journal size}

/-- The journal once the oldest `n` bytes left the ring and the poll side learned of `known`. -/
def take (j : Journal size) (n : Nat) (poll : PollSide) (known surviving : List Delivery) :
    Journal size :=
  { j with
    path := { j.path with ring := (j.path.ring.advance n).2, poll := poll }
    taken := j.taken + n
    polled := j.polled ++ known
    surviving := surviving }

theorem Tracks.take (h : j.Tracks) {n : Nat} (hn : j.taken + n ≤ j.stored.length) (poll : PollSide)
    (known surviving : List Delivery) : (j.take n poll known surviving).Tracks where
  ring := h.ring.advance hn
  tracking := h.tracking
  faults := h.faults

/-- A poll operation that advances the ring by `n` bytes takes `n` bytes. -/
theorem Tracks.poll_eq_take (h : j.Tracks) {n : Nat} (hn : j.taken + n ≤ j.stored.length)
    (poll : PollSide) (known : List Delivery) :
    j.poll { j.path with ring := (j.path.ring.advance n).2, poll := poll } known
      = j.take n poll known j.surviving := by
  have hpassed := h.ring.passed (h.ring.advance hn)
  simp only [Journal.poll, Journal.take, hpassed]

/-- A poll operation that changes nothing is not noted. -/
theorem poll_self (j : Journal size) : j.poll j.path [] = j := by
  have hpassed : (j.path.ring.read - j.path.ring.read).toNat = 0 := by simp
  simp only [Journal.poll, hpassed, Nat.add_zero, List.append_nil]

theorem Tracks.visible_le (h : j.Tracks) : j.taken + j.path.visible.length ≤ j.stored.length := by
  have hall := j.path.visible_length_le
  have hle := h.ring.taken_le
  rw [h.ring.occupancy] at hall
  omega

/-! ### Retiring -/

/-- Retiring takes the frame that the detector found, and hands over the bytes of it. -/
theorem Tracks.retire_eq (h : j.Tracks) {header : Header}
    (hcomplete : j.path.detection = .complete header) :
    j.retire = j.take header.frameLength { j.path.poll with retired := j.path.poll.retired + 1 }
      [.frame ((j.stored.drop j.taken).take header.frameLength)] j.surviving := by
  have hseen := h.visible_le
  have hlen := (ReceivePath.frameLength_le hcomplete).1
  simp only [Journal.retire, ReceivePath.retire_of_complete hcomplete,
    ReceivePath.copyFrame?_of_complete hcomplete, h.ring.toList, if_true, Option.getD_some]
  exact h.poll_eq_take (by omega) _ _

theorem retire_nothing (hnone : j.path.completeHeader? = none) : j.retire = j := by
  have hsame : j.path.retire = (false, j.path) := by rw [ReceivePath.retire, hnone]
  rw [Journal.retire, hsame]
  exact j.poll_self

/-! ### Skipping -/

theorem Tracks.skip_eq (h : j.Tracks) (hlt : j.taken < j.stored.length) :
    j.skip = j.take 1 { j.path.poll with skipped := j.path.poll.skipped + 1 } [] j.surviving := by
  have hsome : 0 < j.path.ring.occupancy := by
    rw [h.ring.occupancy]
    omega
  rw [Journal.skip, ReceivePath.skip_of_nonempty hsome]
  exact h.poll_eq_take hlt _ _

theorem Tracks.skip_nothing (h : j.Tracks) (hall : j.taken = j.stored.length) : j.skip = j := by
  have hnone : (j.path.ring.advance 1).1 = 0 := by
    rw [Ring.advance_fst, h.ring.occupancy]
    omega
  have hsame : j.path.skip.2 = j.path := by simp only [ReceivePath.skip, if_pos hnone]
  rw [Journal.skip, hsame]
  exact j.poll_self

/-! ### Recovering -/

theorem Tracks.faulted (h : j.Tracks) (hstatus : j.path.status = .faulted) :
    ∃ fault n, j.path.detection = .idle ∧ j.path.pendingFault? = some fault
      ∧ j.path.ring.advanceTo fault.record.stop = (n, (j.path.ring.advance n).2)
      ∧ j.taken + n ≤ j.stored.length := by
  obtain ⟨fault, n, hidle, hpending, hn, hadvance⟩ := ReceivePath.faulted hstatus
  have hle := h.ring.taken_le
  rw [h.ring.occupancy] at hn
  exact ⟨fault, n, hidle, hpending, hadvance, by omega⟩

/-- Recovering takes as many bytes as the ring drops on the way to the end of the span. -/
theorem Tracks.recover_eq (h : j.Tracks) {fault : Fault} {n : Nat}
    (hidle : j.path.detection = .idle) (hpending : j.path.pendingFault? = some fault)
    (hadvance : j.path.ring.advanceTo fault.record.stop = (n, (j.path.ring.advance n).2))
    (hn : j.taken + n ≤ j.stored.length) :
    j.path.recover.1 = some fault.record.kind
      ∧ j.recover = j.take n
        { j.path.poll with handled := fault.number, flushed := j.path.poll.flushed + n }
        [.fault fault.record.kind]
        (if faultSlots < j.path.unhandled then
          j.polled ++ sinceLatestFault (j.surviving.drop j.polled.length)
        else j.surviving) := by
  have hdone := ReceivePath.recover_of_pending hidle hpending hadvance
  refine ⟨by rw [hdone], ?_⟩
  simp only [Journal.recover, hdone]
  rw [h.poll_eq_take hn]
  rfl

theorem recover_nothing (hstatus : j.path.status ≠ .faulted) :
    j.path.recover.1 = none ∧ j.recover = j := by
  have hsame : j.path.recover = (none, j.path) := by rw [ReceivePath.recover, if_pos hstatus]
  refine ⟨by rw [hsame], ?_⟩
  simp only [Journal.recover, hsame]
  exact j.poll_self

end Journal

end MultidropBus
