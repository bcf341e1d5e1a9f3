import MultidropBus.Proofs.Receive.Agreement
import MultidropBus.Proofs.Receive.PollLoop

/-!
# The poll loop comes to rest

Whatever the ring and the latch hold (bytes with no frame among them, spans that the read cursor has
left behind or that no byte was stored for, faults whose records are gone), a round of the poll loop
does what the status asks for and leaves less to do: fewer bytes in the ring, or fewer faults to
handle. So the bus is idle after at most as many rounds as there are bytes and faults
(`ReceivePath.serve_settles`). An idle bus has handled every fault, and keeps at most the beginning
of a frame that fits the ring, so there is always room for the next byte.
-/

namespace MultidropBus

namespace ReceivePath

variable {size : RingSize} {p : ReceivePath size} {header : Header}

/-- What the poll side has before it: the bytes in the ring and the faults not handled. -/
def workload (p : ReceivePath size) : Nat := p.buffered + p.unhandled

/-- There is something to do, and the operation that the status asks for does it. -/
def Acts (p : ReceivePath size) : Prop :=
  match p.status with
  | .idle => False
  | .completeFrame => p.copyFrame?.isSome ∧ p.retire.1 = true
  | .headerMismatch => p.skip.1 = true
  | .faulted => p.recover.1.isSome

/-- Nothing is left but, at most, the beginning of a frame. -/
structure Rests (p : ReceivePath size) : Prop where
  idle : p.status = .idle
  handled : p.unhandled = 0
  beginning : p.buffered < headerSize
    ∨ ∃ header, Header.validate p.ring.toList = .ok header
      ∧ header.frameLength ≤ min size.slots maxFrameSize ∧ p.buffered < header.frameLength
  room : p.buffered < min size.slots maxFrameSize
  notFull : p.ring.isFull = false

/-! ### One round -/

theorem retire_workload (h : p.detection = .complete header) :
    p.retire.2.workload < p.workload := by
  have hsix := header.headerSize_le_frameLength
  have hpos : 0 < headerSize := by decide
  have hle := frameLength_le_ring h
  rw [Ring.toList_length] at hle
  have hbytes : p.retire.2.buffered = p.ring.occupancy - header.frameLength := by
    rw [retire_of_complete h]
    exact p.ring.advance_occupancy header.frameLength
  have hfaults : p.retire.2.unhandled = p.unhandled := by
    rw [retire_of_complete h]
    rfl
  rw [workload, workload, hbytes, hfaults, buffered]
  omega

theorem occupancy_pos_of_mismatch (h : p.detection = .mismatch) : 0 < p.ring.occupancy := by
  rw [detection_eq] at h
  have hsix := (Detection.ofBytes_mismatch_iff.1 h).1
  have hpos : 0 < headerSize := by decide
  exact Nat.lt_of_lt_of_le hpos (hsix.trans p.visible_length_le)

theorem skip_workload (h : p.detection = .mismatch) : p.skip.2.workload < p.workload := by
  have hsome := occupancy_pos_of_mismatch h
  have hbytes : p.skip.2.buffered = p.ring.occupancy - 1 := by
    rw [skip_of_nonempty hsome]
    exact p.ring.advance_occupancy 1
  have hfaults : p.skip.2.unhandled = p.unhandled := by
    rw [skip_of_nonempty hsome]
    rfl
  rw [workload, workload, hbytes, hfaults, buffered]
  omega

/-- A recovery may find no byte to drop, but handles one fault at least. -/
theorem recover_workload (h : p.status = .faulted) : p.recover.2.workload < p.workload := by
  obtain ⟨fault, n, hidle, hpending, -, hadvance⟩ := faulted h
  have hdone := recover_of_pending hidle hpending hadvance
  have hnumber := FaultLatch.lt_number hpending
  have hraised : p.poll.handled < p.faults.raised := by
    refine Nat.lt_of_not_le fun hall => ?_
    rw [pendingFault?, (FaultLatch.pending?_eq_none_iff _ _).2 hall] at hpending
    cases hpending
  have hbytes : p.recover.2.buffered = p.ring.occupancy - n := by
    rw [hdone]
    exact p.ring.advance_occupancy n
  have hfaults : p.recover.2.unhandled = p.faults.raised - fault.number := by
    rw [hdone]
    rfl
  rw [workload, workload, hbytes, hfaults, buffered, unhandled, FaultLatch.unhandled]
  omega

/-- **A round on a bus that is not idle does its work**, and there is less of it left. -/
theorem serve_acts (h : p.status ≠ .idle) : p.Acts ∧ p.serve.2.workload < p.workload := by
  rw [Acts, serve]
  cases hstatus : p.status with
  | idle => exact absurd hstatus h
  | completeFrame =>
    obtain ⟨header, hcomplete⟩ := status_completeFrame_iff.1 hstatus
    refine ⟨⟨?_, ?_⟩, retire_workload hcomplete⟩
    · rw [copyFrame?_of_complete hcomplete]
      rfl
    · rw [retire_of_complete hcomplete]
  | headerMismatch =>
    have hmismatch := status_headerMismatch_iff.1 hstatus
    refine ⟨?_, skip_workload hmismatch⟩
    rw [skip_of_nonempty (occupancy_pos_of_mismatch hmismatch)]
  | faulted => exact ⟨recover_isSome_iff.2 hstatus, recover_workload hstatus⟩

/-! ### The bus at rest -/

theorem rests_of_idle (hholds : headerSize ≤ size.slots) (h : p.status = .idle) : p.Rests := by
  obtain ⟨hidle, hnone⟩ := status_idle_iff.1 h
  rw [detection_eq, visible_of_no_fault hnone] at hidle
  have hall := (FaultLatch.pending?_eq_none_iff _ _).1 hnone
  have hbeginning : p.buffered < headerSize
      ∨ ∃ header, Header.validate p.ring.toList = .ok header
        ∧ header.frameLength ≤ min size.slots maxFrameSize ∧ p.buffered < header.frameLength := by
    rw [buffered, ← Ring.toList_length]
    rcases Detection.ofBytes_idle_iff.1 hidle with hshort | ⟨header, hheader, hmissing⟩
    · exact .inl hshort
    · obtain ⟨hvalid, hfits⟩ := acceptableHeader?_eq_some_iff.1 hheader
      exact .inr ⟨header, hvalid, hfits, hmissing⟩
  have hroom : p.buffered < min size.slots maxFrameSize := by
    rw [buffered, ← Ring.toList_length]
    exact Detection.length_lt_frameLimit hholds hidle
  refine ⟨h, Nat.sub_eq_zero_of_le hall, hbeginning, hroom, ?_⟩
  rw [Ring.isFull, decide_eq_false_iff_not, Nat.not_le]
  exact Nat.lt_of_lt_of_le hroom (Nat.min_le_left _ _)

/-- The rounds before the bus is idle are counted off by what there is to do. -/
theorem serveRounds_rests (hholds : headerSize ≤ size.slots) (p : ReceivePath size) :
    ∃ rounds ≤ p.workload,
      (∀ n < rounds, (p.serveRounds n).2.Acts) ∧ (p.serveRounds rounds).2.Rests := by
  induction hload : p.workload using Nat.strong_induction_on generalizing p with
  | _ load ih =>
    by_cases hidle : p.status = .idle
    · have hrests := rests_of_idle hholds hidle
      exact ⟨0, Nat.zero_le _, fun n hn => absurd hn (Nat.not_lt_zero n), hrests⟩
    · obtain ⟨hacts, hless⟩ := serve_acts hidle
      obtain ⟨rounds, hle, hall, hrests⟩ := ih _ (hload ▸ hless) p.serve.2 rfl
      refine ⟨rounds + 1, hload ▸ hle.trans_lt hless, fun n hn => ?_, hrests⟩
      cases n with
      | zero => exact hacts
      | succ n => exact hall n (Nat.lt_of_succ_lt_succ hn)

/-- **The poll loop comes to rest.** Every round before that does something, and whenever the bus is
idle there is nothing left to do. -/
theorem serve_settles (hholds : headerSize ≤ size.slots) (p : ReceivePath size) :
    (∃ rounds ≤ p.buffered + p.unhandled,
      (∀ n < rounds, (p.serveRounds n).2.Acts) ∧ (p.serveRounds rounds).2.Rests)
      ∧ (p.status = .idle → p.Rests) :=
  ⟨serveRounds_rests hholds p, rests_of_idle hholds⟩

/-- A full ring whose cursors wrapped: two stray bytes, then a frame without payload. Six faults
were raised, all of them with a span that no byte was ever stored for. -/
def unattendedPath : ReceivePath leastRingSize where
  identity := .plain 5
  ring := ⟨#v[0, 0, 9, 9, 5, 0, 4, 0xff], 2, 0 - 6⟩
  faults := (List.replicate 6 ⟨.overflow, 40, 90⟩).foldl FaultLatch.raise .empty
  counters := {}
  state := .filtering
  poll := {}

/-- One recovery, two bytes skipped and one frame retired, out of at most fourteen rounds. -/
theorem unattendedPath_settles :
    headerSize ≤ leastRingSize.slots
      ∧ unattendedPath.buffered + unattendedPath.unhandled = 14
      ∧ (unattendedPath.serveRounds 3).2.status = .completeFrame
      ∧ (unattendedPath.serveRounds 4).1 = [[5, 0, 4, 0xff, 0, 0]]
      ∧ (∃ rounds ≤ unattendedPath.buffered + unattendedPath.unhandled,
        (∀ n < rounds, (unattendedPath.serveRounds n).2.Acts)
          ∧ (unattendedPath.serveRounds rounds).2.Rests)
      ∧ (unattendedPath.serveRounds 4).2.Rests :=
  ⟨by decide, by decide +kernel, by decide +kernel, by decide +kernel,
    (serve_settles (by decide) unattendedPath).1,
    (serve_settles (by decide) (unattendedPath.serveRounds 4).2).2 (by decide +kernel)⟩

end ReceivePath

end MultidropBus
