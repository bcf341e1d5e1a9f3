import Mathlib.Algebra.Ring.Nat
import MultidropBus.Proofs.Receive.Polls

/-!
# The receiver's accounts

The receiver counts the frames that begin, the ways in which they end, and the faults. A line error
has no counter for the frame that it hits, so the hits are kept beside, as are the records of all
faults, of which the latch holds only the last four. With them the accounts balance: every frame
accepted has ended in one of the ways that are counted, or is in flight, and every byte stored
belongs to a completed frame, to a rejected header, to the span of a fault or to the frame in flight
(`Journal.Balanced`).

Every move of the receiver keeps the balance, and so does every move of the poll side, which may
take bytes when it likes: the receiver's accounts do not mention it.
-/

namespace MultidropBus

/-- The number of bytes that a fault gave up. -/
def FaultRecord.length (r : FaultRecord) : Nat := (r.stop - r.start).toNat

namespace ReceiveCounters

/-- Frames that ended in one of the ways that have a counter. -/
def ended (c : ReceiveCounters) : Nat := c.completed + c.rejected + c.truncated + c.overflows

/-- Faults of all kinds. -/
def faults (c : ReceiveCounters) : Nat := c.lineErrors + c.overflows + c.truncated

theorem countFault_accepted (c : ReceiveCounters) (kind : FaultKind) :
    (c.countFault kind).accepted = c.accepted := by cases kind <;> rfl

theorem countFault_faults (c : ReceiveCounters) (kind : FaultKind) :
    (c.countFault kind).faults = c.faults + 1 := by
  cases kind <;> simp only [countFault, faults] <;> omega

/-- A line error has no counter for the frame that it hits. -/
theorem countFault_line_ended (c : ReceiveCounters) (e : LineError) :
    (c.countFault (.line e)).ended = c.ended := rfl

theorem countFault_overflow_ended (c : ReceiveCounters) :
    (c.countFault .overflow).ended = c.ended + 1 := rfl

theorem countFault_truncated_ended (c : ReceiveCounters) :
    (c.countFault .truncated).ended = c.ended + 1 := by
  simp only [countFault, ended]
  omega

end ReceiveCounters

namespace ReceivePath

variable {size : RingSize} {p : ReceivePath size}

/-- One if a frame is in flight, and none otherwise. -/
def framesInFlight (p : ReceivePath size) : Nat := if p.isReceiving then 1 else 0

/-- How many bytes of the frame in flight are stored. -/
def bytesInFlight (p : ReceivePath size) : Nat :=
  match p.state with
  | .filtering => 0
  | .receiving frame => frame.received

/-- How many frames in flight an event ends as a line error. -/
def hits (p : ReceivePath size) : LineEvent → Nat
  | .error _ => p.framesInFlight
  | .byte _ _ => 0

theorem framesInFlight_of_filtering (h : p.state = .filtering) : p.framesInFlight = 0 := by
  rw [framesInFlight, isReceiving, h]
  rfl

theorem framesInFlight_of_receiving {f : InFlight} (h : p.state = .receiving f) :
    p.framesInFlight = 1 := by
  rw [framesInFlight, isReceiving, h]
  rfl

end ReceivePath

/-- The length of a frame that the receiver completed. -/
def Delivery.frameLength? : Delivery → Option Nat
  | .frame bytes => some bytes.length
  | .fault _ => none

namespace Journal

variable {size : RingSize} {j : Journal size} {log : List FaultRecord} {hits : Nat}

/-- The lengths of the frames that the receiver completed. -/
def completedLengths (j : Journal size) : List Nat :=
  j.received.filterMap fun x => x.2.frameLength?

/-- The receiver's accounts agree with the records of all faults and the frames hit by line errors.
-/
structure Balanced (j : Journal size) (log : List FaultRecord) (hits : Nat) : Prop where
  tracks : j.Tracks
  logs : j.path.faults.Logs log
  frames : j.path.counters.accepted
    = j.path.counters.ended + hits + j.path.framesInFlight
  faults : log.length = j.path.counters.faults
  completed : j.completedLengths.length = j.path.counters.completed
  bytes : j.stored.length
    = j.completedLengths.sum + headerSize * j.path.counters.rejected
      + (log.map FaultRecord.length).sum + j.inFlight.length

theorem fresh_balanced (identity : Identity) : (fresh identity : Journal size).Balanced [] 0 where
  tracks := ⟨Ring.empty_holds, (fun _ hf => nomatch hf), [], FaultLatch.empty_logs⟩
  logs := FaultLatch.empty_logs
  frames := rfl
  faults := rfl
  completed := rfl
  bytes := rfl

/-- The span of a fault is that of the frame in flight. -/
theorem Balanced.span_length (h : j.Balanced log hits) (kind : FaultKind) :
    FaultRecord.length ⟨kind, j.path.spanStart, j.path.ring.write⟩ = j.inFlight.length := by
  have hbytes := h.bytes
  have hshort := Detection.length_lt_of_idle h.tracks.inFlight_idle
  have hround : maxFrameSize < UInt64.size := by decide
  obtain ⟨start, hstart⟩ := Nat.exists_eq_add_of_le' (show j.inFlight.length ≤ j.stored.length by
    omega)
  rw [FaultRecord.length, h.tracks.spanStart, h.tracks.ring.write, hstart, Nat.add_sub_cancel]
  exact Cursor.distance start j.inFlight.length (by omega)

/-- A fault ends the frame in flight, which either has a counter for that or is hit by a line error.
-/
theorem Balanced.abandon (h : j.Balanced log hits) {kind : FaultKind} {hits' : Nat}
    (hended : (j.path.counters.countFault kind).ended + hits'
      = j.path.counters.ended + hits + j.path.framesInFlight) :
    (j.abandon kind).Balanced (log ++ [⟨kind, j.path.spanStart, j.path.ring.write⟩]) hits' where
  tracks := h.tracks.abandon kind
  logs := h.logs.raise _
  frames := by
    show (j.path.counters.countFault kind).accepted
      = (j.path.counters.countFault kind).ended + hits' + 0
    rw [ReceiveCounters.countFault_accepted, h.frames, hended, Nat.add_zero]
  faults := by
    show _ = (j.path.counters.countFault kind).faults
    rw [ReceiveCounters.countFault_faults, List.length_append, h.faults, List.length_singleton]
  completed := by
    show (List.filterMap _ (_ ++ [_])).length = (j.path.counters.countFault kind).completed
    rw [ReceiveCounters.countFault_completed, List.filterMap_append, ← h.completed]
    exact congrArg List.length (List.append_nil _)
  bytes := by
    have hlengths : (j.abandon kind).completedLengths = j.completedLengths := by
      show List.filterMap _ (_ ++ [_]) = _
      rw [List.filterMap_append]
      exact List.append_nil _
    have hempty : (j.abandon kind).inFlight = [] := inFlight_of_filtering rfl
    rw [hlengths, hempty, List.map_append, List.sum_append, List.map_singleton,
      List.sum_singleton, h.span_length kind]
    show j.stored.length = _ + headerSize * (j.path.counters.countFault kind).rejected + _ + 0
    rw [ReceiveCounters.countFault_rejected, h.bytes]
    omega

theorem Balanced.begin (h : j.Balanced log hits) (hstate : j.path.state = .filtering) :
    j.begin.Balanced log hits where
  tracks := h.tracks.begin
  logs := h.logs
  frames := by
    have hframes := h.frames
    rw [ReceivePath.framesInFlight_of_filtering hstate] at hframes
    show j.path.counters.accepted + 1 = j.path.counters.ended + hits + 1
    rw [hframes]
  faults := h.faults
  completed := h.completed
  bytes := by
    have hbytes := h.bytes
    rw [inFlight_of_filtering hstate] at hbytes
    exact hbytes

/-- What passes by between frames has no part in the accounts. -/
theorem Balanced.overhear (h : j.Balanced log hits) (hstate : j.path.state = .filtering)
    (heard : Bytes) (foreign : Nat) :
    (j.overhear heard { j.path.counters with foreign := foreign }).Balanced log hits where
  tracks := ⟨h.tracks.ring, (fun _ hf => nomatch hstate.symm.trans hf), h.tracks.faults⟩
  logs := h.logs
  frames := h.frames
  faults := h.faults
  completed := h.completed
  bytes := by
    have hbytes := h.bytes
    have hempty :
        (j.overhear heard { j.path.counters with foreign := foreign }).inFlight = [] :=
      inFlight_of_filtering hstate
    rw [inFlight_of_filtering hstate] at hbytes
    rw [hempty]
    exact hbytes

variable {f : InFlight} {ring : Ring size} {byte : UInt8}

theorem Balanced.grow (h : j.Balanced log hits) (hstate : j.path.state = .receiving f)
    (hpush : j.path.ring.push? byte = some ring)
    (hidle : Detection.ofBytes size (j.heard ++ [byte]) = .idle) :
    (j.grow ring byte (.receiving (.ofBytes size
      (UInt64.ofNat (j.stored.length - j.heard.length)) (j.heard ++ [byte])))
      j.path.counters).Balanced log hits where
  tracks := h.tracks.grow hpush hidle _
  logs := h.logs
  frames := by
    have hframes := h.frames
    rw [ReceivePath.framesInFlight_of_receiving hstate] at hframes
    exact hframes
  faults := h.faults
  completed := h.completed
  bytes := by
    have hbytes := h.bytes
    rw [inFlight_of_receiving hstate] at hbytes
    rw [inFlight_of_receiving (f := .ofBytes size _ (j.heard ++ [byte])) rfl]
    show (j.stored ++ [byte]).length = _ + _ + _ + (j.heard ++ [byte]).length
    rw [List.length_append, List.length_append, hbytes, Nat.add_assoc]
    rfl

theorem Balanced.complete (h : j.Balanced log hits) (hstate : j.path.state = .receiving f)
    (hpush : j.path.ring.push? byte = some ring) : (j.complete ring byte).Balanced log hits where
  tracks := ⟨h.tracks.ring.push hpush, (fun _ hf => nomatch hf), h.tracks.faults⟩
  logs := h.logs
  frames := by
    have hframes := h.frames
    rw [ReceivePath.framesInFlight_of_receiving hstate, ReceiveCounters.ended] at hframes
    show j.path.counters.accepted = j.path.counters.completed + 1 + j.path.counters.rejected
      + j.path.counters.truncated + j.path.counters.overflows + hits + 0
    omega
  faults := h.faults
  completed := by
    show (List.filterMap _ (_ ++ [_])).length = j.path.counters.completed + 1
    rw [List.filterMap_append, List.length_append, ← h.completed]
    rfl
  bytes := by
    have hbytes := h.bytes
    rw [inFlight_of_receiving hstate] at hbytes
    have hlengths : (j.complete ring byte).completedLengths
        = j.completedLengths ++ [(j.heard ++ [byte]).length] := List.filterMap_append
    rw [hlengths, List.sum_append, List.sum_singleton,
      inFlight_of_filtering (j := j.complete ring byte) rfl]
    show (j.stored ++ [byte]).length = _ + headerSize * j.path.counters.rejected + _ + 0
    rw [List.length_append, List.length_append, hbytes]
    omega

theorem Balanced.reject (h : j.Balanced log hits) (hstate : j.path.state = .receiving f)
    (hpush : j.path.ring.push? byte = some ring)
    (hbad : Detection.ofBytes size (j.heard ++ [byte]) = .mismatch) :
    (j.reject ring byte).Balanced log hits where
  tracks := ⟨h.tracks.ring.push hpush, (fun _ hf => nomatch hf), h.tracks.faults⟩
  logs := h.logs
  frames := by
    have hframes := h.frames
    rw [ReceivePath.framesInFlight_of_receiving hstate, ReceiveCounters.ended] at hframes
    show j.path.counters.accepted = j.path.counters.completed + (j.path.counters.rejected + 1)
      + j.path.counters.truncated + j.path.counters.overflows + hits + 0
    omega
  faults := h.faults
  completed := h.completed
  bytes := by
    have hbytes := h.bytes
    have hsix := Detection.mismatch_length (h.tracks.tracking f hstate).2 hbad
    rw [inFlight_of_receiving hstate] at hbytes
    rw [List.length_append, List.length_singleton] at hsix
    rw [inFlight_of_filtering (j := j.reject ring byte) rfl]
    show (j.stored ++ [byte]).length
      = j.completedLengths.sum + headerSize * (j.path.counters.rejected + 1) + _ + 0
    rw [List.length_append, List.length_singleton, hbytes, Nat.mul_add]
    omega

/-- One byte more of a frame keeps the accounts balanced, and raises at most one fault. -/
theorem Balanced.hear_data (h : j.Balanced log hits) (hstate : j.path.state = .receiving f)
    (byte : UInt8) :
    ∃ new, new.length ≤ 1 ∧ (j.hear (.byte byte false)).Balanced (log ++ new) hits := by
  rw [Journal.hear_data h.tracks hstate byte]
  cases hpush : j.path.ring.push? byte with
  | none =>
    have hended := ReceiveCounters.countFault_overflow_ended j.path.counters
    have hflight := ReceivePath.framesInFlight_of_receiving hstate
    exact ⟨[_], Nat.le_refl 1, (h.abandon (by omega)).overhear rfl _ _⟩
  | some ring =>
    cases hread : Detection.ofBytes size (j.heard ++ [byte]) with
    | idle => exact ⟨[], Nat.zero_le 1, (List.append_nil log).symm ▸ h.grow hstate hpush hread⟩
    | complete header =>
      exact ⟨[], Nat.zero_le 1, (List.append_nil log).symm ▸ h.complete hstate hpush⟩
    | mismatch =>
      exact ⟨[], Nat.zero_le 1, (List.append_nil log).symm ▸ h.reject hstate hpush hread⟩

theorem Balanced.hear_between (h : j.Balanced log hits) (hstate : j.path.state = .filtering)
    (byte : UInt8) (mark : Bool) :
    ∃ new, new.length ≤ 1 ∧ (j.hear (.byte byte mark)).Balanced (log ++ new) hits := by
  cases mark with
  | false =>
    rw [hear_filtered hstate]
    exact ⟨[], Nat.zero_le 1, (List.append_nil log).symm ▸ h.overhear hstate _ _⟩
  | true =>
    cases haccepts : j.path.identity.accepts byte with
    | true =>
      rw [hear_accepted hstate haccepts]
      exact (h.begin hstate).hear_data rfl byte
    | false =>
      rw [hear_foreign hstate haccepts]
      exact ⟨[], Nat.zero_le 1, (List.append_nil log).symm ▸ h.overhear hstate _ _⟩

/-- **Every event keeps the receiver's accounts balanced**, and raises at most two faults. -/
theorem Balanced.hear (h : j.Balanced log hits) (event : LineEvent) :
    ∃ new, new.length ≤ 2
      ∧ (j.hear event).Balanced (log ++ new) (hits + j.path.hits event) := by
  cases event with
  | error e =>
    have hended := ReceiveCounters.countFault_line_ended j.path.counters e
    rw [hear_error h.tracks]
    exact ⟨[_], Nat.le_succ 1, h.abandon (by rw [hended, Nat.add_assoc]; rfl)⟩
  | byte byte mark =>
    cases hstate : j.path.state with
    | filtering =>
      obtain ⟨new, hfew, hafter⟩ := h.hear_between hstate byte mark
      exact ⟨new, Nat.le_succ_of_le hfew, hafter⟩
    | receiving f =>
      cases mark with
      | false =>
        obtain ⟨new, hfew, hafter⟩ := h.hear_data hstate byte
        exact ⟨new, Nat.le_succ_of_le hfew, hafter⟩
      | true =>
        have hended := ReceiveCounters.countFault_truncated_ended j.path.counters
        have hflight := ReceivePath.framesInFlight_of_receiving hstate
        have hcut : (j.abandon .truncated).Balanced (log ++ [_]) hits := h.abandon (by omega)
        obtain ⟨new, hfew, hafter⟩ := hcut.hear_between rfl byte true
        rw [hear_cut h.tracks hstate]
        exact ⟨_ :: new, Nat.succ_le_succ hfew, List.append_assoc log [_] new ▸ hafter⟩

/-- What the poll side takes has no part in the receiver's accounts. -/
theorem Balanced.take (h : j.Balanced log hits) {n : Nat} (hn : j.taken + n ≤ j.stored.length)
    (poll : PollSide) (known surviving : List Delivery) :
    (j.take n poll known surviving).Balanced log hits where
  tracks := h.tracks.take hn poll known surviving
  logs := h.logs
  frames := h.frames
  faults := h.faults
  completed := h.completed
  bytes := h.bytes

end Journal

end MultidropBus
