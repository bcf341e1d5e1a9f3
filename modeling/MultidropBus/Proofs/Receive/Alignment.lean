import MultidropBus.Proofs.Receive.Moves
import MultidropBus.Proofs.Receive.Segments

/-!
# Alignment of a journal with the segments ahead

`Journal.Aligned` is the invariant of the receive path. It is kept by everything the receiver does:
each event appends the segments that it finishes, at most two, and leaves the rest of the ring
alone (`Aligned.hear`).
-/

namespace MultidropBus

open Segment

namespace Journal

variable {size : RingSize}

/-- The bytes in the ring are those of the segments ahead and of the frame in flight, and the
receiver, the latch and both logs agree with them. -/
structure Aligned (j : Journal size) (ahead : List Segment) : Prop where
  ring : j.path.ring.Holds j.stored j.taken
  layout : j.stored.drop j.taken = allBytes ahead ++ j.inFlight
  tracking : ∀ f, j.path.state = .receiving f →
    f = .ofBytes size (UInt64.ofNat (j.stored.length - j.heard.length)) j.heard
      ∧ Detection.ofBytes size j.heard = .idle
  sound : AllSound size j.rejected j.taken ahead
  faults : ∃ log, j.path.faults.Logs log ∧ j.path.poll.handled ≤ log.length
    ∧ log.drop j.path.poll.handled = allRecords j.taken ahead
  noted : ∃ past, j.received = past ++ allNoted j.taken ahead ∧ ∀ x ∈ past, x.1 ≤ j.taken
  surviving : j.surviving = j.polled ++ allDeliveries ahead
  rejections : ∀ start ∈ j.rejected, start + headerSize ≤ j.stored.length
    ∧ acceptableHeader? size (j.stored.drop start) = none

theorem fresh_aligned (identity : Identity) : (fresh identity : Journal size).Aligned [] where
  ring := Ring.empty_holds
  layout := rfl
  tracking := by
    intro f hf
    cases hf
  sound := allSound_nil
  faults := ⟨[], FaultLatch.empty_logs, Nat.le_refl 0, rfl⟩
  noted := ⟨[], rfl, by simp⟩
  surviving := rfl
  rejections := by
    intro start hstart
    cases hstart

namespace Aligned

variable {j j' : Journal size} {ahead : List Segment}

/-- Where the segments ahead end, the frame in flight begins. -/
theorem length_eq (h : j.Aligned ahead) :
    j.taken + (allBytes ahead).length + j.inFlight.length = j.stored.length := by
  have hlen := congrArg List.length h.layout
  have hle := h.ring.taken_le
  rw [List.length_drop, List.length_append] at hlen
  omega

theorem tracks (h : j.Aligned ahead) : j.Tracks where
  ring := h.ring
  tracking := h.tracking
  faults := by
    obtain ⟨log, hlogs, -⟩ := h.faults
    exact ⟨log, hlogs⟩

theorem handled_le_raised (h : j.Aligned ahead) :
    j.path.poll.handled ≤ j.path.faults.raised := by
  obtain ⟨log, hlogs, hle, -⟩ := h.faults
  exact hlogs.raised ▸ hle

theorem spanStart (h : j.Aligned ahead) :
    j.path.spanStart = UInt64.ofNat (j.taken + (allBytes ahead).length) := by
  rw [h.tracks.spanStart, ← h.length_eq, Nat.add_sub_cancel]

/-- The faults that the poll side has before it are those of the segments ahead. -/
theorem unhandled (h : j.Aligned ahead) : j.path.unhandled = ahead.countP isAbandoned := by
  obtain ⟨log, hlogs, -, hdrop⟩ := h.faults
  rw [ReceivePath.unhandled, hlogs.unhandled, ← allRecords_length j.taken, ← hdrop,
    List.length_drop]

/-- The frame in flight, or the place where it would be, becomes a finished segment. -/
theorem finish (h : j.Aligned ahead) {s : Segment} (more : Bytes)
    (hbytes : s.bytes = j.inFlight ++ more)
    (hring : j'.path.ring.Holds j'.stored j.taken)
    (hstate : j'.path.state = .filtering)
    (hfaults : ∀ log, j.path.faults.Logs log → j'.path.faults.Logs
      (log ++ s.records (j.taken + (allBytes ahead).length)))
    (hsound : s.Sound size j'.rejected (j.taken + (allBytes ahead).length))
    (hrejections : j.rejected ⊆ j'.rejected ∧ ∀ start ∈ j'.rejected,
      start + headerSize ≤ j'.stored.length
        ∧ acceptableHeader? size (j'.stored.drop start) = none)
    (hhandled : j'.path.poll.handled = j.path.poll.handled)
    (hstored : j'.stored = j.stored ++ more) (htaken : j'.taken = j.taken)
    (hpolled : j'.polled = j.polled)
    (hreceived : j'.received
      = j.received ++ s.noted (j.taken + (allBytes ahead).length))
    (hsurviving : j'.surviving = j.surviving ++ s.deliveries) : j'.Aligned (ahead ++ [s]) where
  ring := htaken ▸ hring
  layout := by
    rw [htaken, hstored, List.drop_append_of_le_length h.ring.taken_le, h.layout,
      inFlight_of_filtering hstate]
    simp [hbytes]
  tracking := by
    intro f hf
    rw [hstate] at hf
    cases hf
  sound := by
    rw [htaken, allSound_append]
    exact ⟨h.sound.mono hrejections.1, allSound_cons.2 ⟨hsound, allSound_nil⟩⟩
  faults := by
    obtain ⟨log, hlogs, hle, hdrop⟩ := h.faults
    refine ⟨_, hfaults log hlogs, ?_, ?_⟩
    · rw [hhandled, List.length_append]
      omega
    · rw [hhandled, htaken, List.drop_append_of_le_length hle, hdrop, allRecords_append,
        allRecords_cons, allRecords_nil, List.append_nil]
  noted := by
    obtain ⟨past, hpast, hold⟩ := h.noted
    refine ⟨past, ?_, htaken ▸ hold⟩
    rw [hreceived, htaken, hpast, allNoted_append, allNoted_cons, allNoted_nil, List.append_nil,
      List.append_assoc]
  surviving := by
    rw [hsurviving, hpolled, h.surviving, allDeliveries_append, List.append_assoc]
    simp
  rejections := hrejections.2

end Aligned

end Journal

end MultidropBus
