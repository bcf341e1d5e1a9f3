import MultidropBus.Proofs.Receive.Accounts

/-!
# Ledgers of frames, faults and bytes

A ledger goes with the journal of a run and keeps what the counters leave out: the records of all
faults, the line errors that hit a frame in flight, and the announced lengths of the frames retired.
It balances on both sides of the ring.

* Every frame accepted has ended in exactly one way, or is in flight, and every fault is counted
  under its kind (`Ledger.frames_accounted`).
* Every byte stored is that of a completed frame, of a rejected header, of the span of a fault or of
  the frame in flight; every byte that left the ring was retired, skipped or flushed; and the ring
  holds the difference (`Ledger.bytes_accounted`).

Nothing is asked of the poll side, which may retire, skip and recover at any time.
-/

namespace MultidropBus

/-- The receiver hears an event in this step. -/
def ReceiveStep.isHear : ReceiveStep → Bool
  | .hear _ => true
  | _ => false

/-- Events that are counted when they are heard, in a frame or not. -/
def ReceiveCounters.noticed (c : ReceiveCounters) : Nat := c.accepted + c.foreign + c.lineErrors

namespace ReceivePath

variable {size : RingSize}

/-- The announced length of the frame that is retired next, if there is one. -/
def retiredLength? (p : ReceivePath size) : Option Nat :=
  if p.retire.1 then p.completeHeader?.map Header.frameLength else none

/-! ### What one event adds -/

/-- One if a byte finds the ring full, and none otherwise. -/
def losses (p : ReceivePath size) : Nat := if p.ring.isFull then 1 else 0

/-- How many faults an event raises. -/
def faultsAt (p : ReceivePath size) : LineEvent → Nat
  | .error _ => 1
  | .byte _ false => if p.isReceiving then p.losses else 0
  | .byte address true =>
    p.framesInFlight + if p.identity.accepts address then p.losses else 0

theorem store_raised (p : ReceivePath size) (f : InFlight) (byte : UInt8) :
    (p.store f byte).1.faults.raised = p.faults.raised + p.losses := by
  rw [store, losses]
  cases hpush : p.ring.push? byte with
  | none =>
    have hfull := (Ring.push?_eq_none_iff _ _).1 hpush
    rw [if_pos (by rw [Ring.isFull]; exact decide_eq_true hfull)]
    rfl
  | some ring =>
    have hroom : ¬ size.slots ≤ p.ring.occupancy := by
      rw [← Ring.push?_eq_none_iff _ byte, hpush]
      exact Option.some_ne_none ring
    rw [if_neg (by rw [Ring.isFull, decide_eq_true_iff]; exact hroom)]
    cases f.track size byte with
    | more frame => rfl
    | complete => rfl
    | rejected => rfl

theorem acceptAddress_raised (p : ReceivePath size) (address : Address) :
    (p.acceptAddress address).1.faults.raised
      = p.faults.raised + if p.identity.accepts address then p.losses else 0 := by
  rw [acceptAddress]
  split
  · exact store_raised _ _ _
  · rfl

theorem receive_raised (p : ReceivePath size) (event : LineEvent) :
    (p.receive event).1.faults.raised = p.faults.raised + p.faultsAt event := by
  cases event with
  | error e => rfl
  | byte byte mark =>
    cases mark with
    | true =>
      rw [faultsAt, receive, receiveAddress]
      cases hstate : p.state with
      | filtering =>
        rw [framesInFlight_of_filtering hstate, Nat.zero_add]
        exact acceptAddress_raised p byte
      | receiving f =>
        rw [framesInFlight_of_receiving hstate, ← Nat.add_assoc]
        exact acceptAddress_raised (p.fault .truncated).1 byte
    | false =>
      rw [faultsAt, receive, receiveData, isReceiving]
      cases hstate : p.state with
      | filtering => rfl
      | receiving f => exact store_raised p f byte

theorem losses_le (p : ReceivePath size) : p.losses ≤ 1 := by
  rw [losses]
  split <;> omega

theorem framesInFlight_le (p : ReceivePath size) : p.framesInFlight ≤ 1 := by
  rw [framesInFlight]
  split <;> omega

/-- An event raises two faults only if it is the address byte of a frame for this station, cuts
another frame short and finds the ring full. -/
theorem faultsAt_eq_two_iff (p : ReceivePath size) (event : LineEvent) :
    p.faultsAt event = 2 ↔ ∃ address, event = .byte address true ∧ p.isReceiving
      ∧ p.identity.accepts address ∧ p.ring.isFull := by
  have hlosses := p.losses_le
  cases event with
  | error e => simp [faultsAt]
  | byte byte mark =>
    cases mark with
    | false =>
      simp only [faultsAt, LineEvent.byte.injEq, Bool.false_eq_true, and_false, false_and,
        exists_false, iff_false]
      split <;> omega
    | true =>
      simp only [faultsAt, framesInFlight, losses, LineEvent.byte.injEq, and_true, exists_eq_left']
      cases p.isReceiving <;> cases p.identity.accepts byte <;> cases p.ring.isFull <;> simp

theorem faultsAt_le (p : ReceivePath size) (event : LineEvent) : p.faultsAt event ≤ 2 := by
  have hlosses := p.losses_le
  have hflight := p.framesInFlight_le
  cases event with
  | error e => exact Nat.le_succ 1
  | byte byte mark =>
    cases mark <;> simp only [faultsAt] <;> split <;> omega

theorem store_noticed (p : ReceivePath size) (f : InFlight) (byte : UInt8) :
    (p.store f byte).1.counters.noticed = p.counters.noticed := by
  rw [store]
  cases p.ring.push? byte with
  | none => rfl
  | some ring =>
    cases f.track size byte with
    | more frame => rfl
    | complete => rfl
    | rejected => rfl

theorem acceptAddress_noticed (p : ReceivePath size) (address : Address) :
    (p.acceptAddress address).1.counters.noticed = p.counters.noticed + 1 := by
  rw [acceptAddress]
  split
  · refine (store_noticed _ _ _).trans ?_
    simp only [ReceiveCounters.noticed]
    omega
  · simp only [ReceiveCounters.noticed]
    omega

theorem receive_noticed (p : ReceivePath size) (event : LineEvent) :
    (p.receive event).1.counters.noticed ≤ p.counters.noticed + 1 := by
  cases event with
  | error e => exact Nat.le_refl _
  | byte byte mark =>
    cases mark with
    | true =>
      rw [receive, receiveAddress]
      cases p.state with
      | filtering => exact (acceptAddress_noticed p byte).le
      | receiving f => exact (acceptAddress_noticed (p.fault .truncated).1 byte).le
    | false =>
      rw [receive, receiveData]
      cases p.state with
      | filtering => exact Nat.le_succ _
      | receiving f => exact (store_noticed p f byte).le.trans (Nat.le_succ _)

end ReceivePath

theorem Journal.hear_stored_length {size : RingSize} (j : Journal size) (event : LineEvent) :
    (j.hear event).stored.length ≤ j.stored.length + 1 := by
  simp only [hear]
  split
  · exact Nat.le_succ _
  · rw [List.length_append]
    cases event with
    | byte data mark => exact Nat.le_refl _
    | error e => exact Nat.le_succ _

/-- A journal, and what its counters leave out. -/
structure Ledger (size : RingSize) where
  journal : Journal size
  /-- The records of all faults raised, oldest first. -/
  raised : List FaultRecord
  /-- How many line errors came while a frame was in flight. -/
  hits : Nat
  /-- The announced lengths of the frames retired. -/
  retired : List Nat

namespace Ledger

variable {size : RingSize} {l : Ledger size} {events : Nat}

def fresh (identity : Identity) : Ledger size := ⟨.fresh identity, [], 0, []⟩

def step (l : Ledger size) : ReceiveStep → Ledger size
  | .hear event =>
    { l with
      journal := l.journal.hear event
      raised := l.raised
        ++ l.journal.path.faults.recordsSince (l.journal.path.receive event).1.faults
      hits := l.hits + l.journal.path.hits event }
  | .retire =>
    { l with
      journal := l.journal.retire
      retired := l.retired ++ l.journal.path.retiredLength?.toList }
  | .skip => { l with journal := l.journal.skip }
  | .recover => { l with journal := l.journal.recover }

/-- The ledger of a run that starts with empty buffers. -/
def run (identity : Identity) (steps : List ReceiveStep) : Ledger size :=
  steps.foldl step (fresh identity)

theorem run_snoc (identity : Identity) (steps : List ReceiveStep) (s : ReceiveStep) :
    (run identity (steps ++ [s]) : Ledger size) = (run identity steps).step s := by
  rw [run, List.foldl_append]
  rfl

/-- Both sides of the ring are balanced, and nothing was counted or stored without an event. -/
structure Balances (l : Ledger size) (events : Nat) : Prop where
  receiver : l.journal.Balanced l.raised l.hits
  taken : l.journal.taken
    = l.retired.sum + l.journal.path.poll.skipped + l.journal.path.poll.flushed
  retired : l.retired.length = l.journal.path.poll.retired
  noticed : l.journal.path.counters.noticed ≤ events
  stored : l.journal.stored.length ≤ events

theorem fresh_balances (identity : Identity) : (fresh identity : Ledger size).Balances 0 where
  receiver := Journal.fresh_balanced identity
  taken := rfl
  retired := rfl
  noticed := Nat.le_refl 0
  stored := Nat.le_refl 0

theorem Balances.hear (h : l.Balances events) (event : LineEvent) :
    (l.step (.hear event)).Balances (events + 1) := by
  obtain ⟨new, hfew, hbalanced⟩ := h.receiver.hear event
  have hnew : l.journal.path.faults.recordsSince (l.journal.path.receive event).1.faults = new :=
    h.receiver.logs.recordsSince hbalanced.logs (hfew.trans (by decide))
  have hpoll : (l.journal.hear event).path.poll = l.journal.path.poll :=
    (Journal.receive_keeps l.journal.path event).2
  constructor
  · show (l.journal.hear event).Balanced (l.raised ++ _) _
    rw [hnew]
    exact hbalanced
  · show l.journal.taken = _ + (l.journal.hear event).path.poll.skipped
      + (l.journal.hear event).path.poll.flushed
    rw [hpoll]
    exact h.taken
  · show _ = (l.journal.hear event).path.poll.retired
    rw [hpoll]
    exact h.retired
  · exact (l.journal.path.receive_noticed event).trans (Nat.succ_le_succ h.noticed)
  · exact (l.journal.hear_stored_length event).trans (Nat.succ_le_succ h.stored)

/-- Taking `n` bytes keeps the balance if the poll side counts them. -/
theorem Balances.take (h : l.Balances events) {n : Nat}
    (hn : l.journal.taken + n ≤ l.journal.stored.length) (known surviving : List Delivery)
    {poll : PollSide} {retired : List Nat}
    (htaken : l.journal.taken + n = retired.sum + poll.skipped + poll.flushed)
    (hretired : retired.length = poll.retired) :
    Balances { l with journal := l.journal.take n poll known surviving, retired := retired }
      events where
  receiver := h.receiver.take hn poll known surviving
  taken := htaken
  retired := hretired
  noticed := h.noticed
  stored := h.stored

theorem Balances.retire (h : l.Balances events) : (l.step .retire).Balances events := by
  have htaken := h.taken
  cases hheader : l.journal.path.completeHeader? with
  | none =>
    have hnothing : l.journal.path.retiredLength? = none := by
      rw [ReceivePath.retiredLength?, hheader, Option.map_none, ite_self]
    simp only [step, hnothing, Option.toList_none, List.append_nil,
      Journal.retire_nothing hheader]
    exact h
  | some header =>
    have hcomplete := ReceivePath.completeHeader?_eq_some_iff.1 hheader
    have hlength : l.journal.path.retiredLength? = some header.frameLength := by
      rw [ReceivePath.retiredLength?, ReceivePath.retire, hheader]
      rfl
    have hseen := h.receiver.tracks.visible_le
    have hfits := (ReceivePath.frameLength_le hcomplete).1
    simp only [step, hlength, Option.toList_some, h.receiver.tracks.retire_eq hcomplete]
    refine h.take (by omega) _ _ ?_ ?_
    · rw [List.sum_append, List.sum_singleton]
      show _ = _ + l.journal.path.poll.skipped + l.journal.path.poll.flushed
      omega
    · rw [List.length_append, h.retired]
      rfl

theorem Balances.skip (h : l.Balances events) : (l.step .skip).Balances events := by
  have htaken := h.taken
  rcases Nat.lt_or_eq_of_le h.receiver.tracks.ring.taken_le with hsome | hall
  · simp only [step, h.receiver.tracks.skip_eq hsome]
    refine h.take hsome _ _ ?_ h.retired
    show _ = _ + (l.journal.path.poll.skipped + 1) + l.journal.path.poll.flushed
    omega
  · simp only [step, h.receiver.tracks.skip_nothing hall]
    exact h

theorem Balances.recover (h : l.Balances events) : (l.step .recover).Balances events := by
  have htaken := h.taken
  by_cases hstatus : l.journal.path.status = .faulted
  · obtain ⟨fault, n, hidle, hpending, hadvance, hroom⟩ := h.receiver.tracks.faulted hstatus
    simp only [step, (h.receiver.tracks.recover_eq hidle hpending hadvance hroom).2]
    refine h.take hroom _ _ ?_ h.retired
    show _ = _ + l.journal.path.poll.skipped + (l.journal.path.poll.flushed + n)
    omega
  · simp only [step, (Journal.recover_nothing hstatus).2]
    exact h

/-- **Every step keeps both sides of the ring balanced.** -/
theorem Balances.step (h : l.Balances events) (s : ReceiveStep) :
    (l.step s).Balances (events + [s].countP ReceiveStep.isHear) := by
  cases s with
  | hear event => exact h.hear event
  | retire => exact h.retire
  | skip => exact h.skip
  | recover => exact h.recover

theorem run_balances (size : RingSize) (identity : Identity) (steps : List ReceiveStep) :
    (run identity steps : Ledger size).Balances (steps.countP ReceiveStep.isHear) := by
  induction steps using List.reverseRecOn with
  | nil => exact fresh_balances identity
  | append_singleton earlier s ih =>
    rw [run_snoc, List.countP_append]
    exact ih.step s

/-- The receiver counts the bytes of the frame in flight. -/
theorem Balances.bytesInFlight (h : l.Balances events) :
    l.journal.path.bytesInFlight = l.journal.inFlight.length := by
  rw [ReceivePath.bytesInFlight]
  cases hstate : l.journal.path.state with
  | filtering =>
    rw [Journal.inFlight_of_filtering hstate]
    rfl
  | receiving f =>
    rw [Journal.inFlight_of_receiving hstate, (h.receiver.tracks.tracking f hstate).1]
    rfl

/-! ### The accounts of a run -/

/-- **Every accepted frame and every fault is accounted for once.** A frame was completed, had its
header rejected, was cut short, lost a byte to a full ring or was hit by a line error, or it is in
flight. The faults raised are the line errors, the lost bytes and the frames cut short; one event
raises two of them exactly if it is the address byte of a frame for this station, cuts another frame
short and finds the ring full. Nothing is counted more often than there were events. -/
theorem frames_accounted (size : RingSize) (identity : Identity) (steps : List ReceiveStep) :
    let l : Ledger size := run identity steps
    let p := l.journal.path
    p.counters.accepted = p.counters.completed + p.counters.rejected + p.counters.truncated
        + p.counters.overflows + l.hits + (if p.isReceiving then 1 else 0)
      ∧ p.faults.raised = p.counters.lineErrors + p.counters.overflows + p.counters.truncated
      ∧ p.counters.accepted + p.counters.foreign + p.counters.lineErrors
        ≤ steps.countP ReceiveStep.isHear
      ∧ p.faults.raised ≤ steps.countP ReceiveStep.isHear
      ∧ ∀ event,
        (p.receive event).1.faults.raised ≤ p.faults.raised + 2
        ∧ ((p.receive event).1.faults.raised = p.faults.raised + 2
          ↔ ∃ address, event = .byte address true ∧ p.isReceiving
            ∧ p.identity.accepts address ∧ p.ring.isFull) := by
  intro l p
  have h := run_balances size identity steps
  have hframes : p.counters.accepted = p.counters.ended + l.hits + p.framesInFlight :=
    h.receiver.frames
  have hraised : p.faults.raised = p.counters.faults :=
    h.receiver.logs.raised.trans h.receiver.faults
  have hnoticed : p.counters.noticed ≤ steps.countP ReceiveStep.isHear := h.noticed
  rw [ReceiveCounters.ended] at hframes
  rw [ReceiveCounters.faults] at hraised
  rw [ReceiveCounters.noticed] at hnoticed
  refine ⟨hframes, hraised, hnoticed, by omega, fun event => ?_⟩
  rw [p.receive_raised event, Nat.add_left_cancel_iff]
  exact ⟨Nat.add_le_add_left (p.faultsAt_le event) _, p.faultsAt_eq_two_iff event⟩

/-- **Every stored byte is accounted for once.** On the receiver's side it belongs to a completed
frame, to a rejected header, to the span of a fault or to the frame in flight; on the poll side it
was retired, skipped or flushed, or is still in the ring. -/
theorem bytes_accounted (size : RingSize) (identity : Identity) (steps : List ReceiveStep)
    (hshort : steps.countP ReceiveStep.isHear < 2 ^ 32) :
    let l : Ledger size := run identity steps
    let p := l.journal.path
    (p.ring.write.toNat = l.journal.stored.length
        ∧ l.journal.stored.length = l.journal.completedLengths.sum
          + headerSize * p.counters.rejected + (l.raised.map FaultRecord.length).sum
          + p.bytesInFlight)
      ∧ p.ring.read.toNat = l.retired.sum + p.poll.skipped + p.poll.flushed
      ∧ p.ring.write.toNat = p.ring.read.toNat + p.buffered
      ∧ p.buffered ≤ size.slots
      ∧ l.journal.completedLengths.length = p.counters.completed
      ∧ l.raised.length = p.faults.raised
      ∧ l.retired.length = p.poll.retired := by
  intro l p
  have h : l.Balances (steps.countP ReceiveStep.isHear) := run_balances size identity steps
  have hring := h.receiver.tracks.ring
  have hbytes := h.receiver.bytes
  have hstored := h.stored
  have hround : l.journal.stored.length < UInt64.size :=
    Nat.lt_of_le_of_lt hstored (hshort.trans (by decide))
  have hwrite : p.ring.write.toNat = l.journal.stored.length := hring.write_toNat hround
  have hread : p.ring.read.toNat = l.journal.taken := hring.read_toNat hround
  have hoccupancy : p.buffered = l.journal.stored.length - l.journal.taken := hring.occupancy
  have hle := hring.taken_le
  have hroom := hring.room
  rw [← h.bytesInFlight] at hbytes
  exact ⟨⟨hwrite, hbytes⟩, hread.trans h.taken, by omega, by omega, h.receiver.completed,
    h.receiver.logs.raised.symm, h.retired⟩

/-- A station hears an address byte and then data. -/
def hearing (address : Address) (data : Bytes) : List ReceiveStep :=
  .hear (.byte address true) :: data.map fun byte => .hear (.byte byte false)

/-- What is left of a rejected header is retired together with the front of the next frame, and the
recovery finds half of the span gone. Then a byte is skipped in front of a whole frame, and faults
come in until the record of the one that lost a byte to the full ring is overwritten. The last frame
is cut short, and another is in flight. -/
def lossyRun : List ReceiveStep :=
  List.flatten
    [hearing 2 [0, 0, 2, 0, 0], [.skip], hearing 2 [0, 0], [.retire, .hear (.byte 0 false)],
      [.hear (.error .framing), .recover], hearing 2 [4, 5, 255, 0, 0], [.skip],
      hearing 2 [0, 9, 255, 0, 8, 1, 2, 3, 4, 5, 6], [.hear (.error .overrun)],
      [.hear (.error .noise), .hear (.error .parity)], hearing 2 [], [.recover], hearing 2 [0],
      hearing 2 [0, 0], [.skip]]

theorem lossyRun_accounted :
    lossyRun.countP ReceiveStep.isHear < 2 ^ 32
      ∧ let l : Ledger ⟨4, by decide⟩ := run (.plain 2) lossyRun
        let p := l.journal.path
        p.ring.write.toNat = l.journal.completedLengths.sum + headerSize * p.counters.rejected
            + (l.raised.map FaultRecord.length).sum + p.bytesInFlight
          ∧ l.journal.completedLengths = [6] ∧ p.counters.rejected = 1
          ∧ l.raised.map FaultRecord.length = [4, 11, 0, 0, 0, 0, 2] ∧ p.bytesInFlight = 3
          ∧ p.ring.read.toNat = l.retired.sum + p.poll.skipped + p.poll.flushed
          ∧ l.retired = [8] ∧ p.poll.skipped = 3 ∧ p.poll.flushed = 17
          ∧ p.ring.write.toNat = p.ring.read.toNat + p.buffered ∧ p.buffered = 4 := by
  have hshort : lossyRun.countP ReceiveStep.isHear < 2 ^ 32 := by decide
  obtain ⟨⟨hwrite, hstored⟩, hread, hbuffered, -⟩ :=
    bytes_accounted ⟨4, by decide⟩ (.plain 2) lossyRun hshort
  exact ⟨hshort, hwrite.trans hstored, by decide +kernel, by decide +kernel, by decide +kernel,
    by decide +kernel, hread, by decide +kernel, by decide +kernel, by decide +kernel, hbuffered,
    by decide +kernel⟩

end Ledger

end MultidropBus
