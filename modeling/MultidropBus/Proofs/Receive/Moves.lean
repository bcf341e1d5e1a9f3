import MultidropBus.Proofs.Receive.Journal
import MultidropBus.Proofs.Receive.Stream

/-!
# The moves that an event makes on a journal

Each event of the line is one of a few moves on the journal: nothing, a fault that gives up the
frame in flight, the start of a frame, or one more byte of it. The moves are spelled out one by one,
as equations that ask nothing of the poll side: wherever the read cursor stands, the ring, the
receiver and the latch agree with what was noted (`Journal.Tracks`). An address byte inside a frame
is two moves: the frame is cut short, and then the byte is heard as in between frames
(`Journal.hear_cases`).
-/

namespace MultidropBus

theorem ReceiveCounters.countFault_completed (c : ReceiveCounters) (kind : FaultKind) :
    (c.countFault kind).completed = c.completed := by cases kind <;> rfl

theorem ReceiveCounters.countFault_rejected (c : ReceiveCounters) (kind : FaultKind) :
    (c.countFault kind).rejected = c.rejected := by cases kind <;> rfl

theorem FaultLatch.raisedSince_self (l : FaultLatch) : l.raisedSince l = [] := by
  simp [FaultLatch.raisedSince]

theorem FaultLatch.Logs.raisedSince_raise {l : FaultLatch} {log : List FaultRecord}
    (h : l.Logs log) (record : FaultRecord) : l.raisedSince (l.raise record) = [record.kind] :=
  h.raisedSince (h.raise record) (by simp [faultSlots])

namespace Journal

variable {size : RingSize} {j : Journal size}

/-- The bytes of the frame in flight. -/
def inFlight (j : Journal size) : Bytes := if j.path.isReceiving then j.heard else []

theorem inFlight_of_filtering {j : Journal size} (h : j.path.state = .filtering) :
    j.inFlight = [] := by
  simp [inFlight, ReceivePath.isReceiving, h]

theorem inFlight_of_receiving {j : Journal size} {f : InFlight}
    (h : j.path.state = .receiving f) : j.inFlight = j.heard := by
  simp [inFlight, ReceivePath.isReceiving, h]

/-- Wherever the read cursor stands, the ring holds what was stored since, the receiver remembers
the bytes heard since the address byte, and the latch logs the faults. -/
structure Tracks (j : Journal size) : Prop where
  ring : j.path.ring.Holds j.stored j.taken
  tracking : ∀ f, j.path.state = .receiving f →
    f = .ofBytes size (UInt64.ofNat (j.stored.length - j.heard.length)) j.heard
      ∧ Detection.ofBytes size j.heard = .idle
  faults : ∃ log, j.path.faults.Logs log

theorem Tracks.inFlight_idle (h : j.Tracks) : Detection.ofBytes size j.inFlight = .idle := by
  cases hstate : j.path.state with
  | filtering => rw [inFlight_of_filtering hstate]; exact Detection.ofBytes_nil
  | receiving f => rw [inFlight_of_receiving hstate]; exact (h.tracking f hstate).2

/-- A fault would give up the frame in flight. -/
theorem Tracks.spanStart (h : j.Tracks) :
    j.path.spanStart = UInt64.ofNat (j.stored.length - j.inFlight.length) := by
  rw [ReceivePath.spanStart]
  cases hstate : j.path.state with
  | filtering =>
    rw [inFlight_of_filtering hstate]
    exact h.ring.write
  | receiving f =>
    rw [inFlight_of_receiving hstate]
    show f.start = _
    rw [(h.tracking f hstate).1]
    rfl

/-! ### Faults -/

/-- The journal once the frame in flight is given up. -/
def abandon (j : Journal size) (kind : FaultKind) : Journal size :=
  { j with
    path := (j.path.fault kind).1
    received := j.received ++ [(j.stored.length, .fault kind)]
    surviving := j.surviving ++ [.fault kind] }

theorem Tracks.abandon (h : j.Tracks) (kind : FaultKind) : (j.abandon kind).Tracks where
  ring := h.ring
  tracking := by
    intro f hf
    cases hf
  faults := by
    obtain ⟨log, hlogs⟩ := h.faults
    exact ⟨_, hlogs.raise _⟩

theorem hear_error (h : j.Tracks) (e : LineError) :
    j.hear (.error e) = j.abandon (.line e) := by
  obtain ⟨log, hlogs⟩ := h.faults
  simp only [hear, Journal.abandon, ReceivePath.receive, ReceivePath.fault, LineEvent.extend,
    hlogs.raisedSince_raise, ReceiveCounters.countFault_completed,
    ReceiveCounters.countFault_rejected]
  simp

/-! ### The start of a frame -/

/-- The journal once an accepted address byte is awaited by the ring. -/
def begin (j : Journal size) : Journal size :=
  { j with
    path := { j.path with
      counters := { j.path.counters with accepted := j.path.counters.accepted + 1 }
      state := .receiving (InFlight.begin j.path.ring.write) }
    heard := [] }

theorem Tracks.begin (h : j.Tracks) : j.begin.Tracks where
  ring := h.ring
  tracking := by
    intro f hf
    cases hf
    refine ⟨?_, Detection.ofBytes_nil⟩
    rw [InFlight.begin_eq size, h.ring.write]
    rfl
  faults := h.faults

theorem hear_accepted (hstate : j.path.state = .filtering) {address : Address}
    (haccepts : j.path.identity.accepts address = true) :
    j.hear (.byte address true) = j.begin.hear (.byte address false) := by
  simp only [hear, Journal.begin, ReceivePath.receive, ReceivePath.receiveAddress, hstate,
    ReceivePath.acceptAddress, haccepts, ReceivePath.receiveData, LineEvent.extend,
    LineEvent.bytes, List.nil_append, if_true]
  rfl

/-! ### Between frames -/

/-- The journal once a byte passed by that is none of this station's business. -/
def overhear (j : Journal size) (heard : Bytes) (counters : ReceiveCounters) : Journal size :=
  { j with path := { j.path with counters := counters }, heard := heard }

theorem hear_foreign (hstate : j.path.state = .filtering) {address : Address}
    (hforeign : j.path.identity.accepts address = false) :
    j.hear (.byte address true)
      = j.overhear [address] { j.path.counters with foreign := j.path.counters.foreign + 1 } := by
  simp [hear, overhear, ReceivePath.receive, ReceivePath.receiveAddress, hstate,
    ReceivePath.acceptAddress, hforeign, LineEvent.extend, FaultLatch.raisedSince_self]

theorem hear_filtered (hstate : j.path.state = .filtering) (byte : UInt8) :
    j.hear (.byte byte false) = j.overhear (j.heard ++ [byte]) j.path.counters := by
  have hpath : (j.path.receive (.byte byte false)).1 = j.path := by
    rw [ReceivePath.receive, ReceivePath.receiveData, hstate]
  simp [hear, overhear, hpath, LineEvent.extend, FaultLatch.raisedSince_self]

/-! ### One more byte of a frame -/

/-- The journal once a byte of the frame in flight is in the ring. -/
def grow (j : Journal size) (ring : Ring size) (byte : UInt8) (state : ReceiverState)
    (counters : ReceiveCounters) : Journal size :=
  { j with
    path := { j.path with ring := ring, counters := counters, state := state }
    heard := j.heard ++ [byte]
    stored := j.stored ++ [byte] }

/-- With one byte more the frame in flight is still the reading of what was heard of it. -/
theorem Tracks.grow (h : j.Tracks) {ring : Ring size} {byte : UInt8}
    (hpush : j.path.ring.push? byte = some ring)
    (hidle : Detection.ofBytes size (j.heard ++ [byte]) = .idle) (counters : ReceiveCounters) :
    (j.grow ring byte (.receiving (.ofBytes size
      (UInt64.ofNat (j.stored.length - j.heard.length)) (j.heard ++ [byte]))) counters).Tracks where
  ring := h.ring.push hpush
  tracking := by
    intro f hf
    cases hf
    refine ⟨?_, hidle⟩
    show _ = InFlight.ofBytes size (UInt64.ofNat
      ((j.stored ++ [byte]).length - (j.heard ++ [byte]).length)) (j.heard ++ [byte])
    rw [List.length_append, List.length_append, Nat.add_sub_add_right]
  faults := h.faults

/-- The journal once the last byte of a frame is in the ring. -/
def complete (j : Journal size) (ring : Ring size) (byte : UInt8) : Journal size :=
  let counters := { j.path.counters with completed := j.path.counters.completed + 1 }
  { j.grow ring byte .filtering counters with
    received := j.received ++ [(j.stored.length + 1, .frame (j.heard ++ [byte]))]
    surviving := j.surviving ++ [.frame (j.heard ++ [byte])] }

/-- The journal once the sixth byte showed that the header is bad. -/
def reject (j : Journal size) (ring : Ring size) (byte : UInt8) : Journal size :=
  let counters := { j.path.counters with rejected := j.path.counters.rejected + 1 }
  { j.grow ring byte .filtering counters with
    rejected := j.rejected ++ [j.stored.length + 1 - headerSize] }

/-- **One byte more in a frame.** A full ring gives the frame up, and otherwise the reading of the
bytes so far decides. -/
theorem hear_data (h : j.Tracks) {f : InFlight} (hstate : j.path.state = .receiving f)
    (byte : UInt8) :
    j.hear (.byte byte false)
      = match j.path.ring.push? byte with
        | none =>
          (j.abandon .overflow).overhear (j.heard ++ [byte]) (j.abandon .overflow).path.counters
        | some ring =>
          match Detection.ofBytes size (j.heard ++ [byte]) with
          | .idle =>
            j.grow ring byte (.receiving (.ofBytes size
              (UInt64.ofNat (j.stored.length - j.heard.length)) (j.heard ++ [byte])))
              j.path.counters
          | .complete _ => j.complete ring byte
          | .mismatch => j.reject ring byte := by
  obtain ⟨hf, hidle⟩ := h.tracking f hstate
  obtain ⟨log, hlogs⟩ := h.faults
  have hpath : (j.path.receive (.byte byte false)).1 = (j.path.store f byte).1 := by
    rw [ReceivePath.receive, ReceivePath.receiveData, hstate]
  simp only [hear, hpath, ReceivePath.store]
  cases hpush : j.path.ring.push? byte with
  | none =>
    simp only [ReceivePath.fault, hlogs.raisedSince_raise, ReceiveCounters.countFault_completed,
      ReceiveCounters.countFault_rejected, Journal.abandon, overhear, ← hstate]
    simp [LineEvent.extend]
  | some ring =>
    have hwrite := Ring.Holds.write_ne hpush
    simp only [hf, InFlight.track_ofBytes size _ j.heard byte hidle]
    cases Detection.ofBytes size (j.heard ++ [byte]) with
    | idle =>
      simp [hwrite, grow, FaultLatch.raisedSince_self, LineEvent.extend, LineEvent.bytes]
    | complete header =>
      simp [hwrite, complete, grow, FaultLatch.raisedSince_self, LineEvent.extend, LineEvent.bytes]
    | mismatch =>
      simp [hwrite, reject, grow, FaultLatch.raisedSince_self, LineEvent.extend, LineEvent.bytes]

/-! ### Address bytes -/

theorem store_faults (p : ReceivePath size) (f : InFlight) (byte : UInt8) :
    (p.store f byte).1.faults = p.faults
      ∨ ∃ record, (p.store f byte).1.faults = p.faults.raise record := by
  rw [ReceivePath.store]
  cases p.ring.push? byte with
  | none => exact .inr ⟨_, rfl⟩
  | some ring =>
    cases f.track size byte with
    | more frame => exact .inl rfl
    | complete => exact .inl rfl
    | rejected => exact .inl rfl

theorem acceptAddress_faults (p : ReceivePath size) (address : Address) :
    (p.acceptAddress address).1.faults = p.faults
      ∨ ∃ record, (p.acceptAddress address).1.faults = p.faults.raise record := by
  rw [ReceivePath.acceptAddress]
  split
  · exact store_faults _ _ _
  · exact .inl rfl

/-- An address byte inside a frame cuts the frame short, and is then heard between frames. -/
theorem hear_cut (h : j.Tracks) {f : InFlight} (hstate : j.path.state = .receiving f)
    (address : Address) :
    j.hear (.byte address true) = (j.abandon .truncated).hear (.byte address true) := by
  obtain ⟨log, hlogs⟩ := h.faults
  let cut := (j.path.fault .truncated).1
  have hpath : (j.path.receive (.byte address true)).1 = (cut.acceptAddress address).1 := by
    rw [ReceivePath.receive, ReceivePath.receiveAddress, hstate]
  have hcut : (cut.receive (.byte address true)).1 = (cut.acceptAddress address).1 := rfl
  -- The same byte may also find the ring full, and then two faults are new since `j`.
  have hkinds : j.path.faults.raisedSince (cut.acceptAddress address).1.faults
      = .truncated :: cut.faults.raisedSince (cut.acceptAddress address).1.faults := by
    have hlogs' : cut.faults.Logs _ := hlogs.raise _
    rcases acceptAddress_faults cut address with hsame | ⟨record, hraise⟩
    · rw [hsame, FaultLatch.raisedSince_self]
      exact hlogs.raisedSince_raise _
    · have htwo := hlogs'.raise record
      rw [List.append_assoc] at htwo
      rw [hraise, hlogs'.raisedSince_raise, hlogs.raisedSince htwo (by simp [faultSlots])]
      rfl
  have habandon : (j.abandon .truncated).path = cut := rfl
  have hring : j.path.ring = cut.ring := rfl
  have hcompleted : j.path.counters.completed = cut.counters.completed :=
    (ReceiveCounters.countFault_completed _ _).symm
  have hrejected : j.path.counters.rejected = cut.counters.rejected :=
    (ReceiveCounters.countFault_rejected _ _).symm
  simp only [hear]
  rw [habandon, hpath, hcut, hkinds, hring, hcompleted, hrejected]
  simp [Journal.abandon, LineEvent.extend]

/-! ### All events -/

/-- A byte with its address mark is the next one of a frame: an accepted address begins a frame, and
data go on with the one in flight. -/
inductive Continues (j : Journal size) (byte : UInt8) : Bool → Journal size → Prop
  | first (hstate : j.path.state = .filtering) (haccepts : j.path.identity.accepts byte = true) :
    Continues j byte true j.begin
  | next {f : InFlight} (hstate : j.path.state = .receiving f) : Continues j byte false j

/-- A byte passes by between frames, or it is the next one of a frame. -/
inductive Takes (j : Journal size) : LineEvent → Journal size → Prop
  | passing {byte : UInt8} {mark : Bool} (hstate : j.path.state = .filtering) (heard : Bytes)
      (counters : ReceiveCounters) : Takes j (.byte byte mark) (j.overhear heard counters)
  | byte {byte : UInt8} {mark : Bool} {k : Journal size} (hnext : j.Continues byte mark k) :
    Takes j (.byte byte mark) (k.hear (.byte byte false))

theorem hear_between (hstate : j.path.state = .filtering) (byte : UInt8) (mark : Bool) :
    j.Takes (.byte byte mark) (j.hear (.byte byte mark)) := by
  cases mark with
  | false =>
    rw [hear_filtered hstate]
    exact .passing hstate _ _
  | true =>
    cases haccepts : j.path.identity.accepts byte with
    | true =>
      rw [hear_accepted hstate haccepts]
      exact .byte (.first hstate haccepts)
    | false =>
      rw [hear_foreign hstate haccepts]
      exact .passing hstate _ _

/-- **What an event does to a journal**: it is a fault, or a byte that passes by or is the next one
of a frame, and an address byte first cuts short the frame in flight. -/
theorem hear_cases (h : j.Tracks) (event : LineEvent) :
    (∃ e, event = .error e ∧ j.hear event = j.abandon (.line e))
      ∨ j.Takes event (j.hear event)
      ∨ (j.abandon .truncated).Takes event (j.hear event) := by
  cases event with
  | error e => exact .inl ⟨e, rfl, hear_error h e⟩
  | byte byte mark =>
    cases hstate : j.path.state with
    | filtering => exact .inr (.inl (hear_between hstate byte mark))
    | receiving f =>
      cases mark with
      | true =>
        rw [hear_cut h hstate]
        exact .inr (.inr (hear_between rfl byte true))
      | false => exact .inr (.inl (.byte (.next hstate)))

end Journal

end MultidropBus
