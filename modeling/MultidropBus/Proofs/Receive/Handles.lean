import MultidropBus.Proofs.Receive.Recovery

/-!
# Other handles on the same buffers

What a poll side knows is its own: how many faults it has handled, what it counted, what it copied
last. The receiver looks at none of it, so a journal with other handles of the poll side
(`Journal.withHandles`) hears the same. Handles that have handled the same number of faults also do
the same (`Journal.Tracks.sameStep`). Handles that have handled fewer find the bus faulted, and
their recoveries from faults that were handled before leave the ring alone
(`Journal.Between.recover_stale`).
-/

namespace MultidropBus

open Segment

/-! ### The receiver does not look at the poll side -/

namespace ReceivePath

variable {size : RingSize}

/-- The same buffers and receiver, and another poll side. -/
def withPoll (p : ReceivePath size) (poll : PollSide) : ReceivePath size := { p with poll := poll }

theorem store_withPoll (p : ReceivePath size) (poll : PollSide) (f : InFlight) (byte : UInt8) :
    (p.withPoll poll).store f byte
      = ((p.store f byte).1.withPoll poll, (p.store f byte).2) := by
  simp only [store, withPoll]
  cases p.ring.push? byte with
  | none => rfl
  | some ring => cases f.track size byte <;> rfl

theorem acceptAddress_withPoll (p : ReceivePath size) (poll : PollSide) (address : Address) :
    (p.withPoll poll).acceptAddress address
      = ((p.acceptAddress address).1.withPoll poll, (p.acceptAddress address).2) := by
  have hstore := store_withPoll
    { p with counters := { p.counters with accepted := p.counters.accepted + 1 } } poll
    (InFlight.begin p.ring.write) address
  simp only [withPoll] at hstore
  simp only [acceptAddress, withPoll, hstore]
  split <;> rfl

theorem receive_withPoll (p : ReceivePath size) (poll : PollSide) (event : LineEvent) :
    (p.withPoll poll).receive event
      = ((p.receive event).1.withPoll poll, (p.receive event).2) := by
  cases event with
  | error e => rfl
  | byte data address =>
    cases address with
    | true =>
      show (p.withPoll poll).receiveAddress data
        = ((p.receiveAddress data).1.withPoll poll, (p.receiveAddress data).2)
      rw [receiveAddress, receiveAddress]
      cases hstate : p.state with
      | filtering =>
        rw [show (p.withPoll poll).state = .filtering from hstate]
        exact acceptAddress_withPoll p poll data
      | receiving f =>
        rw [show (p.withPoll poll).state = .receiving f from hstate]
        have haccept := acceptAddress_withPoll (p.fault .truncated).1 poll data
        simp only
        rw [show ((p.withPoll poll).fault .truncated).1 = (p.fault .truncated).1.withPoll poll
          from rfl, haccept]
        rfl
    | false =>
      show (p.withPoll poll).receiveData data
        = ((p.receiveData data).1.withPoll poll, (p.receiveData data).2)
      rw [receiveData, receiveData]
      cases hstate : p.state with
      | filtering =>
        rw [show (p.withPoll poll).state = .filtering from hstate]
      | receiving f =>
        rw [show (p.withPoll poll).state = .receiving f from hstate]
        exact store_withPoll p poll f data

/-- In between frames the handles of the receiver are as good as new. -/
theorem restart_eq_withPoll {p : ReceivePath size} {identity : Identity}
    (hidentity : p.identity = identity) (hstate : p.state = .filtering) :
    p.restart identity = p.withPoll {} := by
  rw [restart, withPoll, ← hidentity, ← hstate]

/-- What the poll side may look at depends on the faults that it has handled, and on nothing else
that it knows. -/
theorem pendingFault?_withPoll {p : ReceivePath size} {poll : PollSide}
    (h : poll.handled = p.poll.handled) : (p.withPoll poll).pendingFault? = p.pendingFault? := by
  rw [pendingFault?, pendingFault?, ← h]
  rfl

theorem detection_withPoll {p : ReceivePath size} {poll : PollSide}
    (h : (p.withPoll poll).pendingFault? = p.pendingFault?) :
    (p.withPoll poll).detection = p.detection := by
  rw [detection, detection, readable, readable, h]
  rfl

theorem status_withPoll {p : ReceivePath size} {poll : PollSide}
    (h : (p.withPoll poll).pendingFault? = p.pendingFault?) :
    (p.withPoll poll).status = p.status := by
  rw [status, status, detection_withPoll h, h]

end ReceivePath

namespace Journal

variable {size : RingSize} {v : Journal size} {poll : PollSide} {polled surviving : List Delivery}
  {marked : List (UInt8 × Bool)} {segments : List Segment}

/-- The same journal with other handles of the poll side, which know and made known something else.
All that there is to note about the receiver and the ring stays. -/
def withHandles (v : Journal size) (poll : PollSide) (polled surviving : List Delivery) :
    Journal size :=
  { v with path := v.path.withPoll poll, polled := polled, surviving := surviving }

theorem hear_withHandles (v : Journal size) (poll : PollSide) (polled surviving : List Delivery)
    (event : LineEvent) :
    ∃ surviving', (v.withHandles poll polled surviving).hear event
      = (v.hear event).withHandles poll polled surviving' := by
  refine ⟨((v.withHandles poll polled surviving).hear event).surviving, ?_⟩
  simp only [hear, withHandles, ReceivePath.receive_withPoll]
  rfl

theorem Tracks.withHandles (h : v.Tracks) (poll : PollSide) (polled surviving : List Delivery) :
    (v.withHandles poll polled surviving).Tracks := ⟨h.ring, h.tracking, h.faults⟩

theorem Cut.withHandles (h : v.Cut marked segments)
    (hhandled : poll.handled ≤ v.path.poll.handled) (polled surviving : List Delivery) :
    (v.withHandles poll polled surviving).Cut marked segments where
  tracks := h.tracks.withHandles poll polled surviving
  layout := h.layout
  marks := h.marks
  faults := h.faults
  handled_le := hhandled.trans h.handled_le
  noted := h.noted
  rejections := h.rejections
  settled := h.settled
  flight := h.flight

/-! ### What only grows -/

theorem step_handled (j : Journal size) (s : ReceiveStep) :
    j.path.poll.handled ≤ (j.step s).path.poll.handled := by
  cases s with
  | hear event => exact Nat.le_of_eq (congrArg PollSide.handled (receive_keeps j.path event).2.symm)
  | retire =>
    show _ ≤ j.path.retire.2.poll.handled
    rw [ReceivePath.retire]
    cases j.path.completeHeader? <;> exact Nat.le_refl _
  | skip =>
    show _ ≤ j.path.skip.2.poll.handled
    simp only [ReceivePath.skip]
    split <;> exact Nat.le_refl _
  | recover =>
    show _ ≤ j.recover.path.poll.handled
    rw [recover_path, ReceivePath.recover]
    split
    · exact Nat.le_refl _
    · cases hpending : j.path.pendingFault? with
      | none => exact Nat.le_refl _
      | some fault => exact Nat.le_of_lt (FaultLatch.lt_number hpending)

theorem step_logs (j : Journal size) (s : ReceiveStep) :
    j.received <+: (j.step s).received ∧ j.polled <+: (j.step s).polled := by
  cases s with
  | hear event =>
    obtain ⟨new, hreceived, -⟩ := hear_logs j event
    exact ⟨⟨new, hreceived.symm⟩, List.prefix_refl _⟩
  | retire => exact ⟨List.prefix_refl _, List.prefix_append _ _⟩
  | skip => exact ⟨List.prefix_refl _, List.prefix_append _ _⟩
  | recover =>
    simp only [step, recover]
    split <;> exact ⟨List.prefix_refl _, List.prefix_append _ _⟩

theorem Disciplined.snoc {identity : Identity} {steps : List ReceiveStep} {s : ReceiveStep}
    (h : Disciplined size identity steps)
    (hskip : s = .skip → (run identity steps : Journal size).path.status = .headerMismatch) :
    Disciplined size identity (steps ++ [s]) := by
  intro earlier hpre
  rcases List.prefix_concat_iff.1 hpre with hall | hbefore
  · obtain ⟨rfl, hlast⟩ := List.append_inj' hall rfl
    exact hskip (List.singleton_inj.1 hlast).symm
  · exact h earlier hbefore

theorem KeepsUp.snoc {identity : Identity} {steps : List ReceiveStep} {s : ReceiveStep}
    (h : KeepsUp size identity steps)
    (hfew : ((run identity steps : Journal size).step s).path.unhandled ≤ faultSlots) :
    KeepsUp size identity (steps ++ [s]) := by
  intro earlier hpre
  rcases List.prefix_concat_iff.1 hpre with rfl | hbefore
  · rwa [run_snoc]
  · exact h earlier hbefore

/-! ### Handles that have handled all the same faults -/

/-- The poll operation makes the same known, whichever handles do it. -/
def SameStep (v : Journal size) (poll : PollSide) (polled surviving : List Delivery)
    (s : ReceiveStep) : Prop :=
  ∃ poll' known surviving', (v.withHandles poll polled surviving).step s
      = (v.step s).withHandles poll' (polled ++ known) surviving'
    ∧ poll'.handled = (v.step s).path.poll.handled ∧ (v.step s).polled = v.polled ++ known

theorem sameStep_of_nothing {s : ReceiveStep} (hhandled : poll.handled = v.path.poll.handled)
    (hnothing : v.step s = v)
    (hnothing' : (v.withHandles poll polled surviving).step s
      = v.withHandles poll polled surviving) :
    v.SameStep poll polled surviving s := by
  refine ⟨poll, [], surviving, ?_, ?_, ?_⟩
  · rw [hnothing, hnothing', List.append_nil]
  · rw [hnothing]
    exact hhandled
  · rw [hnothing, List.append_nil]

theorem sameStep_of_take {s : ReceiveStep} {n : Nat} {own other : PollSide}
    {known left left' : List Delivery} (htake : v.step s = v.take n own known left)
    (htake' : (v.withHandles poll polled surviving).step s
      = (v.withHandles poll polled surviving).take n other known left')
    (hhandled : other.handled = own.handled) : v.SameStep poll polled surviving s := by
  refine ⟨other, known, left', ?_, ?_, ?_⟩
  · rw [htake, htake']
    rfl
  · rw [htake]
    exact hhandled
  · rw [htake]
    rfl

theorem Tracks.sameStep (h : v.Tracks) (hhandled : poll.handled = v.path.poll.handled)
    {s : ReceiveStep} (hs : ∀ event, s ≠ .hear event) (polled surviving : List Delivery) :
    v.SameStep poll polled surviving s := by
  have h' := h.withHandles poll polled surviving
  have hpending := ReceivePath.pendingFault?_withPoll hhandled
  have hdetection := ReceivePath.detection_withPoll hpending
  cases s with
  | hear event => exact absurd rfl (hs event)
  | retire =>
    cases hheader : v.path.completeHeader? with
    | none =>
      refine sameStep_of_nothing hhandled (retire_nothing hheader) (retire_nothing ?_)
      show (v.path.withPoll poll).completeHeader? = none
      rw [ReceivePath.completeHeader?, hdetection]
      exact hheader
    | some header =>
      have hcomplete := ReceivePath.completeHeader?_eq_some_iff.1 hheader
      exact sameStep_of_take (h.retire_eq hcomplete) (h'.retire_eq (hdetection.trans hcomplete))
        hhandled
  | skip =>
    rcases Nat.eq_or_lt_of_le h.ring.taken_le with hall | hlt
    · exact sameStep_of_nothing hhandled (h.skip_nothing hall) (h'.skip_nothing hall)
    · exact sameStep_of_take (h.skip_eq hlt) (h'.skip_eq hlt) hhandled
  | recover =>
    by_cases hfaulted : v.path.status = .faulted
    · obtain ⟨fault, n, hidle, hfault, hadvance, hfits⟩ := h.faulted hfaulted
      exact sameStep_of_take (h.recover_eq hidle hfault hadvance hfits).2
        (h'.recover_eq (hdetection.trans hidle) (hpending.trans hfault) hadvance hfits).2 rfl
    · have hstatus := ReceivePath.status_withPoll hpending
      exact sameStep_of_nothing hhandled (recover_nothing hfaulted).2
        (recover_nothing (mt hstatus.symm.trans hfaulted)).2

/-! ### Handles to which old faults are new -/

/-- A move that takes no bytes is told by the handles alone. -/
theorem take_nothing (v : Journal size) (poll poll' : PollSide)
    (polled surviving known left : List Delivery) :
    (v.withHandles poll polled surviving).take 0 poll' known left
      = v.withHandles poll' (polled ++ known) left := by
  simp only [Journal.take, withHandles, ReceivePath.withPoll, Ring.advance_zero, Nat.add_zero]

/-- Nothing may be looked at behind a fault whose span the read cursor has left behind. -/
theorem Tracks.readable_behind (h : v.Tracks) (hshort : v.stored.length < UInt64.size)
    {fault : Fault} {start : Nat} (hpending : v.path.pendingFault? = some fault)
    (hstart : fault.record.start = UInt64.ofNat start) (hbehind : start ≤ v.taken) :
    v.path.readable = 0 := by
  have hle := h.ring.taken_le
  rw [ReceivePath.readable, hpending]
  simp only [hstart, h.ring.read, ReceivePath.buffered, h.ring.occupancy]
  rcases Nat.eq_or_lt_of_le hbehind with rfl | hlt
  · simp
  · -- The way back to the start is nearly a whole round, and no round was made yet.
    obtain ⟨n, hn⟩ := Nat.exists_eq_add_of_lt hlt
    rw [Nat.add_assoc] at hn
    rw [hn, Cursor.distance_behind start (n + 1) (by omega) (by omega)]
    split
    · rfl
    · rw [if_neg (by omega)]

/-- Handles to which a handled fault is new find the bus faulted. -/
theorem Between.stale (hbetween : v.Between segments) (h : v.Cut marked segments)
    (hshort : v.stored.length < UInt64.size) (hstale : poll.handled < v.path.poll.handled)
    (polled surviving : List Delivery) :
    (v.withHandles poll polled surviving).path.detection = .idle
      ∧ ∃ fault, (v.withHandles poll polled surviving).path.pendingFault? = some fault := by
  have h' := h.withHandles (Nat.le_of_lt hstale) polled surviving
  obtain ⟨fault, hpending⟩ := h'.pending_isSome (Nat.lt_of_lt_of_le hstale h.handled_le)
    (Nat.le_refl poll.handled)
  refine ⟨?_, fault, hpending⟩
  suffices hnone : (v.withHandles poll polled surviving).path.readable = 0 by
    rw [ReceivePath.detection_eq, ReceivePath.visible, hnone]
    exact Detection.ofBytes_nil
  obtain ⟨i, span, hspan, hrecord, -, -, ⟨-, hi⟩ | ⟨hmissed, -⟩⟩ := h'.pending hpending
  · have hbehind := hbetween.behind i span hspan (hi ▸ hstale)
    have hbounds := h.span_le (List.mem_of_getElem? hspan)
    exact h'.tracks.readable_behind hshort hpending (congrArg FaultRecord.start hrecord)
      (hbounds.1.trans hbehind)
  · rw [ReceivePath.readable, hpending]
    simp only [hmissed, if_true]

/-- A recovery from a fault that was handled before drops nothing. -/
theorem Between.recover_stale (hbetween : v.Between segments) (h : v.Cut marked segments)
    (hshort : v.stored.length < UInt64.size) (hstale : poll.handled < v.path.poll.handled)
    (polled surviving : List Delivery)
    (hfew : (v.withHandles poll polled surviving).path.unhandled ≤ faultSlots
      ∨ v.path.faults.raised ≤ v.path.poll.handled) :
    ∃ poll' kind surviving', (v.withHandles poll polled surviving).recover
        = v.withHandles poll' (polled ++ [.fault kind]) surviving'
      ∧ poll'.handled ≤ v.path.poll.handled := by
  have h' := h.withHandles (Nat.le_of_lt hstale) polled surviving
  obtain ⟨hidle, fault, hpending⟩ := hbetween.stale h hshort hstale polled surviving
  obtain ⟨i, span, hspan, hrecord, hle, hnumber, -⟩ := h'.pending hpending
  have hhandled : i < v.path.poll.handled := by
    rcases hfew with hfew | hall
    · have hnext := FaultLatch.number_of_pending hfew hpending
      change fault.number = poll.handled + 1 at hnext
      omega
    · have hlt := (List.getElem?_eq_some_iff.1 hspan).1
      have hraised := h.faults.raised
      rw [allRecords_eq_map, List.length_map] at hraised
      omega
  have hbehind := hbetween.behind i span hspan hhandled
  have hbounds := h.span_le (List.mem_of_getElem? hspan)
  have hadvance := h.tracks.ring.advanceTo_max hshort hbounds.2
  rw [Nat.max_eq_left hbehind, Nat.sub_self] at hadvance
  have hdone := (h'.tracks.recover_eq hidle hpending (by rw [hrecord]; exact hadvance)
    h'.tracks.ring.taken_le).2
  refine ⟨_, _, _, hdone.trans (take_nothing v poll _ polled surviving _ _), ?_⟩
  show fault.number ≤ v.path.poll.handled
  omega

end Journal

end MultidropBus
