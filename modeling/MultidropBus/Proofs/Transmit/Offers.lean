import MultidropBus.Proofs.Transmit.Session

/-!
# An offer is taken whole or not at all

A frame is offered to the transmitter as it goes over the line, or as a payload to be encoded. An
encoded frame is taken if the transmitter is idle and the frame is neither empty nor longer than the
slot (`Bench.FrameOffer`). A payload is taken if the transmitter is idle and a frame can hold it,
and then the offer is the same as that of the encoded frame (`Bench.PayloadOffer`). An offer that is
refused leaves everything as it was; one that is taken changes nothing but the slot and the count of
requests. What the pump then finds in the slot is this frame and no other, and it goes on to find it
there until the next one is taken, however long the frames before it were (`Session.run_holds`).
-/

namespace MultidropBus

/-! ### Refusals -/

namespace TransmitSlot

variable {s : TransmitSlot} {frame : Bytes}

theorem load_busy (hbusy : s.phase ≠ .idle) (frame : Bytes) : s.load frame = (.error .busy, s) :=
  if_pos hbusy

theorem load_too_long (hidle : s.phase = .idle) (hlong : maxFrameSize < frame.length) :
    s.load frame = (.error (.frame .payloadTooLarge), s) := by
  rw [load, if_neg (not_not_intro hidle), if_pos hlong]

theorem load_nil (hidle : s.phase = .idle) : s.load [] = (.error (.frame .incomplete), s) := by
  have hshort : ¬ maxFrameSize < ([] : Bytes).length := Nat.not_lt_zero _
  rw [load, if_neg (not_not_intro hidle), if_neg hshort, if_pos rfl]

end TransmitSlot

namespace TransmitPath

variable {p : TransmitPath} {frame payload : Bytes}

theorem sendFrame_error {e : SendError} (h : p.slot.load frame = (.error e, p.slot)) :
    p.sendFrame frame = ⟨.error e, p, []⟩ := by
  rw [sendFrame, h]

/-- A busy transmitter refuses before it looks at the payload. -/
theorem send_busy (hbusy : p.phase ≠ .idle) (destination source : Address) (payload : Bytes) :
    p.send destination source payload = ⟨.error .busy, p, []⟩ := by
  rw [send, if_pos (by simp [isTransmitting, hbusy])]

theorem send_too_large (hidle : p.phase = .idle) (hlarge : maxPayloadSize < payload.length)
    (destination source : Address) :
    p.send destination source payload = ⟨.error (.frame .payloadTooLarge), p, []⟩ := by
  rw [send, if_neg (by simp [isTransmitting, hidle]), Frame.encodeInto, if_pos hlarge]

/-- No transmit event touches what the slot holds. -/
theorem pump_keeps_slot (p : TransmitPath) (event : TransmitEvent) (h : p.slot.Holds frame) :
    (p.pump event).1.slot.Holds frame := by
  obtain ⟨hbytes, hlength, -⟩ := p.pump_slot event
  intro i
  rw [← h i, TransmitSlot.byte?, TransmitSlot.byte?, hbytes, hlength]

end TransmitPath

/-! ### Offers on the bench -/

namespace Bench

variable {size : RingSize} {depth : Nat} {b after : Bench size depth} {frame payload : Bytes}
  {destination source : Address}

/-- The frame waits in the slot, the interrupt was requested once more, and nothing else changed. -/
def Loads (b : Bench size depth) (frame : Bytes) (after : Bench size depth) : Prop :=
  ∃ slot : TransmitSlot, slot.phase = .pending ∧ slot.Holds frame ∧ after = b.load slot

/-- What comes of the offer of an encoded frame. -/
structure FrameOffer (b : Bench size depth) (frame : Bytes) : Prop where
  refused : ∀ e after, b.transmit (·.sendFrame frame) = .ok (.error e, after) → after = b
  busy : b.transmit (·.sendFrame frame) = .ok (.error .busy, b)
    ↔ b.station.transmit.phase ≠ .idle
  tooLong : b.transmit (·.sendFrame frame) = .ok (.error (.frame .payloadTooLarge), b)
    ↔ b.station.transmit.phase = .idle ∧ maxFrameSize < frame.length
  empty : b.transmit (·.sendFrame frame) = .ok (.error (.frame .incomplete), b)
    ↔ b.station.transmit.phase = .idle ∧ frame = []
  taken : (∃ after, b.transmit (·.sendFrame frame) = .ok (.ok (), after))
    ↔ b.station.transmit.phase = .idle ∧ frame ≠ [] ∧ frame.length ≤ maxFrameSize
  loads : ∀ after, b.transmit (·.sendFrame frame) = .ok (.ok (), after) → b.Loads frame after

/-- What comes of the offer of a payload. -/
structure PayloadOffer (b : Bench size depth) (destination source : Address) (payload : Bytes) :
    Prop where
  refused : ∀ e after,
    b.transmit (·.send destination source payload) = .ok (.error e, after) → after = b
  busy : b.transmit (·.send destination source payload) = .ok (.error .busy, b)
    ↔ b.station.transmit.phase ≠ .idle
  tooLarge : b.transmit (·.send destination source payload)
      = .ok (.error (.frame .payloadTooLarge), b)
    ↔ b.station.transmit.phase = .idle ∧ maxPayloadSize < payload.length
  taken : b.station.transmit.phase = .idle → payload.length ≤ maxPayloadSize →
    ∃ frame, Frame.encode destination source payload = .ok frame
      ∧ b.transmit (·.send destination source payload) = b.transmit (·.sendFrame frame)
      ∧ ∃ after, b.transmit (·.sendFrame frame) = .ok (.ok (), after) ∧ b.Loads frame after

theorem transmit_error {send : TransmitPath → SendOutcome} {e : SendError}
    (h : b.station.transmit.Offer frame (send b.station.transmit))
    (herror : b.transmit send = .ok (.error e, after)) : after = b := by
  rcases transmit_cases h with ⟨_, hsame⟩ | ⟨-, -, slot, -, -, hloaded⟩
  · rw [hsame] at herror
    cases herror
    rfl
  · rw [hloaded] at herror
    cases herror

theorem transmit_refused {send : TransmitPath → SendOutcome} {e : SendError}
    (h : send b.station.transmit = ⟨.error e, b.station.transmit, []⟩) :
    b.transmit send = .ok (.error e, b) := by
  rw [transmit, h]
  rfl

theorem transmit_sendFrame (hidle : b.station.transmit.phase = .idle) (hne : frame ≠ [])
    (hlen : frame.length ≤ maxFrameSize) :
    ∃ after, b.transmit (·.sendFrame frame) = .ok (.ok (), after) ∧ b.Loads frame after := by
  obtain ⟨slot, hphase, hholds, hsend⟩ := TransmitPath.sendFrame_fits hidle hne hlen
  refine ⟨b.load slot, ?_, slot, hphase, hholds, rfl⟩
  rw [transmit, hsend]
  rfl

theorem transmit_send (hidle : b.station.transmit.phase = .idle)
    (hlen : payload.length ≤ maxPayloadSize) (destination source : Address) :
    b.transmit (·.send destination source payload)
      = b.transmit (·.sendFrame (Frame.wire destination source payload)) := by
  rw [transmit, transmit, TransmitPath.send_eq_sendFrame hidle hlen]

theorem frameOffer (b : Bench size depth) (frame : Bytes) : b.FrameOffer frame := by
  have hrefused (e : SendError) (after : Bench size depth)
      (h : b.transmit (·.sendFrame frame) = .ok (.error e, after)) : after = b :=
    transmit_error (b.station.transmit.sendFrame_offer frame) h
  by_cases hidle : b.station.transmit.phase = .idle
  case neg =>
    have hbusy : b.transmit (·.sendFrame frame) = .ok (.error .busy, b) :=
      transmit_refused (TransmitPath.sendFrame_error (TransmitSlot.load_busy hidle frame))
    refine ⟨hrefused, ?_, ?_, ?_, ?_, ?_⟩ <;> simp [hbusy, hidle]
  rcases Nat.lt_or_ge maxFrameSize frame.length with hlong | hlen
  · have htooLong : b.transmit (·.sendFrame frame)
        = .ok (.error (.frame .payloadTooLarge), b) :=
      transmit_refused (TransmitPath.sendFrame_error (TransmitSlot.load_too_long hidle hlong))
    have hne : frame ≠ [] := List.ne_nil_of_length_pos (Nat.zero_lt_of_lt hlong)
    refine ⟨hrefused, ?_, ?_, ?_, ?_, ?_⟩ <;> simp [htooLong, hidle, hlong, hne]
  by_cases hnone : frame = []
  · subst hnone
    have hempty : b.transmit (·.sendFrame []) = .ok (.error (.frame .incomplete), b) :=
      transmit_refused (TransmitPath.sendFrame_error (TransmitSlot.load_nil hidle))
    refine ⟨hrefused, ?_, ?_, ?_, ?_, ?_⟩ <;> simp [hempty, hidle]
  · obtain ⟨after, htaken, hloads⟩ := transmit_sendFrame hidle hnone hlen
    refine ⟨hrefused, ?_, ?_, ?_, ?_, ?_⟩ <;> simp [htaken, hidle, hlen, hnone, hloads]

theorem payloadOffer (b : Bench size depth) (destination source : Address) (payload : Bytes) :
    b.PayloadOffer destination source payload := by
  have hrefused (e : SendError) (after : Bench size depth)
      (h : b.transmit (·.send destination source payload) = .ok (.error e, after)) : after = b :=
    transmit_error (b.station.transmit.send_offer destination source payload) h
  by_cases hidle : b.station.transmit.phase = .idle
  case neg =>
    have hbusy : b.transmit (·.send destination source payload) = .ok (.error .busy, b) :=
      transmit_refused (TransmitPath.send_busy hidle destination source payload)
    refine ⟨hrefused, ?_, ?_, ?_⟩ <;> simp [hbusy, hidle]
  rcases Nat.lt_or_ge maxPayloadSize payload.length with hlarge | hlen
  · have htooLarge : b.transmit (·.send destination source payload)
        = .ok (.error (.frame .payloadTooLarge), b) :=
      transmit_refused (TransmitPath.send_too_large hidle hlarge destination source)
    refine ⟨hrefused, ?_, ?_, fun _ hlen => absurd hlarge (Nat.not_lt_of_le hlen)⟩ <;>
      simp [htooLarge, hidle, hlarge]
  · have hlength := Frame.wire_length destination source payload
    have hsend := transmit_send hidle hlen destination source
    have hne : Frame.wire destination source payload ≠ [] := by nofun
    have hfits : (Frame.wire destination source payload).length ≤ maxFrameSize := by
      rw [hlength]
      exact Nat.add_le_add_left hlen headerSize
    obtain ⟨after, htaken, hloads⟩ := transmit_sendFrame hidle hne hfits
    refine ⟨hrefused, ?_, ?_, fun _ _ => ?_⟩
    · simp [hsend, htaken, hidle]
    · simp [hsend, htaken, hidle, hlen]
    · exact ⟨_, (Frame.encode_eq_ok_iff _ _ _ _).2 ⟨hlen, rfl⟩, hsend, after, htaken, hloads⟩

end Bench

/-! ### What the slot holds in the course of a session -/

namespace Session

variable {size : RingSize} {depth : Nat} {t t' : Session size depth}

/-- The frame that was taken last; nothing, if none was. -/
def latest (t : Session size depth) : Bytes := t.accepted.getLast?.getD []

/-- An offer that is taken covers the frame before it, and one that is refused leaves it. -/
theorem offer_holds (h : t.path.slot.Holds t.latest) {frame : Bytes}
    {send : TransmitPath → SendOutcome} (hoffer : t.path.Offer frame (send t.path))
    (hstep : t.offer frame send = .ok t') : t'.path.slot.Holds t'.latest := by
  rcases offer_cases hoffer with hsame | ⟨-, -, slot, -, hholds, hloaded⟩
  · rw [hsame] at hstep
    cases hstep
    exact h
  · rw [hloaded] at hstep
    cases hstep
    have hlatest : (t.loaded slot frame).latest = frame := by
      rw [latest, loaded, List.getLast?_concat]
      rfl
    rw [hlatest]
    exact hholds

theorem pump_holds (h : t.path.slot.Holds t.latest) {event : TransmitEvent}
    (hstep : t.step (.pump event) = .ok t') : t'.path.slot.Holds t'.latest := by
  rw [step] at hstep
  cases hpump : t.bench.pump event with
  | error e =>
    rw [hpump] at hstep
    cases hstep
  | ok b =>
    rw [hpump] at hstep
    cases hstep
    obtain ⟨line, -, rfl⟩ := Bench.pump_ok hpump
    exact t.path.pump_keeps_slot event h

/-- **The slot holds the frame that was taken last**, at every moment of a session, whatever was
offered since and however far the frame has come. -/
theorem run_holds (identity : Identity) (steps : List TransmitStep)
    (hrun : run identity steps = .ok t) : t.path.slot.Holds t.latest := by
  induction steps using List.reverseRecOn generalizing t with
  | nil =>
    cases hrun
    intro i
    rfl
  | append_singleton earlier s ih =>
    rw [run_snoc] at hrun
    cases hearlier : (run identity earlier : Except LogFull (Session size depth)) with
    | error e => rw [hearlier] at hrun; cases hrun
    | ok before =>
      rw [hearlier] at hrun
      change before.step s = .ok t at hrun
      have h := ih hearlier
      cases s with
      | send destination source payload =>
        exact offer_holds h (before.path.send_offer destination source payload) hrun
      | sendFrame frame => exact offer_holds h (before.path.sendFrame_offer frame) hrun
      | pump event => exact pump_holds h hrun

/-- **Offers are all or nothing, and both kinds agree.** On every bench, whatever its transmitter is
doing and whatever it sent before, a refused offer changes nothing, a payload is refused for one
reason first and the other next, and otherwise its offer is that of the encoded frame; an encoded
frame is taken exactly if the transmitter is idle and the slot can hold it. And from the moment a
frame is taken the pump finds this frame in the slot, and no byte of an earlier one, until another
frame is taken. -/
theorem offers_all_or_nothing (size : RingSize) (depth : Nat) :
    (∀ (b : Bench size depth) frame, b.FrameOffer frame)
      ∧ (∀ (b : Bench size depth) destination source payload,
        b.PayloadOffer destination source payload)
      ∧ ∀ identity steps (t : Session size depth), run identity steps = .ok t →
        t.path.slot.Holds t.latest :=
  ⟨Bench.frameOffer, Bench.payloadOffer, fun identity steps _ hrun => run_holds identity steps hrun⟩

/-- A frame of four bytes goes out, and one of two bytes is loaded over it. -/
def shrinkingSteps : List TransmitStep :=
  [.sendFrame [9, 8, 7, 6], .pump .kick, .pump .bufferEmpty, .pump .bufferEmpty, .pump .bufferEmpty,
    .pump .bufferEmpty, .pump .complete, .sendFrame [4, 5]]

/-- The tail of the longer frame is still in the slot, but the pump does not find it there. -/
theorem shrinkingSteps_hold :
    ∃ t : Session ⟨3, by decide⟩ defaultOutboxDepth, run .busMaster shrinkingSteps = .ok t
      ∧ t.path.slot.Holds [4, 5] ∧ t.path.slot.bytes.toList.take 4 = [4, 5, 7, 6] := by
  have hnoted : (run .busMaster shrinkingSteps
      : Except LogFull (Session ⟨3, by decide⟩ defaultOutboxDepth)).toOption.map
        (fun t => (t.latest, t.path.slot.bytes.toList.take 4)) = some ([4, 5], [4, 5, 7, 6]) := by
    decide +kernel
  obtain ⟨-, -, hholds⟩ := offers_all_or_nothing ⟨3, by decide⟩ defaultOutboxDepth
  cases hrun : (run .busMaster shrinkingSteps
      : Except LogFull (Session ⟨3, by decide⟩ defaultOutboxDepth)) with
  | error e =>
    rw [hrun] at hnoted
    cases hnoted
  | ok t =>
    rw [hrun] at hnoted
    obtain ⟨hlatest, hbytes⟩ := Prod.mk.inj (Option.some.inj hnoted)
    exact ⟨t, rfl, hlatest ▸ hholds _ _ t hrun, hbytes⟩

end Session

end MultidropBus
