import MultidropBus.Proofs.Poll.Recognition
import MultidropBus.Proofs.Transmit.Moves

/-!
# What becomes of a frame that may be a poll

A frame is answered only if it comes from the master, is for this very station and carries one of
the two requests. Then the answer is at most one frame: a `pong` made up for the occasion, or the
oldest frame of the outbox, which leaves it only when the transmitter has taken it.
-/

namespace MultidropBus

/-- A request of the master to the station with address `own`. -/
structure Frame.IsPoll (f : Frame) (own : Address) : Prop where
  destination : f.destination = own
  source : f.source = Address.master
  request : PollMessage.pingWord <+: f.payload ∨ PollMessage.sendWord <+: f.payload

section

variable {depth : Nat} {outbox : Outbox depth} {frame : Frame} {own : Address} {reply : Bytes}

/-- The frame with which a station answers a poll: the number of waiting frames, or the oldest of
them. To anything else it has no answer. -/
def Outbox.reply? (outbox : Outbox depth) (frame : Frame) (own : Address) : Option Bytes :=
  if frame.destination ≠ own ∨ frame.source ≠ Address.master then none
  else
    match PollMessage.ofFrame? frame with
    | some .ping => some (Frame.wire frame.source own (PollMessage.pong outbox.pending).payload)
    | some .send => outbox.front?
    | some (.pong _) => none
    | none => none

theorem Outbox.reply?_ping (outbox : Outbox depth) (hown : frame.destination = own)
    (hmaster : frame.source = Address.master)
    (hmessage : PollMessage.ofFrame? frame = some .ping) :
    outbox.reply? frame own
      = some (Frame.wire frame.source own (PollMessage.pong outbox.pending).payload) := by
  simp [reply?, hown, hmaster, hmessage]

theorem Outbox.reply?_send (outbox : Outbox depth) (hown : frame.destination = own)
    (hmaster : frame.source = Address.master)
    (hmessage : PollMessage.ofFrame? frame = some .send) :
    outbox.reply? frame own = outbox.front? := by
  simp [reply?, hown, hmaster, hmessage]

/-- Only polls are answered. -/
theorem Outbox.isPoll_of_reply? (h : outbox.reply? frame own = some reply) : frame.IsPoll own := by
  rw [reply?] at h
  split at h
  case isTrue => cases h
  case isFalse hpoll =>
    obtain ⟨hown, hmaster⟩ := not_or.1 hpoll
    refine ⟨Decidable.not_not.1 hown, Decidable.not_not.1 hmaster, ?_⟩
    split at h
    case h_1 hping => exact .inl (PollMessage.ofFrame?_eq_some_iff.1 hping)
    case h_2 hsend => exact .inr (PollMessage.ofFrame?_eq_some_iff.1 hsend)
    case h_3 => cases h
    case h_4 => cases h

end

namespace TransmitPath

variable {depth : Nat} {p : TransmitPath} {outbox : Outbox depth} {frame : Frame} {own : Address}

/-- Nothing happens, or a `pong` with the number of waiting frames is loaded, or the oldest waiting
frame is loaded and leaves the outbox. -/
inductive Answers (p : TransmitPath) (outbox : Outbox depth) (frame : Frame) (own : Address) :
    PollOutcome depth → Prop
  | still (result : Except SendError (Option PollMessage)) :
    Answers p outbox frame own ⟨result, p, outbox, []⟩
  | pong {slot : TransmitSlot} {pong : Bytes} (hreply : outbox.reply? frame own = some pong)
    (hidle : p.phase = .idle) (hne : pong ≠ []) (hphase : slot.phase = .pending)
    (hholds : slot.Holds pong) :
    Answers p outbox frame own
      ⟨.ok (some .ping), { p with slot := slot }, outbox, [.requestInterrupt]⟩
  | sent {slot : TransmitSlot} {oldest : Bytes} {rest : List Bytes}
    (hreply : outbox.reply? frame own = some oldest) (hidle : p.phase = .idle)
    (hfrom : outbox.frames = oldest :: rest) (hne : oldest ≠ []) (hphase : slot.phase = .pending)
    (hholds : slot.Holds oldest) :
    Answers p outbox frame own
      ⟨.ok (some .send), { p with slot := slot }, ⟨rest⟩, [.requestInterrupt]⟩

/-- A `ping` is answered with a `pong`, unless the transmitter is busy. -/
theorem answers_ping {payload : Bytes}
    (hreply : outbox.reply? frame own = some (Frame.wire frame.source own payload)) :
    p.Answers outbox frame own
      (.ofSend .ping (p.send frame.source own payload) outbox outbox) := by
  have hoffer := p.send_offer frame.source own payload
  generalize p.send frame.source own payload = outcome at hoffer
  cases hoffer with
  | refused e => exact .still _
  | loaded hidle hne hphase hholds => exact .pong hreply hidle hne hphase hholds

/-- A `send` is answered with the oldest waiting frame, unless there is none or the transmitter is
busy. -/
theorem answers_send {oldest : Bytes} {rest : List Bytes}
    (hreply : outbox.reply? frame own = some oldest) (hfrom : outbox.frames = oldest :: rest) :
    p.Answers outbox frame own (.ofSend .send (p.sendFrame oldest) outbox ⟨rest⟩) := by
  have hoffer := p.sendFrame_offer oldest
  generalize p.sendFrame oldest = outcome at hoffer
  cases hoffer with
  | refused e => exact .still _
  | loaded hidle hne hphase hholds => exact .sent hreply hidle hfrom hne hphase hholds

theorem answerPoll_answers (p : TransmitPath) (outbox : Outbox depth) (frame : Frame)
    (own : Address) : p.Answers outbox frame own (p.answerPoll outbox frame own) := by
  rw [answerPoll]
  by_cases hother : frame.destination ≠ own ∨ frame.source ≠ Address.master
  · rw [if_pos hother]
    exact .still _
  rw [if_neg hother]
  have hown := Decidable.not_not.1 (not_or.1 hother).1
  have hmaster := Decidable.not_not.1 (not_or.1 hother).2
  cases hmessage : PollMessage.ofFrame? frame with
  | none => exact .still _
  | some message =>
    cases message with
    | pong pending => exact .still _
    | ping => exact answers_ping (outbox.reply?_ping hown hmaster hmessage)
    | send =>
      have hreply := outbox.reply?_send hown hmaster hmessage
      simp only [Outbox.front?, Outbox.pop] at hreply ⊢
      cases hfrom : outbox.frames with
      | nil => exact .still _
      | cons oldest rest => exact answers_send (by rw [hreply, hfrom]; rfl) hfrom

end TransmitPath

end MultidropBus
