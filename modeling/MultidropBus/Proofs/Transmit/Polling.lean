import MultidropBus.Proofs.Transmit.Dispatch
import MultidropBus.Proofs.Transmit.Offers

/-!
# A poll is answered whole or not at all

What the master asks for is told by the bytes of its frame alone (`Frame.Asks`). A station that is
asked answers with one frame, and only a busy transmitter can keep it from that: the `pong` made up
for a `ping` always fits a frame, and whatever waits in an outbox was encoded when it was queued, so
the transmitter would take it (`Outbox.run_sendable`). So an answer fails only as busy, and then the
outbox, the slot and the count of requests are as they were. A frame leaves the outbox in the same
step in which it is loaded (`Bench.PollAnswer`).
-/

namespace MultidropBus

/-! ### What is asked -/

/-- A frame of the master to the station with address `own` that starts with the given word. -/
def Frame.Asks (f : Frame) (own : Address) (word : Bytes) : Prop :=
  f.destination = own ∧ f.source = Address.master ∧ word <+: f.payload

theorem Frame.isPoll_iff (f : Frame) (own : Address) :
    f.IsPoll own ↔ f.Asks own PollMessage.pingWord ∨ f.Asks own PollMessage.sendWord := by
  constructor
  · rintro ⟨hown, hmaster, hping | hsend⟩
    · exact .inl ⟨hown, hmaster, hping⟩
    · exact .inr ⟨hown, hmaster, hsend⟩
  · rintro (⟨hown, hmaster, hping⟩ | ⟨hown, hmaster, hsend⟩)
    · exact ⟨hown, hmaster, .inl hping⟩
    · exact ⟨hown, hmaster, .inr hsend⟩

namespace PollMessage

/-- No payload starts with both requests. -/
theorem not_ping_of_send {payload : Bytes} (hsend : sendWord <+: payload) :
    ¬ pingWord <+: payload :=
  not_prefix_of_ne hsend rfl (by decide)

theorem ofFrame?_of_ping {f : Frame} (h : pingWord <+: f.payload) : ofFrame? f = some .ping :=
  ofFrame?_eq_some_iff.2 h

theorem ofFrame?_of_send {f : Frame} (h : sendWord <+: f.payload) : ofFrame? f = some .send :=
  ofFrame?_eq_some_iff.2 h

end PollMessage

/-! ### What waits -/

/-- A frame that an idle transmitter takes. -/
def Sendable (frame : Bytes) : Prop := frame ≠ [] ∧ frame.length ≤ maxFrameSize

theorem Frame.sendable_wire (destination source : Address) {payload : Bytes}
    (hlen : payload.length ≤ maxPayloadSize) : Sendable (wire destination source payload) := by
  refine ⟨by nofun, ?_⟩
  rw [wire_length]
  exact Nat.add_le_add_left hlen headerSize

inductive OutboxStep
  | enqueue (letter : Letter)
  | pop
  | clear
deriving DecidableEq, Repr

namespace Outbox

variable {depth : Nat}

def step (o : Outbox depth) : OutboxStep → Outbox depth
  | .enqueue letter => (o.enqueue letter.destination letter.source letter.payload).2
  | .pop => o.pop.2
  | .clear => o.clear

/-- An outbox that was empty at first. -/
def run (steps : List OutboxStep) : Outbox depth := steps.foldl step .empty

/-- Only encoded frames come in. -/
theorem step_sendable {o : Outbox depth} (h : ∀ frame ∈ o.frames, Sendable frame)
    (s : OutboxStep) : ∀ frame ∈ (o.step s).frames, Sendable frame := by
  cases s with
  | enqueue letter =>
    rw [step]
    rcases o.enqueue_cases letter.destination letter.source letter.payload with
      ⟨e, hrefused⟩ | ⟨encoded, hencode, hqueued⟩
    · rw [hrefused]
      exact h
    · obtain ⟨hlen, rfl⟩ := (Frame.encode_eq_ok_iff _ _ _ _).1 hencode
      rw [hqueued]
      intro frame hframe
      rcases List.mem_append.1 hframe with hbefore | hnew
      · exact h frame hbefore
      · rw [List.mem_singleton.1 hnew]
        exact Frame.sendable_wire _ _ hlen
  | pop => exact fun frame hframe => h frame (List.mem_of_mem_tail hframe)
  | clear => exact fun frame hframe => nomatch hframe

/-- **Whatever waits would be taken by an idle transmitter.** -/
theorem run_sendable (steps : List OutboxStep) :
    ∀ frame ∈ (run steps : Outbox depth).frames, Sendable frame := by
  induction steps using List.reverseRecOn with
  | nil =>
    intro frame hframe
    cases hframe
  | append_singleton earlier s ih =>
    rw [run, List.foldl_append]
    exact step_sendable ih s

end Outbox

/-! ### What is answered -/

namespace TransmitPath

variable {depth : Nat} {p : TransmitPath} {outbox : Outbox depth} {frame : Frame} {own : Address}

theorem answerPoll_passed (h : ¬ frame.IsPoll own) :
    p.answerPoll outbox frame own = .still (.ok none) p outbox := by
  rw [answerPoll]
  by_cases hother : frame.destination ≠ own ∨ frame.source ≠ Address.master
  · rw [if_pos hother]
  rw [if_neg hother]
  obtain ⟨hown, hmaster⟩ := not_or.1 hother
  cases hmessage : PollMessage.ofFrame? frame with
  | none => rfl
  | some message =>
    cases message with
    | pong pending => rfl
    | ping =>
      exact absurd ⟨Decidable.not_not.1 hown, Decidable.not_not.1 hmaster,
        .inl (PollMessage.ofFrame?_eq_some_iff.1 hmessage)⟩ h
    | send =>
      exact absurd ⟨Decidable.not_not.1 hown, Decidable.not_not.1 hmaster,
        .inr (PollMessage.ofFrame?_eq_some_iff.1 hmessage)⟩ h

theorem answerPoll_ping (h : frame.Asks own PollMessage.pingWord) :
    p.answerPoll outbox frame own
      = .ofSend .ping (p.send Address.master own (PollMessage.pong outbox.pending).payload)
        outbox outbox := by
  obtain ⟨hown, hmaster, hword⟩ := h
  simp [answerPoll, hown, hmaster, PollMessage.ofFrame?_of_ping hword]

theorem answerPoll_send_nothing (h : frame.Asks own PollMessage.sendWord)
    (hnone : outbox.frames = []) :
    p.answerPoll outbox frame own = .still (.ok (some .send)) p outbox := by
  obtain ⟨hown, hmaster, hword⟩ := h
  simp [answerPoll, hown, hmaster, PollMessage.ofFrame?_of_send hword, Outbox.front?, hnone]

theorem answerPoll_send (h : frame.Asks own PollMessage.sendWord) {oldest : Bytes}
    {rest : List Bytes} (hfrom : outbox.frames = oldest :: rest) :
    p.answerPoll outbox frame own = .ofSend .send (p.sendFrame oldest) outbox ⟨rest⟩ := by
  obtain ⟨hown, hmaster, hword⟩ := h
  simp [answerPoll, hown, hmaster, PollMessage.ofFrame?_of_send hword, Outbox.front?, Outbox.pop,
    hfrom]

end TransmitPath

namespace Bench

variable {size : RingSize} {depth : Nat} {b after : Bench size depth} {frame : Frame}
  {own : Address} {message : PollMessage} {taken : Outbox depth} {send : TransmitPath → SendOutcome}

/-- An answer is as good as the offer behind it: if the transmitter takes it the outbox becomes
`taken`, and if not everything is as the offer left it. -/
theorem answerPoll_of_transmit {result : Except SendError Unit}
    (hanswer : b.station.transmit.answerPoll b.outbox frame own
      = .ofSend message (send b.station.transmit) b.outbox taken)
    (hsent : b.transmit send = .ok (result, after)) :
    b.answerPoll frame own = .ok (match result with
      | .ok () => (.ok (some message), { after with outbox := taken })
      | .error e => (.error e, after)) := by
  rw [transmit] at hsent
  rw [answerPoll, hanswer]
  generalize send b.station.transmit = outcome at hsent
  obtain ⟨answer, path, actions⟩ := outcome
  cases hline : b.line.performAll actions with
  | error e => simp [hline, Except.map] at hsent
  | ok line =>
    simp only [hline, Except.map, Except.ok.injEq, Prod.mk.injEq] at hsent
    obtain ⟨rfl, rfl⟩ := hsent
    cases answer <;> simp [PollOutcome.ofSend, hline, Except.map]

/-- What comes of a frame that may be a poll. -/
structure PollAnswer (b : Bench size depth) (frame : Frame) (own : Address) : Prop where
  /-- Exactly what is no poll is passed over. -/
  passed : (∃ after, b.answerPoll frame own = .ok (.ok none, after)) ↔ ¬ frame.IsPoll own
  /-- A busy transmitter fails exactly the polls that it is needed for, and nothing else fails. -/
  failed : ∀ e, (∃ after, b.answerPoll frame own = .ok (.error e, after))
    ↔ e = .busy ∧ b.station.transmit.phase ≠ .idle
      ∧ (frame.Asks own PollMessage.pingWord
        ∨ frame.Asks own PollMessage.sendWord ∧ b.outbox.frames ≠ [])
  unchanged : ∀ result after, b.answerPoll frame own = .ok (result, after) →
    (result = .ok none ∨ ∃ e, result = .error e) → after = b
  pinged : (∃ after, b.answerPoll frame own = .ok (.ok (some .ping), after))
    ↔ frame.Asks own PollMessage.pingWord ∧ b.station.transmit.phase = .idle
  /-- The `pong` goes to the master and tells how many frames wait, 255 if there are more. -/
  pong : ∀ after, b.answerPoll frame own = .ok (.ok (some .ping), after) →
    ∃ count pong, count.toNat = min 255 b.outbox.frames.length
      ∧ (PollMessage.pong count).encode Address.master own = .ok pong ∧ b.Loads pong after
  asked : (∃ after, b.answerPoll frame own = .ok (.ok (some .send), after))
    ↔ frame.Asks own PollMessage.sendWord
      ∧ (b.outbox.frames = [] ∨ b.station.transmit.phase = .idle)
  nothing : ∀ after, b.answerPoll frame own = .ok (.ok (some .send), after) →
    b.outbox.frames = [] → after = b
  /-- The oldest frame leaves the outbox as it is loaded, and the others stay. -/
  oldest : ∀ after oldest rest, b.answerPoll frame own = .ok (.ok (some .send), after) →
    b.outbox.frames = oldest :: rest →
      ∃ loaded, b.Loads oldest loaded ∧ after = { loaded with outbox := ⟨rest⟩ }

theorem pollAnswer_passed (h : ¬ frame.IsPoll own) : b.PollAnswer frame own := by
  have hpassed : b.answerPoll frame own = .ok (.ok none, b) := by
    rw [answerPoll, TransmitPath.answerPoll_passed h]
    rfl
  obtain ⟨hping, hsend⟩ := not_or.1 (mt (frame.isPoll_iff own).2 h)
  constructor <;> simp [hpassed, h, hping, hsend]

theorem pollAnswer_ping (h : frame.Asks own PollMessage.pingWord) : b.PollAnswer frame own := by
  have hpoll : frame.IsPoll own := (frame.isPoll_iff own).2 (.inl h)
  have hother : ¬ frame.Asks own PollMessage.sendWord := fun hsend =>
    PollMessage.not_ping_of_send hsend.2.2 h.2.2
  have hoffer := b.payloadOffer Address.master own (PollMessage.pong b.outbox.pending).payload
  by_cases hidle : b.station.transmit.phase = .idle
  case neg =>
    have hbusy : b.answerPoll frame own = .ok (.error .busy, b) :=
      answerPoll_of_transmit (TransmitPath.answerPoll_ping h) (hoffer.busy.2 hidle)
    constructor <;> simp [hbusy, hpoll, h, hother, hidle, eq_comm]
  have hshort : (PollMessage.pong b.outbox.pending).payload.length ≤ maxPayloadSize :=
    Nat.le_trans (PollMessage.payload_length_le _) (by decide)
  obtain ⟨pong, hencode, hsame, after, htaken, slot, hphase, hholds, rfl⟩ :=
    hoffer.taken hidle hshort
  have hcount : b.outbox.pending.toNat = min 255 b.outbox.frames.length := by
    rw [Outbox.pending, UInt8.toNat_ofNat']
    omega
  have hponged : b.answerPoll frame own = .ok (.ok (some .ping), b.load slot) :=
    answerPoll_of_transmit (TransmitPath.answerPoll_ping h) (hsame.trans htaken)
  constructor
  case pong =>
    intro other hother
    rw [hponged] at hother
    cases hother
    exact ⟨_, pong, hcount, hencode, slot, hphase, hholds, rfl⟩
  all_goals simp [hponged, hpoll, h, hother, hidle]

theorem pollAnswer_send_nothing (h : frame.Asks own PollMessage.sendWord)
    (hnone : b.outbox.frames = []) : b.PollAnswer frame own := by
  have hpoll : frame.IsPoll own := (frame.isPoll_iff own).2 (.inr h)
  have hother : ¬ frame.Asks own PollMessage.pingWord := fun hping =>
    PollMessage.not_ping_of_send h.2.2 hping.2.2
  have hstill : b.answerPoll frame own = .ok (.ok (some .send), b) := by
    rw [answerPoll, TransmitPath.answerPoll_send_nothing h hnone]
    rfl
  constructor <;> simp [hstill, hpoll, h, hother, hnone]

theorem pollAnswer_send (h : frame.Asks own PollMessage.sendWord) {oldest : Bytes}
    {rest : List Bytes} (hfrom : b.outbox.frames = oldest :: rest) (hsendable : Sendable oldest) :
    b.PollAnswer frame own := by
  have hpoll : frame.IsPoll own := (frame.isPoll_iff own).2 (.inr h)
  have hother : ¬ frame.Asks own PollMessage.pingWord := fun hping =>
    PollMessage.not_ping_of_send h.2.2 hping.2.2
  have hoffer := b.frameOffer oldest
  by_cases hidle : b.station.transmit.phase = .idle
  case neg =>
    have hbusy : b.answerPoll frame own = .ok (.error .busy, b) :=
      answerPoll_of_transmit (TransmitPath.answerPoll_send h hfrom) (hoffer.busy.2 hidle)
    constructor <;> simp [hbusy, hpoll, h, hother, hidle, hfrom, eq_comm]
  obtain ⟨loaded, htaken⟩ := hoffer.taken.2 ⟨hidle, hsendable⟩
  have hloads := hoffer.loads loaded htaken
  have hsent : b.answerPoll frame own = .ok (.ok (some .send), { loaded with outbox := ⟨rest⟩ }) :=
    answerPoll_of_transmit (TransmitPath.answerPoll_send h hfrom) htaken
  constructor
  case oldest =>
    intro after first others hafter hfirst
    rw [hsent] at hafter
    cases hafter
    rw [hfrom] at hfirst
    cases hfirst
    exact ⟨loaded, hloads, rfl⟩
  all_goals simp [hsent, hpoll, h, hother, hidle, hfrom]

/-- Every frame, whatever waits, provided that an idle transmitter would take it. -/
theorem pollAnswer (hsendable : ∀ frame ∈ b.outbox.frames, Sendable frame) (frame : Frame)
    (own : Address) : b.PollAnswer frame own := by
  by_cases hpoll : frame.IsPoll own
  case neg => exact pollAnswer_passed hpoll
  rcases (frame.isPoll_iff own).1 hpoll with hping | hsend
  · exact pollAnswer_ping hping
  · cases hfrom : b.outbox.frames with
    | nil => exact pollAnswer_send_nothing hsend hfrom
    | cons oldest rest =>
      have hoffered : oldest ∈ b.outbox.frames := hfrom ▸ List.mem_cons_self
      exact pollAnswer_send hsend hfrom (hsendable oldest hoffered)

/-- **A poll is answered whole or not at all, and the answer tells which.** This holds on every
bench, whatever its transmitter is doing, with every outbox that was filled by queueing frames,
taking them out and dropping them, and for every frame and every address. -/
theorem polls_all_or_nothing (station : Station size) (line : LineRecorder)
    (steps : List OutboxStep) (frame : Frame) (own : Address) :
    (⟨station, .run steps, line⟩ : Bench size depth).PollAnswer frame own :=
  pollAnswer (Outbox.run_sendable steps) frame own

end Bench

end MultidropBus
