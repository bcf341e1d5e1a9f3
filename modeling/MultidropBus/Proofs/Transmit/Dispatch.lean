import MultidropBus.Proofs.Transmit.Answers
import MultidropBus.Proofs.Transmit.Session

/-!
# The way of a queued frame

A frame that a station has to say waits in the outbox until the master asks for it, then in the
transmit slot, and is then written byte by byte. Beside it the station answers pings and sends
frames that were never queued, and every call may come while the transmitter is busy.

An observer notes the requests that the outbox accepted, and every frame that appears in the slot
while the transmitter turns from idle to pending, with whether the call answered a request for the
oldest waiting frame. What was accepted is then at every moment what was taken so, followed by what
still waits (`Dispatch.Accounted`), and what was loaded is what a session of the transmit path
accepted, so the record holds it block by block.
-/

namespace MultidropBus

/-- A frame to be, as the outbox is asked to queue it. -/
structure Letter where
  destination : Address
  source : Address
  payload : Bytes
deriving DecidableEq, Repr

def Letter.encode (l : Letter) : Except FrameError Bytes :=
  Frame.encode l.destination l.source l.payload

inductive DispatchStep
  | enqueue (letter : Letter)
  /-- A frame that may be a poll is answered on behalf of an address. -/
  | answer (frame : Frame) (own : Address)
  | send (destination source : Address) (payload : Bytes)
  | sendFrame (frame : Bytes)
  | pump (event : TransmitEvent)
deriving DecidableEq, Repr

/-- A bench, and what an observer noted about its outbox and its slot. -/
structure Dispatch (size : RingSize) (depth : Nat) where
  bench : Bench size depth
  /-- What the outbox accepted, in order. -/
  queued : List Letter
  /-- The frames that were loaded into the slot, in order, each with whether it was asked for. -/
  loaded : List (Bool × Bytes)

/-! ### The bench -/

namespace Bench

variable {size : RingSize} {depth : Nat} {b b' : Bench size depth} {frame : Bytes}
  {event : TransmitEvent}

/-- What becomes of a frame that may be a poll: nothing, or a frame made up for the answer is
loaded, or the oldest waiting one is loaded and leaves the outbox. -/
inductive Answered (b : Bench size depth) (frame : Frame) (own : Address) :
    Result size depth (Except SendError (Option PollMessage)) → Prop
  | still (result : Except SendError (Option PollMessage)) : Answered b frame own (.ok (result, b))
  | pong {slot : TransmitSlot} {pong : Bytes} (hidle : b.station.transmit.phase = .idle)
    (hne : pong ≠ []) (hphase : slot.phase = .pending) (hholds : slot.Holds pong) :
    Answered b frame own (.ok (.ok (some .ping), b.load slot))
  | sent {slot : TransmitSlot} {oldest : Bytes} {rest : List Bytes}
    (hpoll : frame.destination = own ∧ frame.source = Address.master)
    (hidle : b.station.transmit.phase = .idle) (hfrom : b.outbox.frames = oldest :: rest)
    (hne : oldest ≠ []) (hphase : slot.phase = .pending) (hholds : slot.Holds oldest) :
    Answered b frame own (.ok (.ok (some .send), { b.load slot with outbox := ⟨rest⟩ }))

theorem answerPoll_answered (b : Bench size depth) (frame : Frame) (own : Address) :
    b.Answered frame own (b.answerPoll frame own) := by
  have hanswers := b.station.transmit.answerPoll_answers b.outbox frame own
  rw [answerPoll]
  generalize b.station.transmit.answerPoll b.outbox frame own = outcome at hanswers
  cases hanswers with
  | still result => exact .still _
  | pong _ hidle hne hphase hholds => exact .pong hidle hne hphase hholds
  | sent hreply hidle hfrom hne hphase hholds =>
    have hpoll := Outbox.isPoll_of_reply? hreply
    exact .sent ⟨hpoll.destination, hpoll.source⟩ hidle hfrom hne hphase hholds

theorem pump_outbox (h : b.pump event = .ok b') : b'.outbox = b.outbox := by
  obtain ⟨line, -, rfl⟩ := pump_ok h
  rfl

end Bench

theorem Outbox.enqueue_cases {depth : Nat} (o : Outbox depth) (destination source : Address)
    (payload : Bytes) :
    (∃ e, o.enqueue destination source payload = (.error e, o))
      ∨ ∃ frame, Frame.encode destination source payload = .ok frame
        ∧ o.enqueue destination source payload = (.ok (), ⟨o.frames ++ [frame]⟩) := by
  rw [enqueue]
  split
  · exact .inl ⟨_, rfl⟩
  · cases Frame.encode destination source payload with
    | error e => exact .inl ⟨_, rfl⟩
    | ok frame => exact .inr ⟨frame, rfl, rfl⟩

namespace Dispatch

variable {size : RingSize} {depth : Nat}

def phase (d : Dispatch size depth) : TransmitPhase := d.bench.station.transmit.phase

/-- The frames that were taken from the outbox, in order. -/
def taken (d : Dispatch size depth) : List Bytes := (d.loaded.filter Prod.fst).map Prod.snd

/-- The transmit path in the course of a session that accepted what was loaded. -/
def session (d : Dispatch size depth) : Session size depth :=
  ⟨d.bench, d.loaded.map Prod.snd⟩

/-- Whether a call answered a request for the oldest waiting frame. -/
def asked : Except SendError (Option PollMessage) → Bool
  | .ok (some .send) => true
  | _ => false

/-- Notes down what a call did to the slot. -/
def note (d : Dispatch size depth) (asked : Bool) (after : Bench size depth) :
    Dispatch size depth :=
  { d with
    bench := after
    loaded :=
      if d.phase = .idle ∧ after.station.transmit.phase = .pending then
        d.loaded ++ [(asked, after.station.transmit.slot.frame)]
      else d.loaded }

def step (d : Dispatch size depth) : DispatchStep → Except LogFull (Dispatch size depth)
  | .enqueue letter =>
    let done := d.bench.outbox.enqueue letter.destination letter.source letter.payload
    .ok { d with
      bench := { d.bench with outbox := done.2 }
      queued := if done.1.isOk then d.queued ++ [letter] else d.queued }
  | .answer frame own =>
    (d.bench.answerPoll frame own).map fun done => d.note (asked done.1) done.2
  | .send destination source payload =>
    (d.bench.transmit (·.send destination source payload)).map fun done => d.note false done.2
  | .sendFrame frame => (d.bench.transmit (·.sendFrame frame)).map fun done => d.note false done.2
  | .pump event => (d.bench.pump event).map (d.note false)

/-- The dispatch of a fresh station with an empty outbox, up to the first byte that the record
cannot hold. -/
def run (identity : Identity) (steps : List DispatchStep) :
    Except LogFull (Dispatch size depth) := do
  let b ← Bench.start identity
  steps.foldlM step ⟨b, [], []⟩

theorem run_snoc (identity : Identity) (steps : List DispatchStep) (s : DispatchStep) :
    (run identity (steps ++ [s]) : Except LogFull (Dispatch size depth))
      = (run identity steps).bind (·.step s) := by
  simp only [run, List.foldlM_append, List.foldlM_cons, List.foldlM_nil, bind_pure]
  rfl

variable {d d' : Dispatch size depth} {activeLow : Bool} {frame : Bytes} {s : DispatchStep}

/-! ### What is noted -/

/-- A call that leaves the phase as it is loads nothing. -/
theorem note_same {after : Bench size depth}
    (hphase : after.station.transmit.phase = d.phase) (asked : Bool) :
    d.note asked after = { d with bench := after } := by
  have hno : ¬ (d.phase = .idle ∧ after.station.transmit.phase = .pending) := by
    rintro ⟨hidle, hpending⟩
    rw [hphase, hidle] at hpending
    cases hpending
  rw [note, if_neg hno]

theorem note_loaded (hidle : d.phase = .idle) {slot : TransmitSlot}
    (hphase : slot.phase = .pending) (hholds : slot.Holds frame) (asked : Bool)
    (outbox : Outbox depth) :
    d.note asked { d.bench.load slot with outbox := outbox }
      = ⟨{ d.bench.load slot with outbox := outbox }, d.queued, d.loaded ++ [(asked, frame)]⟩ := by
  rw [note, if_pos ⟨hidle, hphase⟩]
  exact congrArg (fun bytes => (⟨_, _, d.loaded ++ [(asked, bytes)]⟩ : Dispatch size depth))
    hholds.frame_eq

/-- Only a loaded frame turns an idle transmitter to pending, no transmit event does. -/
theorem note_pump {event : TransmitEvent} {after : Bench size depth}
    (hpump : d.bench.pump event = .ok after) : d.note false after = { d with bench := after } := by
  by_cases hidle : d.phase = .idle
  · have hstray : event.fits d.bench.station.transmit.phase = false := by
      change event.fits d.phase = false
      rw [hidle]
      cases event <;> rfl
    rw [Bench.pump_stray hstray] at hpump
    cases hpump
    exact note_same rfl false
  · rw [note, if_neg fun hboth => hidle hboth.1]

/-! ### The invariant -/

/-- What the outbox accepted is what was taken from it and what still waits, each the encoding of
its letter. -/
def Accounted (d : Dispatch size depth) : Prop :=
  d.queued.map Letter.encode = (d.taken ++ d.bench.outbox.frames).map .ok

structure Sound (d : Dispatch size depth) (activeLow : Bool) : Prop where
  inStep : ∃ done, d.session.InStep activeLow done
  accounted : d.Accounted

/-- What one step may lead to: a sound dispatch again, or a refusal because the record is full. -/
def Leads (d : Dispatch size depth) (activeLow : Bool) :
    Except LogFull (Dispatch size depth) → Prop
  | .ok d' => d'.Sound activeLow
  | .error _ => recorderCapacity ≤ d.bench.line.written.length

theorem taken_loaded (b : Bench size depth) (queued : List Letter) (loaded : List (Bool × Bytes))
    (asked : Bool) :
    taken (⟨b, queued, loaded ++ [(asked, frame)]⟩ : Dispatch size depth)
      = (⟨b, queued, loaded⟩ : Dispatch size depth).taken ++ if asked then [frame] else [] := by
  cases asked <;> simp [taken]

/-! ### Steps -/

/-- Everything that a step can do: nothing, a letter is queued, a frame is loaded that the outbox
has nothing to do with, the oldest waiting frame is loaded and leaves the outbox, or the pump moves
on, which only a full record prevents. -/
inductive Becomes (d : Dispatch size depth) :
    DispatchStep → Except LogFull (Dispatch size depth) → Prop
  | same {s : DispatchStep} : Becomes d s (.ok d)
  | queued {letter : Letter} {frame : Bytes} (hencode : letter.encode = .ok frame)
    (haccepted : (d.bench.outbox.enqueue letter.destination letter.source letter.payload).1.isOk) :
    Becomes d (.enqueue letter) (.ok { d with
      bench := { d.bench with outbox := ⟨d.bench.outbox.frames ++ [frame]⟩ }
      queued := d.queued ++ [letter] })
  | loaded {s : DispatchStep} {slot : TransmitSlot} {frame : Bytes} (hidle : d.phase = .idle)
    (hne : frame ≠ []) (hphase : slot.phase = .pending) (hholds : slot.Holds frame) :
    Becomes d s (.ok ⟨d.bench.load slot, d.queued, d.loaded ++ [(false, frame)]⟩)
  | taken {poll : Frame} {own : Address} {slot : TransmitSlot} {oldest : Bytes} {rest : List Bytes}
    (hpoll : poll.destination = own ∧ poll.source = Address.master) (hidle : d.phase = .idle)
    (hfrom : d.bench.outbox.frames = oldest :: rest) (hne : oldest ≠ [])
    (hphase : slot.phase = .pending) (hholds : slot.Holds oldest) :
    Becomes d (.answer poll own) (.ok ⟨{ d.bench.load slot with outbox := ⟨rest⟩ }, d.queued,
      d.loaded ++ [(true, oldest)]⟩)
  | pumped {event : TransmitEvent} {after : Bench size depth}
    (hpump : d.bench.pump event = .ok after) :
    Becomes d (.pump event) (.ok { d with bench := after })
  | full {event : TransmitEvent} {e : LogFull} (hpump : d.bench.pump event = .error e) :
    Becomes d (.pump event) (.error e)

theorem enqueue_becomes (d : Dispatch size depth) (letter : Letter) :
    d.Becomes (.enqueue letter) (d.step (.enqueue letter)) := by
  rw [step]
  rcases Outbox.enqueue_cases d.bench.outbox letter.destination letter.source letter.payload with
    ⟨e, hrefused⟩ | ⟨encoded, hencode, haccepted⟩
  · rw [hrefused]
    exact .same
  · have hletter : letter.encode = .ok encoded := hencode
    simp only [haccepted]
    exact .queued hletter (by rw [haccepted]; rfl)

theorem offer_becomes {send : TransmitPath → SendOutcome}
    (hoffer : d.bench.station.transmit.Offer frame (send d.bench.station.transmit)) :
    d.Becomes s ((d.bench.transmit send).map fun done => d.note false done.2) := by
  rcases Bench.transmit_cases hoffer with ⟨e, hsame⟩ | ⟨hidle, hne, slot, hphase, hholds, hloaded⟩
  · rw [hsame]
    show d.Becomes s (.ok (d.note false d.bench))
    rw [note_same rfl]
    exact .same
  · rw [hloaded]
    show d.Becomes s (.ok (d.note false { d.bench.load slot with outbox := d.bench.outbox }))
    rw [note_loaded hidle hphase hholds]
    exact .loaded hidle hne hphase hholds

theorem answer_becomes (d : Dispatch size depth) (poll : Frame) (own : Address) :
    d.Becomes (.answer poll own) (d.step (.answer poll own)) := by
  have hanswered := d.bench.answerPoll_answered poll own
  rw [step]
  generalize d.bench.answerPoll poll own = outcome at hanswered
  cases hanswered with
  | still result =>
    show d.Becomes _ (.ok (d.note (asked result) d.bench))
    rw [note_same rfl]
    exact .same
  | @pong slot pong hidle hne hphase hholds =>
    show d.Becomes _ (.ok (d.note false { d.bench.load slot with outbox := d.bench.outbox }))
    rw [note_loaded hidle hphase hholds]
    exact .loaded hidle hne hphase hholds
  | @sent slot oldest rest hpoll hidle hfrom hne hphase hholds =>
    show d.Becomes _ (.ok (d.note true { d.bench.load slot with outbox := ⟨rest⟩ }))
    rw [note_loaded hidle hphase hholds]
    exact .taken hpoll hidle hfrom hne hphase hholds

theorem pump_becomes (d : Dispatch size depth) (event : TransmitEvent) :
    d.Becomes (.pump event) (d.step (.pump event)) := by
  rw [step]
  cases hpump : d.bench.pump event with
  | error e => exact .full hpump
  | ok after =>
    show d.Becomes _ (.ok (d.note false after))
    rw [note_pump hpump]
    exact .pumped hpump

theorem step_becomes (d : Dispatch size depth) (s : DispatchStep) : d.Becomes s (d.step s) := by
  cases s with
  | enqueue letter => exact d.enqueue_becomes letter
  | answer poll own => exact d.answer_becomes poll own
  | send destination source payload =>
    exact offer_becomes (TransmitPath.send_offer _ destination source payload)
  | sendFrame frame => exact offer_becomes (TransmitPath.sendFrame_offer _ frame)
  | pump event => exact d.pump_becomes event

/-- A loaded frame is one more that the session accepted. -/
theorem Sound.loaded (h : d.Sound activeLow) (hidle : d.phase = .idle) (hne : frame ≠ [])
    {slot : TransmitSlot} (hphase : slot.phase = .pending) (hholds : slot.Holds frame)
    (asked : Bool) :
    ∃ done, (⟨d.bench.load slot, d.queued, d.loaded ++ [(asked, frame)]⟩
      : Dispatch size depth).session.InStep activeLow done := by
  obtain ⟨done, hdone⟩ := h.inStep
  have hloaded := hdone.loaded hidle hne hphase hholds
  refine ⟨done, ?_⟩
  rw [session, List.map_append]
  exact hloaded

/-- What the pump does to the bench, it does to the session. -/
theorem Sound.pump (h : d.Sound activeLow) (event : TransmitEvent) :
    d.session.Leads activeLow ((d.bench.pump event).map fun b => ⟨b, d.loaded.map Prod.snd⟩) := by
  obtain ⟨done, hdone⟩ := h.inStep
  exact hdone.step (.pump event)

/-- **Every step keeps the account**, whatever is queued, asked for or sent in between. -/
theorem Sound.step (h : d.Sound activeLow) (s : DispatchStep) : d.Leads activeLow (d.step s) := by
  have hbecomes := d.step_becomes s
  generalize d.step s = outcome at hbecomes
  cases hbecomes with
  | same => exact h
  | @queued letter frame hencode _ =>
    obtain ⟨done, hdone⟩ := h.inStep
    refine ⟨⟨done, hdone.withOutbox _⟩, ?_⟩
    show (d.queued ++ [letter]).map Letter.encode
      = (d.taken ++ (d.bench.outbox.frames ++ [frame])).map .ok
    rw [List.map_append, h.accounted, List.map_singleton, hencode]
    simp only [List.map_append, List.map_singleton, List.append_assoc]
  | loaded hidle hne hphase hholds =>
    refine ⟨h.loaded hidle hne hphase hholds false, ?_⟩
    rw [Accounted, taken_loaded, if_neg Bool.false_ne_true, List.append_nil]
    exact h.accounted
  | taken _ hidle hfrom hne hphase hholds =>
    obtain ⟨done, hdone⟩ := h.loaded hidle hne hphase hholds true
    refine ⟨⟨done, hdone.withOutbox _⟩, ?_⟩
    rw [Accounted, taken_loaded, if_pos rfl, List.append_assoc, List.singleton_append]
    have haccounted := h.accounted
    rw [Accounted, hfrom] at haccounted
    exact haccounted
  | @pumped event after hpump =>
    have hleads := h.pump event
    rw [hpump] at hleads
    refine ⟨hleads.1, ?_⟩
    show d.queued.map Letter.encode = (d.taken ++ after.outbox.frames).map .ok
    rw [Bench.pump_outbox hpump]
    exact h.accounted
  | @full event e hpump =>
    have hleads := h.pump event
    rw [hpump] at hleads
    exact hleads

/-! ### Steps that touch no queued frame -/

/-- A refused letter, a poll that finds the transmitter busy or is none of this node's polls, and
everything that is not about the outbox. -/
def Spares (d : Dispatch size depth) : DispatchStep → Prop
  | .enqueue letter =>
    (d.bench.outbox.enqueue letter.destination letter.source letter.payload).1.isOk = false
  | .answer poll own =>
    d.phase ≠ .idle ∨ poll.destination ≠ own ∨ poll.source ≠ Address.master
  | _ => True

theorem spared (hspares : d.Spares s) (hstep : d.step s = .ok d') :
    d'.bench.outbox = d.bench.outbox ∧ d'.queued = d.queued ∧ d'.taken = d.taken := by
  have hbecomes := d.step_becomes s
  rw [hstep] at hbecomes
  cases hbecomes with
  | same => exact ⟨rfl, rfl, rfl⟩
  | queued _ haccepted =>
    rw [Spares, haccepted] at hspares
    cases hspares
  | loaded hidle hne hphase hholds =>
    refine ⟨rfl, rfl, ?_⟩
    rw [taken_loaded, if_neg Bool.false_ne_true, List.append_nil]
    rfl
  | taken hpoll hidle =>
    rcases hspares with hbusy | hown | hmaster
    · exact absurd hidle hbusy
    · exact absurd hpoll.1 hown
    · exact absurd hpoll.2 hmaster
  | pumped hpump => exact ⟨Bench.pump_outbox hpump, rfl, rfl⟩

/-! ### Whole runs -/

theorem run_nil (size : RingSize) (depth : Nat) (identity : Identity) :
    ∃ d : Dispatch size depth, run identity [] = .ok d ∧ d.Sound identity.driveActiveLow := by
  obtain ⟨t, hrun, h⟩ := Session.run_nil size depth identity
  cases hrun
  exact ⟨_, rfl, ⟨[], h⟩, rfl⟩

/-- Every run is sound, by induction on its steps, and ends early only when a byte finds the record
full. -/
theorem run_sound (identity : Identity) (steps : List DispatchStep) :
    (∀ d : Dispatch size depth, run identity steps = .ok d → d.Sound identity.driveActiveLow)
      ∧ ∀ e, (run identity steps : Except LogFull (Dispatch size depth)) = .error e →
        ∃ earlier, ∃ d : Dispatch size depth, earlier <+: steps ∧ run identity earlier = .ok d
          ∧ recorderCapacity ≤ d.bench.line.written.length := by
  induction steps using List.reverseRecOn with
  | nil =>
    obtain ⟨start, hstart, h⟩ := run_nil size depth identity
    rw [hstart]
    refine ⟨?_, fun e hrun => nomatch hrun⟩
    intro d hrun
    cases hrun
    exact h
  | append_singleton earlier s ih =>
    have hpre : earlier <+: earlier ++ [s] := List.prefix_append _ _
    rw [run_snoc]
    cases hearlier : (run identity earlier : Except LogFull (Dispatch size depth)) with
    | error e =>
      obtain ⟨first, d, hfirst, hrun⟩ := ih.2 e hearlier
      exact ⟨(fun _ hnone => nomatch hnone), fun _ _ => ⟨first, d, hfirst.trans hpre, hrun⟩⟩
    | ok before =>
      have hleads := (ih.1 before hearlier).step s
      change (∀ d, before.step s = .ok d → _) ∧ ∀ e, before.step s = .error e → _
      constructor
      · intro d hstep
        rw [hstep] at hleads
        exact hleads
      · intro e hstep
        rw [hstep] at hleads
        exact ⟨earlier, before, hpre, hearlier, hleads⟩

/-- **Queued frames are sent exactly once and in order.** What the outbox accepted is what was taken
from it and what still waits. Whatever was loaded, the record holds as whole blocks in the same
order, the last one as far as it has come, and whole once the transmitter is idle. No refused
letter, no busy transmitter and no foreign poll changes the queue, and only a full record ends a run
early. -/
theorem run_delivers (identity : Identity) (steps : List DispatchStep) :
    (∀ d : Dispatch size depth, run identity steps = .ok d →
      d.Accounted ∧ d.session.Conforms identity.driveActiveLow
        ∧ (d.phase = .idle →
          d.bench.line.written = d.loaded.flatMap fun entry => markFirst entry.2))
      ∧ (∀ (d d' : Dispatch size depth) (s : DispatchStep), run identity steps = .ok d →
        run identity (steps ++ [s]) = .ok d' → d.Spares s →
        d'.bench.outbox = d.bench.outbox ∧ d'.queued = d.queued ∧ d'.taken = d.taken)
      ∧ ∀ e, (run identity steps : Except LogFull (Dispatch size depth)) = .error e →
        ∃ earlier, ∃ d : Dispatch size depth, earlier <+: steps ∧ run identity earlier = .ok d
          ∧ recorderCapacity ≤ d.bench.line.written.length := by
  refine ⟨?_, ?_, ?_⟩
  · intro d hrun
    have hsound := (run_sound identity steps).1 d hrun
    obtain ⟨done, hdone⟩ := hsound.inStep
    refine ⟨hsound.accounted, hdone.conforms, fun hidle => ?_⟩
    have hwhole := hdone.conforms.whole (.inl hidle)
    rw [← List.flatMap_map]
    exact hwhole
  · intro d d' s hrun hrun' hspares
    rw [run_snoc, hrun] at hrun'
    exact spared hspares hrun'
  · exact (run_sound identity steps).2

/-- The events that take a loaded frame of `n` bytes over the line. -/
def wholeFrame (n : Nat) : List DispatchStep :=
  .pump .kick :: List.replicate n (.pump .bufferEmpty) ++ [.pump .complete]

/-- A frame with the word `send`, from a station to node 7. -/
def sendPoll (source : Address) : Frame := ⟨.announce 7 source 4, PollMessage.sendWord⟩

/-- A letter finds the only place taken. The other one is asked for by a stranger, by the master
while something else is under way, and at last by the master in time. -/
def crowdedSteps : List DispatchStep :=
  [.enqueue ⟨0, 7, []⟩, .enqueue ⟨0, 7, [1]⟩, .sendFrame [9], .answer (sendPoll Address.master) 7]
    ++ wholeFrame 1 ++ [.answer (sendPoll 3) 7, .answer (sendPoll Address.master) 7]
    ++ wholeFrame 6

theorem crowdedSteps_delivered :
    ∃ d : Dispatch ⟨3, by decide⟩ 1, run .busMaster crowdedSteps = .ok d ∧ d.Accounted
      ∧ d.queued = [⟨0, 7, []⟩] ∧ d.taken = [[0, 7, 6, 255, 0, 0]]
      ∧ d.bench.line.written = markFirst [9] ++ markFirst [0, 7, 6, 255, 0, 0] := by
  have hnoted : (run .busMaster crowdedSteps
      : Except LogFull (Dispatch ⟨3, by decide⟩ 1)).toOption.map
        (fun d => (d.phase, d.queued, d.loaded))
        = some (.idle, [⟨0, 7, []⟩], [(false, [9]), (true, [0, 7, 6, 255, 0, 0])]) := by
    decide +kernel
  cases hrun : (run .busMaster crowdedSteps : Except LogFull (Dispatch ⟨3, by decide⟩ 1)) with
  | error e =>
    rw [hrun] at hnoted
    cases hnoted
  | ok d =>
    rw [hrun] at hnoted
    have hnoted := Option.some.inj hnoted
    simp only [Prod.mk.injEq] at hnoted
    obtain ⟨hidle, hqueued, hloaded⟩ := hnoted
    obtain ⟨haccounted, -, hwritten⟩ := (run_delivers .busMaster crowdedSteps).1 d hrun
    refine ⟨d, rfl, haccounted, hqueued, ?_, ?_⟩
    · rw [taken, hloaded]
      rfl
    · rw [hwritten hidle, hloaded]
      rfl

end Dispatch

end MultidropBus
