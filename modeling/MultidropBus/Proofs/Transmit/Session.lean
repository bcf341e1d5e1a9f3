import Mathlib.Data.List.Induction
import MultidropBus.Proofs.Transmit.Moves

/-!
# Sessions of the transmit path

In a session frames are offered and transmit events come in, in any order, from the moment a fresh
station is started on an empty record. The session keeps the frames that were accepted. What keeps
slot, pump, line, interrupts and counters in step is `Session.InStep`: the frames that are fully
out, and how far the one in the slot has come (`Session.Progress`). It is preserved by each step,
and what the record says of the frames accepted so far follows from it (`Session.Conforms`).
-/

namespace MultidropBus

inductive TransmitStep
  /-- A payload is offered to be encoded and sent. -/
  | send (destination source : Address) (payload : Bytes)
  /-- An encoded frame is offered. -/
  | sendFrame (frame : Bytes)
  | pump (event : TransmitEvent)
deriving DecidableEq, Repr

structure Session (size : RingSize) (depth : Nat) where
  bench : Bench size depth
  /-- The frames that were accepted, in order. -/
  accepted : List Bytes

namespace Session

variable {size : RingSize} {depth : Nat}

def path (t : Session size depth) : TransmitPath := t.bench.station.transmit

def phase (t : Session size depth) : TransmitPhase := t.path.phase

/-- What was written since the start, each byte with its address mark. -/
def written (t : Session size depth) : List (UInt8 × Bool) := t.bench.line.written

def offer (t : Session size depth) (frame : Bytes) (send : TransmitPath → SendOutcome) :
    Except LogFull (Session size depth) :=
  (t.bench.transmit send).map fun done =>
    match done.1 with
    | .ok () => ⟨done.2, t.accepted ++ [frame]⟩
    | .error _ => ⟨done.2, t.accepted⟩

def step (t : Session size depth) : TransmitStep → Except LogFull (Session size depth)
  | .send destination source payload =>
    t.offer (Frame.wire destination source payload) (·.send destination source payload)
  | .sendFrame frame => t.offer frame (·.sendFrame frame)
  | .pump event => (t.bench.pump event).map fun b => ⟨b, t.accepted⟩

/-- The session of a fresh station, up to the first byte that the record cannot hold. -/
def run (identity : Identity) (steps : List TransmitStep) :
    Except LogFull (Session size depth) := do
  let b ← Bench.start identity
  steps.foldlM step ⟨b, []⟩

theorem run_snoc (identity : Identity) (steps : List TransmitStep) (s : TransmitStep) :
    (run identity (steps ++ [s]) : Except LogFull (Session size depth))
      = (run identity steps).bind (·.step s) := by
  simp only [run, List.foldlM_append, List.foldlM_cons, List.foldlM_nil, bind_pure]
  rfl

/-! ### The invariant -/

/-- Where the pump is: the frames in `done` are fully out, and the one accepted after them, if any,
waits in the slot, has been written in part, or has been written in whole. -/
inductive Progress (t : Session size depth) (done : List Bytes) : Prop
  | idle (hphase : t.phase = .idle) (haccepted : t.accepted = done)
      (hwritten : t.written = done.flatMap markFirst)
  | pending {frame : Bytes} (hphase : t.phase = .pending) (hne : frame ≠ [])
      (hholds : t.path.slot.Holds frame) (haccepted : t.accepted = done ++ [frame])
      (hwritten : t.written = done.flatMap markFirst)
  | sending {frame : Bytes} (hphase : t.phase = .sending) (hpos : 0 < t.path.cursor)
      (hle : t.path.cursor ≤ frame.length) (hholds : t.path.slot.Holds frame)
      (haccepted : t.accepted = done ++ [frame])
      (hwritten : t.written = done.flatMap markFirst ++ (markFirst frame).take t.path.cursor)
  | draining {frame : Bytes} (hphase : t.phase = .draining)
      (haccepted : t.accepted = done ++ [frame])
      (hwritten : t.written = (done ++ [frame]).flatMap markFirst)

/-- The line, the interrupts and the counters are as the phase and the frames demand. -/
structure InStep (t : Session size depth) (activeLow : Bool) (done : List Bytes) : Prop where
  progress : t.Progress done
  polarity : t.path.activeLow = activeLow
  driving : t.bench.line.isDriving activeLow = decide (t.phase = .sending ∨ t.phase = .draining)
  bufferEmpty : t.bench.line.listensBufferEmpty = decide (t.phase = .sending)
  complete : t.bench.line.listensComplete = decide (t.phase = .draining)
  unmarked : t.bench.line.nextIsAddress = false
  requests : t.bench.line.requests = t.accepted.length
  sent : t.path.sent = done.length

theorem isDriving_asserted (r : LineRecorder) (activeLow : Bool)
    (h : r.driveHigh = DriverEnable.assertedLevel activeLow) : r.isDriving activeLow = true := by
  rw [LineRecorder.isDriving, DriverEnable.isAsserted, h]
  cases activeLow <;> rfl

theorem isDriving_released (r : LineRecorder) (activeLow : Bool)
    (h : r.driveHigh = DriverEnable.releasedLevel activeLow) : r.isDriving activeLow = false := by
  rw [LineRecorder.isDriving, DriverEnable.isAsserted, h]
  cases activeLow <;> rfl

/-- A started station drives nothing, listens to nothing and has written nothing. -/
theorem run_nil (size : RingSize) (depth : Nat) (identity : Identity) :
    ∃ t : Session size depth, run identity [] = .ok t ∧ t.InStep identity.driveActiveLow [] := by
  refine ⟨_, rfl, .idle rfl rfl rfl, rfl, ?_, rfl, rfl, rfl, rfl, rfl⟩
  exact isDriving_released _ _ rfl

variable {t : Session size depth} {activeLow : Bool} {done : List Bytes} {frame : Bytes}
  {event : TransmitEvent}

/-! ### Offers -/

/-- The session once a frame waits in the slot. -/
def loaded (t : Session size depth) (slot : TransmitSlot) (frame : Bytes) : Session size depth where
  bench := { t.bench with
    station := { t.bench.station with transmit := { t.path with slot := slot } }
    line := { t.bench.line with requests := t.bench.line.requests + 1 } }
  accepted := t.accepted ++ [frame]

theorem offer_cases {send : TransmitPath → SendOutcome} (h : t.path.Offer frame (send t.path)) :
    t.offer frame send = .ok t
      ∨ t.phase = .idle ∧ frame ≠ [] ∧ ∃ slot : TransmitSlot, slot.phase = .pending
        ∧ slot.Holds frame ∧ t.offer frame send = .ok (t.loaded slot frame) := by
  rw [offer]
  rcases Bench.transmit_cases h with ⟨e, hsame⟩ | ⟨hidle, hne, slot, hphase, hholds, hloaded⟩
  · rw [hsame]
    exact .inl rfl
  · rw [hloaded]
    exact .inr ⟨hidle, hne, slot, hphase, hholds, rfl⟩

theorem InStep.loaded (h : t.InStep activeLow done) (hidle : t.phase = .idle) (hne : frame ≠ [])
    {slot : TransmitSlot} (hphase : slot.phase = .pending) (hholds : slot.Holds frame) :
    (t.loaded slot frame).InStep activeLow done := by
  have hpending : (t.loaded slot frame).phase = .pending := hphase
  obtain ⟨haccepted, hwritten⟩ : t.accepted = done ∧ t.written = done.flatMap markFirst := by
    cases h.progress with
    | idle _ haccepted hwritten => exact ⟨haccepted, hwritten⟩
    | pending hother => rw [hidle] at hother; cases hother
    | sending hother => rw [hidle] at hother; cases hother
    | draining hother => rw [hidle] at hother; cases hother
  refine ⟨.pending hphase hne hholds ?_ hwritten, h.polarity, ?_, ?_, ?_, h.unmarked, ?_, h.sent⟩
  · exact congrArg (· ++ [frame]) haccepted
  · rw [hpending]
    exact h.driving.trans (by rw [hidle]; rfl)
  · rw [hpending]
    exact h.bufferEmpty.trans (by rw [hidle]; rfl)
  · rw [hpending]
    exact h.complete.trans (by rw [hidle]; rfl)
  · show t.bench.line.requests + 1 = (t.accepted ++ [frame]).length
    rw [h.requests, List.length_append]
    rfl

/-- A session looks at no outbox. -/
theorem InStep.withOutbox (h : t.InStep activeLow done) (outbox : Outbox depth) :
    InStep ⟨{ t.bench with outbox := outbox }, t.accepted⟩ activeLow done where
  progress := by
    cases h.progress with
    | idle hphase haccepted hwritten => exact .idle hphase haccepted hwritten
    | pending hphase hne hholds haccepted hwritten =>
      exact .pending hphase hne hholds haccepted hwritten
    | sending hphase hpos hle hholds haccepted hwritten =>
      exact .sending hphase hpos hle hholds haccepted hwritten
    | draining hphase haccepted hwritten => exact .draining hphase haccepted hwritten
  polarity := h.polarity
  driving := h.driving
  bufferEmpty := h.bufferEmpty
  complete := h.complete
  unmarked := h.unmarked
  requests := h.requests
  sent := h.sent

/-! ### Transmit events -/

theorem InStep.started (h : t.InStep activeLow done) {first : UInt8} {rest : Bytes}
    (hholds : t.path.slot.Holds (first :: rest)) (haccepted : t.accepted = done ++ [first :: rest])
    (hwritten : t.written = done.flatMap markFirst) (hphase : t.phase = .pending) :
    InStep ⟨t.bench.startFrame first, t.accepted⟩ activeLow done := by
  refine ⟨.sending rfl Nat.one_pos ?_ hholds haccepted ?_, h.polarity, ?_, rfl, ?_, rfl, h.requests,
    h.sent⟩
  · exact Nat.le_add_left 1 rest.length
  · show t.written ++ [(first, true)] = _
    rw [hwritten]
    rfl
  · exact isDriving_asserted _ _ (congrArg DriverEnable.assertedLevel h.polarity)
  · exact h.complete.trans (by rw [hphase]; rfl)

theorem InStep.wrote (h : t.InStep activeLow done) {byte : UInt8} (hpos : 0 < t.path.cursor)
    (hbyte : frame[t.path.cursor]? = some byte) (hholds : t.path.slot.Holds frame)
    (haccepted : t.accepted = done ++ [frame])
    (hwritten : t.written = done.flatMap markFirst ++ (markFirst frame).take t.path.cursor)
    (hphase : t.phase = .sending) :
    InStep ⟨t.bench.writeNext byte, t.accepted⟩ activeLow done := by
  have hlt : t.path.cursor < frame.length := (List.getElem?_eq_some_iff.1 hbyte).1
  refine ⟨.sending hphase (Nat.succ_pos _) hlt hholds haccepted ?_, h.polarity, h.driving,
    h.bufferEmpty, h.complete, rfl, h.requests, h.sent⟩
  show t.written ++ [(byte, t.bench.line.nextIsAddress)]
    = done.flatMap markFirst ++ (markFirst frame).take (t.path.cursor + 1)
  rw [hwritten, h.unmarked, markFirst_take_succ hpos hbyte, List.append_assoc]

theorem InStep.turned (h : t.InStep activeLow done) (hend : t.path.cursor = frame.length)
    (haccepted : t.accepted = done ++ [frame])
    (hwritten : t.written = done.flatMap markFirst ++ (markFirst frame).take t.path.cursor)
    (hphase : t.phase = .sending) : InStep ⟨t.bench.awaitEnd, t.accepted⟩ activeLow done := by
  refine ⟨.draining rfl haccepted ?_, h.polarity, ?_, rfl, rfl, h.unmarked, h.requests, h.sent⟩
  · show t.written = _
    rw [hwritten, hend, ← markFirst_length, List.take_length, List.flatMap_append,
      List.flatMap_singleton]
  · exact h.driving.trans (by rw [hphase]; rfl)

theorem InStep.finished (h : t.InStep activeLow done) (haccepted : t.accepted = done ++ [frame])
    (hwritten : t.written = (done ++ [frame]).flatMap markFirst) (hphase : t.phase = .draining) :
    InStep ⟨t.bench.endFrame, t.accepted⟩ activeLow (done ++ [frame]) := by
  refine ⟨.idle rfl haccepted hwritten, h.polarity, ?_, ?_, rfl, h.unmarked, h.requests, ?_⟩
  · exact isDriving_released _ _ (congrArg DriverEnable.releasedLevel h.polarity)
  · exact h.bufferEmpty.trans (by rw [hphase]; rfl)
  · show t.path.sent + 1 = (done ++ [frame]).length
    rw [h.sent, List.length_append]
    rfl

/-- What one step may lead to: a session in step again, with at most one byte more on the record, or
a refusal because the record is full. -/
def Leads (t : Session size depth) (activeLow : Bool) :
    Except LogFull (Session size depth) → Prop
  | .ok t' => (∃ done, t'.InStep activeLow done)
    ∧ ∃ new, t'.written = t.written ++ new ∧ new.length ≤ 1
  | .error _ => recorderCapacity ≤ t.written.length

theorem Leads.same (h : t.InStep activeLow done) : t.Leads activeLow (.ok t) :=
  ⟨⟨done, h⟩, [], (List.append_nil _).symm, Nat.zero_le _⟩

theorem InStep.offer (h : t.InStep activeLow done) {send : TransmitPath → SendOutcome}
    (hoffer : t.path.Offer frame (send t.path)) : t.Leads activeLow (t.offer frame send) := by
  rcases offer_cases hoffer with hsame | ⟨hidle, hne, slot, hphase, hholds, hloaded⟩
  · rw [hsame]
    exact .same h
  · rw [hloaded]
    exact ⟨⟨done, h.loaded hidle hne hphase hholds⟩, [], (List.append_nil _).symm, Nat.zero_le _⟩

theorem InStep.start (h : t.InStep activeLow done) (hphase : t.phase = .pending) (hne : frame ≠ [])
    (hholds : t.path.slot.Holds frame) (haccepted : t.accepted = done ++ [frame])
    (hwritten : t.written = done.flatMap markFirst) (hevent : event ≠ .complete) :
    t.Leads activeLow (t.step (.pump event)) := by
  cases frame with
  | nil => exact absurd rfl hne
  | cons first rest =>
    rw [step, Bench.pump_start hphase hevent (hholds 0)]
    by_cases hroom : t.bench.line.written.length < recorderCapacity
    · rw [if_pos hroom]
      exact ⟨⟨done, h.started hholds haccepted hwritten hphase⟩, [(first, true)], rfl,
        Nat.le_refl 1⟩
    · rw [if_neg hroom]
      exact Nat.le_of_not_lt hroom

theorem InStep.next (h : t.InStep activeLow done) (hphase : t.phase = .sending)
    (hpos : 0 < t.path.cursor) (hle : t.path.cursor ≤ frame.length)
    (hholds : t.path.slot.Holds frame) (haccepted : t.accepted = done ++ [frame])
    (hwritten : t.written = done.flatMap markFirst ++ (markFirst frame).take t.path.cursor) :
    t.Leads activeLow (t.step (.pump .bufferEmpty)) := by
  have hslot := hholds t.path.cursor
  rw [step]
  cases hbyte : frame[t.path.cursor]? with
  | none =>
    have hend : t.path.cursor = frame.length :=
      Nat.le_antisymm hle (List.getElem?_eq_none_iff.1 hbyte)
    rw [Bench.pump_turn hphase (hslot.trans hbyte)]
    exact ⟨⟨done, h.turned hend haccepted hwritten hphase⟩, [], (List.append_nil _).symm,
      Nat.zero_le _⟩
  | some byte =>
    rw [Bench.pump_next hphase (hslot.trans hbyte)]
    by_cases hroom : t.bench.line.written.length < recorderCapacity
    · rw [if_pos hroom]
      exact ⟨⟨done, h.wrote hpos hbyte hholds haccepted hwritten hphase⟩, _, rfl, Nat.le_refl 1⟩
    · rw [if_neg hroom]
      exact Nat.le_of_not_lt hroom

theorem InStep.finish (h : t.InStep activeLow done) (hphase : t.phase = .draining)
    (haccepted : t.accepted = done ++ [frame])
    (hwritten : t.written = (done ++ [frame]).flatMap markFirst) :
    t.Leads activeLow (t.step (.pump .complete)) := by
  rw [step, Bench.pump_finish hphase]
  exact ⟨⟨_, h.finished haccepted hwritten hphase⟩, [], (List.append_nil _).symm, Nat.zero_le _⟩

theorem InStep.stray (h : t.InStep activeLow done) (hstray : event.fits t.phase = false) :
    t.Leads activeLow (t.step (.pump event)) := by
  rw [step, Bench.pump_stray hstray]
  exact .same h

/-- **Every step keeps the session in step**, whatever the phase and whatever is offered. -/
theorem InStep.step (h : t.InStep activeLow done) (s : TransmitStep) :
    t.Leads activeLow (t.step s) := by
  cases s with
  | send destination source payload => exact h.offer (t.path.send_offer destination source payload)
  | sendFrame frame => exact h.offer (t.path.sendFrame_offer frame)
  | pump event =>
    cases h.progress with
    | idle hphase => exact h.stray (by rw [hphase]; cases event <;> rfl)
    | pending hphase hne hholds haccepted hwritten =>
      by_cases hevent : event = .complete
      · exact h.stray (by rw [hphase, hevent]; rfl)
      · exact h.start hphase hne hholds haccepted hwritten hevent
    | sending hphase hpos hle hholds haccepted hwritten =>
      cases event with
      | bufferEmpty => exact h.next hphase hpos hle hholds haccepted hwritten
      | complete => exact h.stray (by rw [hphase]; rfl)
      | kick => exact h.stray (by rw [hphase]; rfl)
    | draining hphase haccepted hwritten =>
      cases event with
      | bufferEmpty => exact h.stray (by rw [hphase]; rfl)
      | complete => exact h.finish hphase haccepted hwritten
      | kick => exact h.stray (by rw [hphase]; rfl)

/-! ### Whole sessions -/

/-- **Every session is in step**, by induction on its steps. -/
theorem run_inStep (identity : Identity) (steps : List TransmitStep) {t : Session size depth}
    (hrun : run identity steps = .ok t) : ∃ done, t.InStep identity.driveActiveLow done := by
  induction steps using List.reverseRecOn generalizing t with
  | nil =>
    obtain ⟨start, hstart, h⟩ := run_nil size depth identity
    rw [hstart] at hrun
    cases hrun
    exact ⟨[], h⟩
  | append_singleton earlier s ih =>
    rw [run_snoc] at hrun
    cases hearlier : (run identity earlier : Except LogFull (Session size depth)) with
    | error e => rw [hearlier] at hrun; cases hrun
    | ok before =>
      rw [hearlier] at hrun
      obtain ⟨done, h⟩ := ih hearlier
      have hleads := h.step s
      change before.step s = .ok t at hrun
      rw [hrun] at hleads
      exact hleads.1

/-- What the record says of the frames accepted so far: all but the last are written whole, the last
one up to some byte, each with the mark on its first byte only. The line is driven and the
interrupts are listened to as the phase demands, and requests and sent frames are counted one by
one. -/
structure Conforms (t : Session size depth) (activeLow : Bool) : Prop where
  written : ∃ started, started <+: markFirst (t.accepted.getLast?.getD [])
    ∧ t.written = t.accepted.dropLast.flatMap markFirst ++ started
  whole : t.phase = .idle ∨ t.phase = .draining → t.written = t.accepted.flatMap markFirst
  driving : t.bench.line.isDriving activeLow = true ↔ t.phase = .sending ∨ t.phase = .draining
  bufferEmpty : t.bench.line.listensBufferEmpty = true ↔ t.phase = .sending
  complete : t.bench.line.listensComplete = true ↔ t.phase = .draining
  requests : t.bench.line.requests = t.accepted.length
  sent_idle : t.phase = .idle → t.path.sent = t.accepted.length
  sent_busy : t.phase ≠ .idle → t.path.sent + 1 = t.accepted.length

theorem flatMap_markFirst_dropLast (frames : List Bytes) :
    frames.flatMap markFirst
      = frames.dropLast.flatMap markFirst ++ markFirst (frames.getLast?.getD []) := by
  induction frames using List.reverseRecOn with
  | nil => rfl
  | append_singleton frames last _ => simp

theorem InStep.conforms (h : t.InStep activeLow done) : t.Conforms activeLow where
  written := by
    cases h.progress with
    | idle _ haccepted hwritten =>
      refine ⟨_, List.prefix_refl _, ?_⟩
      rw [hwritten, haccepted, ← flatMap_markFirst_dropLast]
    | pending _ _ _ haccepted hwritten =>
      refine ⟨[], List.nil_prefix, ?_⟩
      rw [hwritten, haccepted, List.dropLast_concat, List.append_nil]
    | sending _ _ _ _ haccepted hwritten =>
      refine ⟨_, ?_, by rw [hwritten, haccepted, List.dropLast_concat]⟩
      rw [haccepted, List.getLast?_concat]
      exact List.take_prefix _ _
    | draining _ haccepted hwritten =>
      refine ⟨_, List.prefix_refl _, ?_⟩
      rw [hwritten, haccepted, ← flatMap_markFirst_dropLast]
  whole := by
    cases h.progress with
    | idle _ haccepted hwritten => exact fun _ => haccepted ▸ hwritten
    | pending hphase => rw [hphase]; exact fun hother => by simp at hother
    | sending hphase => rw [hphase]; exact fun hother => by simp at hother
    | draining _ haccepted hwritten => exact fun _ => haccepted ▸ hwritten
  driving := by rw [h.driving, decide_eq_true_iff]
  bufferEmpty := by rw [h.bufferEmpty, decide_eq_true_iff]
  complete := by rw [h.complete, decide_eq_true_iff]
  requests := h.requests
  sent_idle := by
    intro hidle
    cases h.progress with
    | idle _ haccepted => rw [h.sent, haccepted]
    | pending hphase => rw [hidle] at hphase; cases hphase
    | sending hphase => rw [hidle] at hphase; cases hphase
    | draining hphase => rw [hidle] at hphase; cases hphase
  sent_busy := by
    intro hbusy
    cases h.progress with
    | idle hphase => exact absurd hphase hbusy
    | pending _ _ _ haccepted => rw [h.sent, haccepted, List.length_append]; rfl
    | sending _ _ _ _ haccepted => rw [h.sent, haccepted, List.length_append]; rfl
    | draining _ haccepted => rw [h.sent, haccepted, List.length_append]; rfl

/-- A session ends early only when a byte finds the record full. -/
theorem run_error (identity : Identity) (steps : List TransmitStep) {e : LogFull}
    (hrun : (run identity steps : Except LogFull (Session size depth)) = .error e) :
    ∃ earlier, ∃ t : Session size depth, earlier <+: steps ∧ run identity earlier = .ok t
      ∧ recorderCapacity ≤ t.written.length := by
  induction steps using List.reverseRecOn with
  | nil =>
    obtain ⟨start, hstart, -⟩ := run_nil size depth identity
    rw [hstart] at hrun
    cases hrun
  | append_singleton earlier s ih =>
    have hpre : earlier <+: earlier ++ [s] := List.prefix_append _ _
    cases hearlier : (run identity earlier : Except LogFull (Session size depth)) with
    | error e' =>
      rw [run_snoc, hearlier] at hrun
      cases hrun
      obtain ⟨first, t, hfirst, h⟩ := ih hearlier
      exact ⟨first, t, hfirst.trans hpre, h⟩
    | ok t =>
      obtain ⟨done, h⟩ := run_inStep identity earlier hearlier
      have hleads := h.step s
      rw [run_snoc, hearlier] at hrun
      change t.step s = .error e at hrun
      rw [hrun] at hleads
      exact ⟨earlier, t, hpre, hearlier, hleads⟩

/-- **A session conforms to what was accepted**, at every moment and in either polarity. No transmit
event writes more than one byte, and only a full record ends a session early. -/
theorem run_conforms (identity : Identity) (steps : List TransmitStep) :
    (∀ t : Session size depth, run identity steps = .ok t → t.Conforms identity.driveActiveLow)
      ∧ (∀ (t t' : Session size depth) (event : TransmitEvent), run identity steps = .ok t →
        run identity (steps ++ [.pump event]) = .ok t' →
        ∃ new, t'.written = t.written ++ new ∧ new.length ≤ 1)
      ∧ ∀ e, (run identity steps : Except LogFull (Session size depth)) = .error e →
        ∃ earlier, ∃ t : Session size depth, earlier <+: steps ∧ run identity earlier = .ok t
          ∧ recorderCapacity ≤ t.written.length := by
  refine ⟨?_, ?_, fun e hrun => run_error identity steps hrun⟩
  · intro t hrun
    obtain ⟨done, h⟩ := run_inStep identity steps hrun
    exact h.conforms
  · intro t t' event hrun hrun'
    obtain ⟨done, h⟩ := run_inStep identity steps hrun
    have hleads := h.step (.pump event)
    rw [run_snoc, hrun] at hrun'
    change t.step (.pump event) = .ok t' at hrun'
    rw [hrun'] at hleads
    exact hleads.2

/-- A frame of three bytes and a shorter one behind it, with an offer that comes too early and two
events that do not fit. -/
def busySteps : List TransmitStep :=
  [.sendFrame [9, 8, 7], .pump .kick, .send 5 1 [], .pump .complete, .pump .bufferEmpty,
    .pump .bufferEmpty, .pump .bufferEmpty, .pump .kick, .pump .complete, .sendFrame [4],
    .pump .bufferEmpty, .pump .bufferEmpty]

theorem busySteps_written :
    ∃ t : Session ⟨3, by decide⟩ defaultOutboxDepth, run .busMaster busySteps = .ok t
      ∧ t.Conforms false ∧ t.written = [(9, true), (8, false), (7, false), (4, true)] := by
  have hwritten : (run .busMaster busySteps
      : Except LogFull (Session ⟨3, by decide⟩ defaultOutboxDepth)).toOption.map written
        = some [(9, true), (8, false), (7, false), (4, true)] := by decide +kernel
  cases hrun : (run .busMaster busySteps
      : Except LogFull (Session ⟨3, by decide⟩ defaultOutboxDepth)) with
  | error e =>
    rw [hrun] at hwritten
    cases hwritten
  | ok t =>
    rw [hrun] at hwritten
    exact ⟨t, rfl, (run_conforms .busMaster busySteps).1 t hrun, Option.some.inj hwritten⟩

end Session

end MultidropBus
