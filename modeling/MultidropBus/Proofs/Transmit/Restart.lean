import Mathlib.Data.List.Infix
import MultidropBus.Proofs.Transmit.Session

/-!
# Restarts of the transmit path

The handles of a station can be dropped and handed out anew at any time. The slot with its phase and
the count of sent frames outlive them, while the pump begins with its cursor at zero and the line
released. A frame that waits or drains does not notice, so a session whose restarts all come
outside of a frame writes what the same session writes without them (`Session.Agrees`).

In the middle of a frame a restart does harm: the phase still says that the frame is being sent, so
the pump writes it from its first byte again, on the released line and without the address mark, and
then counts it as sent (`Session.tornSteps_written`).
-/

namespace MultidropBus

inductive RenewalStep
  | step (s : TransmitStep)
  /-- All handles are dropped, and new ones are handed out for the same identity. -/
  | restart
deriving DecidableEq, Repr

def RenewalStep.step? : RenewalStep → Option TransmitStep
  | .step s => some s
  | .restart => none

namespace TransmitPath

/-- What becomes of an encoded frame depends on the slot only. -/
theorem sendFrame_of_slot {p q : TransmitPath} (h : p.slot = q.slot) (frame : Bytes) :
    p.sendFrame frame
      = { q.sendFrame frame with path := { p with slot := (q.sendFrame frame).path.slot } } := by
  rw [sendFrame, sendFrame, h]
  cases q.slot.load frame with
  | mk result slot => cases result <;> rfl

theorem send_of_slot {p q : TransmitPath} (h : p.slot = q.slot) (destination source : Address)
    (payload : Bytes) :
    p.send destination source payload
      = { q.send destination source payload with
          path := { p with slot := (q.send destination source payload).path.slot } } := by
  have hbusy : p.isTransmitting = q.isTransmitting := by
    rw [isTransmitting, isTransmitting, phase, phase, h]
  have hself : { p with slot := q.slot } = p := by rw [← h]
  rw [send, send, hbusy]
  split
  · rw [hself]
  · split
    · exact sendFrame_of_slot h _
    · rw [hself]

end TransmitPath

def TransmitAction.isWrite : TransmitAction → Bool
  | .write _ => true
  | _ => false

/-- Every byte among the actions, up to the first refusal, is written while the pin stands at the
driving level. -/
def LineRecorder.writesDriven (activeLow : Bool) : LineRecorder → List TransmitAction → Bool
  | _, [] => true
  | r, action :: rest =>
    (!action.isWrite || r.isDriving activeLow)
      && (r.perform action).toOption.all fun r => r.writesDriven activeLow rest

/-- The pump writes only after it drives the line, or in the middle of a frame. -/
theorem TransmitPath.pump_writesDriven (p : TransmitPath) (event : TransmitEvent)
    {r : LineRecorder} (hsending : p.phase = .sending → r.isDriving p.activeLow = true) :
    r.writesDriven p.activeLow (p.pump event).2 = true := by
  generalize houtcome : p.pump event = outcome
  have hpumped := p.pump_pumped event
  rw [houtcome] at hpumped
  cases hpumped with
  | stray => rfl
  | void => rfl
  | started =>
    have hdriving := Session.isDriving_asserted
      { r.drive (DriverEnable.assertedLevel p.activeLow) with nextIsAddress := true } p.activeLow
      rfl
    simp [LineRecorder.writesDriven, TransmitAction.isWrite, LineRecorder.perform, hdriving,
      Except.toOption]
  | wrote hphase =>
    simp [LineRecorder.writesDriven, hsending hphase]
  | turned => rfl
  | finished => rfl

namespace Session

variable {size : RingSize} {depth : Nat}

def restart (t : Session size depth) (identity : Identity) : Except LogFull (Session size depth) :=
  (t.bench.restart identity).map fun b => ⟨b, t.accepted⟩

def renew (identity : Identity) (t : Session size depth) :
    RenewalStep → Except LogFull (Session size depth)
  | .step s => t.step s
  | .restart => t.restart identity

/-- The session of a fresh station, with restarts, up to the first byte that the record cannot
hold. -/
def runRenewed (identity : Identity) (steps : List RenewalStep) :
    Except LogFull (Session size depth) := do
  let b ← Bench.start identity
  steps.foldlM (renew identity) ⟨b, []⟩

/-- No restart comes in the middle of a frame. -/
def Undisturbed (size : RingSize) (depth : Nat) (identity : Identity) (steps : List RenewalStep) :
    Prop :=
  ∀ earlier, earlier ++ [.restart] <+: steps →
    ((runRenewed identity earlier : Except LogFull (Session size depth)).toOption.map phase)
      ≠ some .sending

instance {identity : Identity} {steps : List RenewalStep} :
    Decidable (Undisturbed size depth identity steps) :=
  decidable_of_iff (∀ earlier ∈ steps.inits, earlier ++ [.restart] <+: steps →
      ((runRenewed identity earlier : Except LogFull (Session size depth)).toOption.map phase)
        ≠ some .sending) <| by
    simp only [Undisturbed, List.mem_inits]
    exact ⟨fun h earlier hrestart => h earlier ((List.prefix_append _ _).trans hrestart) hrestart,
      fun h earlier _ => h earlier⟩

theorem runRenewed_snoc (identity : Identity) (steps : List RenewalStep) (s : RenewalStep) :
    (runRenewed identity (steps ++ [s]) : Except LogFull (Session size depth))
      = (runRenewed identity steps).bind (·.renew identity s) := by
  simp only [runRenewed, List.foldlM_append, List.foldlM_cons, List.foldlM_nil, bind_pure]
  rfl

/-- The session after a restart. -/
def restarted (t : Session size depth) (identity : Identity) : Session size depth where
  bench := { t.bench with
    station := ⟨t.bench.station.receive.restart identity,
      ⟨t.path.slot, 0, identity.driveActiveLow, t.path.sent⟩⟩
    line := t.bench.line.drive (DriverEnable.releasedLevel identity.driveActiveLow) }
  accepted := t.accepted

theorem restart_eq (t : Session size depth) (identity : Identity) :
    t.restart identity = .ok (t.restarted identity) := rfl

/-! ### Agreement -/

/-- Two sessions with the same frames, slot and record. In the middle of a frame they also agree on
cursor and line, and outside of frames neither counts. -/
structure Agrees (t v : Session size depth) : Prop where
  accepted : t.accepted = v.accepted
  slot : t.path.slot = v.path.slot
  sent : t.path.sent = v.path.sent
  activeLow : t.path.activeLow = v.path.activeLow
  written : t.written = v.written
  nextIsAddress : t.bench.line.nextIsAddress = v.bench.line.nextIsAddress
  cursor : t.phase = .sending → t.path.cursor = v.path.cursor
  driveHigh : t.phase = .sending → t.bench.line.driveHigh = v.bench.line.driveHigh

variable {t t' v : Session size depth} {identity : Identity} {activeLow : Bool} {done : List Bytes}
  {frame : Bytes} {event : TransmitEvent}

theorem Agrees.phase_eq (h : t.Agrees v) : t.phase = v.phase :=
  congrArg TransmitSlot.phase h.slot

theorem agrees_self (t : Session size depth) : t.Agrees t :=
  ⟨rfl, rfl, rfl, rfl, rfl, rfl, fun _ => rfl, fun _ => rfl⟩

/-- Outside of frames there is less to compare. -/
theorem agrees_outside (hphase : t.phase ≠ .sending) (haccepted : t.accepted = v.accepted)
    (hslot : t.path.slot = v.path.slot) (hsent : t.path.sent = v.path.sent)
    (hactiveLow : t.path.activeLow = v.path.activeLow) (hwritten : t.written = v.written)
    (hnext : t.bench.line.nextIsAddress = v.bench.line.nextIsAddress) : t.Agrees v :=
  ⟨haccepted, hslot, hsent, hactiveLow, hwritten, hnext, fun h => absurd h hphase,
    fun h => absurd h hphase⟩

theorem Agrees.restart (h : t.Agrees v) (hpolarity : v.path.activeLow = identity.driveActiveLow)
    (hphase : t.phase ≠ .sending) : (t.restarted identity).Agrees v :=
  agrees_outside hphase h.accepted h.slot h.sent hpolarity.symm h.written h.nextIsAddress

/-- Two outcomes of a step: sessions that agree, or the same refusal by a full record. -/
inductive Alike :
    Except LogFull (Session size depth) → Except LogFull (Session size depth) → Prop
  | ok {t v : Session size depth} (h : t.Agrees v) : Alike (.ok t) (.ok v)
  | full (e : LogFull) : Alike (.error e) (.error e)

theorem Agrees.offer (h : t.Agrees v) {send : TransmitPath → SendOutcome}
    (hslot : send t.path
      = { send v.path with path := { t.path with slot := (send v.path).path.slot } })
    (hoffer : v.path.Offer frame (send v.path)) :
    Alike (t.offer frame send) (v.offer frame send) := by
  change send t.bench.station.transmit = _ at hslot
  generalize houtcome : send v.path = outcome at hoffer hslot
  change send v.bench.station.transmit = _ at houtcome
  rw [Session.offer, Session.offer, Bench.transmit, Bench.transmit, hslot, houtcome]
  cases hoffer with
  | refused e =>
    exact .ok ⟨h.accepted, rfl, h.sent, h.activeLow, h.written, h.nextIsAddress,
      fun hsending => h.cursor (h.phase_eq.trans hsending),
      fun hsending => h.driveHigh (h.phase_eq.trans hsending)⟩
  | loaded hidle hne hphase hholds =>
    refine .ok (agrees_outside ?_ (congrArg (· ++ [frame]) h.accepted) rfl h.sent h.activeLow
      h.written h.nextIsAddress)
    exact fun hsending => absurd (hphase.symm.trans hsending) (by decide)

theorem Agrees.stray (h : t.Agrees v) (hstray : event.fits v.phase = false) :
    Alike (t.step (.pump event)) (v.step (.pump event)) := by
  have hstray' : event.fits t.phase = false := h.phase_eq.symm ▸ hstray
  rw [Session.step, Session.step, Bench.pump_stray hstray, Bench.pump_stray hstray']
  exact .ok h

theorem Agrees.start (h : t.Agrees v) (hphase : v.phase = .pending) (hevent : event ≠ .complete)
    {first : UInt8} (hfirst : v.path.slot.byte? 0 = some first) :
    Alike (t.step (.pump event)) (v.step (.pump event)) := by
  have hphase' : t.phase = .pending := h.phase_eq.trans hphase
  have hfirst' : t.path.slot.byte? 0 = some first := h.slot.symm ▸ hfirst
  have hwritten : t.bench.line.written = v.bench.line.written := h.written
  rw [Session.step, Session.step, Bench.pump_start hphase hevent hfirst,
    Bench.pump_start hphase' hevent hfirst', hwritten]
  split
  · exact .ok ⟨h.accepted, congrArg ({ · with phase := .sending }) h.slot, h.sent, h.activeLow,
      congrArg (· ++ [(first, true)]) h.written, rfl, fun _ => rfl,
      fun _ => congrArg DriverEnable.assertedLevel h.activeLow⟩
  · exact .full _

theorem Agrees.next (h : t.Agrees v) (hphase : v.phase = .sending) :
    Alike (t.step (.pump .bufferEmpty)) (v.step (.pump .bufferEmpty)) := by
  have hphase' : t.phase = .sending := h.phase_eq.trans hphase
  have hcursor := h.cursor hphase'
  have hbyte' : t.path.slot.byte? t.path.cursor = v.path.slot.byte? v.path.cursor := by
    rw [h.slot, hcursor]
  have hwritten : t.bench.line.written = v.bench.line.written := h.written
  rw [Session.step, Session.step]
  cases hbyte : v.path.slot.byte? v.path.cursor with
  | none =>
    rw [Bench.pump_turn hphase hbyte, Bench.pump_turn hphase' (hbyte'.trans hbyte)]
    refine .ok (agrees_outside ?_ h.accepted (congrArg ({ · with phase := .draining }) h.slot)
      h.sent h.activeLow h.written h.nextIsAddress)
    exact TransmitPhase.noConfusion
  | some byte =>
    rw [Bench.pump_next hphase hbyte, Bench.pump_next hphase' (hbyte'.trans hbyte), hwritten,
      h.nextIsAddress]
    split
    · refine .ok ⟨h.accepted, h.slot, h.sent, h.activeLow, ?_, rfl,
        fun _ => congrArg (· + 1) hcursor, fun _ => h.driveHigh hphase'⟩
      show t.written ++ [(byte, t.bench.line.nextIsAddress)] = _
      rw [h.written, h.nextIsAddress]
      rfl
    · exact .full _

theorem Agrees.finish (h : t.Agrees v) (hphase : v.phase = .draining) :
    Alike (t.step (.pump .complete)) (v.step (.pump .complete)) := by
  rw [Session.step, Session.step, Bench.pump_finish hphase,
    Bench.pump_finish (h.phase_eq.trans hphase)]
  refine .ok (agrees_outside ?_ h.accepted (congrArg ({ · with phase := .idle }) h.slot)
    (congrArg (· + 1) h.sent) h.activeLow h.written h.nextIsAddress)
  exact TransmitPhase.noConfusion

/-- **No step tells the two sessions apart**, whatever the phase and whatever is offered. -/
theorem Agrees.step (h : t.Agrees v) (hv : v.InStep activeLow done) (s : TransmitStep) :
    Alike (t.step s) (v.step s) := by
  cases s with
  | send destination source payload =>
    exact h.offer (TransmitPath.send_of_slot h.slot destination source payload)
      (v.path.send_offer destination source payload)
  | sendFrame frame =>
    exact h.offer (TransmitPath.sendFrame_of_slot h.slot frame) (v.path.sendFrame_offer frame)
  | pump event =>
    cases hv.progress with
    | idle hphase => exact h.stray (by rw [hphase]; cases event <;> rfl)
    | @pending frame hphase hne hholds =>
      by_cases hevent : event = .complete
      · exact h.stray (by rw [hphase, hevent]; rfl)
      · obtain ⟨first, rest, rfl⟩ := List.exists_cons_of_ne_nil hne
        exact h.start hphase hevent (hholds 0)
    | sending hphase =>
      cases event with
      | bufferEmpty => exact h.next hphase
      | complete => exact h.stray (by rw [hphase]; rfl)
      | kick => exact h.stray (by rw [hphase]; rfl)
    | draining hphase =>
      cases event with
      | bufferEmpty => exact h.stray (by rw [hphase]; rfl)
      | complete => exact h.finish hphase
      | kick => exact h.stray (by rw [hphase]; rfl)

/-- **Restarts outside of frames are invisible**, by induction on the steps. -/
theorem runRenewed_alike (identity : Identity) (steps : List RenewalStep)
    (h : Undisturbed size depth identity steps) :
    Alike (runRenewed identity steps : Except LogFull (Session size depth))
      (run identity (steps.filterMap RenewalStep.step?)) := by
  induction steps using List.reverseRecOn with
  | nil => exact .ok (agrees_self _)
  | append_singleton earlier s ih =>
    have hearlier := ih fun first hfirst => h first (hfirst.trans (List.prefix_append _ _))
    rw [runRenewed_snoc, List.filterMap_append]
    generalize ht : (runRenewed identity earlier : Except LogFull (Session size depth)) = outcome
      at hearlier
    generalize hv : (run identity (earlier.filterMap RenewalStep.step?)
      : Except LogFull (Session size depth)) = plain at hearlier
    cases s with
    | step s =>
      change Alike _ (run identity (earlier.filterMap RenewalStep.step? ++ [s]))
      rw [run_snoc, hv]
      cases hearlier with
      | full e => exact .full e
      | ok hagrees =>
        obtain ⟨done, hinstep⟩ := run_inStep identity _ hv
        exact hagrees.step hinstep s
    | restart =>
      change Alike _ (run identity (earlier.filterMap RenewalStep.step? ++ []))
      rw [List.append_nil, hv]
      cases hearlier with
      | full e => exact .full e
      | @ok t v hagrees =>
        obtain ⟨done, hinstep⟩ := run_inStep identity _ hv
        have hphase := h earlier (List.prefix_refl _)
        rw [ht] at hphase
        show Alike (t.restart identity) (.ok v)
        rw [restart_eq]
        exact .ok (hagrees.restart hinstep.polarity fun hsending => hphase (congrArg some hsending))

/-! ### What the record shows -/

/-- The frames counted as sent stand whole and one behind the other on the record, each with the
mark on its first byte only, and behind them comes at most a part of the frame accepted next. What
the pump writes, it writes on the driven line. -/
structure Intact (t : Session size depth) (activeLow : Bool) : Prop where
  sent : t.path.sent ≤ t.accepted.length
  written : ∃ started, started <+: markFirst (t.accepted[t.path.sent]?.getD [])
    ∧ t.written = (t.accepted.take t.path.sent).flatMap markFirst ++ started
  driven : ∀ event, t.bench.line.writesDriven activeLow (t.path.pump event).2 = true

theorem InStep.sent_written (h : t.InStep activeLow done) :
    t.path.sent ≤ t.accepted.length
      ∧ ∃ started, started <+: markFirst (t.accepted[t.path.sent]?.getD [])
        ∧ t.written = (t.accepted.take t.path.sent).flatMap markFirst ++ started := by
  rw [h.sent]
  cases h.progress with
  | idle _ haccepted hwritten =>
    rw [haccepted, hwritten, List.take_length]
    exact ⟨Nat.le_refl _, [], List.nil_prefix, (List.append_nil _).symm⟩
  | pending _ _ _ haccepted hwritten =>
    rw [haccepted, hwritten, List.take_left]
    exact ⟨by simp, [], List.nil_prefix, (List.append_nil _).symm⟩
  | sending _ _ _ _ haccepted hwritten =>
    rw [haccepted, hwritten, List.take_left, List.getElem?_concat_length]
    exact ⟨by simp, _, List.take_prefix _ _, rfl⟩
  | @draining frame _ haccepted hwritten =>
    rw [haccepted, hwritten, List.take_left, List.getElem?_concat_length, List.flatMap_append,
      List.flatMap_singleton]
    exact ⟨by simp, _, List.prefix_refl _, rfl⟩

theorem Agrees.intact (h : t.Agrees v) (hv : v.InStep activeLow done) : t.Intact activeLow := by
  have hpolarity : t.path.activeLow = activeLow := h.activeLow.trans hv.polarity
  obtain ⟨hsent, hwritten⟩ := hv.sent_written
  rw [← h.accepted, ← h.sent, ← h.written] at hwritten
  refine ⟨h.accepted ▸ h.sent ▸ hsent, hwritten, fun event => ?_⟩
  rw [← hpolarity]
  refine t.path.pump_writesDriven event fun hsending => ?_
  have hdriving := hv.driving
  rw [decide_eq_true (.inl (h.phase_eq.symm.trans hsending)), LineRecorder.isDriving] at hdriving
  rw [hpolarity, LineRecorder.isDriving, h.driveHigh hsending]
  exact hdriving

/-- Only a full record ends a session with restarts early. -/
theorem runRenewed_error (identity : Identity) (steps : List RenewalStep)
    (h : Undisturbed size depth identity steps) {e : LogFull}
    (hrun : (runRenewed identity steps : Except LogFull (Session size depth)) = .error e) :
    ∃ earlier, ∃ v : Session size depth, earlier <+: steps.filterMap RenewalStep.step?
      ∧ run identity earlier = .ok v ∧ recorderCapacity ≤ v.written.length := by
  have halike := runRenewed_alike identity steps h
  rw [hrun] at halike
  generalize hv : (run identity (steps.filterMap RenewalStep.step?)
    : Except LogFull (Session size depth)) = plain at halike
  cases halike
  exact run_error identity _ hv

/-- **A session with restarts leaves an intact record**, in either polarity and wherever outside of
frames the restarts come, and it ends early only where the session without them finds the record
full. -/
theorem runRenewed_intact (identity : Identity) (steps : List RenewalStep)
    (h : Undisturbed size depth identity steps) :
    (∀ t : Session size depth, runRenewed identity steps = .ok t →
        t.Intact identity.driveActiveLow)
      ∧ ∀ e, (runRenewed identity steps : Except LogFull (Session size depth)) = .error e →
        ∃ earlier, ∃ v : Session size depth, earlier <+: steps.filterMap RenewalStep.step?
          ∧ run identity earlier = .ok v ∧ recorderCapacity ≤ v.written.length := by
  refine ⟨fun t hrun => ?_, fun e hrun => runRenewed_error identity steps h hrun⟩
  have halike := runRenewed_alike identity steps h
  rw [hrun] at halike
  generalize hv : (run identity (steps.filterMap RenewalStep.step?)
    : Except LogFull (Session size depth)) = plain at halike
  cases halike with
  | ok hagrees =>
    obtain ⟨done, hinstep⟩ := run_inStep identity _ hv
    exact hagrees.intact hinstep

/-- A restart in each phase but one, and a second frame that is under way at the end. -/
def renewedSteps : List RenewalStep :=
  [.restart, .step (.sendFrame [5, 7]), .restart, .step (.pump .kick), .step (.pump .bufferEmpty),
    .step (.pump .bufferEmpty), .restart, .step (.pump .complete), .restart,
    .step (.sendFrame [4, 9]), .step (.pump .bufferEmpty)]

theorem renewedSteps_intact :
    Undisturbed ⟨3, by decide⟩ defaultOutboxDepth .busMaster renewedSteps
      ∧ ∃ t : Session ⟨3, by decide⟩ defaultOutboxDepth,
        runRenewed .busMaster renewedSteps = .ok t ∧ t.Intact false
          ∧ t.written = [(5, true), (7, false), (4, true)] := by
  have hundisturbed : Undisturbed ⟨3, by decide⟩ defaultOutboxDepth .busMaster renewedSteps := by
    decide +kernel
  have hwritten : (runRenewed .busMaster renewedSteps
      : Except LogFull (Session ⟨3, by decide⟩ defaultOutboxDepth)).toOption.map written
        = some [(5, true), (7, false), (4, true)] := by decide +kernel
  refine ⟨hundisturbed, ?_⟩
  cases hrun : (runRenewed .busMaster renewedSteps
      : Except LogFull (Session ⟨3, by decide⟩ defaultOutboxDepth)) with
  | error e =>
    rw [hrun] at hwritten
    cases hwritten
  | ok t =>
    rw [hrun] at hwritten
    exact ⟨t, rfl, (runRenewed_intact .busMaster renewedSteps hundisturbed).1 t hrun,
      Option.some.inj hwritten⟩

/-- A restart behind the first byte of a frame. -/
def tornSteps : List RenewalStep :=
  [.step (.sendFrame [5, 7]), .step (.pump .kick), .restart]

/-- The rest of the frame is written on the released line, behind a second copy of its first byte,
and the frame is counted as sent. -/
theorem tornSteps_written :
    (runRenewed .busMaster tornSteps
        : Except LogFull (Session ⟨3, by decide⟩ defaultOutboxDepth)).toOption.map
        (fun t => t.bench.line.writesDriven false (t.path.pump .bufferEmpty).2) = some false
      ∧ (runRenewed .busMaster (tornSteps ++ [.step (.pump .bufferEmpty),
          .step (.pump .bufferEmpty), .step (.pump .bufferEmpty), .step (.pump .complete)])
        : Except LogFull (Session ⟨3, by decide⟩ defaultOutboxDepth)).toOption.map
        (fun t => (t.path.sent, t.written)) = some (1, [(5, true), (5, false), (7, false)]) := by
  decide +kernel

end Session

end MultidropBus
