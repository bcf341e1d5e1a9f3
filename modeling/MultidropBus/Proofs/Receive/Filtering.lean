import MultidropBus.Proofs.Receive.ForeignTraffic
import MultidropBus.Proofs.Transmit.Moves

/-!
# The address filter

On a line whose hardware was prepared and whose station was then started once, the filter is armed
exactly if no frame is in flight, every toggle is accounted for by a counter of the station, and no
frame is accepted before the filter was armed again behind the one before it (`Watch.Filters`). This
is told of a *watch*: a bench, and the toggles of its filter in the order in which they were asked
for.

Of all that happens on a bench only what the station hears toggles the filter: the transmitter and
the poll side stand by (`Bench.Bystands`).
-/

namespace MultidropBus

open FilterAction

/-! ### The line -/

namespace LineRecorder

/-- The filter is as another line has it, and was toggled as often. -/
structure SameFilter (r r' : LineRecorder) : Prop where
  armed : r'.filterArmed = r.filterArmed
  arms : r'.arms = r.arms
  disarms : r'.disarms = r.disarms

theorem SameFilter.refl (r : LineRecorder) : r.SameFilter r := ⟨rfl, rfl, rfl⟩

theorem SameFilter.trans {r r' r'' : LineRecorder} (h : r.SameFilter r') (h' : r'.SameFilter r'') :
    r.SameFilter r'' := ⟨h'.armed.trans h.armed, h'.arms.trans h.arms, h'.disarms.trans h.disarms⟩

theorem perform_sameFilter {r r' : LineRecorder} {action : TransmitAction}
    (h : r.perform action = .ok r') : r.SameFilter r' := by
  cases action with
  | markAddress => cases h; exact ⟨rfl, rfl, rfl⟩
  | write byte =>
    rw [perform, write] at h
    split at h <;> cases h
    exact ⟨rfl, rfl, rfl⟩
  | listen source => cases h; cases source <;> exact ⟨rfl, rfl, rfl⟩
  | unlisten source => cases h; cases source <;> exact ⟨rfl, rfl, rfl⟩
  | drive high => cases h; exact ⟨rfl, rfl, rfl⟩
  | requestInterrupt => cases h; exact ⟨rfl, rfl, rfl⟩

/-- No action of the transmitter toggles the filter. -/
theorem performAll_sameFilter {r r' : LineRecorder} {actions : List TransmitAction}
    (h : r.performAll actions = .ok r') : r.SameFilter r' := by
  induction actions generalizing r with
  | nil =>
    cases h
    exact .refl r'
  | cons action rest ih =>
    rw [performAll] at h
    cases hfirst : r.perform action with
    | error e => rw [hfirst] at h; cases h
    | ok after =>
      rw [hfirst] at h
      exact (perform_sameFilter hfirst).trans (ih h)

/-- A line counts the toggles and stands where they leave its filter. -/
theorem filterAll_eq {r : LineRecorder} {actions : List FilterAction} {armed : Bool}
    (h : settle? r.filterArmed actions = some armed) :
    (r.filterAll actions).filterArmed = armed
      ∧ (r.filterAll actions).arms = r.arms + actions.count .arm
      ∧ (r.filterAll actions).disarms = r.disarms + actions.count .disarm := by
  induction actions generalizing r with
  | nil =>
    cases h
    exact ⟨rfl, rfl, rfl⟩
  | cons action rest ih =>
    have hrest : settle? (r.filter action).filterArmed rest = some armed := by
      cases action with
      | arm => exact h
      | disarm => exact (settle?_disarm h).2
    obtain ⟨hstands, harms, hdisarms⟩ := ih hrest
    refine ⟨hstands, harms.trans ?_, hdisarms.trans ?_⟩
    · cases action with
      | arm => rw [List.count_cons_self]; exact Nat.succ_add_eq_add_succ _ _
      | disarm => rw [List.count_cons_of_ne (by decide)]; rfl
    · cases action with
      | arm => rw [List.count_cons_of_ne (by decide)]; rfl
      | disarm => rw [List.count_cons_self]; exact Nat.succ_add_eq_add_succ _ _

end LineRecorder

/-! ### The bench -/

namespace Bench

variable {size : RingSize} {depth : Nat} {b b' : Bench size depth}

/-- A request to the poll side. -/
def ask (b : Bench size depth) : Request → Except LogFull (Bench size depth)
  | .currentFrame => .ok (b.poll (·.currentFrame)).2
  | .retire => .ok (b.poll (·.retire)).2
  | .skip => .ok (b.poll (·.skip)).2
  | .recover => .ok (b.poll (·.recover)).2
  | .send destination source payload => (b.transmit (·.send destination source payload)).map (·.2)
  | .sendFrame frame => (b.transmit (·.sendFrame frame)).map (·.2)
  | .status | .copyFrame | .phase | .isTransmitting | .buffered | .stats => .ok b

/-- Neither the receiver nor the filter took part. -/
structure Bystands (b b' : Bench size depth) : Prop where
  receiver : b.station.receive.SameReceiver b'.station.receive
  filter : b.line.SameFilter b'.line

theorem pump_bystands {event : TransmitEvent} (h : b.pump event = .ok b') : b.Bystands b' := by
  obtain ⟨line, hline, rfl⟩ := pump_ok h
  exact ⟨.refl _, LineRecorder.performAll_sameFilter hline⟩

/-- What becomes of a request: the poll side works on the receive path, or a frame waits in the
slot. Neither writes anything, so no record is too full for it. -/
inductive Asked (b : Bench size depth) : Except LogFull (Bench size depth) → Prop
  | polled {p : ReceivePath size} (hsame : b.station.receive.SameReceiver p) :
    Asked b (.ok { b with station := { b.station with receive := p } })
  | loaded (slot : TransmitSlot) : Asked b (.ok (b.load slot))

theorem ask_asked (b : Bench size depth) (request : Request) : b.Asked (b.ask request) := by
  have hlooked : b.Asked (.ok b) := .polled (.refl _)
  have hoffered {frame : Bytes} {send : TransmitPath → SendOutcome}
      (h : b.station.transmit.Offer frame (send b.station.transmit)) :
      b.Asked ((b.transmit send).map (·.2)) := by
    rcases transmit_cases h with ⟨e, hsame⟩ | ⟨-, -, slot, -, -, hloaded⟩
    · rw [hsame]
      exact hlooked
    · rw [hloaded]
      exact .loaded slot
  cases request with
  | currentFrame => exact .polled b.station.receive.currentFrame_sameReceiver
  | retire => exact .polled b.station.receive.retire_sameReceiver
  | skip => exact .polled b.station.receive.skip_sameReceiver
  | recover => exact .polled b.station.receive.recover_sameReceiver
  | send destination source payload =>
    exact hoffered (b.station.transmit.send_offer destination source payload)
  | sendFrame frame => exact hoffered (b.station.transmit.sendFrame_offer frame)
  | status => exact hlooked
  | copyFrame => exact hlooked
  | phase => exact hlooked
  | isTransmitting => exact hlooked
  | buffered => exact hlooked
  | stats => exact hlooked

theorem ask_bystands (b : Bench size depth) (request : Request) :
    ∃ b', b.ask request = .ok b' ∧ b.Bystands b' := by
  have hasked := b.ask_asked request
  generalize b.ask request = outcome at hasked
  cases hasked with
  | polled hsame => exact ⟨_, rfl, hsame, .refl _⟩
  | loaded slot => exact ⟨_, rfl, .refl _, rfl, rfl, rfl⟩

end Bench

/-- A bench, and the toggles of its filter in the order in which they were asked for. -/
structure Watch (size : RingSize) (depth : Nat) where
  bench : Bench size depth
  toggles : List FilterAction

namespace Watch

variable {size : RingSize} {depth : Nat} {w : Watch size depth}

def step (w : Watch size depth) : StationStep → Except LogFull (Watch size depth)
  | .hear event =>
    .ok ⟨w.bench.receive event, w.toggles ++ (w.bench.station.receive.receive event).2⟩
  | .pump event => (w.bench.pump event).map fun b => ⟨b, w.toggles⟩
  | .ask request => (w.bench.ask request).map fun b => ⟨b, w.toggles⟩

/-- The watch over a bench with empty buffers and an empty record: the hardware is prepared, which
arms the filter, the station is started, and then the steps are made, up to the first byte that the
record cannot hold. -/
def run (identity : Identity) (steps : List StationStep) :
    Except LogFull (Watch size depth) := do
  let b ← (Bench.initialise ⟨.blank identity, .empty, {}⟩ identity).restart identity
  steps.foldlM step ⟨b, [.arm]⟩

theorem run_snoc (identity : Identity) (steps : List StationStep) (s : StationStep) :
    (run identity (steps ++ [s]) : Except LogFull (Watch size depth))
      = (run identity steps).bind (·.step s) := by
  simp only [run, List.foldlM_append, List.foldlM_cons, List.foldlM_nil, bind_pure]
  rfl

/-! ### The invariant -/

/-- The line, the receiver and its counters agree about the filter. -/
structure InTune (w : Watch size depth) : Prop where
  settles : settle? false w.toggles = some w.bench.line.filterArmed
  armed : w.bench.line.filterArmed = !w.bench.station.receive.isReceiving
  disarms : w.bench.line.disarms = w.bench.station.receive.counters.accepted
  arms : w.bench.line.arms = 1 + w.bench.station.receive.counters.rearmings
  disarms_count : w.bench.line.disarms = w.toggles.count .disarm
  arms_count : w.bench.line.arms = w.toggles.count .arm

theorem InTune.hear (h : w.InTune) (event : LineEvent) :
    InTune ⟨w.bench.receive event, w.toggles ++ (w.bench.station.receive.receive event).2⟩ := by
  have htoggles := w.bench.station.receive.receive_toggles event
  have hsettles := htoggles.settles
  rw [← h.armed] at hsettles
  obtain ⟨harmed, harms, hdisarms⟩ := LineRecorder.filterAll_eq hsettles
  refine ⟨?_, harmed, ?_, ?_, ?_, ?_⟩
  · show settle? false (w.toggles ++ _) = some (w.bench.receive event).line.filterArmed
    rw [settle?_append, h.settles, Option.bind_some, hsettles]
    exact congrArg some harmed.symm
  · exact hdisarms.trans (by rw [h.disarms, ← htoggles.accepted]; rfl)
  · exact harms.trans (by rw [h.arms, Nat.add_assoc, ← htoggles.rearmed]; rfl)
  · exact hdisarms.trans (by rw [h.disarms_count, ← List.count_append])
  · exact harms.trans (by rw [h.arms_count, ← List.count_append])

theorem InTune.bystands (h : w.InTune) {b : Bench size depth} (hb : w.bench.Bystands b) :
    InTune ⟨b, w.toggles⟩ where
  settles := h.settles.trans (congrArg some hb.filter.armed.symm)
  armed := hb.filter.armed.trans (h.armed.trans (congrArg not hb.receiver.isReceiving.symm))
  disarms := hb.filter.disarms.trans (h.disarms.trans (by rw [hb.receiver.counters]))
  arms := hb.filter.arms.trans (h.arms.trans (by rw [hb.receiver.counters]))
  disarms_count := hb.filter.disarms.trans h.disarms_count
  arms_count := hb.filter.arms.trans h.arms_count

theorem InTune.step (h : w.InTune) {s : StationStep} {w' : Watch size depth}
    (hstep : w.step s = .ok w') : w'.InTune := by
  cases s with
  | hear event =>
    cases hstep
    exact h.hear event
  | pump event =>
    rw [Watch.step] at hstep
    cases hpump : w.bench.pump event with
    | error e => rw [hpump] at hstep; cases hstep
    | ok b =>
      rw [hpump] at hstep
      cases hstep
      exact h.bystands (Bench.pump_bystands hpump)
  | ask request =>
    obtain ⟨b, hask, hb⟩ := w.bench.ask_bystands request
    rw [Watch.step, hask] at hstep
    cases hstep
    exact h.bystands hb

/-- The filter is armed once when the hardware is prepared, and the start leaves it alone. -/
theorem run_nil (size : RingSize) (depth : Nat) (identity : Identity) :
    ∃ w : Watch size depth, run identity [] = .ok w ∧ w.InTune :=
  ⟨_, rfl, rfl, rfl, rfl, rfl, rfl, rfl⟩

theorem run_inTune (identity : Identity) (steps : List StationStep) {w : Watch size depth}
    (hrun : run identity steps = .ok w) : w.InTune := by
  induction steps using List.reverseRecOn generalizing w with
  | nil =>
    obtain ⟨start, hstart, h⟩ := run_nil size depth identity
    rw [hstart] at hrun
    cases hrun
    exact h
  | append_singleton earlier s ih =>
    rw [run_snoc] at hrun
    cases hearlier : (run identity earlier : Except LogFull (Watch size depth)) with
    | error e => rw [hearlier] at hrun; cases hrun
    | ok before =>
      rw [hearlier] at hrun
      exact (ih hearlier).step hrun

/-- Only the transmitter can fill the record. -/
theorem run_ok (identity : Identity) {steps : List StationStep}
    (hquiet : ∀ event, .pump event ∉ steps) :
    ∃ w : Watch size depth, run identity steps = .ok w := by
  induction steps using List.reverseRecOn with
  | nil =>
    obtain ⟨start, hstart, -⟩ := run_nil size depth identity
    exact ⟨start, hstart⟩
  | append_singleton earlier s ih =>
    obtain ⟨w, hearlier⟩ := ih fun event hmem => hquiet event (List.mem_append_left _ hmem)
    rw [run_snoc, hearlier]
    show ∃ w', w.step s = .ok w'
    cases s with
    | hear event => exact ⟨_, rfl⟩
    | pump event => exact absurd (List.mem_append_right _ List.mem_cons_self) (hquiet event)
    | ask request =>
      obtain ⟨b, hask, -⟩ := w.bench.ask_bystands request
      exact ⟨⟨b, w.toggles⟩, by rw [Watch.step, hask]; rfl⟩

/-! ### What follows from it -/

/-- What can be said of the filter at any moment. -/
structure Filters (w : Watch size depth) : Prop where
  armed : w.bench.line.filterArmed = true ↔ w.bench.station.receive.isReceiving = false
  disarms : w.bench.line.disarms = w.bench.station.stats.framesAccepted
  arms : w.bench.line.arms = 1 + w.bench.station.stats.framesCompleted
    + w.bench.station.stats.rejectedHeaders + w.bench.station.stats.lineErrors
    + w.bench.station.stats.overflows + w.bench.station.stats.truncated
  /-- The toggles are those that the line counted. -/
  recorded : w.bench.line.disarms = w.toggles.count .disarm
    ∧ w.bench.line.arms = w.toggles.count .arm
  /-- Between two frames accepted the filter was armed. -/
  rearmed : ∀ before between after,
    w.toggles = before ++ .disarm :: (between ++ .disarm :: after) → .arm ∈ between

theorem InTune.filters (h : w.InTune) : w.Filters where
  armed := by
    rw [h.armed]
    cases w.bench.station.receive.isReceiving <;> decide
  disarms := h.disarms
  arms := by
    rw [h.arms, ReceiveCounters.rearmings, ReceiveCounters.faults]
    simp only [Station.stats]
    omega
  recorded := ⟨h.disarms_count, h.arms_count⟩
  rearmed := by
    intro before between after hsplit
    have hsettles := h.settles
    rw [hsplit, settle?_append] at hsettles
    obtain ⟨armed, -, hsecond⟩ := Option.bind_eq_some_iff.1 hsettles
    exact arm_mem_of_settle? (Option.isSome_of_eq_some (settle?_disarm hsecond).2)

/-- **The filter is armed exactly if no frame is in flight**, and every toggle of it is accounted
for, whatever the station hears, sends and is asked. Without transmit events no run ends early. -/
theorem run_filters (identity : Identity) (steps : List StationStep) :
    (∀ w : Watch size depth, run identity steps = .ok w → w.Filters)
      ∧ ((∀ event, .pump event ∉ steps) → ∃ w : Watch size depth, run identity steps = .ok w) :=
  ⟨fun _ hrun => (run_inTune identity steps hrun).filters, fun hquiet => run_ok identity hquiet⟩

/-- A header that is rejected, a frame behind it that fills the ring of eight slots, and a third one
that cuts it short and finds no room. A line error hits the fourth one, and the master's address
passes by. -/
def tightSteps : List StationStep :=
  ([.byte 5 true, .byte 0 false, .byte 0 false, .byte 0 false, .byte 0 false, .byte 0 false,
      .byte 5 true, .byte 0 false] : List LineEvent).map .hear
    ++ [.ask (.send 0 5 []), .hear (.byte 5 true), .ask .skip, .hear (.byte 5 true),
      .hear (.error .noise), .ask .recover, .hear (.byte 0 true)]

theorem tightSteps_filters :
    (∀ event, .pump event ∉ tightSteps)
      ∧ ∃ w : Watch ⟨3, by decide⟩ defaultOutboxDepth, run (.plain 5) tightSteps = .ok w
        ∧ w.Filters
        ∧ w.toggles = [.arm, .disarm, .arm, .disarm, .arm, .disarm, .arm, .disarm, .arm] := by
  have hquiet : ∀ event, .pump event ∉ tightSteps := fun event => by cases event <;> decide
  obtain ⟨w, hrun⟩ : ∃ w : Watch ⟨3, by decide⟩ defaultOutboxDepth,
      run (.plain 5) tightSteps = .ok w := (run_filters (.plain 5) tightSteps).2 hquiet
  have htoggles : (run (.plain 5) tightSteps
      : Except LogFull (Watch ⟨3, by decide⟩ defaultOutboxDepth)).toOption.map toggles
        = some [.arm, .disarm, .arm, .disarm, .arm, .disarm, .arm, .disarm, .arm] := by
    decide +kernel
  rw [hrun] at htoggles
  exact ⟨hquiet, w, hrun, (run_filters (.plain 5) tightSteps).1 w hrun, Option.some.inj htoggles⟩

end Watch

end MultidropBus
