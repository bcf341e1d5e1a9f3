import MultidropBus.Proofs.Node.Mirroring

/-!
# The interrupt handler neither strands nor garbles a frame

One interrupt serves the receiver, the requests of the node and both transmit interrupts. A pass of
the handler kicks the transmitter and gives it at most one more event, with flags that may be stale
or both set. Whatever the order of passes and accepted frames, the words written to the transmit
register are the accepted frames one after the other, each phase of a frame has what it takes to
bring the handler back, and the line is driven exactly while a frame is on its way out.

Beside the node runs a session of its transmitter on a recording line. The registers mirror the
record, so the invariant of sessions (`Session.InStep`) speaks about the registers.
-/

namespace MultidropBus

namespace TransmitPath

/-- The pump never makes a frame wait, and a kick starts the one that waits. -/
theorem pump_not_pending (p : TransmitPath) {event : TransmitEvent}
    (h : p.phase ≠ .pending ∨ event = .kick) : (p.pump event).1.phase ≠ .pending := by
  have hpumped := p.pump_pumped event
  generalize p.pump event = pumped at hpumped
  cases hpumped with
  | stray hstray =>
    rintro hpending
    obtain rfl : event = .kick := h.resolve_left (not_not_intro hpending)
    change p.phase = .pending at hpending
    rw [hpending] at hstray
    cases hstray
  | wrote hsending =>
    show p.phase ≠ .pending
    rw [hsending]
    decide
  | void => exact fun hphase => nomatch hphase
  | started => exact fun hphase => nomatch hphase
  | turned => exact fun hphase => nomatch hphase
  | finished => exact fun hphase => nomatch hphase

end TransmitPath

/-- A node, and the frames that its transmitter accepted since the start. -/
structure Transmission where
  node : Node
  accepted : List Bytes

namespace Transmission

inductive Step
  /-- A payload is offered to be encoded and sent. -/
  | send (destination source : Address) (payload : Bytes)
  /-- An encoded frame is offered. -/
  | sendFrame (frame : Bytes)
  /-- The node moves by itself. -/
  | move (m : Node.Move)
deriving DecidableEq, Repr

def offer (x : Transmission) (frame : Bytes) (send : TransmitPath → SendOutcome) : Transmission :=
  let outcome := send x.node.station.transmit
  { node := x.node.setTransmit outcome.path outcome.actions
    accepted :=
      match outcome.result with
      | .ok () => x.accepted ++ [frame]
      | .error _ => x.accepted }

/-- The bus task may answer a poll: its reply is accepted if the slot takes it. -/
def move (x : Transmission) (m : Node.Move) : Transmission :=
  let after := x.node.move m
  { node := after
    accepted :=
      if x.node.phase = .idle ∧ after.phase = .pending then x.accepted ++ x.node.reply?.toList
      else x.accepted }

def step (x : Transmission) : Step → Transmission
  | .send destination source payload =>
    x.offer (Frame.wire destination source payload) (·.send destination source payload)
  | .sendFrame frame => x.offer frame (·.sendFrame frame)
  | .move m => x.move m

/-- From the start of a node on. -/
def run (flash : Flash) (board : Board) (steps : List Step) : Transmission :=
  steps.foldl step ⟨Node.boot flash board, []⟩

theorem run_snoc (flash : Flash) (board : Board) (steps : List Step) (s : Step) :
    run flash board (steps ++ [s]) = (run flash board steps).step s := by
  rw [run, List.foldl_append]
  rfl

/-! ### The invariant -/

/-- A session in step with the accepted frames runs beside the node, and the registers mirror its
record. -/
structure Tracked (x : Transmission) (before : List UInt32) (control : UInt32)
    (activeLow : Bool) : Prop where
  installed : x.node.installed = true
  session : ∃ (t : Session defaultRingSize defaultOutboxDepth) (done : List Bytes),
    t.path = x.node.station.transmit ∧ t.accepted = x.accepted ∧ t.InStep activeLow done
      ∧ t.bench.line.Mirrors before control x.node.serial x.node.board

/-- Besides, a frame that waits has requested the interrupt. -/
structure Sound (x : Transmission) (before : List UInt32) (control : UInt32)
    (activeLow : Bool) : Prop where
  tracked : x.Tracked before control activeLow
  pending : x.node.phase = .pending → 0 < x.node.board.requests

variable {x : Transmission} {n : Node} {before : List UInt32} {control : UInt32} {activeLow : Bool}
  {frame : Bytes}

/-- What the transmitter neither is nor set may change. -/
theorem Tracked.congr (h : x.Tracked before control activeLow) {requests : Nat}
    (hinstalled : n.installed = x.node.installed)
    (htransmit : n.station.transmit = x.node.station.transmit)
    (hmark : n.serial.nextIsAddress = x.node.serial.nextIsAddress)
    (hout : n.board.outputs = { x.node.board.outputs with requests := requests }) :
    Tracked ⟨n, x.accepted⟩ before control activeLow where
  installed := hinstalled.trans h.installed
  session := by
    obtain ⟨t, done, hpath, haccepted, hstep, hmirrors⟩ := h.session
    exact ⟨t, done, hpath.trans htransmit.symm, haccepted, hstep, hmirrors.congr hmark hout⟩

theorem Sound.congr (h : x.Sound before control activeLow)
    (hinstalled : n.installed = x.node.installed)
    (htransmit : n.station.transmit = x.node.station.transmit) (hserial : n.serial = x.node.serial)
    (hboard : n.board = x.node.board) : Sound ⟨n, x.accepted⟩ before control activeLow where
  tracked := h.tracked.congr hinstalled htransmit (congrArg _ hserial) (congrArg _ hboard)
  pending := by
    rw [Node.phase, htransmit, hboard]
    exact h.pending

/-- A frame is loaded and the interrupt is requested. -/
theorem Sound.loaded (h : x.Sound before control activeLow) (hidle : x.node.phase = .idle)
    (hne : frame ≠ []) {slot : TransmitSlot} (hphase : slot.phase = .pending)
    (hholds : slot.Holds frame) (hinstalled : n.installed = x.node.installed)
    (htransmit : n.station.transmit = { x.node.station.transmit with slot := slot })
    (hserial : n.serial = x.node.serial) (hboard : n.board = x.node.board.requestInterrupt) :
    Sound ⟨n, x.accepted ++ [frame]⟩ before control activeLow := by
  obtain ⟨t, done, hpath, haccepted, hstep, hmirrors⟩ := h.tracked.session
  have hsame : t.phase = .idle := (congrArg TransmitPath.phase hpath).trans hidle
  refine ⟨⟨hinstalled.trans h.tracked.installed, t.loaded slot frame, done, ?_,
    congrArg (· ++ [frame]) haccepted, hstep.loaded hsame hne hphase hholds, ?_⟩, fun _ => ?_⟩
  · rw [htransmit, ← hpath]
    rfl
  · rw [hserial, hboard]
    exact ⟨hmirrors.mark, hmirrors.transmitted, hmirrors.enables, hmirrors.pin⟩
  · rw [hboard]
    exact Nat.succ_pos _

theorem Sound.offer (h : x.Sound before control activeLow) {send : TransmitPath → SendOutcome}
    (hoffer : x.node.station.transmit.Offer frame (send x.node.station.transmit)) :
    (x.offer frame send).Sound before control activeLow := by
  rw [Transmission.offer]
  generalize send x.node.station.transmit = outcome at hoffer
  cases hoffer with
  | refused e => exact h.congr rfl rfl rfl rfl
  | loaded hidle hne hphase hholds => exact h.loaded hidle hne hphase hholds rfl rfl rfl rfl

/-! ### The moves of the node -/

theorem Tracked.pump (h : x.Tracked before control activeLow) (event : TransmitEvent) :
    Tracked ⟨x.node.pump event, x.accepted⟩ before control activeLow where
  installed := h.installed
  session := by
    obtain ⟨t, done, hpath, haccepted, hstep, hmirrors⟩ := h.session
    obtain ⟨done', hpumped⟩ := hstep.pumped event
    refine ⟨t.pumped event, done', congrArg (fun p => (p.pump event).1) hpath, haccepted, hpumped,
      ?_⟩
    show (t.bench.line.noteAll (t.path.pump event).2).Mirrors before control _ _
    rw [hpath]
    exact hmirrors.performAll _

/-- The kick starts a frame that waits, so none waits any more when the handler is through. -/
theorem Tracked.serveTransmitter (h : x.Tracked before control activeLow) :
    Tracked ⟨x.node.serveTransmitter, x.accepted⟩ before control activeLow
      ∧ x.node.serveTransmitter.phase ≠ .pending := by
  have hkicked := h.pump .kick
  have hphase : (x.node.pump .kick).phase ≠ .pending :=
    TransmitPath.pump_not_pending _ (.inr rfl)
  obtain ⟨board, hout, hserved | ⟨event, hserved⟩⟩ := x.node.serveTransmitter_cases
  · rw [hserved]
    exact ⟨hkicked.congr rfl rfl rfl hout, hphase⟩
  · have hlooked : Tracked ⟨{ x.node.pump .kick with board := board }, x.accepted⟩ before
        control activeLow := hkicked.congr rfl rfl rfl hout
    rw [hserved]
    exact ⟨hlooked.pump event, TransmitPath.pump_not_pending _ (.inl hphase)⟩

/-- A pass serves the requests so far. -/
theorem Sound.pass (h : x.Sound before control activeLow) (p : Node.Pass) :
    (x.move (.pass p)).Sound before control activeLow := by
  obtain ⟨habsent, -⟩ | ⟨-, events, serial, board, hmark, hout, hserved⟩ := x.node.pass_cases p
  · rw [h.tracked.installed] at habsent
    cases habsent
  obtain ⟨htracked, hphase⟩ := Tracked.serveTransmitter
    (h.tracked.congr (n := { x.node with
      station := { x.node.station with receive := (x.node.station.receive.receiveAll events).1 }
      serial := serial
      board := board
      activity := x.node.activity || !events.isEmpty }) rfl rfl hmark hout)
  rw [Transmission.move, hserved, if_neg fun hloads => hphase hloads.2]
  exact ⟨htracked, fun hpending => absurd hpending hphase⟩

/-- Where the transmit path stays as it is, nothing was accepted. -/
theorem Sound.quiet (h : x.Sound before control activeLow) {m : Node.Move}
    (hmove : x.node.move m = n) (hinstalled : n.installed = x.node.installed)
    (htransmit : n.station.transmit = x.node.station.transmit) (hserial : n.serial = x.node.serial)
    (hboard : n.board = x.node.board) : (x.move m).Sound before control activeLow := by
  have hsame : n.phase = x.node.phase := congrArg TransmitPath.phase htransmit
  rw [Transmission.move, hmove, hsame, if_neg]
  · exact h.congr hinstalled htransmit hserial hboard
  · rintro ⟨hidle, hpending⟩
    rw [hidle] at hpending
    cases hpending

theorem Sound.bus (h : x.Sound before control activeLow) :
    (x.move .bus).Sound before control activeLow := by
  have hstep := x.node.busStep_cases
  generalize hmove : x.node.move .bus = after at hstep
  cases hstep with
  | answers hbus hparse hreply hidle hne hphase hholds =>
    rw [Transmission.move, hmove, if_pos ⟨hidle, hphase⟩, Node.reply?_eq hbus hparse, hreply]
    exact h.loaded hidle hne hphase hholds rfl rfl rfl rfl
  | beside _ hbeside =>
    exact h.quiet hmove hbeside.installed (congrArg _ hbeside.station) hbeside.serial hbeside.board
  | begins => exact h.quiet hmove rfl rfl rfl rfl
  | wakes => exact h.quiet hmove rfl rfl rfl rfl
  | looks => exact h.quiet hmove rfl rfl rfl rfl
  | copies => exact h.quiet hmove rfl rfl rfl rfl
  | misses => exact h.quiet hmove rfl rfl rfl rfl
  | ignores => exact h.quiet hmove rfl rfl rfl rfl
  | retires => exact h.quiet hmove rfl rfl rfl rfl
  | skips => exact h.quiet hmove rfl rfl rfl rfl
  | recovers => exact h.quiet hmove rfl rfl rfl rfl

theorem Sound.step (h : x.Sound before control activeLow) (s : Step) :
    (x.step s).Sound before control activeLow := by
  cases s with
  | send destination source payload =>
    show (x.offer _ (·.send destination source payload)).Sound before control activeLow
    exact h.offer (x.node.station.transmit.send_offer destination source payload)
  | sendFrame frame =>
    show (x.offer _ (·.sendFrame frame)).Sound before control activeLow
    exact h.offer (x.node.station.transmit.sendFrame_offer frame)
  | move m =>
    obtain ⟨p, rfl⟩ | rfl | hbeside := x.node.move_cases m
    · exact h.pass p
    · exact h.bus
    · exact h.quiet rfl hbeside.installed (congrArg _ hbeside.station) hbeside.serial hbeside.board

/-! ### Whole runs -/

/-- The start leaves the line released. -/
theorem boot_sound (flash : Flash) {board : Board} (hwilling : board.refusal = none) :
    Sound ⟨Node.boot flash board, []⟩ board.transmitted (Node.boot flash board).board.control1
      flash.identity.1.driveActiveLow := by
  obtain ⟨t, hrun, hstep⟩ := Session.run_nil defaultRingSize defaultOutboxDepth flash.identity.1
  cases hrun
  obtain ⟨hinstalled, hstation, hmark, hout⟩ := Node.boot_taken flash hwilling
  refine ⟨⟨hinstalled, _, [], ?_, rfl, hstep, hmark, ?_, ?_, ?_⟩, ?_⟩
  · rw [hstation]
    rfl
  · exact (congrArg Outputs.transmitted hout).trans (List.append_nil _).symm
  · have hnone : LineRecorder.enableBits {} = 0 := rfl
    intro _
    show (Node.boot flash board).board.control1
      = (Node.boot flash board).board.control1 ||| LineRecorder.enableBits {}
    rw [hnone, UInt32.or_zero]
  · exact congrArg Outputs.driveHigh hout
  · rw [Node.phase, hstation]
    exact fun hpending => nomatch hpending

theorem run_sound (flash : Flash) {board : Board} (hwilling : board.refusal = none)
    (steps : List Step) :
    (run flash board steps).Sound board.transmitted (Node.boot flash board).board.control1
      flash.identity.1.driveActiveLow := by
  induction steps using List.reverseRecOn with
  | nil => exact boot_sound flash hwilling
  | append_singleton earlier s ih =>
    rw [run_snoc]
    exact ih.step s

/-- What the registers tell of the frames accepted so far. The words written are those of the
frames, all but the last whole and the last one up to some byte, with the ninth bit on the first
word of each frame only. A frame in flight has what brings the handler back: a request while it
waits, an enabled interrupt while it is sent and while it drains. All other bits of the first
control register are as they were when it held `control`, and the line is driven exactly while a
frame is on its way out. -/
structure Faithful (x : Transmission) (before : List UInt32) (control : UInt32)
    (activeLow : Bool) : Prop where
  transmitted : ∃ started, started <+: markFirst (x.accepted.getLast?.getD [])
    ∧ x.node.board.transmitted
      = before ++ (x.accepted.dropLast.flatMap markFirst ++ started).map lineWord
  whole : x.node.phase = .idle ∨ x.node.phase = .draining →
    x.node.board.transmitted = before ++ (x.accepted.flatMap markFirst).map lineWord
  pending : x.node.phase = .pending → 0 < x.node.board.requests
  sending : hasBits x.node.board.control1 emptyInterruptBit = true ↔ x.node.phase = .sending
  draining : hasBits x.node.board.control1 completeInterruptBit = true ↔ x.node.phase = .draining
  others : x.node.board.control1 &&& ~~~transmitInterruptBits = control &&& ~~~transmitInterruptBits
  driving : x.node.board.driveHigh = DriverEnable.assertedLevel activeLow
    ↔ x.node.phase = .sending ∨ x.node.phase = .draining

theorem Sound.driving (h : x.Sound before control activeLow) :
    x.node.board.driveHigh = DriverEnable.assertedLevel activeLow
      ↔ x.node.phase = .sending ∨ x.node.phase = .draining := by
  obtain ⟨t, done, hpath, -, hstep, hmirrors⟩ := h.tracked.session
  have hphase : t.phase = x.node.phase := congrArg TransmitPath.phase hpath
  rw [hmirrors.pin, ← hphase, ← hstep.conforms.driving, LineRecorder.isDriving,
    DriverEnable.isAsserted]
  cases t.bench.line.driveHigh <;> cases activeLow <;> decide

theorem Sound.faithful (h : x.Sound before control activeLow)
    (hquiet : hasBits control transmitInterruptBits = false) :
    x.Faithful before control activeLow := by
  obtain ⟨t, done, hpath, haccepted, hstep, hmirrors⟩ := h.tracked.session
  have hconforms := hstep.conforms
  have hphase : t.phase = x.node.phase := congrArg TransmitPath.phase hpath
  have hwords : x.node.board.transmitted = before ++ t.written.map lineWord := hmirrors.transmitted
  refine ⟨?_, ?_, h.pending, ?_, ?_, ?_, h.driving⟩
  · obtain ⟨started, hprefix, hwritten⟩ := hconforms.written
    rw [haccepted] at hprefix hwritten
    exact ⟨started, hprefix, by rw [hwords, hwritten]⟩
  · rw [← hphase, ← haccepted]
    intro hout
    rw [hwords, hconforms.whole hout]
  · rw [hmirrors.enables hquiet, t.bench.line.hasBits_empty hquiet, ← hphase]
    exact hconforms.bufferEmpty
  · rw [hmirrors.enables hquiet, t.bench.line.hasBits_complete hquiet, ← hphase]
    exact hconforms.complete
  · rw [hmirrors.enables hquiet, t.bench.line.others_enableBits]

/-- **The transmit interrupt neither strands nor garbles a frame.** Let a board take its settings at
the start of a node, and let these leave both transmit interrupts disabled, whatever else they put
into the first control register. Then frames may be offered and the node may move in any order,
passes of the handler with any words and any transmit flags among the moves; the registers are
always faithful to the frames accepted so far, and no bit of the first control register but those of
the two interrupts is ever changed. -/
theorem run_faithful (flash : Flash) {board : Board} (hwilling : board.refusal = none)
    (hquiet : hasBits board.settledControl1 transmitInterruptBits = false) (steps : List Step) :
    (Node.boot flash board).board.control1 = board.settledControl1 ||| receiveInterruptBit
      ∧ (run flash board steps).Faithful board.transmitted (Node.boot flash board).board.control1
        flash.identity.1.driveActiveLow := by
  obtain ⟨-, -, -, hout⟩ := Node.boot_taken flash hwilling
  have hcontrol : (Node.boot flash board).board.control1
      = board.settledControl1 ||| receiveInterruptBit := congrArg Outputs.control1 hout
  have hstart : hasBits (Node.boot flash board).board.control1 transmitInterruptBits = false := by
    rw [hcontrol, hasBits_or_of_eq_false hquiet]
    rfl
  exact ⟨hcontrol, (run_sound flash hwilling steps).faithful hstart⟩

/-- A frame goes out with stale flags on the way, and another one is offered too early. Then the
master sends a `ping`, and the last pass writes the first two words of the answer. -/
def relaySteps : List Step :=
  [.move .bus, .sendFrame [9, 8], .move (.pass ⟨[⟨0x41, .none, true⟩], true, true⟩), .send 5 1 [],
    .move (.pass ⟨arrivalsOf (Frame.wire 29 0 PollMessage.pingWord), true, true⟩),
    .move (.pass ⟨[], false, true⟩), .move .bus, .move .bus, .move .bus, .move .bus,
    .move (.pass ⟨[⟨0, ⟨false, true, false, false⟩, true⟩], true, true⟩)]

/-- A board whose settings switch both halves on and make words of nine bits. -/
def settledBoard : Board := { settledControl1 := 0x100D }

theorem relaySteps_faithful :
    (run .erased settledBoard relaySteps).accepted
        = [[9, 8], Frame.wire 0 29 (PollMessage.pong 0).payload]
      ∧ (run .erased settledBoard relaySteps).node.board.transmitted = [0x109, 8, 0x100, 29]
      ∧ (run .erased settledBoard relaySteps).node.phase = .sending
      ∧ (run .erased settledBoard relaySteps).node.board.control1 = 0x10AD
      ∧ (run .erased settledBoard relaySteps).Faithful [] 0x102D false := by
  have hwilling : settledBoard.refusal = none := rfl
  have hquiet : hasBits settledBoard.settledControl1 transmitInterruptBits = false := rfl
  obtain ⟨-, hfaithful⟩ := run_faithful .erased hwilling hquiet relaySteps
  exact ⟨by decide +kernel, by decide +kernel, by decide +kernel, by decide +kernel, hfaithful⟩

end Transmission

end MultidropBus
