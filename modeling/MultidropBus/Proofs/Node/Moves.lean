import Mathlib.Data.List.Induction
import MultidropBus.Node.Executor
import MultidropBus.Proofs.Node.Reception
import MultidropBus.Proofs.Transmit.Answers

/-!
# The moves of a node

The handler may make a pass between any two operations of the bus task, keys may be pressed and
statistics asked for at any time. So a run of a node is any sequence of moves, and the turns that an
executor gives to its tasks are only some of them.

What has to do with the bus is changed by two kinds of moves. A pass receives events, raises the
signal if there were any, and serves the transmitter. A step of the bus task is one of a few, each
with one operation on the station at most (`Node.BusStep`). All other moves take place beside the
bus (`Node.Beside`).
-/

namespace MultidropBus

/-! ### What the board puts out -/

/-- A byte and its address mark as the transmit register takes them. -/
def lineWord (x : UInt8 × Bool) : UInt32 := x.1.toUInt32 ||| bitIf x.2 addressBit

/-- The words of a frame as they come in from a faultless line. -/
def arrivalsOf (frame : Bytes) : List Arrival :=
  (markFirst frame).map fun x => ⟨lineWord x, .none, true⟩

def BoardWrite.word? : BoardWrite → Option UInt32
  | .data word => some word
  | _ => none

def BoardWrite.level? : BoardWrite → Option Bool
  | .drive high => some high
  | _ => none

/-- The words written to the transmit register, oldest first. -/
def Board.transmitted (b : Board) : List UInt32 := b.writes.filterMap BoardWrite.word?

/-- The levels given to the driver-enable pin, oldest first. -/
def Board.driveLevels (b : Board) : List Bool := b.writes.filterMap BoardWrite.level?

/-- What the transmitter of a station set on a board. -/
structure Outputs where
  control1 : UInt32
  transmitted : List UInt32
  driveHigh : Bool
  driveLevels : List Bool
  requests : Nat

namespace Board

def outputs (b : Board) : Outputs :=
  ⟨b.control1, b.transmitted, b.driveHigh, b.driveLevels, b.requests⟩

theorem outputs_record (b : Board) {w : BoardWrite} (hword : w.word? = none)
    (hlevel : w.level? = none) : (b.record w).outputs = b.outputs := by
  simp [outputs, record, transmitted, driveLevels, List.filterMap_append, hword, hlevel]

theorem outputs_writeData (b : Board) (word : UInt32) : (b.writeData word).outputs
    = { b.outputs with transmitted := b.transmitted ++ [word] } := by
  simp [outputs, writeData, record, transmitted, driveLevels, List.filterMap_append,
    BoardWrite.word?, BoardWrite.level?]

theorem outputs_drive (b : Board) (high : Bool) : (b.drive high).outputs
    = { b.outputs with driveHigh := high, driveLevels := b.outputs.driveLevels ++ [high] } := by
  simp [outputs, drive, record, transmitted, driveLevels, List.filterMap_append,
    BoardWrite.word?, BoardWrite.level?]

theorem outputs_writeControl1 (b : Board) (value : UInt32) :
    (b.writeControl1 value).outputs = { b.outputs with control1 := value } :=
  outputs_record { b with control1 := value } rfl rfl

theorem outputs_writeClear (b : Board) (value : UInt32) :
    (b.writeClear value).outputs = b.outputs := outputs_record _ rfl rfl

theorem outputs_readData (b : Board) : b.readData.2.outputs = b.outputs := by
  rw [readData]
  cases b.arrivals <;> rfl

end Board

/-- Settings that are taken rewrite the first control register, and the receive interrupt is enabled
after that. -/
theorem SerialDriver.configure_outputs {b : Board} (identity : Identity)
    (hwilling : b.refusal = none) :
    ∃ after, configure b identity.lineSettings = (.ok (), after)
      ∧ after.outputs = { b.outputs with
        control1 := b.settledControl1 ||| receiveInterruptBit } := by
  let asked := b.record (.settings .transmit identity.lineSettings)
  let taken := asked.record (.settings .receive identity.lineSettings)
  let settled := { taken with control1 := b.settledControl1 }
  let cleared := settled.readStatus.2.writeClear (errorBits ||| completeBit)
  let ready := cleared.writeControl3 (cleared.control3 ||| errorInterruptBit)
  have htaken : taken.outputs = b.outputs :=
    (asked.outputs_record rfl rfl).trans (b.outputs_record rfl rfl)
  have hcleared : cleared.outputs = { b.outputs with control1 := b.settledControl1 } := by
    rw [← htaken]
    exact Board.outputs_writeClear _ _
  have hready : ready.outputs = { b.outputs with control1 := b.settledControl1 } := by
    rw [← hcleared]
    exact Board.outputs_record { cleared with control3 := _ } rfl rfl
  refine ⟨ready.writeControl1 (ready.control1 ||| receiveInterruptBit), ?_, ?_⟩
  · simp [configure, Identity.lineSettings, LineSettings.multidrop, Board.applySettings, hwilling]
    rfl
  · have hcontrol : ready.control1 = b.settledControl1 := congrArg Outputs.control1 hready
    rw [Board.outputs_writeControl1, hready, hcontrol]

/-- Taking an event from the line puts nothing out. -/
theorem SerialDriver.outputs_readEvent (d : SerialDriver) (b : Board) :
    (d.readEvent b).2.outputs = b.outputs := by
  have hstatus : b.readStatus.2.outputs = b.outputs := rfl
  simp only [readEvent]
  split
  · rw [Board.outputs_writeClear]
    split
    · exact (Board.outputs_readData _).trans hstatus
    · exact hstatus
  · split
    · split <;> exact (Board.outputs_readData _).trans hstatus
    · exact hstatus

/-- Nor does looking for a transmit event. -/
theorem SerialDriver.outputs_pendingEvent (b : Board) :
    (pendingEvent b).2.outputs = b.outputs := by
  simp only [pendingEvent]
  repeat' split
  all_goals rfl

theorem SerialDriver.filterAll_nextIsAddress (d : SerialDriver) (actions : List FilterAction) :
    (d.filterAll actions).nextIsAddress = d.nextIsAddress := by
  induction actions generalizing d with
  | nil => rfl
  | cons action rest ih =>
    show ((d.filter action).filterAll rest).nextIsAddress = _
    rw [ih]
    cases action <;> rfl

/-- Where the bus task goes on after a look at the status. -/
def BusStatus.next : BusStatus → BusTask
  | .idle => .waiting
  | .completeFrame => .copying
  | .headerMismatch => .skipping
  | .faulted => .recovering

namespace Node

def phase (n : Node) : TransmitPhase := n.station.transmit.phase

/-! ### The start -/

theorem boot_identity (flash : Flash) (board : Board) :
    (boot flash board).identity = flash.identity.1 := by
  simp only [boot]
  split <;> rfl

/-- The pin starts low, and is put low once more. If the settings are taken the line is released
twice, by then at the level of its polarity. -/
theorem boot_taken (flash : Flash) {board : Board} (hwilling : board.refusal = none) :
    (boot flash board).installed = true
      ∧ (boot flash board).station = (Station.start flash.identity.1).1
      ∧ (boot flash board).serial.nextIsAddress = false
      ∧ (boot flash board).board.outputs = { board.outputs with
        control1 := board.settledControl1 ||| receiveInterruptBit
        driveHigh := DriverEnable.releasedLevel flash.identity.1.driveActiveLow
        driveLevels := board.driveLevels ++ [false, false,
          DriverEnable.releasedLevel flash.identity.1.driveActiveLow,
          DriverEnable.releasedLevel flash.identity.1.driveActiveLow] } := by
  obtain ⟨after, hconfigured, hafter⟩ := SerialDriver.configure_outputs
    (b := (board.drive false).drive false) flash.identity.1 hwilling
  simp only [boot, SerialDriver.initialise, hconfigured]
  refine ⟨rfl, rfl, rfl, ?_⟩
  show ((after.drive (DriverEnable.releasedLevel flash.identity.1.driveActiveLow)).drive
    (DriverEnable.releasedLevel flash.identity.1.driveActiveLow)).outputs = _
  rw [Board.outputs_drive, Board.outputs_drive, hafter, Board.outputs_drive, Board.outputs_drive]
  simp [Board.outputs, Board.drive, Board.record]

/-- If the settings are refused the node stops with the pin low. -/
theorem boot_refused (flash : Flash) {board : Board} {e : SettingsError}
    (hrefused : board.refusal = some e) :
    (boot flash board).installed = false ∧ (boot flash board).bus = .absent
      ∧ (boot flash board).phase = .idle
      ∧ (boot flash board).board.outputs = { board.outputs with
        driveHigh := false
        driveLevels := board.driveLevels ++ [false, false] } := by
  have hconfigured : SerialDriver.configure ((board.drive false).drive false)
      flash.identity.1.lineSettings = (.error e, (board.drive false).drive false) := by
    have hsame : ((board.drive false).drive false).refusal = some e := hrefused
    simp [SerialDriver.configure, Identity.lineSettings, LineSettings.multidrop,
      Board.applySettings, hsame]
  simp only [boot, SerialDriver.initialise, hconfigured]
  refine ⟨rfl, rfl, rfl, ?_⟩
  show ((board.drive false).drive false).outputs = _
  rw [Board.outputs_drive, Board.outputs_drive]
  simp [Board.outputs]

/-- The frame with which the bus task is about to answer, if it is about to handle a poll. -/
def reply? (n : Node) : Option Bytes :=
  match n.bus with
  | .handling bytes =>
    (Frame.parse bytes).toOption.bind fun frame => n.outbox.reply? frame n.identity.address
  | _ => none

/-! ### Moves -/

/-- What may happen to a node next. -/
inductive Move
  /-- The handler makes a pass. -/
  | pass (p : Pass)
  /-- The bus task takes a step, if it has one to take. -/
  | bus
  | key
  | main
  | moveKey (high : Bool)
  | wait (milliseconds : Nat)
  /-- A key code comes in, not necessarily from the key task. It is lost if the channel is full. -/
  | code (code : UInt8)
  /-- Statistics are asked for, not necessarily by the ticker. -/
  | statistics
deriving DecidableEq, Repr

def move (n : Node) : Move → Node
  | .pass p => n.raiseInterrupt p.arrivals p.transmitEmpty p.transmitComplete
  | .bus => n.busStep?.getD n
  | .key => n.pollKey
  | .main => n.pollMain
  | .moveKey high => n.moveKey high
  | .wait milliseconds => n.advanceClock milliseconds
  | .code code =>
    if n.keys.length < keyChannelSize then { n with keys := n.keys ++ [code] } else n
  | .statistics => { n with statisticsRequested := true }

def run (n : Node) (moves : List Move) : Node := moves.foldl move n

theorem run_snoc (n : Node) (moves : List Move) (m : Move) :
    n.run (moves ++ [m]) = (n.run moves).move m := by
  rw [run, List.foldl_append]
  rfl

/-! ### Beside the bus -/

/-- From one node to the other nothing happened that has to do with the bus, except that a frame may
have been put into the outbox. -/
structure Beside (n m : Node) : Prop where
  identity : m.identity = n.identity
  board : m.board = n.board
  serial : m.serial = n.serial
  station : m.station = n.station
  installed : m.installed = n.installed
  activity : m.activity = n.activity
  bus : m.bus = n.bus

theorem Beside.refl (n : Node) : n.Beside n := ⟨rfl, rfl, rfl, rfl, rfl, rfl, rfl⟩

theorem pressKey_beside (n : Node) : n.Beside n.pressKey := by
  rw [pressKey]
  split <;> exact ⟨rfl, rfl, rfl, rfl, rfl, rfl, rfl⟩

theorem pollKey_beside (n : Node) : n.Beside n.pollKey := by
  have hpress := n.pressKey_beside
  rw [pollKey, keyStep?]
  split
  · exact .refl n
  · exact ⟨rfl, rfl, rfl, rfl, rfl, rfl, rfl⟩
  · split <;> exact ⟨rfl, rfl, rfl, rfl, rfl, rfl, rfl⟩
  · split
    · exact .refl n
    · split
      · exact ⟨rfl, rfl, rfl, rfl, rfl, rfl, rfl⟩
      · exact ⟨hpress.identity, hpress.board, hpress.serial, hpress.station, hpress.installed,
          hpress.activity, hpress.bus⟩
  · split <;> exact ⟨rfl, rfl, rfl, rfl, rfl, rfl, rfl⟩

theorem pollMain_beside (n : Node) : n.Beside n.pollMain := by
  rw [pollMain]
  split
  · exact .refl n
  · split <;> exact ⟨rfl, rfl, rfl, rfl, rfl, rfl, rfl⟩

theorem moveKey_beside (n : Node) (high : Bool) : n.Beside (n.moveKey high) := by
  rw [moveKey]
  split
  · exact .refl n
  · split <;> exact ⟨rfl, rfl, rfl, rfl, rfl, rfl, rfl⟩

/-- A move is a pass, a step of the bus task, or takes place beside the bus. -/
theorem move_cases (n : Node) (m : Move) :
    (∃ p, m = .pass p) ∨ m = .bus ∨ n.Beside (n.move m) := by
  cases m with
  | pass p => exact .inl ⟨p, rfl⟩
  | bus => exact .inr (.inl rfl)
  | key => exact .inr (.inr n.pollKey_beside)
  | main => exact .inr (.inr n.pollMain_beside)
  | moveKey high => exact .inr (.inr (n.moveKey_beside high))
  | wait milliseconds => exact .inr (.inr ⟨rfl, rfl, rfl, rfl, rfl, rfl, rfl⟩)
  | code code =>
    refine .inr (.inr ?_)
    show n.Beside (if _ then _ else _)
    split <;> exact ⟨rfl, rfl, rfl, rfl, rfl, rfl, rfl⟩
  | statistics => exact .inr (.inr ⟨rfl, rfl, rfl, rfl, rfl, rfl, rfl⟩)

/-! ### The steps of the bus task -/

/-- What one step of the bus task may make of a node. -/
inductive BusStep (n : Node) : Node → Prop
  /-- There is nothing to do, a key press is queued, or statistics are logged. -/
  | beside {m : Node} (hbus : n.bus = .absent ∨ n.bus = .waiting) (h : n.Beside m) : BusStep n m
  | begins (hbus : n.bus = .spawned) (log : List LogEntry) :
    BusStep n { n with bus := .waiting, log := log }
  | wakes (hbus : n.bus = .waiting) (hactivity : n.activity = true) :
    BusStep n { n with activity := false, bus := .examining }
  | looks (hbus : n.bus = .examining) : BusStep n { n with bus := n.station.receive.status.next }
  | copies {bytes : Bytes} (hbus : n.bus = .copying)
    (hcopy : n.station.receive.copyFrame? = some bytes) :
    BusStep n { n with bus := .handling bytes }
  | misses (hbus : n.bus = .copying) : BusStep n { n with bus := .retiring }
  | ignores {bytes : Bytes} (hbus : n.bus = .handling bytes) (log : List LogEntry) :
    BusStep n { n with bus := .retiring, log := log }
  | answers {bytes reply : Bytes} {frame : Frame} {slot : TransmitSlot}
    (hbus : n.bus = .handling bytes) (hparse : Frame.parse bytes = .ok frame)
    (hreply : n.outbox.reply? frame n.identity.address = some reply) (hidle : n.phase = .idle)
    (hne : reply ≠ []) (hphase : slot.phase = .pending) (hholds : slot.Holds reply)
    (outbox : Outbox defaultOutboxDepth) (log : List LogEntry) :
    BusStep n { n with
      station := { n.station with transmit := { n.station.transmit with slot := slot } }
      board := n.board.requestInterrupt
      outbox := outbox
      bus := .retiring
      log := log }
  | retires (hbus : n.bus = .retiring) :
    BusStep n { n with
      station := { n.station with receive := n.station.receive.retire.2 }
      bus := .examining }
  | skips (hbus : n.bus = .skipping) :
    BusStep n { n with
      station := { n.station with receive := n.station.receive.skip.2 }
      bus := .examining }
  | recovers (hbus : n.bus = .recovering) (log : List LogEntry) :
    BusStep n { n with
      station := { n.station with receive := n.station.receive.recover.2 }
      bus := .examining
      log := log }

variable {n : Node}

theorem reply?_eq {bytes : Bytes} {frame : Frame} (hbus : n.bus = .handling bytes)
    (hparse : Frame.parse bytes = .ok frame) :
    n.reply? = n.outbox.reply? frame n.identity.address := by
  rw [reply?, hbus]
  simp only [hparse]
  rfl

theorem queueKey_beside (n : Node) (code : UInt8) : n.Beside (n.queueKey code) := by
  rw [queueKey]
  split <;> exact ⟨rfl, rfl, rfl, rfl, rfl, rfl, rfl⟩

theorem busStep_waiting (hbus : n.bus = .waiting) : n.BusStep (n.select?.getD n) := by
  rw [select?]
  split
  case isTrue hactivity => exact .wakes hbus hactivity
  case isFalse =>
    split
    case h_1 code keys hkeys =>
      obtain ⟨hidentity, hboard, hserial, hstation, hinstalled, hactivity, hsame⟩ :=
        queueKey_beside { n with keys := keys } code
      exact .beside (.inr hbus) ⟨hidentity, hboard, hserial, hstation, hinstalled, hactivity, hsame⟩
    case h_2 => split <;> exact .beside (.inr hbus) ⟨rfl, rfl, rfl, rfl, rfl, rfl, rfl⟩

theorem busStep_handling {bytes : Bytes} (hbus : n.bus = .handling bytes) :
    n.BusStep ((n.handleFrame bytes).toBusTask .retiring) := by
  rw [handleFrame]
  cases hparse : Frame.parse bytes with
  | error e => exact .ignores hbus _
  | ok frame =>
    have hanswers := n.station.transmit.answerPoll_answers n.outbox frame n.identity.address
    simp only []
    generalize n.station.transmit.answerPoll n.outbox frame n.identity.address = outcome
      at hanswers ⊢
    cases hanswers with
    | still result =>
      match result with
      | .ok (some message) => exact .ignores hbus _
      | .ok none => exact .ignores hbus _
      | .error e => exact .ignores hbus _
    | pong hreply hidle hne hphase hholds =>
      exact .answers hbus hparse hreply hidle hne hphase hholds _ _
    | sent hreply hidle hfrom hne hphase hholds =>
      exact .answers hbus hparse hreply hidle hne hphase hholds _ _

theorem busStep_cases (n : Node) : n.BusStep (n.move .bus) := by
  show n.BusStep (n.busStep?.getD n)
  rw [busStep?]
  cases hbus : n.bus with
  | absent => exact .beside (.inl hbus) (.refl n)
  | spawned => exact .begins hbus _
  | waiting => exact busStep_waiting hbus
  | examining =>
    have hlooks := BusStep.looks hbus
    cases hstatus : n.station.receive.status with
    | idle => rw [hstatus] at hlooks; exact hlooks
    | completeFrame => rw [hstatus] at hlooks; exact hlooks
    | headerMismatch => rw [hstatus] at hlooks; exact hlooks
    | faulted => rw [hstatus] at hlooks; exact hlooks
  | copying =>
    cases hcopy : n.station.receive.copyFrame? with
    | none => exact .misses hbus
    | some bytes => exact .copies hbus hcopy
  | handling bytes => exact busStep_handling hbus
  | retiring => exact .retires hbus
  | skipping => exact .skips hbus
  | recovering =>
    simp only []
    split <;> exact .recovers hbus _

/-! ### The parts of a pass -/

/-- The loop of the handler receives events, and puts nothing out. -/
theorem TakesEvents.effect {taken : Bool × Node} (h : TakesEvents n taken) :
    ∃ events serial board, taken.1 = !events.isEmpty
      ∧ serial.nextIsAddress = n.serial.nextIsAddress ∧ board.outputs = n.board.outputs
      ∧ taken.2 = { n with
        station := { n.station with receive := (n.station.receive.receiveAll events).1 }
        serial := serial
        board := board } := by
  induction h with
  | @none n board look =>
    refine ⟨[], n.serial, board, rfl, rfl, ?_, rfl⟩
    have hsame := n.serial.outputs_readEvent n.board
    rwa [look] at hsame
  | @some n event board taken look rest ih =>
    obtain ⟨events, serial, after, -, hmark, hout, hafter⟩ := ih
    refine ⟨event :: events, serial, after, rfl, ?_, ?_, hafter⟩
    · exact hmark.trans (n.serial.filterAll_nextIsAddress _)
    · have hsame := n.serial.outputs_readEvent n.board
      rw [look] at hsame
      exact hout.trans hsame

/-- After the kick the transmitter gets at most one more event. -/
theorem serveTransmitter_cases (n : Node) :
    ∃ board, board.outputs = (n.pump .kick).board.outputs
      ∧ (n.serveTransmitter = { n.pump .kick with board := board }
        ∨ ∃ event, n.serveTransmitter = { n.pump .kick with board := board }.pump event) := by
  have hsame := SerialDriver.outputs_pendingEvent (n.pump .kick).board
  simp only [serveTransmitter]
  rcases hpending : SerialDriver.pendingEvent (n.pump .kick).board with ⟨event, board⟩
  rw [hpending] at hsame
  refine ⟨board, hsame, ?_⟩
  cases event with
  | none => exact .inl rfl
  | some event => exact .inr ⟨event, rfl⟩

/-- A node whose handler is not in place only gathers what arrives. Otherwise events are received,
with the signal raised if there were any, and the transmitter is served. -/
theorem pass_cases (n : Node) (p : Pass) :
    n.installed = false ∧ n.move (.pass p) = n.raised p
      ∨ n.installed = true ∧ ∃ events serial board, serial.nextIsAddress = n.serial.nextIsAddress
        ∧ board.outputs = { n.board.outputs with requests := 0 }
        ∧ n.move (.pass p) = serveTransmitter { n with
          station := { n.station with receive := (n.station.receive.receiveAll events).1 }
          serial := serial
          board := board
          activity := n.activity || !events.isEmpty } := by
  show _ ∨ _ ∧ ∃ events serial board, _ ∧ _ ∧ (n.raised p).interrupt = _
  by_cases hinstalled : n.installed = true
  case neg =>
    have habsent := Bool.eq_false_iff.2 hinstalled
    refine .inl ⟨habsent, ?_⟩
    show (n.raised p).interrupt = _
    rw [interrupt, if_pos]
    exact congrArg Bool.not habsent
  case pos =>
    refine .inr ⟨hinstalled, ?_⟩
    obtain ⟨events, serial, board, hsome, hmark, hout, htaken⟩ :=
      (n.raised p).takesEvents_interrupt.effect
    refine ⟨events, serial, board, hmark, hout, ?_⟩
    rw [interrupt_eq (n := n.raised p) hinstalled, finish, hsome, htaken]
    cases events with
    | nil => simp [raised]
    | cons event rest => simp [raised]

/-- A pass receives events and raises the signal if there were any; to the rest of the receive side
it does nothing. -/
theorem pass_receives (n : Node) (p : Pass) :
    ∃ events, (n.move (.pass p)).station.receive = (n.station.receive.receiveAll events).1
      ∧ (n.move (.pass p)).activity = (n.activity || !events.isEmpty)
      ∧ (n.move (.pass p)).bus = n.bus ∧ (n.move (.pass p)).identity = n.identity := by
  rcases n.pass_cases p with ⟨-, hsame⟩ | ⟨-, events, serial, board, -, -, hserved⟩
  · rw [hsame]
    exact ⟨[], rfl, (Bool.or_false _).symm, rfl, rfl⟩
  · refine ⟨events, ?_⟩
    rw [hserved]
    obtain ⟨board, -, hlook | ⟨event, hlook⟩⟩ := serveTransmitter_cases { n with
      station := { n.station with receive := (n.station.receive.receiveAll events).1 }
      serial := serial
      board := board
      activity := n.activity || !events.isEmpty }
    · rw [hlook]
      exact ⟨rfl, rfl, rfl, rfl⟩
    · rw [hlook]
      exact ⟨rfl, rfl, rfl, rfl⟩

/-- Nothing changes the identity of a node. -/
theorem move_identity (n : Node) (m : Move) : (n.move m).identity = n.identity := by
  obtain ⟨p, rfl⟩ | rfl | hbeside := n.move_cases m
  · obtain ⟨events, -, -, -, hidentity⟩ := n.pass_receives p
    exact hidentity
  · have hstep := n.busStep_cases
    generalize n.move .bus = after at hstep
    cases hstep with
    | beside _ hbeside => exact hbeside.identity
    | _ => rfl
  · exact hbeside.identity

theorem run_identity (n : Node) (moves : List Move) : (n.run moves).identity = n.identity := by
  induction moves using List.reverseRecOn with
  | nil => rfl
  | append_singleton earlier m ih => rw [run_snoc, move_identity, ih]

end Node

end MultidropBus
