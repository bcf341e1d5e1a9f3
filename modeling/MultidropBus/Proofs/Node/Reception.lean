import MultidropBus.Node.Boot
import MultidropBus.Node.Interrupt
import MultidropBus.Proofs.Node.Arrivals
import MultidropBus.Proofs.Receive.Toggles

/-!
# The interrupt handler refines the receiver

Filtering exists twice in a node: the driver drops data words while its filter is armed, and the
receiver ignores data bytes outside a frame. A dropped word also ends the loop of the handler, so
the words behind it wait for the next pass, with whatever arrives in the meantime. None of this can
be seen in the end. The two filters are *in step*: the driver drops exactly what the receiver would
ignore. So each pass takes some pending words off the front of the queue and leaves the receive path
where the events of these words take it, and once the queue is empty all events have been received
in order.
-/

namespace MultidropBus

/-! ### The filter of the driver follows the receiver -/

section

variable {size : RingSize} {d : SerialDriver} {p : ReceivePath size}

/-- A driver's filter stands where the toggles lead it. -/
theorem SerialDriver.filterAll_filtering {actions : List FilterAction} {armed : Bool}
    (h : FilterAction.settle? d.filtering actions = some armed) :
    (d.filterAll actions).filtering = armed := by
  induction actions generalizing d with
  | nil => exact Option.some.inj h
  | cons action rest ih =>
    cases action with
    | arm => exact ih (d := d.filter .arm) h
    | disarm => exact ih (d := d.filter .disarm) (FilterAction.settle?_disarm h).2

/-- After every event the filter is armed exactly if no frame is in flight. -/
theorem receive_filters (event : LineEvent) (h : d.filtering = !p.isReceiving) :
    (d.filterAll (p.receive event).2).filtering = !(p.receive event).1.isReceiving := by
  have hsettles := (p.receive_toggles event).settles
  rw [← h] at hsettles
  exact SerialDriver.filterAll_filtering hsettles

/-- What a driver in step keeps back would not have changed the receiver. -/
theorem receive_dropped {event : LineEvent} (h : d.filtering = !p.isReceiving)
    (hdropped : d.admits event = false) : (p.receive event).1 = p := by
  match event with
  | .error e => cases hdropped
  | .byte data true => cases hdropped
  | .byte data false =>
    have harmed : d.filtering = true := by simpa [SerialDriver.admits] using hdropped
    show (p.receiveData data).1 = p
    unfold ReceivePath.receiveData
    split
    case h_1 => rfl
    case h_2 frame hreceiving =>
      rw [harmed, ReceivePath.isReceiving, hreceiving] at h
      cases h

end

/-- No action of the transmitter touches the queue or the filter. -/
theorem performAll_keeps (d : SerialDriver) (b : Board) (actions : List TransmitAction) :
    (d.performAll b actions).1.filtering = d.filtering
      ∧ (d.performAll b actions).2.arrivals = b.arrivals := by
  induction actions generalizing d b with
  | nil => exact ⟨rfl, rfl⟩
  | cons action rest ih =>
    obtain ⟨hfilter, hqueue⟩ := ih (d.perform b action).1 (d.perform b action).2
    have hstep : (d.perform b action).1.filtering = d.filtering
        ∧ (d.perform b action).2.arrivals = b.arrivals := by
      cases action <;> exact ⟨rfl, rfl⟩
    exact ⟨hfilter.trans hstep.1, hqueue.trans hstep.2⟩

/-! ### The loop of the handler -/

namespace Node

/-- The driver's filter is armed exactly if no frame is in flight. -/
def FiltersInStep (n : Node) : Prop := n.serial.filtering = !n.station.receive.isReceiving

/-- A node whose handler was just put in place: the filter of the driver is armed, and the receiver
waits for an address. The ring may hold bytes of an earlier run. -/
structure Fresh (n : Node) : Prop where
  installed : n.installed = true
  filtering : n.serial.filtering = true
  waiting : n.station.receive.state = .filtering

theorem Fresh.filters {n : Node} (h : n.Fresh) : n.FiltersInStep := by
  rw [FiltersInStep, h.filtering, ReceivePath.isReceiving, h.waiting]
  rfl

/-- A board that refuses no settings takes those of any identity. -/
theorem configure_ok {b : Board} (identity : Identity) (hwilling : b.refusal = none) :
    (SerialDriver.configure b identity.lineSettings).1 = .ok () := by
  simp [SerialDriver.configure, Identity.lineSettings, LineSettings.multidrop, Board.applySettings,
    hwilling]

/-- So the start puts a fresh handler in place. -/
theorem boot_fresh (flash : Flash) {board : Board} (hwilling : board.refusal = none) :
    (boot flash board).Fresh := by
  have htaken := configure_ok (b := (board.drive false).drive false) flash.identity.1 hwilling
  rcases hconfigured : SerialDriver.configure ((board.drive false).drive false)
    flash.identity.1.lineSettings with ⟨answer, after⟩
  rw [hconfigured] at htaken
  obtain rfl : answer = .ok () := htaken
  simp only [boot, SerialDriver.initialise, hconfigured]
  exact ⟨rfl, (performAll_keeps ..).1, rfl⟩

/-- Hands an event to the receiver, and to the driver what the receiver asks of it. -/
def takeEvent (n : Node) (event : LineEvent) (board : Board) : Node :=
  let received := n.station.receive.receive event
  { n with board := board, serial := n.serial.filterAll received.2 }.setReceive received.1

/-- A run of the handler's loop, which nothing bounds: it takes events until the driver yields none,
and tells whether there was one. -/
inductive TakesEvents : Node → Bool × Node → Prop
  | none {n : Node} {board : Board} (hlook : n.serial.readEvent n.board = (none, board)) :
      TakesEvents n (false, { n with board := board })
  | some {n : Node} {event : LineEvent} {board : Board} {taken : Bool × Node}
      (hlook : n.serial.readEvent n.board = (some event, board))
      (hrest : TakesEvents (n.takeEvent event board) taken) : TakesEvents n (true, taken.2)

/-- The second half of the handler: it kicks the transmitter and gives it at most one more event. -/
def serveTransmitter (n : Node) : Node :=
  let n := n.pump .kick
  match SerialDriver.pendingEvent n.board with
  | (some event, board) => { n with board := board }.pump event
  | (none, board) => { n with board := board }

/-- What the handler does after its loop. -/
def finish (taken : Bool × Node) : Node :=
  (if taken.1 then { taken.2 with activity := true } else taken.2).serveTransmitter

/-- A run of the whole handler from one node to another. -/
def Handles (n m : Node) : Prop := ∃ taken, TakesEvents n taken ∧ m = finish taken

theorem interrupt_eq {n : Node} (hinstalled : n.installed = true) :
    n.interrupt = finish (n.receiveEvents (n.board.arrivals.length + 1)) := by
  rw [interrupt, hinstalled]
  rfl

/-- With room for one more look than there are pending words the loop comes to its end. -/
theorem takesEvents_receiveEvents (n : Node) (room : Nat)
    (henough : n.board.pending.length < room) : TakesEvents n (n.receiveEvents room) := by
  induction room generalizing n with
  | zero => exact absurd henough (Nat.not_lt_zero _)
  | succ room ih =>
    rw [receiveEvents]
    split
    case h_1 board hlook => exact .none hlook
    case h_2 event board hlook =>
      obtain ⟨first, hpending, -⟩ := SerialDriver.readEvent_some hlook
      have hfewer : board.pending.length < room := by
        rw [hpending, List.length_cons] at henough
        omega
      exact .some hlook (ih _ hfewer)

theorem takesEvents_interrupt (n : Node) :
    TakesEvents n (n.receiveEvents (n.board.arrivals.length + 1)) :=
  n.takesEvents_receiveEvents _ (Nat.lt_succ_of_le n.board.length_pending_le)

/-- A run of the loop has one outcome. -/
theorem TakesEvents.unique {n : Node} {first second : Bool × Node} (h : TakesEvents n first)
    (hother : TakesEvents n second) : first = second := by
  induction h generalizing second with
  | none hlook =>
    cases hother with
    | none hagain => rw [hlook] at hagain; cases hagain; rfl
    | some hagain => rw [hlook] at hagain; cases hagain
  | some hlook _ ih =>
    cases hother with
    | none hagain => rw [hlook] at hagain; cases hagain
    | some hagain hrest => rw [hlook] at hagain; cases hagain; rw [ih hrest]

/-- An installed handler always ends, and ends as `interrupt` says. -/
theorem handles_iff {n m : Node} (hinstalled : n.installed = true) :
    Handles n m ↔ m = n.interrupt := by
  rw [interrupt_eq hinstalled]
  constructor
  case mp =>
    rintro ⟨taken, hloop, rfl⟩
    rw [hloop.unique n.takesEvents_interrupt]
  case mpr => exact fun h => ⟨_, n.takesEvents_interrupt, h⟩

/-! ### What a pass takes from the queue -/

/-- From `n` on, with further arrivals on the way, `m` is reached, and the words in `gone` have been
taken off the front of the queue and their events received. -/
structure Receives (n : Node) (arrivals : List Arrival) (m : Node) (gone : List Arrival) :
    Prop where
  pending : n.board.pending ++ arrivals.filter (·.isPending) = gone ++ m.board.pending
  receive : m.station.receive = (n.station.receive.receiveAll (gone.filterMap Arrival.event?)).1
  filters : m.FiltersInStep
  installed : m.installed = n.installed

section

variable {n m k : Node} {arrivals later gone went : List Arrival}

theorem Receives.trans (hfirst : Receives n arrivals m gone) (hlater : Receives m later k went) :
    Receives n (arrivals ++ later) k (gone ++ went) where
  pending := by
    rw [List.filter_append, ← List.append_assoc, hfirst.pending, List.append_assoc, hlater.pending,
      List.append_assoc]
  receive := by
    rw [hlater.receive, hfirst.receive, List.filterMap_append, ReceivePath.receiveAll_append]
  filters := hlater.filters
  installed := hlater.installed.trans hfirst.installed

theorem Receives.refl (hfilters : n.FiltersInStep) : Receives n [] n [] :=
  ⟨List.append_nil _, rfl, hfilters, rfl⟩

/-- Nothing more is received where neither the queue nor the receive side changes. -/
theorem Receives.quiet (h : Receives n arrivals m gone)
    (hpending : k.board.pending = m.board.pending)
    (hreceive : k.station.receive = m.station.receive)
    (hfilter : k.serial.filtering = m.serial.filtering) (hinstalled : k.installed = m.installed) :
    Receives n arrivals k gone where
  pending := hpending ▸ h.pending
  receive := hreceive.trans h.receive
  filters := by rw [FiltersInStep, hfilter, hreceive]; exact h.filters
  installed := hinstalled.trans h.installed

/-- One event is one word. -/
theorem receives_takeEvent (hfilters : n.FiltersInStep) {event : LineEvent} {board : Board}
    (hlook : n.serial.readEvent n.board = (some event, board)) :
    ∃ first, Receives n [] (n.takeEvent event board) [first] := by
  obtain ⟨first, hpending, hmeans⟩ := SerialDriver.readEvent_some hlook
  refine ⟨first, ?_, ?_, receive_filters event hfilters, rfl⟩
  · rw [List.filter_nil, List.append_nil]
    exact hpending
  · simp only [List.filterMap_cons_some hmeans, List.filterMap_nil, ReceivePath.receiveAll]
    rfl

/-- The loop takes pending words from the front of the queue, and at least one if there is one. -/
theorem TakesEvents.receives {taken : Bool × Node} (hloop : TakesEvents n taken)
    (hfilters : n.FiltersInStep) :
    ∃ gone, Receives n [] taken.2 gone ∧ (n.board.pending ≠ [] → gone ≠ []) := by
  induction hloop with
  | @none n board hlook =>
    obtain ⟨hempty, hleft⟩ | ⟨first, event, hpending, hmeans, hdropped⟩ :=
      SerialDriver.readEvent_none hlook
    · exact ⟨[], (Receives.refl hfilters).quiet (hleft.trans hempty.symm) rfl rfl rfl,
        fun hne => absurd hempty hne⟩
    · -- the loop ends at a dropped word, which counts as received: the receiver ignores its event
      refine ⟨[first], ⟨by simpa using hpending, ?_, hfilters, rfl⟩,
        fun _ => List.cons_ne_nil _ _⟩
      simp only [List.filterMap_cons_some hmeans, List.filterMap_nil, ReceivePath.receiveAll]
      exact (receive_dropped hfilters hdropped).symm
  | some hlook _ ih =>
    obtain ⟨first, hone⟩ := receives_takeEvent hfilters hlook
    obtain ⟨gone, hothers, -⟩ := ih hone.filters
    exact ⟨first :: gone, hone.trans hothers, fun _ => List.cons_ne_nil _ _⟩

end

/-! ### The transmitter leaves reception alone -/

section

variable {n m : Node} {arrivals gone : List Arrival}

theorem Receives.pump (h : Receives n arrivals m gone) (event : TransmitEvent) :
    Receives n arrivals (m.pump event) gone := by
  obtain ⟨hfilter, hqueue⟩ := performAll_keeps m.serial m.board (m.station.transmit.pump event).2
  exact h.quiet (congrArg (List.filter Arrival.isPending) hqueue) rfl hfilter rfl

theorem Receives.look (h : Receives n arrivals m gone) :
    Receives n arrivals { m with board := (SerialDriver.pendingEvent m.board).2 } gone :=
  h.quiet (SerialDriver.pending_pendingEvent m.board) rfl rfl rfl

theorem Receives.serveTransmitter (h : Receives n arrivals m gone) :
    Receives n arrivals m.serveTransmitter gone := by
  have hlooked := (h.pump .kick).look
  simp only [Node.serveTransmitter]
  split
  case h_1 event board hevent =>
    rw [hevent] at hlooked
    exact hlooked.pump event
  case h_2 board hevent =>
    rw [hevent] at hlooked
    exact hlooked

theorem Receives.finish {taken : Bool × Node} (h : Receives n arrivals taken.2 gone) :
    Receives n arrivals (finish taken) gone := by
  refine Receives.serveTransmitter ?_
  split
  case isTrue => exact h.quiet rfl rfl rfl rfl
  case isFalse => exact h

end

/-! ### Passes -/

/-- A pass of the handler, with the words that arrived since the one before it. -/
structure Pass where
  arrivals : List Arrival
  transmitEmpty : Bool
  transmitComplete : Bool
deriving DecidableEq, Repr

/-- The node as the handler finds it when its interrupt is raised. -/
def raised (n : Node) (p : Pass) : Node :=
  { n with
    board := { n.board with
      arrivals := n.board.arrivals ++ p.arrivals
      transmitEmpty := p.transmitEmpty
      transmitComplete := p.transmitComplete
      requests := 0 } }

def passes (n : Node) (ps : List Pass) : Node :=
  ps.foldl (fun n p => n.raiseInterrupt p.arrivals p.transmitEmpty p.transmitComplete) n

section

variable {n : Node}

-- both lemmas need only filters in step, so they hold between any two passes as well

/-- A pass takes some of the pending words, and at least one if there is one. -/
theorem receives_pass (p : Pass) (hfilters : n.FiltersInStep) (hinstalled : n.installed = true) :
    ∃ gone, Receives n p.arrivals (n.raised p).interrupt gone
      ∧ ((n.raised p).board.pending ≠ [] → gone ≠ []) := by
  obtain ⟨gone, htaken, hsome⟩ := (n.raised p).takesEvents_interrupt.receives hfilters
  have hcame : Receives n p.arrivals (n.raised p) [] :=
    ⟨(List.filter_append ..).symm, rfl, hfilters, rfl⟩
  rw [interrupt_eq (n := n.raised p) hinstalled]
  refine ⟨gone, ?_, hsome⟩
  simpa using hcame.trans htaken.finish

/-- Any number of passes receives a front part of all that arrived, in order. -/
theorem receives_passes (ps : List Pass) (hfilters : n.FiltersInStep)
    (hinstalled : n.installed = true) :
    ∃ gone, Receives n (ps.flatMap Pass.arrivals) (n.passes ps) gone := by
  induction ps generalizing n with
  | nil => exact ⟨[], .refl hfilters⟩
  | cons p ps ih =>
    obtain ⟨gone, hfirst, -⟩ := receives_pass p hfilters hinstalled
    obtain ⟨went, hothers⟩ := ih hfirst.filters (hfirst.installed.trans hinstalled)
    exact ⟨gone ++ went, hfirst.trans hothers⟩

end

/-- The events of all words, in the order of their arrival. -/
def lineEvents (n : Node) (ps : List Pass) : List LineEvent :=
  (n.board.arrivals ++ ps.flatMap Pass.arrivals).filterMap Arrival.event?

/-- Let the handler make any passes from a fresh node on, with any words in the queue at first and
any words arriving between the passes. Then one more pass comes to an end, and to one end only; it
takes words from the front of the queue, and at least one if there is one. And whenever the queue is
empty, the ring, the fault latch, the counters, the receiver and all that the poll side computes
from them are what they would be had the events of all words been handed to the receiver one by one,
without a filter. -/
theorem passes_receive_all (n : Node) (hfresh : n.Fresh) (ps : List Pass) :
    (∀ p, let before := (n.passes ps).raised p
      let after := n.passes (ps ++ [p])
      (∀ m, Handles before m ↔ m = after)
        ∧ ∃ gone, before.board.pending = gone ++ after.board.pending
          ∧ (before.board.pending ≠ [] → gone ≠ []))
      ∧ ((n.passes ps).board.pending = [] →
        (n.passes ps).station.receive
          = (n.station.receive.receiveAll (n.lineEvents ps)).1) := by
  obtain ⟨gone, hrun⟩ := receives_passes ps hfresh.filters hfresh.installed
  have hinstalled : (n.passes ps).installed = true := hrun.installed.trans hfresh.installed
  constructor
  case left =>
    intro p before after
    have hreached : after = before.interrupt := by
      simp only [after, passes, List.foldl_append, List.foldl_cons, List.foldl_nil]
      rfl
    rw [hreached]
    obtain ⟨went, hpass, hsome⟩ := receives_pass p hrun.filters hinstalled
    exact ⟨fun m => handles_iff (n := before) hinstalled,
      went, (List.filter_append ..).trans hpass.pending, hsome⟩
  case right =>
    intro hempty
    -- with nothing left, the words taken are all the pending ones
    have htaken := hrun.pending
    rw [hempty, List.append_nil, Board.pending, ← List.filter_append] at htaken
    rw [hrun.receive, ← htaken, Arrival.filterMap_pending]
    rfl

/-- A data word outside any frame, with an address word for the node behind it; the rest of a frame
with noise on one of its words; an address word for another node with a data word behind it. -/
def noisyPasses : List Pass :=
  [⟨[⟨0x41, .none, true⟩, ⟨0x11D, .none, true⟩], false, false⟩,
    ⟨[⟨0x42, .none, true⟩, ⟨0x43, ⟨true, false, true, false⟩, true⟩], true, false⟩,
    ⟨[⟨0x105, .none, true⟩, ⟨0x44, .none, true⟩], true, true⟩]

theorem noisyPasses_received :
    (boot .erased {}).Fresh
      ∧ ((boot .erased {}).passes noisyPasses).board.pending = []
      ∧ ((boot .erased {}).passes noisyPasses).station.receive
        = ((boot .erased {}).station.receive.receiveAll
          [.byte 0x41 false, .byte 0x1D true, .byte 0x42 false, .error .parity, .byte 5 true,
            .byte 0x44 false]).1 := by
  have hfresh : (boot .erased {}).Fresh := boot_fresh .erased rfl
  have hempty : ((boot .erased {}).passes noisyPasses).board.pending = [] := by decide +kernel
  exact ⟨hfresh, hempty, (passes_receive_all (boot .erased {}) hfresh noisyPasses).2 hempty⟩

end Node

end MultidropBus
