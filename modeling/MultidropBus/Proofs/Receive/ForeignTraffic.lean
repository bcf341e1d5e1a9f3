import MultidropBus.Proofs.Node.Arrivals
import MultidropBus.Proofs.Node.Reception
import MultidropBus.Proofs.Receive.Polls
import MultidropBus.Station

/-!
# Foreign traffic

Between frames a station hears much that is not for it: the address bytes of other stations and the
data behind them. A station that never heard them does the same. Whether an event may be left out
depends on the frame that is in flight when it comes (`ReceivePath.ignores`), so a stream is sifted
along the run of a station that hears all of it (`Station.sift`). The two runs stay the same in
everything but the count of foreign addresses, which tells how many of them were left out
(`Station.run_sift`).

A line whose hardware keeps back data bytes while the filter is armed leaves out even less, and the
station cannot tell (`Station.runBehind_eq`).
-/

namespace MultidropBus

/-! ### What a station is asked, and what it does -/

/-- What may be asked of the poll side. -/
inductive Request
  | status
  | currentFrame
  | copyFrame
  | retire
  | skip
  | recover
  | send (destination source : Address) (payload : Bytes)
  | sendFrame (frame : Bytes)
  | phase
  | isTransmitting
  | buffered
  | stats
deriving DecidableEq, Repr

inductive Reply
  | status (status : BusStatus)
  | frame (frame : Option Frame)
  | copy (bytes : Option Bytes)
  /-- Whether something was retired or skipped. -/
  | done (done : Bool)
  | recovered (kind : Option FaultKind)
  | sent (result : Except SendError Unit)
  | phase (phase : TransmitPhase)
  | transmitting (busy : Bool)
  | buffered (bytes : Nat)
  | stats (stats : BusStats)
deriving DecidableEq, Repr

inductive StationStep
  /-- The receiver hears an event of the line. -/
  | hear (event : LineEvent)
  /-- The transmitter is given an event. -/
  | pump (event : TransmitEvent)
  | ask (request : Request)
deriving DecidableEq, Repr

/-- What can be seen of a station from outside. -/
inductive Effect
  | filter (action : FilterAction)
  | transmit (action : TransmitAction)
  | reply (reply : Reply)
deriving DecidableEq, Repr

def LineEvent.isAddress : LineEvent → Bool
  | .byte _ address => address
  | .error _ => false

namespace Station

variable {size : RingSize}

/-- An operation of the poll side on the receive path. -/
def polled {α : Type} (s : Station size) (done : α × ReceivePath size) (reply : α → Reply) :
    Station size × List Effect :=
  ({ s with receive := done.2 }, [.reply (reply done.1)])

def offered (s : Station size) (outcome : SendOutcome) : Station size × List Effect :=
  ({ s with transmit := outcome.path },
    outcome.actions.map Effect.transmit ++ [.reply (.sent outcome.result)])

def ask (s : Station size) : Request → Station size × List Effect
  | .status => (s, [.reply (.status s.receive.status)])
  | .currentFrame => s.polled s.receive.currentFrame .frame
  | .copyFrame => (s, [.reply (.copy s.receive.copyFrame?)])
  | .retire => s.polled s.receive.retire .done
  | .skip => s.polled s.receive.skip .done
  | .recover => s.polled s.receive.recover .recovered
  | .send destination source payload => s.offered (s.transmit.send destination source payload)
  | .sendFrame frame => s.offered (s.transmit.sendFrame frame)
  | .phase => (s, [.reply (.phase s.transmit.phase)])
  | .isTransmitting => (s, [.reply (.transmitting s.transmit.isTransmitting)])
  | .buffered => (s, [.reply (.buffered s.receive.buffered)])
  | .stats => (s, [.reply (.stats s.stats)])

def step (s : Station size) : StationStep → Station size × List Effect
  | .hear event =>
    let heard := s.receive.receive event
    ({ s with receive := heard.1 }, heard.2.map Effect.filter)
  | .pump event =>
    let pumped := s.transmit.pump event
    ({ s with transmit := pumped.1 }, pumped.2.map Effect.transmit)
  | .ask request => s.ask request

/-- The station after some steps, and all that could be seen of it. -/
def run (s : Station size) : List StationStep → Station size × List Effect
  | [] => (s, [])
  | step :: rest =>
    let first := s.step step
    let others := first.1.run rest
    (others.1, first.2 ++ others.2)

end Station

/-! ### What may be left out -/

/-- Between frames data bytes pass by, and so do the addresses of others. -/
def ReceivePath.ignores {size : RingSize} (p : ReceivePath size) : LineEvent → Bool
  | .byte address true => !p.isReceiving && !p.identity.accepts address
  | .byte _ false => !p.isReceiving
  | .error _ => false

namespace Station

variable {size : RingSize}

/-- The steps without the events that the station ignores when it comes to them, and these events.
-/
def sift (s : Station size) : List StationStep → List StationStep × List LineEvent
  | [] => ([], [])
  | step :: rest =>
    let sifted := (s.step step).1.sift rest
    match step with
    | .hear event =>
      if s.receive.ignores event then (sifted.1, event :: sifted.2)
      else (.hear event :: sifted.1, sifted.2)
    | step => (step :: sifted.1, sifted.2)

/-- The run behind hardware that keeps back data bytes while its filter is armed. -/
def runBehind (s : Station size) (d : SerialDriver) : List StationStep → Station size × List Effect
  | [] => (s, [])
  | .hear event :: rest =>
    if d.admits event then
      let first := s.step (.hear event)
      let others := first.1.runBehind (d.filterAll (s.receive.receive event).2) rest
      (others.1, first.2 ++ others.2)
    else s.runBehind d rest
  | step :: rest =>
    let first := s.step step
    let others := first.1.runBehind d rest
    (others.1, first.2 ++ others.2)

end Station

/-! ### More foreign addresses -/

def ReceiveCounters.addForeign (c : ReceiveCounters) (n : Nat) : ReceiveCounters :=
  { c with foreign := c.foreign + n }

theorem ReceiveCounters.countFault_addForeign (c : ReceiveCounters) (n : Nat) (kind : FaultKind) :
    (c.addForeign n).countFault kind = (c.countFault kind).addForeign n := by cases kind <;> rfl

namespace ReceivePath

variable {size : RingSize}

/-- The same receive path after it heard more foreign addresses. -/
def addForeign (p : ReceivePath size) (n : Nat) : ReceivePath size :=
  { p with counters := p.counters.addForeign n }

theorem fault_addForeign (p : ReceivePath size) (n : Nat) (kind : FaultKind) :
    (p.addForeign n).fault kind = ((p.fault kind).1.addForeign n, (p.fault kind).2) := by
  simp only [fault, addForeign, ReceiveCounters.countFault_addForeign]
  rfl

theorem store_addForeign (p : ReceivePath size) (n : Nat) (f : InFlight) (byte : UInt8) :
    (p.addForeign n).store f byte = ((p.store f byte).1.addForeign n, (p.store f byte).2) := by
  have hring : (p.addForeign n).ring = p.ring := rfl
  rw [store, store, hring]
  cases p.ring.push? byte with
  | none => exact fault_addForeign { p with state := .receiving f } n .overflow
  | some ring =>
    cases f.track size byte with
    | more frame => rfl
    | complete => rfl
    | rejected => rfl

theorem acceptAddress_addForeign (p : ReceivePath size) (n : Nat) (address : Address) :
    (p.addForeign n).acceptAddress address
      = ((p.acceptAddress address).1.addForeign n, (p.acceptAddress address).2) := by
  have hidentity : (p.addForeign n).identity = p.identity := rfl
  rw [acceptAddress, acceptAddress, hidentity]
  split
  · have hstore := store_addForeign
      { p with counters := { p.counters with accepted := p.counters.accepted + 1 } } n
      (InFlight.begin p.ring.write) address
    exact congrArg (fun stored => (stored.1, FilterAction.disarm :: stored.2)) hstore
  · simp only [addForeign, ReceiveCounters.addForeign, Nat.add_right_comm]

/-- The receiver does not look at its counters. -/
theorem receive_addForeign (p : ReceivePath size) (n : Nat) (event : LineEvent) :
    (p.addForeign n).receive event
      = ((p.receive event).1.addForeign n, (p.receive event).2) := by
  cases event with
  | error e => exact fault_addForeign p n (.line e)
  | byte byte mark =>
    cases mark with
    | true =>
      show (p.addForeign n).receiveAddress byte
        = ((p.receiveAddress byte).1.addForeign n, (p.receiveAddress byte).2)
      rw [receiveAddress, receiveAddress]
      cases hstate : p.state with
      | filtering =>
        rw [show (p.addForeign n).state = .filtering from hstate]
        exact acceptAddress_addForeign p n byte
      | receiving f =>
        have haccept := acceptAddress_addForeign (p.fault .truncated).1 n byte
        rw [show (p.addForeign n).state = .receiving f from hstate]
        simp only [fault_addForeign, haccept]
    | false =>
      show (p.addForeign n).receiveData byte
        = ((p.receiveData byte).1.addForeign n, (p.receiveData byte).2)
      rw [receiveData, receiveData]
      cases hstate : p.state with
      | filtering => rw [show (p.addForeign n).state = .filtering from hstate]
      | receiving f =>
        rw [show (p.addForeign n).state = .receiving f from hstate]
        exact store_addForeign p n f byte

/-- An ignored event changes nothing but the count of foreign addresses. -/
theorem receive_ignored {p : ReceivePath size} {event : LineEvent} (h : p.ignores event = true) :
    p.receive event = (p.addForeign ([event].countP LineEvent.isAddress), []) := by
  have hstate : p.isReceiving = false → p.state = .filtering := by
    rw [isReceiving]
    cases p.state with
    | filtering => exact fun _ => rfl
    | receiving f => exact fun h => by cases h
  cases event with
  | error e => cases h
  | byte byte mark =>
    cases mark with
    | true =>
      simp only [ignores, Bool.and_eq_true, Bool.not_eq_true'] at h
      rw [receive, receiveAddress, hstate h.1]
      simp only [acceptAddress, h.2]
      rfl
    | false =>
      rw [receive, receiveData, hstate (by simpa [ignores] using h)]
      rfl

end ReceivePath

/-! ### What the poll side sees of foreign addresses -/

/-- Replies but for the count of foreign addresses. -/
def Reply.lessForeign : Reply → Reply
  | .stats counts => .stats { counts with foreignAddresses := 0 }
  | other => other

def Effect.lessForeign : Effect → Effect
  | .reply r => .reply r.lessForeign
  | other => other

namespace ReceivePath

variable {size : RingSize}

theorem completeHeader?_addForeign (p : ReceivePath size) (n : Nat) :
    (p.addForeign n).completeHeader? = p.completeHeader? := rfl

theorem currentFrame_addForeign (p : ReceivePath size) (n : Nat) :
    (p.addForeign n).currentFrame = (p.currentFrame.1, p.currentFrame.2.addForeign n) := by
  rw [currentFrame, currentFrame, completeHeader?_addForeign]
  cases p.completeHeader? <;> rfl

theorem retire_addForeign (p : ReceivePath size) (n : Nat) :
    (p.addForeign n).retire = (p.retire.1, p.retire.2.addForeign n) := by
  rw [retire, retire, completeHeader?_addForeign]
  cases p.completeHeader? <;> rfl

theorem skip_addForeign (p : ReceivePath size) (n : Nat) :
    (p.addForeign n).skip = (p.skip.1, p.skip.2.addForeign n) := by
  have hring : (p.addForeign n).ring = p.ring := rfl
  simp only [skip, hring]
  split <;> rfl

theorem recover_addForeign (p : ReceivePath size) (n : Nat) :
    (p.addForeign n).recover = (p.recover.1, p.recover.2.addForeign n) := by
  have hstatus : (p.addForeign n).status = p.status := rfl
  have hpending : (p.addForeign n).pendingFault? = p.pendingFault? := rfl
  rw [recover, recover, hstatus, hpending]
  split
  · rfl
  · cases p.pendingFault? <;> rfl

end ReceivePath

namespace Station

variable {size : RingSize}

/-- The same station after it heard more foreign addresses. -/
def addForeign (s : Station size) (n : Nat) : Station size :=
  { s with receive := s.receive.addForeign n }

theorem addForeign_add (s : Station size) (m n : Nat) :
    (s.addForeign m).addForeign n = s.addForeign (m + n) := by
  simp only [addForeign, ReceivePath.addForeign, ReceiveCounters.addForeign, Nat.add_assoc]

theorem ask_addForeign (s : Station size) (n : Nat) (request : Request) :
    ((s.addForeign n).ask request).1 = (s.ask request).1.addForeign n
      ∧ ((s.addForeign n).ask request).2.map Effect.lessForeign
        = (s.ask request).2.map Effect.lessForeign := by
  cases request with
  | currentFrame =>
    simp only [ask, addForeign, ReceivePath.currentFrame_addForeign]
    exact ⟨rfl, rfl⟩
  | retire =>
    simp only [ask, addForeign, ReceivePath.retire_addForeign]
    exact ⟨rfl, rfl⟩
  | skip =>
    simp only [ask, addForeign, ReceivePath.skip_addForeign]
    exact ⟨rfl, rfl⟩
  | recover =>
    simp only [ask, addForeign, ReceivePath.recover_addForeign]
    exact ⟨rfl, rfl⟩
  | status => exact ⟨rfl, rfl⟩
  | copyFrame => exact ⟨rfl, rfl⟩
  | send destination source payload => exact ⟨rfl, rfl⟩
  | sendFrame frame => exact ⟨rfl, rfl⟩
  | phase => exact ⟨rfl, rfl⟩
  | isTransmitting => exact ⟨rfl, rfl⟩
  | buffered => exact ⟨rfl, rfl⟩
  | stats => exact ⟨rfl, rfl⟩

/-- **A step does the same after more foreign addresses.** -/
theorem step_addForeign (s : Station size) (n : Nat) (step : StationStep) :
    ((s.addForeign n).step step).1 = (s.step step).1.addForeign n
      ∧ ((s.addForeign n).step step).2.map Effect.lessForeign
        = (s.step step).2.map Effect.lessForeign := by
  cases step with
  | hear event =>
    simp only [Station.step, addForeign, ReceivePath.receive_addForeign, and_self]
  | pump event => exact ⟨rfl, rfl⟩
  | ask request => exact s.ask_addForeign n request

theorem step_ignored {s : Station size} {event : LineEvent}
    (h : s.receive.ignores event = true) :
    s.step (.hear event) = (s.addForeign ([event].countP LineEvent.isAddress), []) := by
  simp only [step, ReceivePath.receive_ignored h]
  rfl

/-- A step that is kept is made in both runs. -/
theorem run_keeps {s t : Station size} {n k : Nat} {step : StationStep}
    {rest kept : List StationStep} (hst : s = t.addForeign n)
    (hrest : ((s.step step).1.run rest).1 = ((t.step step).1.run kept).1.addForeign (n + k)
      ∧ ((s.step step).1.run rest).2.map Effect.lessForeign
        = ((t.step step).1.run kept).2.map Effect.lessForeign) :
    (s.run (step :: rest)).1 = (t.run (step :: kept)).1.addForeign (n + k)
      ∧ (s.run (step :: rest)).2.map Effect.lessForeign
        = (t.run (step :: kept)).2.map Effect.lessForeign := by
  have hstep := (t.step_addForeign n step).2
  rw [← hst] at hstep
  simp only [run, List.map_append, hstep, hrest.2, and_true]
  exact hrest.1

/-- The run that hears all and the run that hears what is left go side by side, apart by the foreign
addresses left out so far. -/
theorem run_sift (s t : Station size) (n : Nat) (hst : s = t.addForeign n)
    (steps : List StationStep) :
    (s.run steps).1
        = (t.run (s.sift steps).1).1.addForeign
          (n + (s.sift steps).2.countP LineEvent.isAddress)
      ∧ (s.run steps).2.map Effect.lessForeign
        = (t.run (s.sift steps).1).2.map Effect.lessForeign := by
  induction steps generalizing s t n with
  | nil => exact ⟨hst, rfl⟩
  | cons step rest ih =>
    have hkept : (s.step step).1 = (t.step step).1.addForeign n := by
      rw [hst]
      exact (t.step_addForeign n step).1
    cases step with
    | hear event =>
      cases hignores : s.receive.ignores event with
      | true =>
        -- The other run makes no step, and is one foreign address further apart.
        have hstep := step_ignored hignores
        have hapart : (s.step (.hear event)).1
            = t.addForeign (n + [event].countP LineEvent.isAddress) := by
          rw [hstep, hst, addForeign_add]
        obtain ⟨hstate, hseen⟩ := ih _ t _ hapart
        simp only [run, sift, hignores, if_true]
        rw [hstate, hstep, Nat.add_assoc, ← List.countP_append]
        rw [hstep] at hseen
        exact ⟨rfl, hseen⟩
      | false =>
        simp only [sift, hignores, Bool.false_eq_true, if_false]
        exact run_keeps hst (ih _ _ n hkept)
    | pump event => exact run_keeps hst (ih _ _ n hkept)
    | ask request => exact run_keeps hst (ih _ _ n hkept)

/-! ### Hardware that filters -/

/-- The poll side has no part in what the receiver is waiting for and what it counts. -/
theorem ask_sameReceiver (s : Station size) (request : Request) :
    s.receive.SameReceiver (s.ask request).1.receive := by
  cases request with
  | currentFrame => exact s.receive.currentFrame_sameReceiver
  | retire => exact s.receive.retire_sameReceiver
  | skip => exact s.receive.skip_sameReceiver
  | recover => exact s.receive.recover_sameReceiver
  | status => exact .refl _
  | copyFrame => exact .refl _
  | send destination source payload => exact .refl _
  | sendFrame frame => exact .refl _
  | phase => exact .refl _
  | isTransmitting => exact .refl _
  | buffered => exact .refl _
  | stats => exact .refl _

/-- Filtering hardware keeps back only what the station ignores, and no address. -/
theorem ignores_of_kept_back {p : ReceivePath size} {d : SerialDriver} {event : LineEvent}
    (h : d.filtering = !p.isReceiving) (hback : d.admits event = false) :
    p.ignores event = true ∧ event.isAddress = false := by
  cases event with
  | error e => cases hback
  | byte byte mark =>
    cases mark with
    | true => cases hback
    | false =>
      have harmed : d.filtering = true := by simpa [SerialDriver.admits] using hback
      exact ⟨h.symm.trans harmed, rfl⟩

/-- Behind hardware in step with the receiver a run is the same. -/
theorem runBehind_eq (s : Station size) (d : SerialDriver)
    (h : d.filtering = !s.receive.isReceiving) (steps : List StationStep) :
    s.runBehind d steps = s.run steps := by
  induction steps generalizing s d with
  | nil => rfl
  | cons step rest ih =>
    cases step with
    | hear event =>
      cases hadmits : d.admits event with
      | true =>
        simp only [runBehind, hadmits, if_true, run]
        rw [ih (s.step (.hear event)).1 _ (receive_filters event h)]
      | false =>
        obtain ⟨hignores, hdata⟩ := ignores_of_kept_back h hadmits
        have hsame : s.step (.hear event) = (s, []) := by
          rw [step_ignored hignores, List.countP_singleton, hdata]
          rfl
        simp only [runBehind, hadmits, Bool.false_eq_true, if_false, run, hsame]
        exact ih s d h
    | pump event =>
      simp only [runBehind, run]
      rw [ih (s.step (.pump event)).1 d h]
    | ask request =>
      simp only [runBehind, run]
      have hsame : (s.step (.ask request)).1.receive.isReceiving = s.receive.isReceiving :=
        (s.ask_sameReceiver request).isReceiving
      rw [ih (s.step (.ask request)).1 d (h.trans (by rw [hsame]))]

/-- **Foreign traffic leaves no trace but its count.** From any state, a station that never hears
what it would ignore shows the same and ends the same: ring, faults, receiver, transmitter, all
counters but one, every toggle of the filter and every reply. Only the count of foreign addresses,
here and in the replies, lacks exactly the addresses left out. Behind hardware that filters data
bytes itself nothing is different at all. -/
theorem foreign_traffic_leaves_no_trace (s : Station size) (steps : List StationStep) :
    (s.run steps).2.map Effect.lessForeign
        = (s.run (s.sift steps).1).2.map Effect.lessForeign
      ∧ (s.run steps).1
        = (s.run (s.sift steps).1).1.addForeign ((s.sift steps).2.countP LineEvent.isAddress)
      ∧ s.runBehind { filtering := !s.receive.isReceiving } steps = s.run steps := by
  obtain ⟨hstate, hseen⟩ := run_sift s s 0 rfl steps
  rw [Nat.zero_add] at hstate
  exact ⟨hseen, hstate, s.runBehind_eq _ rfl steps⟩

/-- The same foreign address is left out between frames, but not where it cuts a frame short. -/
example : (blank (.plain 2) : Station ⟨4, by decide⟩).sift
      ([.byte 7 true, .byte 1 false, .byte 2 true, .byte 7 true].map .hear)
    = ([.byte 2 true, .byte 7 true].map .hear, [.byte 7 true, .byte 1 false]) := by
  decide +kernel

end Station

end MultidropBus
