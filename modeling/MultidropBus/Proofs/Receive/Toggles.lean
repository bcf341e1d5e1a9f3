import MultidropBus.Proofs.Receive.Accounts

/-!
# Toggles of the address filter

The filter is disarmed by an accepted address and armed again by every way in which a frame can end,
and by a line error between frames. So the toggles that an event asks for lead a filter that is
armed outside frames to one that is armed outside frames again, no accepted address finds it
disarmed, and each toggle has a counter (`ReceivePath.Toggles`). This is put together from the ends
and the beginnings of frames, of which an event may bring several. It holds of any hardware behind
the station.
-/

namespace MultidropBus

/-! ### Toggles -/

/-- Where the filter stands after some toggles, provided that each disarming finds it armed. -/
def FilterAction.settle? (armed : Bool) : List FilterAction → Option Bool
  | [] => some armed
  | .arm :: rest => settle? true rest
  | .disarm :: rest => if armed then settle? false rest else none

namespace FilterAction

theorem settle?_append (armed : Bool) (first second : List FilterAction) :
    settle? armed (first ++ second) = (settle? armed first).bind (settle? · second) := by
  induction first generalizing armed with
  | nil => rfl
  | cons action rest ih =>
    cases action with
    | arm => exact ih true
    | disarm =>
      cases armed with
      | false => rfl
      | true => exact ih false

theorem settle?_disarm {armed after : Bool} {rest : List FilterAction}
    (h : settle? armed (.disarm :: rest) = some after) :
    armed = true ∧ settle? false rest = some after := by
  cases armed with
  | false => cases h
  | true => exact ⟨rfl, h⟩

/-- Only arming makes a disarmed filter fit for the next disarming. -/
theorem arm_mem_of_settle? {between after : List FilterAction}
    (h : (settle? false (between ++ .disarm :: after)).isSome) : .arm ∈ between := by
  cases between with
  | nil => cases h
  | cons action rest =>
    cases action with
    | arm => exact List.mem_cons_self
    | disarm => cases h

end FilterAction

open FilterAction

/-! ### One event -/

/-- Everything that is counted when the filter is armed again. -/
def ReceiveCounters.rearmings (c : ReceiveCounters) : Nat := c.completed + c.rejected + c.faults

namespace ReceivePath

variable {size : RingSize} {p q r : ReceivePath size} {actions : List FilterAction}

/-- On its way from one state to another the receiver toggles a filter that is armed outside frames,
and counts every toggle. -/
structure Toggles (p : ReceivePath size) (actions : List FilterAction) (q : ReceivePath size) :
    Prop where
  settles : settle? (!p.isReceiving) actions = some (!q.isReceiving)
  accepted : q.counters.accepted = p.counters.accepted + actions.count .disarm
  rearmed : q.counters.rearmings = p.counters.rearmings + actions.count .arm

theorem Toggles.refl (p : ReceivePath size) : p.Toggles [] p := ⟨rfl, rfl, rfl⟩

theorem Toggles.trans {more : List FilterAction} (h : p.Toggles actions q)
    (h' : q.Toggles more r) : p.Toggles (actions ++ more) r where
  settles := by rw [settle?_append, h.settles, Option.bind_some, h'.settles]
  accepted := by rw [h'.accepted, h.accepted, List.count_append, Nat.add_assoc]
  rearmed := by rw [h'.rearmed, h.rearmed, List.count_append, Nat.add_assoc]

theorem fault_toggles (p : ReceivePath size) (kind : FaultKind) :
    p.Toggles [.arm] (p.fault kind).1 where
  settles := rfl
  accepted := ReceiveCounters.countFault_accepted p.counters kind
  rearmed := by
    have hfaults := p.counters.countFault_faults kind
    have hothers : (p.counters.countFault kind).completed = p.counters.completed
        ∧ (p.counters.countFault kind).rejected = p.counters.rejected := by
      cases kind <;> exact ⟨rfl, rfl⟩
    show (p.counters.countFault kind).rearmings = p.counters.rearmings + 1
    rw [ReceiveCounters.rearmings, hothers.1, hothers.2, hfaults]
    rfl

/-- A byte of a frame ends it, in one of four ways, or toggles nothing. -/
theorem store_toggles {f : InFlight} (h : p.state = .receiving f) (byte : UInt8) :
    p.Toggles (p.store f byte).2 (p.store f byte).1 := by
  have harmed : (!p.isReceiving) = false := by rw [isReceiving, h]; rfl
  rw [store]
  cases p.ring.push? byte with
  | none =>
    have hsame : { p with state := .receiving f } = p := by rw [← h]
    simp only [hsame]
    exact p.fault_toggles .overflow
  | some ring =>
    cases f.track size byte with
    | more frame => exact ⟨by rw [harmed]; rfl, rfl, rfl⟩
    | complete =>
      refine ⟨rfl, rfl, ?_⟩
      simp only [ReceiveCounters.rearmings, ReceiveCounters.faults, List.count_singleton_self]
      omega
    | rejected =>
      refine ⟨rfl, rfl, ?_⟩
      simp only [ReceiveCounters.rearmings, ReceiveCounters.faults, List.count_singleton_self]
      omega

/-- An accepted address disarms the filter, and may find the ring full. -/
theorem acceptAddress_toggles (h : p.state = .filtering) (address : Address) :
    p.Toggles (p.acceptAddress address).2 (p.acceptAddress address).1 := by
  have harmed : (!p.isReceiving) = true := by rw [isReceiving, h]; rfl
  rw [acceptAddress]
  split
  · let begun : ReceivePath size := { p with
      counters := { p.counters with accepted := p.counters.accepted + 1 }
      state := .receiving (InFlight.begin p.ring.write) }
    have hbegun : p.Toggles [.disarm] begun := ⟨by rw [harmed]; rfl, rfl, rfl⟩
    have hstored : begun.Toggles _ _ := store_toggles rfl address
    exact hbegun.trans hstored
  · exact ⟨rfl, rfl, rfl⟩

/-- **What an event toggles.** -/
theorem receive_toggles (p : ReceivePath size) (event : LineEvent) :
    p.Toggles (p.receive event).2 (p.receive event).1 := by
  match event with
  | .error e => exact p.fault_toggles (.line e)
  | .byte data true =>
    show p.Toggles (p.receiveAddress data).2 (p.receiveAddress data).1
    rw [receiveAddress]
    cases hstate : p.state with
    | filtering => exact acceptAddress_toggles hstate data
    | receiving f => exact (p.fault_toggles .truncated).trans (acceptAddress_toggles rfl data)
  | .byte data false =>
    show p.Toggles (p.receiveData data).2 (p.receiveData data).1
    rw [receiveData]
    cases hstate : p.state with
    | filtering => exact .refl p
    | receiving f => exact store_toggles hstate data

end ReceivePath

end MultidropBus
