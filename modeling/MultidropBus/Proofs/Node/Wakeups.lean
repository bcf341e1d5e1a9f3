import MultidropBus.Proofs.Node.Moves
import MultidropBus.Proofs.Receive.Polls

/-!
# No wake-up is lost

The bus task works until it finds the bus idle, and then waits for the signal. What comes in before
that look is seen by it, and what comes in after it raises the signal, since the receiver changes
with an event only and every event raises it. The signal is taken only on the way to another look.
So while the task waits, a bus that is not idle has its signal raised, wherever the passes of the
handler fall and whatever else the task takes up meanwhile.
-/

namespace MultidropBus

/-- The task will not look at the bus before something wakes it. -/
def BusTask.isAsleep : BusTask → Bool
  | .absent => true
  | .spawned => true
  | .waiting => true
  | _ => false

theorem BusStatus.isAsleep_next (s : BusStatus) : s.next.isAsleep = true ↔ s = .idle := by
  cases s <;> decide

namespace Node

variable {n m : Node}

/-- Whenever the bus task sleeps, the bus is idle or the signal is raised. -/
def Attentive (n : Node) : Prop :=
  n.bus.isAsleep = true → n.station.receive.status = .idle ∨ n.activity = true

theorem boot_attentive (flash : Flash) (board : Board) : (boot flash board).Attentive := by
  intro _
  refine .inl ?_
  simp only [boot]
  split <;> exact ReceivePath.status_fresh _

theorem Attentive.beside (h : n.Attentive) (hm : n.Beside m) : m.Attentive := by
  rw [Attentive, hm.bus, hm.station, hm.activity]
  exact h

/-- Without an event the receiver stays as it was, and every event raises the signal. -/
theorem Attentive.pass (h : n.Attentive) (p : Pass) : (n.move (.pass p)).Attentive := by
  obtain ⟨events, hreceive, hactivity, hbus, -⟩ := n.pass_receives p
  rw [Attentive, hreceive, hactivity, hbus]
  intro hasleep
  cases events with
  | nil => exact (h hasleep).imp_right fun hraised => by rw [hraised]; rfl
  | cons event rest => exact .inr (Bool.or_true _)

/-- The task goes to sleep at the start, when nothing was looked at yet, and after a look at an idle
bus. All its other steps end awake. -/
theorem Attentive.busStep (h : n.Attentive) (hstep : n.BusStep m) : m.Attentive := by
  cases hstep with
  | beside _ hm => exact h.beside hm
  | begins hbus => exact fun _ => h (by rw [hbus]; rfl)
  | looks => exact fun hasleep => .inl ((BusStatus.isAsleep_next _).1 hasleep)
  | wakes => exact fun hasleep => nomatch hasleep
  | copies => exact fun hasleep => nomatch hasleep
  | misses => exact fun hasleep => nomatch hasleep
  | ignores => exact fun hasleep => nomatch hasleep
  | answers => exact fun hasleep => nomatch hasleep
  | retires => exact fun hasleep => nomatch hasleep
  | skips => exact fun hasleep => nomatch hasleep
  | recovers => exact fun hasleep => nomatch hasleep

theorem Attentive.move (h : n.Attentive) (m : Move) : (n.move m).Attentive := by
  obtain ⟨p, rfl⟩ | rfl | hbeside := n.move_cases m
  · exact h.pass p
  · exact h.busStep n.busStep_cases
  · exact h.beside hbeside

theorem run_attentive (flash : Flash) (board : Board) (moves : List Move) :
    ((boot flash board).run moves).Attentive := by
  induction moves using List.reverseRecOn with
  | nil => exact boot_attentive flash board
  | append_singleton earlier m ih =>
    rw [run_snoc]
    exact ih.move m

/-- **No wake-up is lost.** In any run from the start on, whenever the bus task waits while the bus
is not idle, the signal is raised. So its next step takes the signal, whatever else it could take,
and goes on to look at the bus. -/
theorem run_wakes (flash : Flash) (board : Board) (moves : List Move)
    (hwaiting : ((boot flash board).run moves).bus = .waiting)
    (hwork : ((boot flash board).run moves).station.receive.status ≠ .idle) :
    ((boot flash board).run moves).activity = true
      ∧ ((boot flash board).run moves).busStep?
        = some { (boot flash board).run moves with activity := false, bus := .examining } := by
  have hasleep : ((boot flash board).run moves).bus.isAsleep = true := by rw [hwaiting]; rfl
  have hactivity := (run_attentive flash board moves hasleep).resolve_left hwork
  refine ⟨hactivity, ?_⟩
  simp only [busStep?, hwaiting, select?, hactivity, if_true]
  rfl

/-- An address word wakes the task, which finds no whole frame and goes back to sleep. Then a key
code comes in, and the frame breaks off with a line error. -/
def dozingMoves : List Move :=
  [.bus, .pass ⟨[⟨0x11D, .none, true⟩], false, false⟩, .bus, .bus, .code 7,
    .pass ⟨[⟨0, ⟨false, true, false, false⟩, true⟩], false, false⟩]

theorem dozingMoves_wakes :
    ((boot .erased {}).run dozingMoves).bus = .waiting
      ∧ ((boot .erased {}).run dozingMoves).station.receive.status = .faulted
      ∧ ((boot .erased {}).run dozingMoves).keys = [7]
      ∧ ((boot .erased {}).run dozingMoves).busStep?
        = some { (boot .erased {}).run dozingMoves with activity := false, bus := .examining } := by
  have hwaiting : ((boot .erased {}).run dozingMoves).bus = .waiting := by decide +kernel
  have hfaulted : ((boot .erased {}).run dozingMoves).station.receive.status = .faulted := by
    decide +kernel
  have hwork : ((boot .erased {}).run dozingMoves).station.receive.status ≠ .idle := by
    rw [hfaulted]
    decide
  exact ⟨hwaiting, hfaulted, by decide +kernel, (run_wakes .erased {} dozingMoves hwaiting hwork).2⟩

end Node

end MultidropBus
