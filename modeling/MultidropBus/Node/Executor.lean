import MultidropBus.Node.Boot
import MultidropBus.Node.BusTask
import MultidropBus.Node.Interrupt
import MultidropBus.Node.KeyTask

/-!
# Running the tasks

The tasks take turns in a fixed order: main, bus, key. A task runs until it has to wait. Turns are
repeated until no task can go on.
-/

namespace MultidropBus.Node

/-- Runs the main task: however many statistics are overdue, one request is raised for all. -/
def pollMain (n : Node) : Node :=
  match n.main with
  | .halted _ => n
  | .ticking due =>
    if n.clock < due then n
    else
      let overdue := (n.clock - due) / statisticsInterval
      { n with
        main := .ticking (due + (overdue + 1) * statisticsInterval)
        statisticsRequested := true }

def mainIsReady (n : Node) : Bool :=
  match n.main with
  | .halted _ => false
  | .ticking due => due ≤ n.clock

/-- Whether some task can go on. -/
def isReady (n : Node) : Bool := n.mainIsReady || n.busStep?.isSome || n.keyStep?.isSome

/-- One turn of every task. -/
def turn (n : Node) : Node := n.pollMain.pollBus.pollKey

def turns (n : Node) : Nat → Node
  | 0 => n
  | room + 1 => if n.isReady then n.turn.turns room else n

/-- Runs the tasks until all of them wait. After the first turn only a key press can be left over,
and the second turn deals with it. -/
def settle (n : Node) : Node := n.turns 3

/-- A node after its start, with all tasks waiting. -/
def start (flash : Flash) : Node := (boot flash {}).settle

/-- Lets time pass. -/
def advanceClock (n : Node) (milliseconds : Nat) : Node :=
  { n with clock := n.clock + milliseconds }

end MultidropBus.Node
