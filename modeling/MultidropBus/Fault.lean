import MultidropBus.Line.Event
import MultidropBus.Ring.Basic

/-!
# Receive faults

When the receiver has to abandon a frame it leaves a record for the poll side: what went wrong, and
which span of the byte stream belongs to the abandoned frame. Faults are numbered from one. The
records of the last four are kept, each in the slot that its number has modulo four, and the poll
side remembers the number of the last fault that it handled. A poll side that falls more than four
faults behind is given the latest one, together with the number of those whose records are gone.
-/

namespace MultidropBus

/-- The number of fault records that are kept. -/
def faultSlots : Nat := 4

inductive FaultKind
  | line (e : LineError)
  /-- The ring was full. -/
  | overflow
  /-- An address byte came before the frame was whole. -/
  | truncated
deriving DecidableEq, Repr

/-- The span of the byte stream that a fault gives up, from `start` up to `stop`. A fault outside a
frame gives up nothing and has an empty span. -/
structure FaultRecord where
  kind : FaultKind
  start : Cursor
  stop : Cursor
deriving DecidableEq, Repr

/-- A fault as the poll side sees it. -/
structure Fault where
  record : FaultRecord
  /-- The number of this fault. To handle it is to handle all up to it. -/
  number : Nat
  /-- How many older faults lost their records before they were handled. Nothing that came before
  the end of this one can be trusted then. -/
  missed : Nat
deriving DecidableEq, Repr

structure FaultLatch where
  /-- How many faults were raised, which is also the number of the latest. -/
  raised : Nat
  records : Vector FaultRecord faultSlots
deriving DecidableEq, Repr

namespace FaultLatch

def empty : FaultLatch := ⟨0, Vector.replicate faultSlots ⟨.line .overrun, 0, 0⟩⟩

/-- The slot of the fault with a given number. -/
def slot (number : Nat) : Fin faultSlots := ⟨number % faultSlots, Nat.mod_lt _ (by decide)⟩

def raise (l : FaultLatch) (record : FaultRecord) : FaultLatch :=
  let i := slot (l.raised + 1)
  ⟨l.raised + 1, l.records.set i record i.isLt⟩

/-- How many faults a poll side that handled the first `handled` has before it. -/
def unhandled (l : FaultLatch) (handled : Nat) : Nat := l.raised - handled

/-- The fault that a poll side which handled the first `handled` has to look at next: the oldest
one, or the latest one if the record of the oldest is gone. -/
def pending? (l : FaultLatch) (handled : Nat) : Option Fault :=
  let behind := l.unhandled handled
  if behind = 0 then none
  else if faultSlots < behind then some ⟨l.records[slot l.raised], l.raised, behind - 1⟩
  else some ⟨l.records[slot (handled + 1)], handled + 1, 0⟩

theorem pending?_eq_none_iff (l : FaultLatch) (handled : Nat) :
    l.pending? handled = none ↔ l.raised ≤ handled := by
  by_cases h : l.raised - handled = 0
  · simp [pending?, unhandled, h]
    omega
  · by_cases hw : faultSlots < l.raised - handled <;> simp [pending?, unhandled, h, hw] <;> omega

end FaultLatch

end MultidropBus
