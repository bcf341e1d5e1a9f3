import MultidropBus.Receive.Basic
import MultidropBus.Receive.Detection

/-!
# The receiver

While it filters, the receiver ignores data bytes, and an accepted address byte starts a frame.
Inside a frame every byte is stored. The sixth byte completes the header: if it is not acceptable
the frame is abandoned at once, and its six bytes stay in the ring for the poll side to skip. The
last byte completes the frame. A line error, a full ring or a new address byte abandon the frame in
flight and leave a fault. However a frame ends, the address filter of the hardware is armed again.
-/

namespace MultidropBus

/-- How a frame goes on after one more byte. -/
inductive Progress
  | more (frame : InFlight)
  | complete
  | rejected
deriving DecidableEq, Repr

/-- Takes in one more byte of a frame. -/
def InFlight.track (f : InFlight) (size : RingSize) (byte : UInt8) : Progress :=
  let header := f.header.setIfInBounds f.received byte
  let received := f.received + 1
  if received = headerSize then
    match Header.validate header.toList with
    | .error _ => .rejected
    | .ok h =>
      if !h.fits size then .rejected
      else if h.frameLength = received then .complete
      else .more ⟨f.start, received, header, some h.frameLength⟩
  else if f.frameLength = some received then .complete
  else .more ⟨f.start, received, header, f.frameLength⟩

namespace ReceivePath

variable {size : RingSize}

/-- Where the bytes begin that a fault would give up now: with the frame in flight, or after all
bytes if there is none. -/
def spanStart (p : ReceivePath size) : Cursor :=
  match p.state with
  | .filtering => p.ring.write
  | .receiving frame => frame.start

/-- Abandons the frame in flight, if any, and leaves a record of why. -/
def fault (p : ReceivePath size) (kind : FaultKind) : ReceivePath size × List FilterAction :=
  ({ p with
      faults := p.faults.raise ⟨kind, p.spanStart, p.ring.write⟩
      counters := p.counters.countFault kind
      state := .filtering }, [.arm])

/-- Stores a byte of the given frame. -/
def store (p : ReceivePath size) (frame : InFlight) (byte : UInt8) :
    ReceivePath size × List FilterAction :=
  match p.ring.push? byte with
  | none => { p with state := .receiving frame }.fault .overflow
  | some ring =>
    match frame.track size byte with
    | .more frame => ({ p with ring := ring, state := .receiving frame }, [])
    | .complete =>
      ({ p with
          ring := ring
          counters := { p.counters with completed := p.counters.completed + 1 }
          state := .filtering }, [.arm])
    | .rejected =>
      ({ p with
          ring := ring
          counters := { p.counters with rejected := p.counters.rejected + 1 }
          state := .filtering }, [.arm])

/-- Starts a frame at an address byte, if it is for this station. -/
def acceptAddress (p : ReceivePath size) (address : Address) :
    ReceivePath size × List FilterAction :=
  if p.identity.accepts address then
    let counted := { p with counters := { p.counters with accepted := p.counters.accepted + 1 } }
    let stored := counted.store (InFlight.begin p.ring.write) address
    (stored.1, .disarm :: stored.2)
  else
    ({ p with counters := { p.counters with foreign := p.counters.foreign + 1 } }, [])

/-- An address byte cuts short whatever frame is in flight, even if it is for another station. -/
def receiveAddress (p : ReceivePath size) (address : Address) :
    ReceivePath size × List FilterAction :=
  match p.state with
  | .filtering => p.acceptAddress address
  | .receiving _ =>
    let cut := p.fault .truncated
    let accepted := cut.1.acceptAddress address
    (accepted.1, cut.2 ++ accepted.2)

/-- A data byte outside a frame is none of this station's business. -/
def receiveData (p : ReceivePath size) (byte : UInt8) : ReceivePath size × List FilterAction :=
  match p.state with
  | .filtering => (p, [])
  | .receiving frame => p.store frame byte

/-- Handles one event of the line. -/
def receive (p : ReceivePath size) : LineEvent → ReceivePath size × List FilterAction
  | .byte data true => p.receiveAddress data
  | .byte data false => p.receiveData data
  | .error e => p.fault (.line e)

/-- Handles events in order; the actions are those of all of them. -/
def receiveAll (p : ReceivePath size) : List LineEvent → ReceivePath size × List FilterAction
  | [] => (p, [])
  | event :: rest =>
    let first := p.receive event
    let others := first.1.receiveAll rest
    (others.1, first.2 ++ others.2)

theorem receiveAll_append (p : ReceivePath size) (first second : List LineEvent) :
    p.receiveAll (first ++ second)
      = (((p.receiveAll first).1.receiveAll second).1,
          (p.receiveAll first).2 ++ ((p.receiveAll first).1.receiveAll second).2) := by
  induction first generalizing p with
  | nil => rfl
  | cons event rest ih => simp only [List.cons_append, receiveAll, ih, List.append_assoc]

end ReceivePath

end MultidropBus
