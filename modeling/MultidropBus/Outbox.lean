import MultidropBus.Frame.Codec

/-!
# The outbox

A node may speak only when it is asked, so what it has to say is encoded at once and waits here,
oldest first, until the master asks for it.
-/

namespace MultidropBus

/-- The number of frames that a node's outbox holds. -/
def defaultOutboxDepth : Nat := 8

inductive OutboxError
  /-- Every place is taken by a waiting frame. -/
  | full
  /-- The frame cannot be encoded. -/
  | frame (e : FrameError)
deriving DecidableEq, Repr

/-- Encoded frames, oldest first; there is room for `depth`. -/
structure Outbox (depth : Nat) where
  frames : List Bytes
deriving DecidableEq, Repr

namespace Outbox

variable {depth : Nat}

def empty : Outbox depth := ⟨[]⟩

def isEmpty (o : Outbox depth) : Bool := o.frames.isEmpty

/-- Encodes a frame and appends it. A full outbox refuses before it looks at the payload. -/
def enqueue (o : Outbox depth) (destination source : Address) (payload : Bytes) :
    Except OutboxError Unit × Outbox depth :=
  if depth ≤ o.frames.length then (.error .full, o)
  else
    match Frame.encode destination source payload with
    | .ok frame => (.ok (), ⟨o.frames ++ [frame]⟩)
    | .error e => (.error (.frame e), o)

/-- The number of waiting frames as a node reports it; more than 255 are reported as 255. -/
def pending (o : Outbox depth) : UInt8 := UInt8.ofNat (min o.frames.length 255)

def front? (o : Outbox depth) : Option Bytes := o.frames.head?

/-- Takes out the oldest frame. -/
def pop (o : Outbox depth) : Option Bytes × Outbox depth := (o.front?, ⟨o.frames.tail⟩)

/-- Drops every waiting frame. -/
def clear (_ : Outbox depth) : Outbox depth := empty

end Outbox

end MultidropBus
