import MultidropBus.Board.Flash
import MultidropBus.Board.Registers
import MultidropBus.Log.Text

/-!
# The log of a node

Each entry stands for one kind of event in the life of a node. It is written at a level, as a
message with places for its arguments.
-/

namespace MultidropBus

inductive LogLevel
  | trace
  | debug
  | info
  | warn
deriving DecidableEq, Repr

inductive LogEntry
  | starting
  | identityLoaded
  /-- The flash page of the identity cannot be read. -/
  | identityUnreadable (e : FlashError)
  /-- The flash page holds no usable identity. -/
  | identityMissing (e : IdentityError)
  | busUp (address : Address) (baudrate : UInt32) (groups : Nat)
  | tasksSpawned
  | busTaskStarted
  | keyTaskStarted (address : Address)
  | pollAnswered (message : PollMessage) (source : Address)
  /-- A frame for this node that is no poll. -/
  | frameReceived (source destination : Address) (payload : Bytes)
  | pollAnswerFailed (e : SendError)
  | frameUnparseable (e : FrameError)
  | faultHandled (kind : FaultKind)
  | keyQueued (code : UInt8) (pending : UInt8)
  | keyDropped (code : UInt8) (e : OutboxError)
  /-- A key press that found the channel to the bus task full. -/
  | keyLost
  | statistics (received sent faults : Nat) (queued : UInt8)
deriving DecidableEq, Repr

def FlashError.text : FlashError → String
  | size => "Size"

namespace LogEntry

def level : LogEntry → LogLevel
  | pollAnswered .. => .trace
  | keyQueued .. => .debug
  | identityUnreadable .. | identityMissing .. | pollAnswerFailed .. | frameUnparseable .. => .warn
  | faultHandled .. | keyDropped .. | keyLost => .warn
  | _ => .info

/-- The message, with braces for each argument. -/
def message : LogEntry → String
  | starting => "Hausbus node starting..."
  | identityLoaded => "Identity loaded from flash"
  | identityUnreadable _ => "Identity read failed: \x7b:?\x7d, using defaults"
  | identityMissing _ => "No stored identity (\x7b:?\x7d), using defaults"
  | busUp .. => "Bus up: address \x7b\x7d, \x7b\x7d baud, \x7b\x7d groups"
  | tasksSpawned => "All tasks spawned"
  | busTaskStarted => "Bus task started"
  | keyTaskStarted _ => "Key task started (node \x7b\x7d)"
  | pollAnswered .. => "Answered \x7b:?\x7d from \x7b\x7d"
  | frameReceived .. => "Frame \x7b\x7d -> \x7b\x7d: \x7b=[u8]:a\x7d"
  | pollAnswerFailed _ => "Poll answer failed: \x7b:?\x7d"
  | frameUnparseable _ => "Unparseable frame: \x7b:?\x7d"
  | faultHandled _ => "Bus fault \x7b:?\x7d, receive buffer flushed"
  | keyQueued .. => "Key \x7b\x7d queued, \x7b\x7d pending"
  | keyDropped .. => "Key \x7b\x7d dropped: \x7b:?\x7d"
  | keyLost => "Key event dropped, channel full"
  | statistics .. => "Bus: \x7b\x7d frames in, \x7b\x7d out, \x7b\x7d faults, \x7b\x7d queued"

/-- The arguments, in the order of their places in the message. -/
def arguments : LogEntry → List String
  | identityUnreadable e => [e.text]
  | identityMissing e => [e.text]
  | busUp address baudrate groups => [address.toNat.repr, baudrate.toNat.repr, groups.repr]
  | keyTaskStarted address => [address.toNat.repr]
  | pollAnswered message source => [message.text, source.toNat.repr]
  | frameReceived source destination payload =>
    [source.toNat.repr, destination.toNat.repr, bytesText payload]
  | pollAnswerFailed e => [e.text]
  | frameUnparseable e => [e.text]
  | faultHandled kind => [kind.text]
  | keyQueued code pending => [code.toNat.repr, pending.toNat.repr]
  | keyDropped code e => [code.toNat.repr, e.text]
  | statistics received sent faults queued =>
    [received.repr, sent.repr, faults.repr, queued.toNat.repr]
  | starting | identityLoaded | tasksSpawned | busTaskStarted | keyLost => []

end LogEntry

end MultidropBus
