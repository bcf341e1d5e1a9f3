import MultidropBus.Fault
import MultidropBus.Identity.Basic
import MultidropBus.Outbox
import MultidropBus.Poll.Message
import MultidropBus.Transmit.Slot

/-!
# How values are written in logs

A value without parts is written as its name. A value with one unnamed part has that part in
parentheses behind its name, one with named parts has them in braces, and a list is written in
brackets with a comma and a blank between its elements.
-/

namespace MultidropBus

def LineError.text : LineError → String
  | overrun => "Overrun"
  | framing => "Framing"
  | parity => "Parity"
  | noise => "Noise"

def FaultKind.text : FaultKind → String
  | line e => "Line(" ++ e.text ++ ")"
  | overflow => "Overflow"
  | truncated => "Truncated"

def FrameError.text : FrameError → String
  | payloadTooLarge => "PayloadTooLarge"
  | invalidChecksum => "InvalidChecksum"
  | incomplete => "Incomplete"
  | bufferTooSmall => "BufferTooSmall"

def SendError.text : SendError → String
  | busy => "Busy"
  | frame e => "Frame(" ++ e.text ++ ")"

def OutboxError.text : OutboxError → String
  | full => "Full"
  | frame e => "Frame(" ++ e.text ++ ")"

def IdentityError.text : IdentityError → String
  | invalidAddress a => "InvalidAddress(" ++ a.toNat.repr ++ ")"
  | invalidGroup g => "InvalidGroup(" ++ g.toNat.repr ++ ")"
  | tooManyGroups => "TooManyGroups"
  | invalidBaudrate => "InvalidBaudrate"
  | versionMismatch => "VersionMismatch"
  | serialize => "Serialize"
  | deserialize => "Deserialize"

def PollMessage.text : PollMessage → String
  | ping => "Ping"
  | pong pending => "Pong \x7b pending: " ++ pending.toNat.repr ++ " \x7d"
  | send => "Send"

def bytesText (bytes : Bytes) : String :=
  "[" ++ ", ".intercalate (bytes.map (·.toNat.repr)) ++ "]"

end MultidropBus
