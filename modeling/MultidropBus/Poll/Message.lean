import MultidropBus.Frame.Codec

/-!
# Poll messages

Nodes never speak on their own. The master sends `ping` to one node after another, and each answers
`pong` with the number of frames it has waiting. If there are any, the master sends `send`, and the
node puts its oldest waiting frame on the bus. A message is recognised by how the payload starts:
older masters pad their requests, so bytes after it do not matter.
-/

namespace MultidropBus

inductive PollMessage
  /-- The master asks whether the node is there. -/
  | ping
  /-- The node answers a ping with the number of waiting frames. -/
  | pong (pending : UInt8)
  /-- The master asks for the oldest waiting frame. -/
  | send
deriving DecidableEq, Repr

namespace PollMessage

/-- The letters `ping`. -/
def pingWord : Bytes := [0x70, 0x69, 0x6E, 0x67]

/-- The letters `pong`. -/
def pongWord : Bytes := [0x70, 0x6F, 0x6E, 0x67]

/-- The letters `send`. -/
def sendWord : Bytes := [0x73, 0x65, 0x6E, 0x64]

/-- The size of the longest message. -/
def maxSize : Nat := 5

def payload : PollMessage → Bytes
  | ping => pingWord
  | send => sendWord
  | pong pending => pongWord ++ [pending]

/-- The message at the start of a payload. A `pong` without its count is none. -/
def ofPayload? (payload : Bytes) : Option PollMessage :=
  if pingWord.isPrefixOf payload then some ping
  else if sendWord.isPrefixOf payload then some send
  else if pongWord.isPrefixOf payload then payload[pongWord.length]?.map pong
  else none

def ofFrame? (f : Frame) : Option PollMessage := ofPayload? f.payload

def encode (m : PollMessage) (destination source : Address) : Except FrameError Bytes :=
  Frame.encode destination source m.payload

theorem payload_length_le (m : PollMessage) : m.payload.length ≤ maxSize := by
  cases m <;> simp [payload, pingWord, sendWord, pongWord, maxSize]

end PollMessage

end MultidropBus
