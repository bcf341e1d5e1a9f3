import MultidropBus.Outbox
import MultidropBus.Poll.Message
import MultidropBus.Transmit.Path

/-!
# Answering the master

A node answers `ping` with the number of waiting frames and `send` with the oldest of them. That
frame leaves the outbox only when the transmitter has taken it: a busy transmitter keeps it for the
next poll. Frames for others, frames from anyone but the master and frames that carry neither
message are not polls and change nothing.
-/

namespace MultidropBus

/-- What becomes of a frame that may be a poll. -/
structure PollOutcome (depth : Nat) where
  /-- The message that was answered; `none` if the frame is no poll of this node. -/
  result : Except SendError (Option PollMessage)
  path : TransmitPath
  outbox : Outbox depth
  actions : List TransmitAction

namespace PollOutcome

variable {depth : Nat}

/-- Nothing happens. -/
def still (result : Except SendError (Option PollMessage)) (path : TransmitPath)
    (outbox : Outbox depth) : PollOutcome depth := ⟨result, path, outbox, []⟩

/-- The outcome of a send: the message was answered with it, or it failed. The outbox becomes
`taken` only if it succeeded. -/
def ofSend (message : PollMessage) (sent : SendOutcome) (outbox taken : Outbox depth) :
    PollOutcome depth :=
  match sent.result with
  | .ok () => ⟨.ok (some message), sent.path, taken, sent.actions⟩
  | .error e => ⟨.error e, sent.path, outbox, sent.actions⟩

end PollOutcome

namespace TransmitPath

variable {depth : Nat}

/-- Answers a frame if it is a poll of the node with address `own`. -/
def answerPoll (path : TransmitPath) (outbox : Outbox depth) (frame : Frame) (own : Address) :
    PollOutcome depth :=
  if frame.destination ≠ own ∨ frame.source ≠ Address.master then .still (.ok none) path outbox
  else
    match PollMessage.ofFrame? frame with
    | some .ping =>
      let pong := PollMessage.pong outbox.pending
      .ofSend .ping (path.send frame.source own pong.payload) outbox outbox
    | some .send =>
      match outbox.front? with
      | some queued => .ofSend .send (path.sendFrame queued) outbox outbox.pop.2
      | none => .still (.ok (some .send)) path outbox
    | some (.pong _) => .still (.ok none) path outbox
    | none => .still (.ok none) path outbox

end TransmitPath

end MultidropBus
