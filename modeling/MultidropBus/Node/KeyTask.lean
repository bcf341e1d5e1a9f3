import MultidropBus.Node.Basic

/-!
# The key task

The key pulls its pin low. After a falling edge the task lets the key settle, and if the pin is
still low then, one key press goes to the bus task; the next can only come after a rising edge.
Edges count only from the moment the task begins to wait for them.
-/

namespace MultidropBus.Node

def toKeyTask (n : Node) (task : KeyTask) : Node := { n with key := task }

/-- Hands over a key press, unless the channel is full. -/
def pressKey (n : Node) : Node :=
  if n.keys.length < keyChannelSize then { n with keys := n.keys ++ [keyCode] }
  else n.write .keyLost

/-- One step of the key task; `none` if it has to wait. -/
def keyStep? (n : Node) : Option Node :=
  match n.key with
  | .absent => none
  | .spawned =>
    some ((n.write (.keyTaskStarted n.identity.address)).toKeyTask (.awaitingFall n.falls))
  | .awaitingFall seen =>
    if seen < n.falls then some (n.toKeyTask (.settling (n.clock + debounceTime))) else none
  | .settling due =>
    if n.clock < due then none
    else if n.keyHigh then some (n.toKeyTask (.awaitingFall n.falls))
    else some (n.pressKey.toKeyTask (.awaitingRise n.rises))
  | .awaitingRise seen =>
    if seen < n.rises then some (n.toKeyTask (.awaitingFall n.falls)) else none

/-- Runs the key task until it waits, which it does after one step: an edge is followed by a pause,
and a pause by a wait for a new edge. -/
def pollKey (n : Node) : Node := n.keyStep?.getD n

/-- Moves the key. Only a change of the level is an edge. -/
def moveKey (n : Node) (high : Bool) : Node :=
  if high = n.keyHigh then n
  else if high then { n with keyHigh := true, rises := n.rises + 1 }
  else { n with keyHigh := false, falls := n.falls + 1 }

end MultidropBus.Node
