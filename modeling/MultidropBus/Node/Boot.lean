import MultidropBus.Identity.Record
import MultidropBus.Node.Basic

/-!
# Starting a node

The identity is provisioned into the last page of the flash. A node whose page cannot be read or
holds no usable identity starts as a keypad with the last node address. The line is driven low when
the pin is set up, before its polarity is known to it; it is released once the serial interface has
taken its settings, and again when the transmitter takes it over. If the settings are refused, the
node stops.
-/

namespace MultidropBus

/-- Where the identity stands: the last 1024 bytes of a flash of 32 KiB. -/
def identityOffset : Nat := 0x7C00

/-- The address of a node without an identity of its own. -/
def fallbackAddress : Address := 29

/-- The identity in the flash, or the fallback, and what is to be logged about it. -/
def Flash.identity (f : Flash) : Identity × LogEntry :=
  match f.read identityOffset maxStoredSize with
  | .error e => (.keypad fallbackAddress, .identityUnreadable e)
  | .ok record =>
    match Identity.load record with
    | .ok identity => (identity, .identityLoaded)
    | .error e => (.keypad fallbackAddress, .identityMissing e)

namespace Node

/-- A node that has read its identity and touched nothing yet. -/
def unstarted (identity : Identity) (board : Board) : Node where
  identity := identity
  board := board
  serial := {}
  station := .blank identity
  outbox := .empty
  installed := false
  activity := false
  keys := []
  statisticsRequested := false
  main := .ticking statisticsInterval
  bus := .absent
  key := .absent
  clock := 0
  keyHigh := true
  falls := 0
  rises := 0
  log := []

/-- Starts the station, puts the interrupt handler in place and spawns the tasks. -/
def launch (n : Node) : Node :=
  let identity := n.identity
  let n := n.write (.busUp identity.address identity.baudrate identity.groups.members.length)
  let started := Station.start identity
  let performed := n.serial.performAll n.board started.2
  let n := { n with
    station := started.1
    serial := performed.1
    board := performed.2
    installed := true
    bus := .spawned
    key := .spawned }
  n.write .tasksSpawned

/-- The main task up to its first pause. -/
def boot (flash : Flash) (board : Board) : Node :=
  let found := flash.identity
  let identity := found.1
  -- the output starts low, and the pin driver drives it low once more
  let board := (board.drive false).drive false
  let n := ((unstarted identity board).write .starting).write found.2
  match ({} : SerialDriver).initialise board identity with
  | (.error e, _, board) => { n with board := board, main := .halted e }
  | (.ok (), _, board) => { n with board := board }.launch

end Node

end MultidropBus
