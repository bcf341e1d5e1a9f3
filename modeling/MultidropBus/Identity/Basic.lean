import MultidropBus.Address
import MultidropBus.Line.Settings

/-!
# Node identities

Every station runs the same engine; what tells a master from a keypad or a temperature node is its
identity: its own address, the groups it listens to, whether it sees all traffic, the line speed and
the polarity of its driver-enable pin.
-/

namespace MultidropBus

/-- The format version that identities are stored under. -/
def identityVersion : UInt8 := 1

/-- The number of groups that a node can join. -/
def maxGroups : Nat := 4

inductive IdentityError
  /-- The own address is a group, broadcast or reserved address. -/
  | invalidAddress (a : Address)
  /-- A membership lies outside the group range. -/
  | invalidGroup (g : Address)
  | tooManyGroups
  /-- The line speed is zero. -/
  | invalidBaudrate
  /-- The identity was stored under another format version. -/
  | versionMismatch
  /-- The buffer cannot hold the stored form. -/
  | serialize
  /-- The stored bytes are no identity. -/
  | deserialize
deriving DecidableEq, Repr

/-- Group memberships, in the order in which they were added; there is room for four. -/
structure GroupList where
  members : List Address
  length_le : members.length ≤ maxGroups
deriving DecidableEq, Repr

namespace GroupList

def empty : GroupList := ⟨[], by decide⟩

/-- The given members, if there are at most four. -/
def ofList? (members : List Address) : Option GroupList :=
  if h : members.length ≤ maxGroups then some ⟨members, h⟩ else none

/-- Adds a member at the end, if there is room. -/
def push? (g : GroupList) (a : Address) : Option GroupList := ofList? (g.members ++ [a])

end GroupList

structure Identity where
  version : UInt8
  address : Address
  groups : GroupList
  /-- Takes frames for every address, as the master does. -/
  promiscuous : Bool
  baudrate : UInt32
  /-- The transceiver drives the bus while its pin is low. -/
  driveActiveLow : Bool
deriving DecidableEq, Repr

namespace Identity

/-- A node without memberships at the default speed. -/
def plain (address : Address) : Identity where
  version := identityVersion
  address := address
  groups := .empty
  promiscuous := false
  baudrate := defaultBaudrate
  driveActiveLow := false

/-- The gateway that sees every frame. -/
def busMaster : Identity := { plain Address.master with promiscuous := true }

/-- A keypad node. -/
def keypad (address : Address) : Identity := plain address

/-- A temperature sensor node. -/
def thermometer (address : Address) : Identity := plain address

/-- Adds a membership. Joining a group twice changes nothing. -/
def joinGroup (c : Identity) (group : Address) : Except IdentityError Identity :=
  if !group.isGroup then .error (.invalidGroup group)
  else if group ∈ c.groups.members then .ok c
  else
    match c.groups.push? group with
    | some groups => .ok { c with groups := groups }
    | none => .error .tooManyGroups

/-- The identity after one attempt to join, which leaves it as it was when it is refused. -/
def tryJoin (c : Identity) (group : Address) : Identity :=
  match c.joinGroup group with
  | .ok joined => joined
  | .error _ => c

/-- Whether a frame for `destination` is meant for this node. -/
def accepts (c : Identity) (destination : Address) : Bool :=
  c.promiscuous || destination == c.address || destination == Address.broadcast
    || c.groups.members.contains destination

def lineSettings (c : Identity) : LineSettings := .multidrop c.baudrate

/-- Checks an identity against the address plan. Of several faults the first in the order version,
address, groups, speed is reported, and of several bad groups the first in the list. -/
def validate (c : Identity) : Except IdentityError Unit :=
  if c.version ≠ identityVersion then .error .versionMismatch
  else if !c.address.isAssignable then .error (.invalidAddress c.address)
  else
    match c.groups.members.find? (!·.isGroup) with
    | some group => .error (.invalidGroup group)
    | none => if c.baudrate = 0 then .error .invalidBaudrate else .ok ()

end Identity

end MultidropBus
