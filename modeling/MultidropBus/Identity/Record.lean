import MultidropBus.Identity.Basic
import MultidropBus.Identity.Varint

/-!
# Stored identities

An identity is kept in flash as one record: format version, own address, the number of memberships
and the memberships, whether the node sees all traffic, the line speed, and the polarity of the
driver-enable pin. Version, address and memberships are single bytes, flags are the bytes `0` and
`1`, and the two numbers are of variable length. Bytes after the record are ignored, so it may stand
at the start of an erased page.
-/

namespace MultidropBus

/-- A buffer of this size holds every stored identity. -/
def maxStoredSize : Nat := 32

/-- The number of memberships is written as a 64-bit number. -/
def countWidth : Nat := 64

/-- The line speed is written as a 32-bit number. -/
def baudrateWidth : Nat := 32

def flagByte (b : Bool) : UInt8 := if b then 1 else 0

def readByte? : Bytes → Option (UInt8 × Bytes)
  | [] => none
  | b :: rest => some (b, rest)

def readFlag? : Bytes → Option (Bool × Bytes)
  | [] => none
  | b :: rest => if b = 0 then some (false, rest) else if b = 1 then some (true, rest) else none

/-- The next `count` bytes, if there are as many. -/
def readBytes? (count : Nat) (bytes : Bytes) : Option (Bytes × Bytes) :=
  if bytes.length < count then none else some (bytes.take count, bytes.drop count)

/-- The memberships, of which there may be four at most. -/
def readGroups? (bytes : Bytes) : Option (GroupList × Bytes) := do
  let (count, rest) ← Varint.read? countWidth bytes
  let (members, rest) ← readBytes? count rest
  let groups ← GroupList.ofList? members
  some (groups, rest)

namespace Identity

/-- The stored form. -/
def encode (c : Identity) : Bytes :=
  [c.version, c.address]
    ++ Varint.write countWidth c.groups.members.length ++ c.groups.members
    ++ [flagByte c.promiscuous]
    ++ Varint.write baudrateWidth c.baudrate.toNat
    ++ [flagByte c.driveActiveLow]

/-- The identity laid out at the start of a byte string, whether it makes sense or not, and the
bytes after it. -/
def decode? (bytes : Bytes) : Option (Identity × Bytes) := do
  let (version, rest) ← readByte? bytes
  let (address, rest) ← readByte? rest
  let (groups, rest) ← readGroups? rest
  let (promiscuous, rest) ← readFlag? rest
  let (baudrate, rest) ← Varint.read? baudrateWidth rest
  let (driveActiveLow, rest) ← readFlag? rest
  some (⟨version, address, groups, promiscuous, UInt32.ofNat baudrate, driveActiveLow⟩, rest)

/-- The stored form, for a buffer of the given size. -/
def store (c : Identity) (room : Nat) : Except IdentityError Bytes :=
  if c.encode.length ≤ room then .ok c.encode else .error .serialize

/-- The identity at the start of a byte string. The layout is checked first, then the version, then
the fields. -/
def load (bytes : Bytes) : Except IdentityError Identity :=
  match decode? bytes with
  | none => .error .deserialize
  | some (c, _) =>
    if c.version ≠ identityVersion then .error .versionMismatch
    else
      match c.validate with
      | .ok () => .ok c
      | .error e => .error e

end Identity

end MultidropBus
