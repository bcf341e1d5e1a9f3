import MultidropBus.Bytes

/-!
# The receive ring

A first-in first-out queue of bytes in a fixed number of slots. The receiver adds bytes at the write
cursor and the poll side removes them at the read cursor. Both cursors count bytes and run freely
modulo `2 ^ 64`; a byte is kept in the slot that its position has modulo the number of slots. Since
the number of slots is a power of two it divides `2 ^ 64`, so a cursor that wraps stays at the next
slot. And since the cursors do not wrap at the number of slots, all slots can be in use: a full ring
and an empty one differ.
-/

namespace MultidropBus

/-- A position in the stream of received bytes, modulo `2 ^ 64`. -/
abbrev Cursor := UInt64

/-- A number of slots: a power of two that a cursor can count. -/
structure RingSize where
  exponent : Nat
  exponent_lt : exponent < 64
deriving DecidableEq, Repr

namespace RingSize

def slots (size : RingSize) : Nat := Nat.pow 2 size.exponent

theorem slots_pos (size : RingSize) : 0 < size.slots := Nat.two_pow_pos size.exponent

theorem slots_dvd (size : RingSize) : size.slots ∣ UInt64.size :=
  Nat.pow_dvd_pow 2 (Nat.le_of_lt size.exponent_lt)

/-- The size with the given number of slots, if that is a power of two within range. -/
def ofSlots? (n : Nat) : Option RingSize :=
  if h : n.log2 < 64 then
    if Nat.pow 2 n.log2 = n then some ⟨n.log2, h⟩ else none
  else none

end RingSize

/-- The number of slots of a station that was not told otherwise. -/
def defaultRingSize : RingSize := ⟨6, by decide⟩

structure Ring (size : RingSize) where
  slots : Vector UInt8 size.slots
  /-- The position of the next byte to come. -/
  write : Cursor
  /-- The position of the oldest byte kept. -/
  read : Cursor
deriving DecidableEq, Repr

namespace Ring

variable {size : RingSize}

def empty : Ring size := ⟨Vector.replicate size.slots 0, 0, 0⟩

/-- The slot of a position. -/
def slot (position : Cursor) : Fin size.slots :=
  ⟨position.toNat % size.slots, Nat.mod_lt _ size.slots_pos⟩

/-- The byte kept for a position. -/
def byteAt (r : Ring size) (position : Cursor) : UInt8 := r.slots[slot position]

/-- The number of bytes kept. -/
def occupancy (r : Ring size) : Nat := (r.write - r.read).toNat

def isEmpty (r : Ring size) : Bool := r.occupancy == 0

def isFull (r : Ring size) : Bool := size.slots ≤ r.occupancy

/-- The bytes kept, oldest first. -/
def toList (r : Ring size) : Bytes :=
  (List.range r.occupancy).map fun i => r.byteAt (r.read + UInt64.ofNat i)

/-- Adds a byte. A full ring refuses it. -/
def push? (r : Ring size) (byte : UInt8) : Option (Ring size) :=
  if r.isFull then none
  else
    let i : Fin size.slots := slot r.write
    some { r with slots := r.slots.set i byte i.isLt, write := r.write + 1 }

/-- The byte at a distance from the oldest one, if it is kept. -/
def peek? (r : Ring size) (offset : Nat) : Option UInt8 :=
  if r.occupancy ≤ offset then none else some (r.byteAt (r.read + UInt64.ofNat offset))

/-- At most `length` kept bytes from a distance on, none of them consumed. -/
def window (r : Ring size) (offset length : Nat) : Bytes :=
  (List.range (min length (r.occupancy - offset))).map fun i =>
    r.byteAt (r.read + UInt64.ofNat offset + UInt64.ofNat i)

/-- Copies kept bytes from a distance on over the front of a buffer, and answers their number. -/
def peekWindow (r : Ring size) (offset : Nat) (buffer : Bytes) : Nat × Bytes :=
  let bytes := r.window offset buffer.length
  (bytes.length, overwrite buffer bytes)

/-- Drops at most `n` bytes and answers how many it dropped. It never moves past the write cursor.
-/
def advance (r : Ring size) (n : Nat) : Nat × Ring size :=
  let dropped := min n r.occupancy
  (dropped, { r with read := r.read + UInt64.ofNat dropped })

/-- Drops the bytes before a position and answers how many it dropped. A position that the read
cursor has passed, or that the write cursor has not reached, changes nothing. -/
def advanceTo (r : Ring size) (position : Cursor) : Nat × Ring size :=
  let distance := (position - r.read).toNat
  if r.occupancy < distance then (0, r) else r.advance distance

end Ring

end MultidropBus
