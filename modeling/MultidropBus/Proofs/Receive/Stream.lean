import MultidropBus.Ring.Lemmas

/-!
# The ring as a stretch of the received byte stream

All bytes that ever went into a ring form one stream, and the ring holds the part of it from the
number of bytes taken so far up to the end. The cursors are these two numbers modulo `2 ^ 64`. The
stream may be longer than that: only differences of cursors are ever looked at, and those are
bounded by the number of slots.
-/

namespace MultidropBus

/-- The distance of two cursors is that of the positions, however often they wrapped. -/
theorem Cursor.distance (p n : Nat) (h : n < UInt64.size) :
    (UInt64.ofNat (p + n) - UInt64.ofNat p).toNat = n := by
  rw [UInt64.ofNat_add, show UInt64.ofNat p + UInt64.ofNat n - UInt64.ofNat p = UInt64.ofNat n by
    grind, UInt64.toNat_ofNat']
  exact Nat.mod_eq_of_lt h

/-- A position behind another one is nearly a whole round ahead of it. -/
theorem Cursor.distance_behind (p n : Nat) (hpos : 0 < n) (h : n < UInt64.size) :
    (UInt64.ofNat p - UInt64.ofNat (p + n)).toNat = UInt64.size - n := by
  have hn := UInt64.toNat_ofNat_of_lt' h
  rw [UInt64.ofNat_add, show UInt64.ofNat p - (UInt64.ofNat p + UInt64.ofNat n)
    = 0 - UInt64.ofNat n by grind, UInt64.toNat_sub, hn]
  change (2 ^ 64 - n + 0) % 2 ^ 64 = 2 ^ 64 - n
  change n < 2 ^ 64 at h
  omega

/-- A ring has room for at most half of a round. -/
theorem RingSize.slots_le_half (size : RingSize) : size.slots + size.slots ≤ UInt64.size := by
  have hle : size.slots ≤ 2 ^ 63 :=
    Nat.pow_le_pow_right (by decide) (Nat.le_of_lt_succ size.exponent_lt)
  change size.slots + size.slots ≤ 2 ^ 64
  omega

namespace Ring

variable {size : RingSize}

/-- The ring holds the stream `stored` less its first `taken` bytes. -/
structure Holds (r : Ring size) (stored : Bytes) (taken : Nat) : Prop where
  read : r.read = UInt64.ofNat taken
  taken_le : taken ≤ stored.length
  room : stored.length ≤ taken + size.slots
  toList : r.toList = stored.drop taken

variable {r r' : Ring size} {stored : Bytes} {taken : Nat} {byte : UInt8}

theorem empty_holds : (empty : Ring size).Holds [] 0 where
  read := rfl
  taken_le := Nat.le_refl 0
  room := Nat.zero_le _
  toList := toList_empty

theorem advance_zero (r : Ring size) : r.advance 0 = (0, r) := by
  rw [advance, Nat.zero_min]
  simp

/-- Moving up to a position drops some of the bytes, or none. -/
theorem advanceTo_cases (r : Ring size) (position : Cursor) :
    ∃ n ≤ r.occupancy, r.advanceTo position = (n, (r.advance n).2) := by
  simp only [advanceTo]
  split
  · exact ⟨0, Nat.zero_le _, by rw [advance_zero]⟩
  · refine ⟨min (position - r.read).toNat r.occupancy, Nat.min_le_right _ _, ?_⟩
    rw [advance, advance, Nat.min_assoc, Nat.min_self]

namespace Holds

theorem occupancy (h : r.Holds stored taken) : r.occupancy = stored.length - taken := by
  rw [← toList_length, h.toList, List.length_drop]

theorem write (h : r.Holds stored taken) : r.write = UInt64.ofNat stored.length := by
  have hle := h.taken_le
  rw [write_eq, h.read, h.occupancy, ← UInt64.ofNat_add]
  congr 1
  omega

/-- As long as no cursor wraps, the cursors are positions in the stream. -/
theorem read_toNat (h : r.Holds stored taken) (hshort : stored.length < UInt64.size) :
    r.read.toNat = taken := by
  rw [h.read]
  exact UInt64.toNat_ofNat_of_lt' (Nat.lt_of_le_of_lt h.taken_le hshort)

theorem write_toNat (h : r.Holds stored taken) (hshort : stored.length < UInt64.size) :
    r.write.toNat = stored.length := by
  rw [h.write]
  exact UInt64.toNat_ofNat_of_lt' hshort

/-! ### Adding -/

theorem push (h : r.Holds stored taken) (hpush : r.push? byte = some r') :
    r'.Holds (stored ++ [byte]) taken where
  read := (push?_read hpush).trans h.read
  taken_le := by
    have hle := h.taken_le
    rw [List.length_append]
    omega
  room := by
    have hroom := push?_occupancy hpush
    have hle := h.taken_le
    rw [h.occupancy] at hroom
    rw [List.length_append, List.length_singleton]
    omega
  toList := by rw [toList_push? hpush, h.toList, List.drop_append_of_le_length h.taken_le]

theorem write_ne (hpush : r.push? byte = some r') : r'.write ≠ r.write := by
  rw [push?_write hpush]
  intro _
  have hone : (1 : UInt64) = 0 := by grind
  exact absurd hone (by decide)

/-! ### Taking -/

theorem advance (h : r.Holds stored taken) {n : Nat} (hn : taken + n ≤ stored.length) :
    (r.advance n).2.Holds stored (taken + n) where
  read := by
    rw [advance_read, h.read, h.occupancy, Nat.min_eq_left (by omega), UInt64.ofNat_add]
  taken_le := hn
  room := by
    have hroom := h.room
    omega
  toList := by rw [toList_advance, h.toList, List.drop_drop]

/-- Moving up to a position within the stored bytes takes exactly the bytes in front of it. -/
theorem advanceTo (h : r.Holds stored taken) {position : Nat} (hlow : taken ≤ position)
    (hhigh : position ≤ stored.length) :
    r.advanceTo (UInt64.ofNat position) = (position - taken, (r.advance (position - taken)).2) := by
  have hroom := h.room
  have hslots := size.slots_lt
  obtain ⟨n, rfl⟩ := Nat.exists_eq_add_of_le hlow
  have hdistance : (UInt64.ofNat (taken + n) - r.read).toNat = n := by
    rw [h.read, Cursor.distance taken n (by omega)]
  simp only [Ring.advanceTo, hdistance, Nat.add_sub_cancel_left, h.occupancy]
  rw [if_neg (by omega)]
  refine Prod.ext ?_ rfl
  rw [advance_fst, h.occupancy, Nat.min_eq_left (by omega)]

/-- While no cursor has wrapped, moving up to a position already passed takes nothing. -/
theorem advanceTo_max (h : r.Holds stored taken) (hshort : stored.length < UInt64.size)
    {position : Nat} (hhigh : position ≤ stored.length) :
    r.advanceTo (UInt64.ofNat position)
      = (max taken position - taken, (r.advance (max taken position - taken)).2) := by
  rcases Nat.lt_or_ge position taken with hpassed | hlow
  · have hle := h.taken_le
    obtain ⟨n, rfl⟩ := Nat.exists_eq_add_of_lt hpassed
    have hdistance : (UInt64.ofNat position - r.read).toNat = UInt64.size - (n + 1) := by
      rw [h.read, Nat.add_assoc, Cursor.distance_behind position (n + 1) (by omega) (by omega)]
    rw [Nat.max_eq_left (by omega), Nat.sub_self, advance_zero]
    simp only [Ring.advanceTo, hdistance, h.occupancy]
    rw [if_pos (by omega)]
  · rw [Nat.max_eq_right hlow]
    exact h.advanceTo hlow hhigh

/-- Bytes are taken by moving the read cursor, so the move tells how many were taken. -/
theorem passed (h : r.Holds stored taken) {n : Nat} (h' : r'.Holds stored (taken + n)) :
    (r'.read - r.read).toNat = n := by
  have hroom := h.room
  have hslots := size.slots_lt
  have hle := h'.taken_le
  rw [h.read, h'.read, Cursor.distance taken n (by omega)]

end Holds

end Ring

end MultidropBus
