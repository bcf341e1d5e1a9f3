import MultidropBus.Ring.Basic

/-!
# What the ring operations do to the kept bytes

Seen through `Ring.toList` the ring is a queue: adding appends a byte, advancing drops bytes at the
front, and looking reads a stretch of the list. This holds wherever the cursors stand, the point at
which they wrap included, because the number of slots divides `2 ^ 64`. The only thing asked of a
ring is that it keeps no more bytes than it has slots, which every operation preserves.
-/

namespace MultidropBus

theorem RingSize.slots_lt (size : RingSize) : size.slots < UInt64.size :=
  Nat.pow_lt_pow_right (by decide) size.exponent_lt

namespace Ring

variable {size : RingSize}

/-! ### Slots -/

/-- Wrapped or not, a cursor moved on by `i` uses the slot `i` further on. -/
theorem slot_add_val (c : Cursor) (i : Nat) :
    (slot (c + UInt64.ofNat i) : Fin size.slots).val = (c.toNat + i) % size.slots := by
  simp only [slot, UInt64.toNat_add, UInt64.toNat_ofNat']
  rw [Nat.mod_mod_of_dvd _ size.slots_dvd, Nat.add_mod, Nat.mod_mod_of_dvd _ size.slots_dvd,
    ← Nat.add_mod]

/-- Different distances below the number of slots use different slots. -/
theorem slot_add_ne (c : Cursor) {i j : Nat} (h : i < j) (hj : j < size.slots) :
    (slot (c + UInt64.ofNat i) : Fin size.slots) ≠ slot (c + UInt64.ofNat j) := by
  intro hsame
  have hsame := congrArg Fin.val hsame
  rw [slot_add_val, slot_add_val] at hsame
  have hrest := Nat.sub_mod_eq_zero_of_mod_eq hsame.symm
  rw [show c.toNat + j - (c.toNat + i) = j - i by omega, Nat.mod_eq_of_lt (by omega)] at hrest
  omega

/-! ### Occupancy -/

theorem occupancy_lt (r : Ring size) : r.occupancy < UInt64.size := UInt64.toNat_lt _

theorem write_eq (r : Ring size) : r.write = r.read + UInt64.ofNat r.occupancy := by
  simp only [occupancy, UInt64.ofNat_toNat]
  grind

theorem occupancy_empty : (empty : Ring size).occupancy = 0 := by
  simp [occupancy, empty]

theorem toList_length (r : Ring size) : r.toList.length = r.occupancy := by
  simp [toList]

theorem toList_empty : (empty : Ring size).toList = [] := by
  simp [toList, occupancy_empty]

theorem toList_getElem? (r : Ring size) (i : Nat) (h : i < r.occupancy) :
    r.toList[i]? = some (r.byteAt (r.read + UInt64.ofNat i)) := by
  simp [toList, h]

/-! ### Adding -/

theorem push?_eq_none_iff (r : Ring size) (byte : UInt8) :
    r.push? byte = none ↔ size.slots ≤ r.occupancy := by
  simp [push?, isFull]

theorem push?_read {r r' : Ring size} {byte : UInt8} (h : r.push? byte = some r') :
    r'.read = r.read := by
  simp only [push?] at h
  split at h
  · cases h
  · cases h
    rfl

theorem push?_write {r r' : Ring size} {byte : UInt8} (h : r.push? byte = some r') :
    r'.write = r.write + 1 := by
  simp only [push?] at h
  split at h
  · cases h
  · cases h
    rfl

theorem push?_occupancy {r r' : Ring size} {byte : UInt8} (h : r.push? byte = some r') :
    r'.occupancy = r.occupancy + 1 ∧ r'.occupancy ≤ size.slots := by
  have hroom : r.occupancy < size.slots := by
    rw [← Nat.not_le, ← push?_eq_none_iff r byte, h]
    simp
  have hbound : size.slots < 2 ^ 64 := size.slots_lt
  have hgrown : r'.occupancy = r.occupancy + 1 := by
    rw [occupancy, push?_read h, push?_write h, write_eq r]
    rw [show r.read + UInt64.ofNat r.occupancy + 1 - r.read = UInt64.ofNat r.occupancy + 1 by grind]
    rw [UInt64.toNat_add, UInt64.toNat_ofNat', UInt64.toNat_one]
    omega
  exact ⟨hgrown, by omega⟩

/-- A byte just added is kept for its position, and no byte kept before is lost. -/
theorem push?_byteAt {r r' : Ring size} {byte : UInt8} (h : r.push? byte = some r') {i : Nat}
    (hi : i ≤ r.occupancy) :
    r'.byteAt (r.read + UInt64.ofNat i)
      = if i = r.occupancy then byte else r.byteAt (r.read + UInt64.ofNat i) := by
  have hroom := push?_occupancy h
  simp only [push?] at h
  split at h
  · cases h
  · cases h
    simp only [byteAt, Fin.getElem_fin, Vector.getElem_set]
    by_cases hlast : i = r.occupancy
    · rw [if_pos hlast, if_pos]
      rw [hlast, ← write_eq]
    · rw [if_neg hlast, if_neg]
      intro hsame
      have hapart : (slot (r.read + UInt64.ofNat i) : Fin size.slots) ≠ slot r.write := by
        rw [write_eq r]
        exact slot_add_ne r.read (by omega) (by omega)
      exact hapart (Fin.ext hsame.symm)

theorem toList_push? {r r' : Ring size} {byte : UInt8} (h : r.push? byte = some r') :
    r'.toList = r.toList ++ [byte] := by
  rw [toList, (push?_occupancy h).1, push?_read h, List.range_succ, List.map_append]
  congr 1
  · refine List.map_congr_left fun i hi => ?_
    have hi := List.mem_range.1 hi
    rw [push?_byteAt h (by omega), if_neg (by omega)]
  · simp [push?_byteAt h (Nat.le_refl _)]

/-! ### Advancing -/

theorem advance_fst (r : Ring size) (n : Nat) : (r.advance n).1 = min n r.occupancy := rfl

theorem advance_write (r : Ring size) (n : Nat) : (r.advance n).2.write = r.write := rfl

theorem advance_read (r : Ring size) (n : Nat) :
    (r.advance n).2.read = r.read + UInt64.ofNat (min n r.occupancy) := rfl

theorem advance_byteAt (r : Ring size) (n : Nat) (c : Cursor) :
    (r.advance n).2.byteAt c = r.byteAt c := rfl

theorem advance_occupancy (r : Ring size) (n : Nat) :
    (r.advance n).2.occupancy = r.occupancy - n := by
  have hbound : r.occupancy < 2 ^ 64 := r.occupancy_lt
  rw [occupancy, advance_write, advance_read, write_eq r]
  rw [show r.read + UInt64.ofNat r.occupancy - (r.read + UInt64.ofNat (min n r.occupancy))
      = UInt64.ofNat r.occupancy - UInt64.ofNat (min n r.occupancy) by grind]
  rw [UInt64.toNat_sub, UInt64.toNat_ofNat', UInt64.toNat_ofNat']
  omega

theorem toList_advance (r : Ring size) (n : Nat) : (r.advance n).2.toList = r.toList.drop n := by
  apply List.ext_getElem?
  intro i
  rw [List.getElem?_drop]
  by_cases h : i < r.occupancy - n
  · rw [toList_getElem? _ _ (by rw [advance_occupancy]; exact h),
      toList_getElem? _ _ (by omega)]
    rw [advance_byteAt, advance_read, Nat.min_eq_left (by omega), UInt64.ofNat_add,
      UInt64.add_assoc]
  · rw [List.getElem?_eq_none, List.getElem?_eq_none]
    · rw [toList_length]
      omega
    · rw [toList_length, advance_occupancy]
      omega

/-! ### Looking -/

theorem peek?_eq (r : Ring size) (offset : Nat) : r.peek? offset = r.toList[offset]? := by
  simp only [peek?]
  split
  · rename_i h
    exact (List.getElem?_eq_none (by rw [toList_length]; exact h)).symm
  · rename_i h
    rw [toList_getElem? _ _ (by omega)]

theorem window_eq (r : Ring size) (offset length : Nat) :
    r.window offset length = (r.toList.drop offset).take length := by
  apply List.ext_getElem?
  intro i
  simp only [window, List.getElem?_map, List.getElem?_take, List.getElem?_drop]
  by_cases h : i < min length (r.occupancy - offset)
  · rw [if_pos (by omega), toList_getElem? _ _ (by omega), List.getElem?_range h]
    simp [UInt64.ofNat_add, UInt64.add_assoc]
  · rw [List.getElem?_eq_none (by rw [List.length_range]; omega)]
    split
    · rw [List.getElem?_eq_none (by rw [toList_length]; omega)]
      rfl
    · rfl

end Ring

end MultidropBus
