import MultidropBus.Proofs.Frame.RoundTrip

/-!
# Damaged headers

A checksum that is a sum sees the changes of its summands only by their sum. A header that was
intact and arrives changed passes exactly if the five bytes that are summed have changed, all
together, by as much as the checksum itself, modulo 256 (`checksumHolds_iff_changes`). A single byte
changes by less than 256, so one changed byte never goes through, wherever in the header it stands
and whatever it became (`not_checksumHolds_set`).
-/

namespace MultidropBus

/-- By how much the byte at an index has changed. -/
def byteChange (sent received : Bytes) (i : Nat) : Int :=
  (received.getD i 0).toNat - (sent.getD i 0).toNat

/-- By how much the bytes under the checksum have changed, all together. -/
def summedChange (sent received : Bytes) : Int :=
  byteChange sent received 0 + byteChange sent received 1 + byteChange sent received 3
    + byteChange sent received 4 + byteChange sent received 5

variable {sent received : Bytes}

/-- **Changes go unnoticed exactly if they make up for each other.** -/
theorem checksumHolds_iff_changes (hsent : ChecksumHolds sent) :
    ChecksumHolds received
      ↔ summedChange sent received % 256 = byteChange sent received 2 % 256 := by
  have hbound := (received.getD 2 0).toNat_lt
  simp only [ChecksumHolds, headerSum, summedChange, byteChange] at hsent ⊢
  omega

theorem byteChange_set (sent : Bytes) {i : Nat} (hi : i < sent.length) (value : UInt8) (j : Nat) :
    byteChange sent (sent.set i value) j
      = if i = j then (value.toNat : Int) - (sent.getD i 0).toNat else 0 := by
  by_cases h : i = j
  · subst h
    simp [byteChange, List.getD_eq_getElem?_getD, hi]
  · simp [byteChange, List.getD_eq_getElem?_getD, h]

/-- **A single changed byte never goes unnoticed.** -/
theorem not_checksumHolds_set (hsent : ChecksumHolds sent) (hlen : headerSize ≤ sent.length)
    {i : Nat} (hi : i < headerSize) {value : UInt8} (hchanged : sent[i]? ≠ some value) :
    ¬ ChecksumHolds (sent.set i value) := by
  have hlt : i < sent.length := Nat.lt_of_lt_of_le hi hlen
  have hne : value.toNat ≠ (sent.getD i 0).toNat := by
    intro hsame
    rw [List.getElem?_eq_getElem hlt] at hchanged
    rw [List.getD_eq_getElem?_getD, List.getElem?_eq_getElem hlt, Option.getD_some] at hsame
    exact hchanged (congrArg some (UInt8.toNat_inj.1 hsame).symm)
  have hnew := value.toNat_lt
  have hold := (sent.getD i 0).toNat_lt
  rw [checksumHolds_iff_changes hsent]
  simp only [summedChange, byteChange_set sent hlt]
  -- The one change that counts is less than 256 either way, and the five others are 0.
  have hplace : i = 0 ∨ i = 1 ∨ i = 2 ∨ i = 3 ∨ i = 4 ∨ i = 5 := by
    change i < 6 at hi
    omega
  rcases hplace with rfl | rfl | rfl | rfl | rfl | rfl
  all_goals
    simp only [Nat.reduceEqDiff, reduceIte]
    omega

namespace Header

/-- A header passes if it is whole and its checksum is right. -/
theorem validate_ok_iff (bytes : Bytes) :
    (∃ header, validate bytes = .ok header)
      ↔ headerSize ≤ bytes.length ∧ ChecksumHolds bytes := by
  rw [validate_eq]
  split
  case isTrue hshort =>
    simp only [reduceCtorEq, exists_false, false_iff]
    omega
  case isFalse hlong =>
    split
    case isTrue hsum => simp [hsum]; omega
    case isFalse hsum => simp [hsum]

theorem validate_invalidChecksum {bytes : Bytes} (hlen : headerSize ≤ bytes.length)
    (hsum : ¬ ChecksumHolds bytes) : validate bytes = .error .invalidChecksum := by
  rw [validate_eq, if_neg (Nat.not_lt_of_le hlen), if_neg hsum]

end Header

namespace Frame

theorem wire_checksumHolds (destination source : Address) (payload : Bytes) :
    ChecksumHolds (wire destination source payload) :=
  ((Header.validate_ok_iff _).1 ⟨_, Header.validate_announce destination source _ payload⟩).2

/-- As many bytes as were written are the frame. -/
theorem take_of_encodeInto {destination source : Address} {payload buffer written : Bytes} {n : Nat}
    (h : encodeInto destination source payload buffer = (.ok n, written)) :
    written.take n = wire destination source payload := by
  rcases Nat.lt_or_ge maxPayloadSize payload.length with hlarge | hlen
  · rw [encodeInto, if_pos hlarge] at h
    cases h
  rcases Nat.lt_or_ge buffer.length (headerSize + payload.length) with hsmall | hroom
  · rw [encodeInto, if_neg (Nat.not_lt_of_le hlen), if_pos hsmall] at h
    cases h
  · rw [encodeInto_ok destination source hlen hroom] at h
    cases h
    exact List.take_left' (wire_length destination source payload)

end Frame

end MultidropBus
