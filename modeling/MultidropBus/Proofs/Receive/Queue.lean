import MultidropBus.Ring.Lemmas

/-!
# The ring is a bounded queue

Whoever sees only the answers of a ring cannot tell it from a list of at most as many bytes as the
ring has slots, together with the position of its front. New bytes go to the end of the list, bytes
are dropped at its front, and looking changes nothing. The cursors may start anywhere and wrap as
often as they like, and offsets and positions may be any number: what lies outside the queue is
answered as such (`Ring.run_refines`).
-/

namespace MultidropBus

/-- What the two sides of a ring may do with it. -/
inductive RingStep
  | push (byte : UInt8)
  | peek (offset : Nat)
  | window (offset : Nat) (buffer : Bytes)
  | advance (n : Nat)
  | advanceTo (position : Cursor)
  /-- The ring is handed to a new writer and a new reader, who know nothing but the ring. -/
  | split
deriving DecidableEq, Repr

inductive RingAnswer
  | pushed (stored : Bool)
  | peeked (byte : Option UInt8)
  /-- The number of bytes copied, and the buffer afterwards. -/
  | copied (n : Nat) (buffer : Bytes)
  | dropped (n : Nat)
  | done
deriving DecidableEq, Repr

/-- Takes steps in order; the answers are those of all of them. -/
def RingStep.run {α : Type} (step : α → RingStep → RingAnswer × α) (a : α) :
    List RingStep → List RingAnswer × α
  | [] => ([], a)
  | s :: rest =>
    let first := step a s
    let others := run step first.2 rest
    (first.1 :: others.1, others.2)

/-- A queue of bytes, oldest first, and the position of its front. -/
structure ByteQueue where
  bytes : Bytes
  front : Cursor
deriving DecidableEq, Repr

namespace ByteQueue

def drop (q : ByteQueue) (n : Nat) : RingAnswer × ByteQueue :=
  (.dropped n, ⟨q.bytes.drop n, q.front + UInt64.ofNat n⟩)

/-- A queue with room for `capacity` bytes. -/
def step (capacity : Nat) (q : ByteQueue) : RingStep → RingAnswer × ByteQueue
  | .push byte =>
    if q.bytes.length < capacity then (.pushed true, { q with bytes := q.bytes ++ [byte] })
    else (.pushed false, q)
  | .peek offset => (.peeked q.bytes[offset]?, q)
  | .window offset buffer =>
    let part := (q.bytes.drop offset).take buffer.length
    (.copied part.length (part ++ buffer.drop part.length), q)
  | .advance n => q.drop (min n q.bytes.length)
  | .advanceTo position =>
    let distance := (position - q.front).toNat
    if distance ≤ q.bytes.length then q.drop distance else (.dropped 0, q)
  | .split => (.done, q)

end ByteQueue

namespace Ring

variable {size : RingSize}

def step (r : Ring size) : RingStep → RingAnswer × Ring size
  | .push byte =>
    match r.push? byte with
    | some r' => (.pushed true, r')
    | none => (.pushed false, r)
  | .peek offset => (.peeked (r.peek? offset), r)
  | .window offset buffer =>
    let seen := r.peekWindow offset buffer
    (.copied seen.1 seen.2, r)
  | .advance n => (.dropped (r.advance n).1, (r.advance n).2)
  | .advanceTo position => (.dropped (r.advanceTo position).1, (r.advanceTo position).2)
  | .split => (.done, r)

/-- The ring keeps the bytes of the queue, from the same position on. -/
structure Refines (r : Ring size) (q : ByteQueue) : Prop where
  bytes : r.toList = q.bytes
  front : r.read = q.front
  room : q.bytes.length ≤ size.slots

variable {r : Ring size} {q : ByteQueue}

theorem Refines.occupancy (h : r.Refines q) : r.occupancy = q.bytes.length := by
  rw [← h.bytes, toList_length]

theorem Refines.write (h : r.Refines q) : r.write = q.front + UInt64.ofNat q.bytes.length := by
  rw [write_eq, h.front, h.occupancy]

/-- Before the first byte comes in, it does not matter where the cursors stand. -/
theorem refines_empty (slots : Vector UInt8 size.slots) (start : Cursor) :
    (⟨slots, start, start⟩ : Ring size).Refines ⟨[], start⟩ where
  bytes := by
    have hnone : (⟨slots, start, start⟩ : Ring size).occupancy = 0 := by
      rw [Ring.occupancy, UInt64.sub_self]
      rfl
    rw [toList, hnone]
    rfl
  front := rfl
  room := Nat.zero_le _

/-- The same answer, and a ring that refines the queue again. -/
def Follows (ring : RingAnswer × Ring size) (queue : RingAnswer × ByteQueue) : Prop :=
  ring.1 = queue.1 ∧ ring.2.Refines queue.2

theorem Refines.push (h : r.Refines q) (byte : UInt8) :
    Follows (r.step (.push byte)) (q.step size.slots (.push byte)) := by
  simp only [Ring.step, ByteQueue.step]
  cases hpush : r.push? byte with
  | none =>
    have hfull := (push?_eq_none_iff r byte).1 hpush
    rw [h.occupancy] at hfull
    rw [if_neg (Nat.not_lt_of_le hfull)]
    exact ⟨rfl, h⟩
  | some r' =>
    obtain ⟨hgrown, hroom⟩ := push?_occupancy hpush
    rw [hgrown, h.occupancy] at hroom
    have hfree : q.bytes.length < size.slots := hroom
    rw [if_pos hfree]
    refine ⟨rfl, ?_, (push?_read hpush).trans h.front, ?_⟩
    · rw [toList_push? hpush, h.bytes]
    · rw [List.length_append]
      exact hroom

theorem Refines.window (h : r.Refines q) (offset : Nat) (buffer : Bytes) :
    Follows (r.step (.window offset buffer)) (q.step size.slots (.window offset buffer)) := by
  refine ⟨?_, h⟩
  have hfits : ((q.bytes.drop offset).take buffer.length).length ≤ buffer.length :=
    List.length_take_le _ _
  simp only [Ring.step, ByteQueue.step, peekWindow, window_eq, h.bytes]
  rw [overwrite_of_le _ _ hfits]

/-- Dropping takes bytes off the front of the queue. -/
theorem Refines.drop (h : r.Refines q) {n : Nat} (hn : n ≤ q.bytes.length) :
    Follows (.dropped (r.advance n).1, (r.advance n).2) (q.drop n) := by
  have hall : min n r.occupancy = n := by
    rw [h.occupancy]
    exact Nat.min_eq_left hn
  refine ⟨?_, ?_, ?_, ?_⟩
  · rw [advance_fst, hall]
    rfl
  · rw [toList_advance, h.bytes]
    rfl
  · rw [advance_read, hall, h.front]
    rfl
  · have hroom := h.room
    show (q.bytes.drop n).length ≤ size.slots
    rw [List.length_drop]
    omega

theorem Refines.advance (h : r.Refines q) (n : Nat) :
    Follows (r.step (.advance n)) (q.step size.slots (.advance n)) := by
  have hsame : r.advance n = r.advance (min n q.bytes.length) := by
    rw [Ring.advance, Ring.advance, h.occupancy, Nat.min_assoc, Nat.min_self]
  rw [Ring.step, ByteQueue.step, hsame]
  exact h.drop (Nat.min_le_right _ _)

theorem Refines.advanceTo (h : r.Refines q) (position : Cursor) :
    Follows (r.step (.advanceTo position)) (q.step size.slots (.advanceTo position)) := by
  simp only [Ring.step, ByteQueue.step, Ring.advanceTo, h.front, h.occupancy]
  rcases Nat.lt_or_ge q.bytes.length (position - q.front).toNat with hbeyond | hwithin
  · rw [if_pos hbeyond, if_neg (Nat.not_le_of_lt hbeyond)]
    exact ⟨rfl, h⟩
  · rw [if_neg (Nat.not_lt_of_le hwithin), if_pos hwithin]
    exact h.drop hwithin

/-- **Every step is answered as by the queue**, and leaves what the queue keeps. -/
theorem Refines.step (h : r.Refines q) (s : RingStep) :
    Follows (r.step s) (q.step size.slots s) := by
  cases s with
  | push byte => exact h.push byte
  | peek offset => exact ⟨by rw [Ring.step, ByteQueue.step, peek?_eq, h.bytes], h⟩
  | window offset buffer => exact h.window offset buffer
  | advance n => exact h.advance n
  | advanceTo position => exact h.advanceTo position
  | split => exact ⟨rfl, h⟩

theorem Refines.run (h : r.Refines q) (steps : List RingStep) :
    (RingStep.run Ring.step r steps).1 = (RingStep.run (ByteQueue.step size.slots) q steps).1
      ∧ (RingStep.run Ring.step r steps).2.Refines
        (RingStep.run (ByteQueue.step size.slots) q steps).2 := by
  induction steps generalizing r q with
  | nil => exact ⟨rfl, h⟩
  | cons s rest ih =>
    obtain ⟨hanswer, hnext⟩ := h.step s
    obtain ⟨hanswers, hlast⟩ := ih hnext
    refine ⟨?_, hlast⟩
    show _ :: _ = _ :: _
    rw [hanswer, hanswers]

/-- **The ring refines a bounded queue**, wherever its cursors start: every sequence of steps gets
the answers of the queue, and at its end the cursors enclose the bytes of the queue, of which there
are never more than slots. -/
theorem run_refines (slots : Vector UInt8 size.slots) (start : Cursor) (steps : List RingStep) :
    ∃ (r : Ring size) (q : ByteQueue) (answers : List RingAnswer),
      RingStep.run Ring.step (⟨slots, start, start⟩ : Ring size) steps = (answers, r)
        ∧ RingStep.run (ByteQueue.step size.slots) ⟨[], start⟩ steps = (answers, q)
        ∧ r.toList = q.bytes ∧ q.bytes.length ≤ size.slots
        ∧ r.read = q.front ∧ r.write = q.front + UInt64.ofNat q.bytes.length
        ∧ r.occupancy = q.bytes.length
        ∧ (r.isFull = true ↔ q.bytes.length = size.slots)
        ∧ (r.isEmpty = true ↔ q.bytes = []) := by
  obtain ⟨hanswers, h⟩ := (refines_empty slots start).run steps
  refine ⟨_, _, _, rfl, Prod.ext hanswers.symm rfl, h.bytes, h.room, h.front, h.write, h.occupancy,
    ?_, ?_⟩
  · rw [isFull, decide_eq_true_iff, h.occupancy]
    exact ⟨fun hfull => Nat.le_antisymm h.room hfull, fun hfull => Nat.le_of_eq hfull.symm⟩
  · rw [isEmpty, beq_iff_eq, h.occupancy, List.length_eq_zero_iff]

/-- Three bytes in a ring of two slots whose cursors are about to wrap. -/
example : (RingStep.run Ring.step (⟨Vector.replicate _ 0, 0 - 1, 0 - 1⟩ : Ring ⟨1, by decide⟩)
    [.push 7, .push 8, .push 9, .advanceTo 0, .push 9, .window 1 [1, 1], .advanceTo (0 - 1)]).1
      = [.pushed true, .pushed true, .pushed false, .dropped 1, .pushed true, .copied 1 [9, 1],
        .dropped 0] := by
  decide +kernel

end Ring

end MultidropBus
