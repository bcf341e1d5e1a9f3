import MultidropBus.Proofs.Receive.History

/-!
# A journal with address marks

The chronicle of a run is its journal together with two more things that an observer can tell from
the events, the counters and the answers of the poll operations: the address mark with which each
stored byte came in, and whether the poll side was led astray.

A poll side that skips bytes of a rejected header may come to a place, behind the first of them,
where the next six stored bytes happen to be an acceptable header (`Journal.AtCoincidence`). If it
retires what looks like a frame there, it may be inside the next frame afterwards. It counts as
misled until its cursor is again at a place that it could have come to otherwise
(`Journal.Oriented`): a recovery takes it to one, but so may the bytes that it skips or retires.
-/

namespace MultidropBus

open Segment

namespace Journal

variable {size : RingSize}

/-- The read cursor is inside a rejected header, behind its first byte, and the six stored bytes
from there on happen to be an acceptable header. -/
def AtCoincidence (j : Journal size) : Prop :=
  ∃ start ∈ j.rejected, start < j.taken ∧ j.taken < start + headerSize
    ∧ (acceptableHeader? size (j.stored.drop j.taken)).isSome

instance (j : Journal size) : Decidable j.AtCoincidence := by
  unfold AtCoincidence
  infer_instance

/-- Nothing is buffered while the receiver waits, or the read cursor is where a frame or the span of
a fault ended, or it is in a rejected header or on a border of one. -/
def Oriented (j : Journal size) : Prop :=
  j.path.state = .filtering ∧ j.taken = j.stored.length
    ∨ (∃ entry ∈ j.received, entry.1 = j.taken)
    ∨ ∃ start ∈ j.rejected, start ≤ j.taken ∧ j.taken ≤ start + headerSize

instance (j : Journal size) : Decidable j.Oriented := by
  unfold Oriented
  infer_instance

/-- What the read cursor may run into is a coincidence of the whole stream. -/
theorem AtCoincidence.coincidence {j : Journal size} (h : j.AtCoincidence) : j.Coincidence := by
  obtain ⟨start, hstart, hlow, hhigh, hsome⟩ := h
  refine ⟨start, hstart, j.taken - start, by omega, by omega, ?_⟩
  rw [Nat.add_sub_cancel' (Nat.le_of_lt hlow), acceptableHeader?_take size _ (Nat.le_refl _)]
  exact hsome

/-- Everything that a poll operation leaves as it is about the receiver. -/
theorem step_receiver (j : Journal size) {s : ReceiveStep} (hs : ∀ event, s ≠ .hear event) :
    (j.step s).path.state = j.path.state ∧ (j.step s).heard = j.heard := by
  cases s with
  | hear event => exact absurd rfl (hs event)
  | retire => exact ⟨j.path.retire_sameReceiver.state, rfl⟩
  | skip => exact ⟨j.path.skip_sameReceiver.state, rfl⟩
  | recover =>
    refine ⟨?_, ?_⟩
    · show j.recover.path.state = _
      rw [recover_path]
      exact j.path.recover_sameReceiver.state
    · simp only [step, Journal.recover]
      split <;> rfl

theorem Alive.step {j : Journal size} (h : j.Alive) (s : ReceiveStep) : (j.step s).Alive := by
  by_cases hs : ∃ event, s = .hear event
  · obtain ⟨event, rfl⟩ := hs
    exact hear_alive j event
  · obtain ⟨hstate, hheard⟩ := j.step_receiver fun event hsame => hs ⟨event, hsame⟩
    intro f hf
    rw [hheard]
    exact h f (hstate ▸ hf)

end Journal

/-- A journal, the address marks of the stored bytes, and whether the poll side was misled. -/
structure Chronicle (size : RingSize) where
  journal : Journal size
  /-- Every byte that went into the ring, in order, with its address mark. -/
  marked : List (UInt8 × Bool)
  /-- The poll side retired a frame at a coincidence, and was not oriented since. -/
  misled : Bool

namespace Chronicle

variable {size : RingSize} {c : Chronicle size} {segments : List Segment}

def fresh (identity : Identity) : Chronicle size := ⟨.fresh identity, [], false⟩

/-- The poll side retires a frame at a coincidence. -/
def strays (c : Chronicle size) : ReceiveStep → Bool
  | .retire => c.journal.path.retire.1 && c.journal.AtCoincidence
  | _ => false

def step (c : Chronicle size) (s : ReceiveStep) : Chronicle size where
  journal := c.journal.step s
  marked :=
    match s with
    | .hear event => c.marked ++ c.journal.entered (c.journal.hear event) event
    | _ => c.marked
  misled := (c.misled || c.strays s) && !decide (c.journal.step s).Oriented

/-- The chronicle of a run that starts with empty buffers. -/
def run (identity : Identity) (steps : List ReceiveStep) : Chronicle size :=
  steps.foldl step (fresh identity)

theorem run_append (identity : Identity) (steps more : List ReceiveStep) :
    (run identity (steps ++ more) : Chronicle size) = more.foldl step (run identity steps) :=
  List.foldl_append

theorem run_journal (identity : Identity) (steps : List ReceiveStep) :
    (run identity steps : Chronicle size).journal = Journal.run identity steps := by
  induction steps using List.reverseRecOn with
  | nil => rfl
  | append_singleton earlier s ih =>
    rw [run_append, Journal.run_snoc, ← ih]
    rfl

/-! ### The segments of a run -/

/-- The segments and the frame in flight are the whole stream. -/
structure Tells (c : Chronicle size) (segments : List Segment) : Prop where
  cut : c.journal.Cut c.marked segments
  alive : c.journal.Alive

theorem fresh_tells (identity : Identity) : (fresh identity : Chronicle size).Tells [] where
  cut := Journal.fresh_cut identity
  alive := by
    intro f hf
    cases hf

/-- Every step only adds segments behind those that there are. -/
theorem Tells.step (h : c.Tells segments) (s : ReceiveStep) :
    ∃ finished, (c.step s).Tells (segments ++ finished) := by
  have halive := h.alive.step s
  cases s with
  | hear event =>
    obtain ⟨finished, hcut⟩ := h.cut.hear h.alive event
    exact ⟨finished, hcut, halive⟩
  | retire => exact ⟨[], (List.append_nil segments).symm ▸ ⟨h.cut.retire, halive⟩⟩
  | skip => exact ⟨[], (List.append_nil segments).symm ▸ ⟨h.cut.skip, halive⟩⟩
  | recover => exact ⟨[], (List.append_nil segments).symm ▸ ⟨h.cut.recover, halive⟩⟩

theorem Tells.steps (h : c.Tells segments) (steps : List ReceiveStep) :
    ∃ finished, (steps.foldl Chronicle.step c).Tells (segments ++ finished) := by
  induction steps generalizing c segments with
  | nil => exact ⟨[], (List.append_nil segments).symm ▸ h⟩
  | cons s rest ih =>
    obtain ⟨first, hfirst⟩ := h.step s
    obtain ⟨others, hothers⟩ := ih hfirst
    exact ⟨first ++ others, List.append_assoc segments first others ▸ hothers⟩

/-- **Whatever the poll side does**, the stored bytes are segments of the receiver's making. -/
theorem run_tells (size : RingSize) (identity : Identity) (steps : List ReceiveStep) :
    ∃ segments, (run identity steps : Chronicle size).Tells segments :=
  (fresh_tells identity).steps steps

/-! ### Where segments begin -/

/-- Where a segment ends that the receiver is done with, the next stored byte is an address byte for
this station, whether it came already or comes later. -/
theorem Tells.begins_behind {before after : List Segment} (h : c.Tells (before ++ after))
    {byte : UInt8} {mark : Bool} (hbyte : c.marked[(allBytes before).length]? = some (byte, mark)) :
    mark = true ∧ c.journal.path.identity.accepts byte = true := by
  suffices hbegins : Begins c.journal.path.identity c.marked (allBytes before).length by
    obtain ⟨address, hmark, haccepts⟩ := hbegins
    rw [hbyte] at hmark
    cases hmark
    exact ⟨rfl, haccepts⟩
  induction after generalizing before with
  | nil =>
    -- No segment begins there, so the byte is the first of the frame in flight.
    have hlt := (List.getElem?_eq_some_iff.1 hbyte).1
    have hlen := h.cut.length_eq
    rw [List.append_nil] at hlen h
    rw [h.cut.marked_length] at hlt
    refine h.cut.flight (List.length_pos_iff.1 ?_)
    omega
  | cons s rest ih =>
    by_cases hne : s.bytes = []
    · have hsame : allBytes (before ++ [s]) = allBytes before := by simp [hne]
      rw [List.append_cons] at h
      have hbegins := ih h (hsame ▸ hbyte)
      rwa [hsame] at hbegins
    · exact (h.cut.settled _ (split_mem_place before s rest)).begins hne

end Chronicle

end MultidropBus
