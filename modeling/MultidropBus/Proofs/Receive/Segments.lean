import MultidropBus.Proofs.Receive.Journal
import MultidropBus.Proofs.Receive.Stream

/-!
# The bytes in the ring, cut into segments

Between the read cursor and the frame in flight the ring holds whole segments: complete frames, what
is left of rejected headers, and the spans that faults gave up. A journal is *aligned* with a list
of segments ahead if the bytes in the ring are those of the segments followed by the frame in
flight, the unhandled faults are those of the segments with their spans, and what the two logs
differ in is what the segments still have to deliver. Alignment says once what the receiver, the
latch, the ring and the detector agree on.
-/

namespace MultidropBus

/-- A stretch of stored bytes that the receiver is done with. -/
inductive Segment
  | frame (bytes : Bytes)
  /-- What is left of a rejected header. -/
  | rejected (bytes : Bytes)
  /-- The span that a fault gave up, which may be empty. -/
  | abandoned (kind : FaultKind) (bytes : Bytes)
deriving DecidableEq, Repr

namespace Segment

def bytes : Segment → Bytes
  | .frame bytes => bytes
  | .rejected bytes => bytes
  | .abandoned _ bytes => bytes

/-- What a segment has to deliver to the poll side. -/
def deliveries : Segment → List Delivery
  | .frame bytes => [.frame bytes]
  | .rejected _ => []
  | .abandoned kind _ => [.fault kind]

/-- The record that the fault of a segment left, if the segment begins at the given position. -/
def records (position : Nat) : Segment → List FaultRecord
  | .abandoned kind bytes =>
    [⟨kind, UInt64.ofNat position, UInt64.ofNat (position + bytes.length)⟩]
  | _ => []

/-- What the journal notes about a segment that begins at the given position. -/
def noted (position : Nat) (s : Segment) : List (Nat × Delivery) :=
  s.deliveries.map (position + s.bytes.length, ·)

/-- A frame is one that the receiver completed, and what is left of a rejected header lies within
that header. -/
def Sound (size : RingSize) (rejected : List Nat) (position : Nat) : Segment → Prop
  | .frame bytes =>
    ∃ header, Detection.ofBytes size bytes = .complete header ∧ header.frameLength = bytes.length
  | .rejected bytes =>
    bytes ≠ [] ∧ ∃ start ∈ rejected, start ≤ position
      ∧ position + bytes.length ≤ start + headerSize
  | .abandoned _ _ => True

/-! ### Lists of segments -/

def allBytes (segments : List Segment) : Bytes := segments.flatMap bytes

/-- The segments, each with the position at which it begins. -/
def place : Nat → List Segment → List (Nat × Segment)
  | _, [] => []
  | position, s :: rest => (position, s) :: place (position + s.bytes.length) rest

def allRecords (position : Nat) (segments : List Segment) : List FaultRecord :=
  (place position segments).flatMap fun x => x.2.records x.1

def allNoted (position : Nat) (segments : List Segment) : List (Nat × Delivery) :=
  (place position segments).flatMap fun x => x.2.noted x.1

def allDeliveries (segments : List Segment) : List Delivery := segments.flatMap deliveries

def AllSound (size : RingSize) (rejected : List Nat) (position : Nat)
    (segments : List Segment) : Prop :=
  ∀ x ∈ place position segments, x.2.Sound size rejected x.1

variable {size : RingSize} {rejected : List Nat} {position : Nat} {s : Segment}
  {first second rest : List Segment}

@[simp] theorem allBytes_nil : allBytes [] = [] := rfl

@[simp] theorem allBytes_cons : allBytes (s :: rest) = s.bytes ++ allBytes rest := rfl

@[simp] theorem allBytes_append : allBytes (first ++ second) = allBytes first ++ allBytes second :=
  List.flatMap_append

theorem allBytes_snoc_length (segments : List Segment) (s : Segment) :
    (allBytes (segments ++ [s])).length = (allBytes segments).length + s.bytes.length := by
  rw [allBytes_append, List.length_append, allBytes_cons, allBytes_nil, List.append_nil]

@[simp] theorem allDeliveries_nil : allDeliveries [] = [] := rfl

@[simp] theorem allDeliveries_cons :
    allDeliveries (s :: rest) = s.deliveries ++ allDeliveries rest := rfl

@[simp] theorem allDeliveries_append :
    allDeliveries (first ++ second) = allDeliveries first ++ allDeliveries second :=
  List.flatMap_append

theorem place_append (position : Nat) (first second : List Segment) :
    place position (first ++ second)
      = place position first ++ place (position + (allBytes first).length) second := by
  induction first generalizing position with
  | nil => rfl
  | cons s rest ih =>
    rw [List.cons_append, place, ih, allBytes_cons, List.length_append, ← Nat.add_assoc]
    rfl

@[simp] theorem allRecords_nil : allRecords position [] = [] := rfl

theorem allRecords_cons :
    allRecords position (s :: rest)
      = s.records position ++ allRecords (position + s.bytes.length) rest := rfl

theorem allRecords_append :
    allRecords position (first ++ second)
      = allRecords position first ++ allRecords (position + (allBytes first).length) second := by
  simp only [allRecords, place_append, List.flatMap_append]

@[simp] theorem allNoted_nil : allNoted position [] = [] := rfl

theorem allNoted_cons :
    allNoted position (s :: rest)
      = s.noted position ++ allNoted (position + s.bytes.length) rest := rfl

theorem allNoted_append :
    allNoted position (first ++ second)
      = allNoted position first ++ allNoted (position + (allBytes first).length) second := by
  simp only [allNoted, place_append, List.flatMap_append]

/-- A segment is noted by the position at which it ends. -/
theorem allNoted_le {segments : List Segment} {x : Nat × Delivery}
    (hx : x ∈ allNoted position segments) : x.1 ≤ position + (allBytes segments).length := by
  induction segments generalizing position with
  | nil => cases hx
  | cons s rest ih =>
    rw [allBytes_cons, List.length_append]
    rw [allNoted_cons, List.mem_append] at hx
    rcases hx with hx | hx
    · obtain ⟨_, _, rfl⟩ := List.mem_map.1 hx
      show position + s.bytes.length ≤ _
      omega
    · have hle := ih hx
      omega

theorem allSound_nil : AllSound size rejected position [] := by
  intro x hx
  cases hx

theorem allSound_append :
    AllSound size rejected position (first ++ second)
      ↔ AllSound size rejected position first
        ∧ AllSound size rejected (position + (allBytes first).length) second := by
  simp only [AllSound, place_append, List.forall_mem_append]

theorem allSound_cons :
    AllSound size rejected position (s :: rest)
      ↔ s.Sound size rejected position
        ∧ AllSound size rejected (position + s.bytes.length) rest := by
  simp only [AllSound, place, List.forall_mem_cons]

theorem Sound.mono {more : List Nat} (h : s.Sound size rejected position)
    (hmore : rejected ⊆ more) : s.Sound size more position := by
  cases s with
  | frame bytes => exact h
  | rejected bytes =>
    obtain ⟨hne, start, hstart, hrest⟩ := h
    exact ⟨hne, start, hmore hstart, hrest⟩
  | abandoned kind bytes => trivial

theorem AllSound.mono {more : List Nat} {segments : List Segment}
    (h : AllSound size rejected position segments) (hmore : rejected ⊆ more) :
    AllSound size more position segments :=
  fun x hx => (h x hx).mono hmore

/-! ### Segments without faults -/

def isAbandoned : Segment → Bool
  | .abandoned _ _ => true
  | _ => false

/-- No segment was given up by a fault. -/
def Clear (segments : List Segment) : Prop := ∀ s ∈ segments, s.isAbandoned = false

theorem clear_cons : Clear (s :: rest) ↔ s.isAbandoned = false ∧ Clear rest :=
  List.forall_mem_cons

theorem records_eq_nil_iff : s.records position = [] ↔ s.isAbandoned = false := by
  cases s <;> simp [records, isAbandoned]

theorem allRecords_eq_nil_iff {segments : List Segment} :
    allRecords position segments = [] ↔ Clear segments := by
  induction segments generalizing position with
  | nil => simp [Clear]
  | cons s rest ih =>
    rw [allRecords_cons, List.append_eq_nil_iff, ih, clear_cons, records_eq_nil_iff]

/-- Each fault left one record. -/
theorem allRecords_length (position : Nat) (segments : List Segment) :
    (allRecords position segments).length = segments.countP isAbandoned := by
  induction segments generalizing position with
  | nil => rfl
  | cons s rest ih =>
    rw [allRecords_cons, List.length_append, ih, List.countP_cons, Nat.add_comm]
    cases s <;> rfl

theorem countP_eq_zero_iff {segments : List Segment} :
    segments.countP isAbandoned = 0 ↔ Clear segments := by
  rw [List.countP_eq_zero]
  exact forall₂_congr fun s _ => Bool.not_eq_true _ ▸ Iff.rfl

theorem Clear.deliveries {segments : List Segment} (h : Clear segments) :
    ∀ entry ∈ allDeliveries segments, entry.isFault = false := by
  intro entry hentry
  obtain ⟨s, hs, hentry⟩ := List.mem_flatMap.1 hentry
  have hs := h s hs
  cases s with
  | frame bytes => rw [List.mem_singleton.1 hentry]; rfl
  | rejected bytes => cases hentry
  | abandoned kind bytes => cases hs

/-- Either there is no fault, or there is a first one. -/
theorem clear_or_first (segments : List Segment) :
    Clear segments ∨ ∃ before kind bytes after,
      segments = before ++ .abandoned kind bytes :: after ∧ Clear before := by
  cases hfind : segments.find? isAbandoned with
  | none => exact .inl fun s hs => Bool.eq_false_iff.2 (List.find?_eq_none.1 hfind s hs)
  | some s =>
    obtain ⟨hs, before, after, rfl, hclear⟩ := List.find?_eq_some_iff_append.1 hfind
    cases s with
    | frame bytes => cases hs
    | rejected bytes => cases hs
    | abandoned kind bytes =>
      exact .inr ⟨before, kind, bytes, after, rfl, fun s hs => by simpa using hclear s hs⟩

/-- Either there is no fault, or there is a last one. -/
theorem clear_or_last (segments : List Segment) :
    Clear segments ∨ ∃ before kind bytes after,
      segments = before ++ .abandoned kind bytes :: after ∧ Clear after := by
  rcases clear_or_first segments.reverse with hclear | ⟨before, kind, bytes, after, heq, hclear⟩
  · exact .inl fun s hs => hclear s (List.mem_reverse.2 hs)
  · refine .inr ⟨after.reverse, kind, bytes, before.reverse, ?_,
      fun s hs => hclear s (List.mem_reverse.1 hs)⟩
    rw [← List.reverse_reverse segments, heq]
    simp

end Segment

end MultidropBus
