import Mathlib.Data.List.Induction
import MultidropBus.Proofs.Receive.Alignment
import MultidropBus.Proofs.Receive.Polls

/-!
# The whole stream, cut into segments

Alignment looks ahead from the read cursor, and is lost when the poll side takes bytes that are no
segment. The receiver does not depend on that: whatever the poll side does, all bytes that ever went
into the ring are the segments that the receiver finished, from the first byte on, followed by the
frame in flight (`Journal.Cut`). Every segment that has bytes begins with a byte that came in with
an address mark and is an address for this station. The faults ever raised are those of the
segments, with the positions between which they gave bytes up.
-/

namespace MultidropBus

open Segment

/-! ### Spans -/

/-- The positions in the stream between which a fault gave bytes up. -/
structure Span where
  kind : FaultKind
  start : Nat
  stop : Nat
deriving DecidableEq, Repr

/-- The record that the latch keeps of a span. -/
def Span.record (s : Span) : FaultRecord := ⟨s.kind, UInt64.ofNat s.start, UInt64.ofNat s.stop⟩

namespace Segment

variable {position : Nat} {s : Segment} {first second rest segments : List Segment} {span : Span}

def spans (position : Nat) : Segment → List Span
  | .abandoned kind bytes => [⟨kind, position, position + bytes.length⟩]
  | _ => []

def allSpans (position : Nat) (segments : List Segment) : List Span :=
  (place position segments).flatMap fun x => x.2.spans x.1

theorem allSpans_cons :
    allSpans position (s :: rest)
      = s.spans position ++ allSpans (position + s.bytes.length) rest := rfl

theorem allSpans_append :
    allSpans position (first ++ second)
      = allSpans position first ++ allSpans (position + (allBytes first).length) second := by
  simp only [allSpans, place_append, List.flatMap_append]

theorem allRecords_eq_map (position : Nat) (segments : List Segment) :
    allRecords position segments = (allSpans position segments).map Span.record := by
  induction segments generalizing position with
  | nil => rfl
  | cons s rest ih =>
    rw [allRecords_cons, allSpans_cons, List.map_append, ih]
    cases s <;> rfl

/-- The faults of the receiver log are those of the spans, each noted where its span ends. -/
theorem allNoted_faults (position : Nat) (segments : List Segment) :
    (allNoted position segments).filter (fun x => x.2.isFault)
      = (allSpans position segments).map fun span => (span.stop, .fault span.kind) := by
  induction segments generalizing position with
  | nil => rfl
  | cons s rest ih =>
    rw [allNoted_cons, allSpans_cons, List.filter_append, List.map_append, ih]
    cases s <;> rfl

/-- Where a segment begins, those before it end. -/
theorem mem_place {x : Nat × Segment} (h : x ∈ place position segments) :
    ∃ before after, segments = before ++ x.2 :: after
      ∧ x.1 = position + (allBytes before).length := by
  induction segments generalizing position with
  | nil => cases h
  | cons s rest ih =>
    rcases List.mem_cons.1 h with rfl | hrest
    · exact ⟨[], rest, rfl, rfl⟩
    · obtain ⟨before, after, hsplit, hposition⟩ := ih hrest
      refine ⟨s :: before, after, by rw [hsplit]; rfl, ?_⟩
      rw [hposition, allBytes_cons, List.length_append, Nat.add_assoc]

theorem split_mem_place (before : List Segment) (s : Segment) (after : List Segment) :
    ((allBytes before).length, s) ∈ place 0 (before ++ s :: after) := by
  rw [place_append, Nat.zero_add]
  exact List.mem_append_right _ (List.mem_cons_self ..)

/-- Spans are those of the segments that a fault gave up. -/
theorem mem_allSpans (h : span ∈ allSpans position segments) :
    ∃ bytes, (span.start, .abandoned span.kind bytes) ∈ place position segments
      ∧ span.stop = span.start + bytes.length := by
  obtain ⟨⟨start, s⟩, hx, hspan⟩ := List.mem_flatMap.1 h
  cases s with
  | frame bytes => cases hspan
  | rejected bytes => cases hspan
  | abandoned kind bytes =>
    rw [List.mem_singleton.1 hspan]
    exact ⟨bytes, hx, rfl⟩

/-- Where a span ends, a segment ends. -/
theorem split_allSpans (h : span ∈ allSpans 0 segments) :
    ∃ before after, segments = before ++ after ∧ span.stop = (allBytes before).length := by
  obtain ⟨bytes, hx, hstop⟩ := mem_allSpans h
  obtain ⟨before, after, hsplit, hstart⟩ := mem_place hx
  rw [List.append_cons] at hsplit
  refine ⟨before ++ [.abandoned span.kind bytes], after, hsplit, ?_⟩
  rw [hstop, allBytes_snoc_length, ← Nat.zero_add (allBytes before).length]
  exact congrArg (· + bytes.length) hstart

theorem mem_allSpans_le (h : span ∈ allSpans position segments) :
    position ≤ span.start ∧ span.start ≤ span.stop
      ∧ span.stop ≤ position + (allBytes segments).length := by
  obtain ⟨bytes, hx, hstop⟩ := mem_allSpans h
  obtain ⟨before, after, rfl, hstart⟩ := mem_place hx
  rw [allBytes_append, allBytes_cons, List.length_append, List.length_append]
  change span.start = _ at hstart
  change _ ∧ _ ∧ _ ≤ position + (_ + (bytes.length + _))
  omega

/-- Later faults gave up later bytes. -/
theorem allSpans_sorted (position : Nat) (segments : List Segment) :
    (allSpans position segments).Pairwise fun a b => a.stop ≤ b.start := by
  induction segments generalizing position with
  | nil => exact List.Pairwise.nil
  | cons s rest ih =>
    cases s with
    | frame bytes => exact ih _
    | rejected bytes => exact ih _
    | abandoned kind bytes =>
      refine List.pairwise_cons.2 ⟨fun span hspan => ?_, ih _⟩
      exact (mem_allSpans_le hspan).1

theorem stop_le_start {i k : Nat} {a b : Span} (ha : (allSpans position segments)[i]? = some a)
    (hb : (allSpans position segments)[k]? = some b) (hik : i < k) : a.stop ≤ b.start := by
  obtain ⟨hi, rfl⟩ := List.getElem?_eq_some_iff.1 ha
  obtain ⟨hk, rfl⟩ := List.getElem?_eq_some_iff.1 hb
  exact List.pairwise_iff_getElem.1 (allSpans_sorted position segments) i k hi hk hik

/-- A rejected header is noted by the position at which it begins. -/
def rejections (position : Nat) : Segment → List Nat
  | .rejected _ => [position]
  | _ => []

def allRejections (position : Nat) (segments : List Segment) : List Nat :=
  (place position segments).flatMap fun x => x.2.rejections x.1

theorem allRejections_snoc (segments : List Segment) (s : Segment) :
    allRejections 0 (segments ++ [s])
      = allRejections 0 segments ++ s.rejections (allBytes segments).length := by
  simp [allRejections, place_append, place]

theorem mem_allRejections_iff {start : Nat} :
    start ∈ allRejections position segments
      ↔ ∃ bytes, (start, .rejected bytes) ∈ place position segments := by
  rw [allRejections, List.mem_flatMap]
  constructor
  · rintro ⟨⟨first, s⟩, hx, hstart⟩
    cases s with
    | rejected bytes => exact ⟨bytes, List.mem_singleton.1 hstart ▸ hx⟩
    | frame bytes => cases hstart
    | abandoned kind bytes => cases hstart
  · rintro ⟨bytes, hx⟩
    exact ⟨_, hx, List.mem_singleton_self _⟩

/-- What a segment is as a whole. -/
def Whole (size : RingSize) : Segment → Prop
  | .frame bytes =>
    ∃ header, Detection.ofBytes size bytes = .complete header ∧ header.frameLength = bytes.length
  | .rejected bytes => bytes.length = headerSize ∧ acceptableHeader? size bytes = none
  | .abandoned _ bytes => Detection.ofBytes size bytes = .idle

end Segment

/-! ### Marks -/

/-- The byte of an event with its address mark. -/
def LineEvent.marked : LineEvent → List (UInt8 × Bool)
  | .byte data address => [(data, address)]
  | .error _ => []

/-- At this position a byte came in with an address mark, and the station accepts the address. -/
def Begins (identity : Identity) (marked : List (UInt8 × Bool)) (position : Nat) : Prop :=
  ∃ address, marked[position]? = some (address, true) ∧ identity.accepts address = true

theorem Begins.mono {identity : Identity} {marked : List (UInt8 × Bool)} {position : Nat}
    (h : Begins identity marked position) (more : List (UInt8 × Bool)) :
    Begins identity (marked ++ more) position := by
  obtain ⟨address, hmark, haccepts⟩ := h
  refine ⟨address, ?_, haccepts⟩
  rw [List.getElem?_append_left (List.getElem?_eq_some_iff.1 hmark).1, hmark]

/-- What is known of a segment that begins at a position of the stream. -/
structure Segment.Settled (size : RingSize) (identity : Identity) (marked : List (UInt8 × Bool))
    (position : Nat) (s : Segment) : Prop where
  whole : s.Whole size
  begins : s.bytes ≠ [] → Begins identity marked position

namespace Journal

variable {size : RingSize} {j k : Journal size} {marked : List (UInt8 × Bool)}
  {segments : List Segment} {byte : UInt8} {mark : Bool} {event : LineEvent}

/-- What an event that led to `k` put into the ring. -/
def entered (j k : Journal size) (event : LineEvent) : List (UInt8 × Bool) :=
  if k.stored.length = j.stored.length then [] else event.marked

theorem entered_byte (h : k.stored = j.stored ++ [byte]) :
    j.entered k (.byte byte mark) = [(byte, mark)] := by
  rw [entered, h, List.length_append, if_neg (by simp)]
  rfl

/-- The stream from its first byte on is these segments and the frame in flight. -/
structure Cut (j : Journal size) (marked : List (UInt8 × Bool)) (segments : List Segment) :
    Prop where
  tracks : j.Tracks
  layout : j.stored = allBytes segments ++ j.inFlight
  marks : marked.map Prod.fst = j.stored
  faults : j.path.faults.Logs (allRecords 0 segments)
  handled_le : j.path.poll.handled ≤ (allSpans 0 segments).length
  noted : j.received = allNoted 0 segments
  rejections : j.rejected = allRejections 0 segments
  settled : ∀ x ∈ place 0 segments, x.2.Settled size j.path.identity marked x.1
  flight : j.inFlight ≠ [] → Begins j.path.identity marked (allBytes segments).length

theorem fresh_cut (identity : Identity) : (fresh identity : Journal size).Cut [] [] where
  tracks := (fresh_aligned identity).tracks
  layout := rfl
  marks := rfl
  faults := FaultLatch.empty_logs
  handled_le := Nat.le_refl 0
  noted := rfl
  rejections := rfl
  settled := by
    intro x hx
    cases hx
  flight := fun hne => absurd rfl hne

/-! ### The moves of the receiver -/

/-- The frame in flight becomes a finished segment. -/
theorem Cut.finish (h : j.Cut marked segments) {s : Segment} (more : List (UInt8 × Bool))
    (hbytes : s.bytes = j.inFlight ++ more.map Prod.fst)
    (hsettled : s.Settled size j.path.identity (marked ++ more) (allBytes segments).length)
    (hring : k.path.ring.Holds k.stored k.taken) (hstate : k.path.state = .filtering)
    (hfaults : k.path.faults.Logs (allRecords 0 segments ++ s.records (allBytes segments).length))
    (hrejected : k.rejected = j.rejected ++ s.rejections (allBytes segments).length)
    (hidentity : k.path.identity = j.path.identity)
    (hhandled : k.path.poll.handled = j.path.poll.handled)
    (hstored : k.stored = j.stored ++ more.map Prod.fst)
    (hreceived : k.received = j.received ++ s.noted (allBytes segments).length) :
    k.Cut (marked ++ more) (segments ++ [s]) where
  tracks := ⟨hring, (fun _ hf => nomatch hstate.symm.trans hf), ⟨_, hfaults⟩⟩
  layout := by
    rw [hstored, h.layout, inFlight_of_filtering hstate, List.append_nil, allBytes_append,
      allBytes_cons, allBytes_nil, List.append_nil, hbytes, List.append_assoc]
  marks := by rw [List.map_append, h.marks, hstored]
  faults := by
    rw [allRecords_append, allRecords_cons, allRecords_nil, List.append_nil, Nat.zero_add]
    exact hfaults
  handled_le := by
    rw [hhandled, allSpans_append, List.length_append]
    exact Nat.le_add_right_of_le h.handled_le
  noted := by
    rw [hreceived, h.noted, allNoted_append, allNoted_cons, allNoted_nil, List.append_nil,
      Nat.zero_add]
  rejections := by rw [hrejected, h.rejections, allRejections_snoc]
  settled := by
    intro x hx
    rw [place_append, Nat.zero_add] at hx
    rcases List.mem_append.1 hx with hold | hnew
    · obtain ⟨hwhole, hbegins⟩ := h.settled x hold
      exact ⟨hwhole, fun hne => hidentity ▸ (hbegins hne).mono more⟩
    · rw [List.mem_singleton.1 hnew, hidentity]
      exact hsettled
  flight := fun hne => absurd (inFlight_of_filtering hstate) hne

theorem Cut.length_eq (h : j.Cut marked segments) :
    (allBytes segments).length + j.inFlight.length = j.stored.length := by
  rw [h.layout, List.length_append]

theorem Cut.marked_length (h : j.Cut marked segments) : marked.length = j.stored.length := by
  rw [← h.marks, List.length_map]

theorem Cut.abandon (h : j.Cut marked segments) (kind : FaultKind) :
    (j.abandon kind).Cut marked (segments ++ [.abandoned kind j.inFlight]) := by
  have hlen := h.length_eq
  have hfinish := h.finish (k := j.abandon kind) (s := .abandoned kind j.inFlight) []
    (List.append_nil _).symm ⟨h.tracks.inFlight_idle, ?_⟩
    h.tracks.ring rfl ?_ (List.append_nil _).symm rfl rfl (List.append_nil _).symm ?_
  · rwa [List.append_nil] at hfinish
  · rw [List.append_nil]
    exact h.flight
  · have hrecord : (⟨kind, j.path.spanStart, j.path.ring.write⟩ : FaultRecord)
        = ⟨kind, UInt64.ofNat (allBytes segments).length,
          UInt64.ofNat ((allBytes segments).length + j.inFlight.length)⟩ := by
      rw [h.tracks.spanStart, h.tracks.ring.write, ← hlen, Nat.add_sub_cancel]
    show (j.path.faults.raise ⟨kind, j.path.spanStart, j.path.ring.write⟩).Logs _
    rw [hrecord]
    exact h.faults.raise _
  · simp [Journal.abandon, Segment.noted, deliveries, bytes, hlen]

theorem Cut.overhear (h : j.Cut marked segments) (hstate : j.path.state = .filtering)
    (heard : Bytes) (counters : ReceiveCounters) :
    (j.overhear heard counters).Cut marked segments := by
  have hnone : (j.overhear heard counters).inFlight = j.inFlight := by
    rw [inFlight_of_filtering hstate]
    exact inFlight_of_filtering (j := j.overhear heard counters) hstate
  refine ⟨⟨h.tracks.ring, ?_, h.tracks.faults⟩, ?_, h.marks, h.faults, h.handled_le, h.noted,
    h.rejections, h.settled, ?_⟩
  · intro f hf
    exact absurd (hstate.symm.trans hf) (by simp)
  · rw [hnone]
    exact h.layout
  · rw [hnone]
    exact h.flight

theorem Cut.begin (h : j.Cut marked segments) (hstate : j.path.state = .filtering) :
    j.begin.Cut marked segments := by
  refine ⟨h.tracks.begin, ?_, h.marks, h.faults, h.handled_le, h.noted, h.rejections,
    h.settled, fun hne => absurd rfl hne⟩
  have hlayout := h.layout
  rw [inFlight_of_filtering hstate] at hlayout
  exact hlayout

theorem Cut.entered_nothing (h : k.Cut marked segments) (hstored : k.stored = j.stored) :
    k.Cut (marked ++ j.entered k event) segments := by
  rw [entered, hstored, if_pos rfl, List.append_nil]
  exact h

/-- While a frame comes in, something was heard of it. -/
def Alive (j : Journal size) : Prop := ∀ f, j.path.state = .receiving f → j.heard ≠ []

/-- The next byte of a frame comes behind an address byte for this station, or is one. -/
theorem Cut.continues (h : j.Cut marked segments) (halive : j.Alive)
    (hnext : j.Continues byte mark k) :
    k.Cut marked segments ∧ (∃ f, k.path.state = .receiving f) ∧ k.stored = j.stored
      ∧ Begins k.path.identity (marked ++ [(byte, mark)]) (allBytes segments).length := by
  cases hnext with
  | first hstate haccepts =>
    refine ⟨h.begin hstate, ⟨_, rfl⟩, rfl, byte, ?_, haccepts⟩
    have hlen := h.length_eq
    rw [inFlight_of_filtering hstate, List.length_nil, Nat.add_zero, ← h.marked_length] at hlen
    rw [hlen, List.getElem?_concat_length]
  | next hstate =>
    refine ⟨h, ⟨_, hstate⟩, rfl, (h.flight ?_).mono _⟩
    rw [inFlight_of_receiving hstate]
    exact halive _ hstate

variable {f : InFlight} {ring : Ring size}

theorem Cut.grow (h : j.Cut marked segments) (hstate : j.path.state = .receiving f)
    (hbegins : Begins j.path.identity (marked ++ [(byte, mark)]) (allBytes segments).length)
    (hpush : j.path.ring.push? byte = some ring)
    (hidle : Detection.ofBytes size (j.heard ++ [byte]) = .idle) (counters : ReceiveCounters) :
    (j.grow ring byte (.receiving (.ofBytes size
      (UInt64.ofNat (j.stored.length - j.heard.length)) (j.heard ++ [byte]))) counters).Cut
      (marked ++ [(byte, mark)]) segments where
  tracks := h.tracks.grow hpush hidle counters
  layout := by
    rw [inFlight_of_receiving (f := .ofBytes size _ (j.heard ++ [byte])) rfl]
    show j.stored ++ [byte] = _ ++ (j.heard ++ [byte])
    rw [h.layout, inFlight_of_receiving hstate, List.append_assoc]
  marks := by
    rw [List.map_append, h.marks]
    rfl
  faults := h.faults
  handled_le := h.handled_le
  noted := h.noted
  rejections := h.rejections
  settled := by
    intro x hx
    obtain ⟨hwhole, hbegan⟩ := h.settled x hx
    exact ⟨hwhole, fun hne => (hbegan hne).mono _⟩
  flight := fun _ => hbegins

theorem Cut.complete (h : j.Cut marked segments) (hstate : j.path.state = .receiving f)
    (hbegins : Begins j.path.identity (marked ++ [(byte, mark)]) (allBytes segments).length)
    (hpush : j.path.ring.push? byte = some ring) {header : Header}
    (hwhole : Detection.ofBytes size (j.heard ++ [byte]) = .complete header) :
    (j.complete ring byte).Cut (marked ++ [(byte, mark)])
      (segments ++ [.frame (j.heard ++ [byte])]) := by
  have hflight := inFlight_of_receiving hstate
  have hlen := h.length_eq
  rw [hflight] at hlen
  refine h.finish [(byte, mark)] (by rw [hflight]; rfl) ⟨?_, ?_⟩
    (h.tracks.ring.push hpush) rfl ?_ (List.append_nil _).symm rfl rfl rfl ?_
  · exact ⟨header, hwhole, Detection.complete_length (h.tracks.tracking f hstate).2 hwhole⟩
  · exact fun _ => hbegins
  · show j.path.faults.Logs (_ ++ [])
    rw [List.append_nil]
    exact h.faults
  · simp only [Journal.complete, Segment.noted, deliveries, bytes, List.map_cons, List.map_nil,
      List.length_append, List.length_singleton, ← hlen, Nat.add_assoc]

theorem Cut.reject (h : j.Cut marked segments) (hstate : j.path.state = .receiving f)
    (hbegins : Begins j.path.identity (marked ++ [(byte, mark)]) (allBytes segments).length)
    (hpush : j.path.ring.push? byte = some ring)
    (hbad : Detection.ofBytes size (j.heard ++ [byte]) = .mismatch) :
    (j.reject ring byte).Cut (marked ++ [(byte, mark)])
      (segments ++ [.rejected (j.heard ++ [byte])]) := by
  have hflight := inFlight_of_receiving hstate
  have hlen := h.length_eq
  rw [hflight] at hlen
  have hsix := Detection.mismatch_length (h.tracks.tracking f hstate).2 hbad
  have hstart : j.stored.length + 1 - headerSize = (allBytes segments).length := by
    rw [List.length_append, List.length_singleton] at hsix
    omega
  refine h.finish [(byte, mark)] (by rw [hflight]; rfl) ⟨?_, ?_⟩
    (h.tracks.ring.push hpush) rfl ?_ ?_ rfl rfl rfl ?_
  · exact ⟨hsix, (Detection.ofBytes_mismatch_iff.1 hbad).2⟩
  · exact fun _ => hbegins
  · show j.path.faults.Logs (_ ++ [])
    rw [List.append_nil]
    exact h.faults
  · exact congrArg (fun start => j.rejected ++ [start]) hstart
  · simp [Journal.reject, Journal.grow, Segment.noted, deliveries]

/-- The next byte of a frame finishes at most one segment. -/
theorem Cut.hear_data (h : j.Cut marked segments) (hstate : j.path.state = .receiving f)
    (hbegins : Begins j.path.identity (marked ++ [(byte, mark)]) (allBytes segments).length) :
    ∃ finished, (j.hear (.byte byte false)).Cut
      (marked ++ j.entered (j.hear (.byte byte false)) (.byte byte mark))
      (segments ++ finished) := by
  rw [Journal.hear_data h.tracks hstate byte]
  cases hpush : j.path.ring.push? byte with
  | none => exact ⟨_, ((h.abandon .overflow).overhear rfl _ _).entered_nothing rfl⟩
  | some ring =>
    cases hread : Detection.ofBytes size (j.heard ++ [byte]) with
    | idle =>
      refine ⟨[], ?_⟩
      simp only
      rw [entered_byte rfl, List.append_nil]
      exact h.grow hstate hbegins hpush hread _
    | complete header =>
      refine ⟨[.frame (j.heard ++ [byte])], ?_⟩
      simp only
      rw [entered_byte rfl]
      exact h.complete hstate hbegins hpush hread
    | mismatch =>
      refine ⟨[.rejected (j.heard ++ [byte])], ?_⟩
      simp only
      rw [entered_byte rfl]
      exact h.reject hstate hbegins hpush hread

/-! ### All events -/

theorem hear_alive (j : Journal size) (event : LineEvent) : (j.hear event).Alive := by
  intro f hf
  cases event with
  | error e => cases hf
  | byte data address => cases address <;> simp [hear, LineEvent.extend]

theorem Cut.takes (h : j.Cut marked segments) (halive : j.Alive) (hk : j.Takes event k) :
    ∃ finished, k.Cut (marked ++ j.entered k event) (segments ++ finished) := by
  cases hk with
  | passing hstate heard counters =>
    exact ⟨[], (List.append_nil segments).symm ▸
      (h.overhear hstate heard counters).entered_nothing rfl⟩
  | byte hnext =>
    obtain ⟨hcut, ⟨f, hstate⟩, hstored, hbegins⟩ := h.continues halive hnext
    obtain ⟨finished, hfinished⟩ := hcut.hear_data hstate hbegins
    rw [entered, hstored] at hfinished
    exact ⟨finished, hfinished⟩

/-- **Every event only adds segments behind those that there are.** -/
theorem Cut.hear (h : j.Cut marked segments) (halive : j.Alive) (event : LineEvent) :
    ∃ finished, (j.hear event).Cut (marked ++ j.entered (j.hear event) event)
      (segments ++ finished) := by
  rcases hear_cases h.tracks event with ⟨e, -, hfault⟩ | htakes | htakes
  · rw [hfault]
    exact ⟨_, (h.abandon _).entered_nothing rfl⟩
  · exact h.takes halive htakes
  · obtain ⟨finished, hfinished⟩ := (h.abandon .truncated).takes (fun _ hf => nomatch hf) htakes
    exact ⟨_, List.append_assoc segments _ finished ▸ hfinished⟩

/-! ### The moves of the poll side -/

/-- Taking bytes out of the ring changes nothing about the stream. -/
theorem Cut.take (h : j.Cut marked segments) {n : Nat} (hn : j.taken + n ≤ j.stored.length)
    {poll : PollSide} (hhandled : poll.handled ≤ (allSpans 0 segments).length)
    (known surviving : List Delivery) : (j.take n poll known surviving).Cut marked segments where
  tracks := h.tracks.take hn poll known surviving
  layout := h.layout
  marks := h.marks
  faults := h.faults
  handled_le := hhandled
  noted := h.noted
  rejections := h.rejections
  settled := h.settled
  flight := h.flight

theorem Cut.retire (h : j.Cut marked segments) : j.retire.Cut marked segments := by
  cases hheader : j.path.completeHeader? with
  | none => exact (retire_nothing hheader).symm ▸ h
  | some header =>
    have hcomplete := ReceivePath.completeHeader?_eq_some_iff.1 hheader
    have hlen := (ReceivePath.frameLength_le hcomplete).1
    have hseen := h.tracks.visible_le
    have hfits : j.taken + header.frameLength ≤ j.stored.length := by omega
    rw [h.tracks.retire_eq hcomplete]
    exact h.take hfits (by exact h.handled_le) _ _

theorem Cut.skip (h : j.Cut marked segments) : j.skip.Cut marked segments := by
  rcases Nat.eq_or_lt_of_le h.tracks.ring.taken_le with hall | hlt
  · exact (h.tracks.skip_nothing hall).symm ▸ h
  · have hfits : j.taken + 1 ≤ j.stored.length := hlt
    rw [h.tracks.skip_eq hlt]
    exact h.take hfits (by exact h.handled_le) _ _

/-- The fault that the poll side is given is that of a span not yet handled: the next one, or the
last of all if the next one lost its record. -/
theorem Cut.pending (h : j.Cut marked segments) {fault : Fault}
    (hpending : j.path.pendingFault? = some fault) :
    ∃ i span, (allSpans 0 segments)[i]? = some span ∧ fault.record = span.record
      ∧ j.path.poll.handled ≤ i ∧ fault.number = i + 1
      ∧ (fault.missed = 0 ∧ i = j.path.poll.handled
        ∨ 0 < fault.missed ∧ i + 1 = (allSpans 0 segments).length) := by
  obtain ⟨i, hrecord, hle, hnumber, hwhich⟩ := h.faults.of_pending? hpending
  rw [allRecords_eq_map, List.getElem?_map] at hrecord
  obtain ⟨span, hspan, hsame⟩ := Option.map_eq_some_iff.1 hrecord
  rw [allRecords_eq_map, List.length_map] at hwhich
  exact ⟨i, span, hspan, hsame.symm, hle, hnumber, hwhich⟩

theorem Cut.handled_le_raised (h : j.Cut marked segments) :
    j.path.poll.handled ≤ j.path.faults.raised := by
  rw [h.faults.raised, allRecords_eq_map, List.length_map]
  exact h.handled_le

/-- A span lies within the bytes stored so far. -/
theorem Cut.span_le (h : j.Cut marked segments) {span : Span} (hspan : span ∈ allSpans 0 segments) :
    span.start ≤ span.stop ∧ span.stop ≤ j.stored.length := by
  have hle := mem_allSpans_le hspan
  have hlen := h.length_eq
  omega

/-- No fault gives up more than a frame. -/
theorem Cut.span_short (h : j.Cut marked segments) {span : Span}
    (hspan : span ∈ allSpans 0 segments) : span.stop ≤ span.start + maxFrameSize := by
  obtain ⟨bytes, hx, hstop⟩ := mem_allSpans hspan
  have hidle : Detection.ofBytes size bytes = .idle := (h.settled _ hx).whole
  have hshort := Detection.length_lt_of_idle hidle
  omega

theorem Cut.recover (h : j.Cut marked segments) : j.recover.Cut marked segments := by
  by_cases hstatus : j.path.status = .faulted
  · obtain ⟨fault, n, hidle, hpending, hadvance, hfits⟩ := h.tracks.faulted hstatus
    obtain ⟨i, span, hspan, -, -, hnumber, -⟩ := h.pending hpending
    rw [(h.tracks.recover_eq hidle hpending hadvance hfits).2]
    refine h.take hfits ?_ _ _
    rw [hnumber]
    exact (List.getElem?_eq_some_iff.1 hspan).1
  · exact (recover_nothing hstatus).2.symm ▸ h

end Journal

end MultidropBus
