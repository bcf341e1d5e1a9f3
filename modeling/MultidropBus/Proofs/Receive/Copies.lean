import MultidropBus.Proofs.Receive.Provenance

/-!
# What becomes of a copied frame

The poll side copies a frame, works with the copy, and only then retires the frame. Faults that are
raised in between may hide the frame again: because more faults are unhandled than the latch keeps,
or because the frame, recognised by coincidence, reaches into bytes that a fault gave up. Then
retiring it does nothing. But it stays hidden until the next recovery, and it is spared: every fault
that is unhandled by then ends behind it, so that recovery takes the read cursor past it
(`Copied.recover`). Either way no byte of the copy is read again.
-/

namespace MultidropBus

open Segment

namespace ReceivePath

variable {size : RingSize} {p : ReceivePath size}

/-- Once the records of unhandled faults are gone, nothing may be looked at. -/
theorem readable_of_behind (h : faultSlots < p.unhandled) : p.readable = 0 := by
  have hpending : p.pendingFault?
      = some ⟨p.faults.records[FaultLatch.slot p.faults.raised], p.faults.raised,
        p.unhandled - 1⟩ := by
    rw [pendingFault?, FaultLatch.pending?]
    exact (if_neg (by change p.unhandled ≠ 0; omega)).trans (if_pos h)
  have hslots : 0 < faultSlots := by decide
  rw [readable, hpending]
  exact if_pos (by show 0 < p.unhandled - 1; omega)

end ReceivePath

namespace Journal

variable {size : RingSize} {j : Journal size} {marked : List (UInt8 × Bool)}
  {segments finished : List Segment} {bytes : Bytes} {n : Nat}

/-- These bytes are a whole frame at the read cursor, and spared. -/
structure Copied (j : Journal size) (segments : List Segment) (bytes : Bytes) : Prop where
  whole : ∃ header, Detection.ofBytes size (j.stored.drop j.taken) = .complete header
    ∧ bytes = (j.stored.drop j.taken).take header.frameLength
  spared : j.Spared segments bytes.length

/-- Of the next `n` bytes some may not be looked at. -/
def Hidden (j : Journal size) (segments : List Segment) (n : Nat) : Prop :=
  faultSlots < j.path.unhandled
    ∨ ∃ i span, (allSpans 0 segments)[i]? = some span ∧ j.path.poll.handled ≤ i
      ∧ span.start < j.taken + n

theorem Copied.length_eq (h : j.Copied segments bytes) {header : Header}
    (hcomplete : Detection.ofBytes size (j.stored.drop j.taken) = .complete header) :
    bytes.length = header.frameLength := by
  obtain ⟨other, hother, hbytes⟩ := h.whole
  rw [hcomplete] at hother
  cases hother
  rw [hbytes, List.length_take]
  exact Nat.min_eq_left (Detection.ofBytes_complete_iff.1 hcomplete).2

theorem Copied.front (h : j.Copied segments bytes) : bytes <+: j.stored.drop j.taken := by
  obtain ⟨header, -, hbytes⟩ := h.whole
  rw [hbytes]
  exact List.take_prefix _ _

theorem Copied.headerSize_le (h : j.Copied segments bytes) : headerSize ≤ bytes.length := by
  obtain ⟨header, hcomplete, -⟩ := h.whole
  rw [h.length_eq hcomplete]
  exact header.headerSize_le_frameLength

/-- A copy is a whole frame, and nothing that the poll side may look at is given up. -/
theorem Between.copied (hbetween : j.Between segments) (h : j.Cut marked segments)
    (hcopy : j.path.copyFrame? = some bytes) : j.Copied segments bytes := by
  cases hheader : j.path.completeHeader? with
  | none =>
    rw [ReceivePath.copyFrame?, hheader] at hcopy
    cases hcopy
  | some header =>
    have hcomplete := ReceivePath.completeHeader?_eq_some_iff.1 hheader
    have hvisible := (ReceivePath.frameLength_le hcomplete).1
    have hread : Detection.ofBytes size (j.stored.drop j.taken) = .complete header := by
      rcases h.tracks.detection_cases with hidle | hsame
      · rw [hidle] at hcomplete
        cases hcomplete
      · rw [← hsame, hcomplete]
    rw [ReceivePath.copyFrame?_of_complete hcomplete, h.tracks.ring.toList] at hcopy
    cases hcopy
    refine ⟨⟨header, hread, rfl⟩, hbetween.spared h ?_⟩
    exact (List.length_take_le _ _).trans hvisible

/-! ### Hidden frames -/

/-- Hidden bytes are not looked at. -/
theorem Hidden.visible_lt (hhidden : j.Hidden segments n) (hbetween : j.Between segments)
    (h : j.Cut marked segments) (hn : 0 < n) : j.path.visible.length < n := by
  rcases hhidden with hbehind | ⟨i, span, hspan, hi, hstart⟩
  · rw [ReceivePath.visible, ReceivePath.readable_of_behind hbehind]
    exact hn
  · have hseen := h.visible_le hbetween hspan hi
    omega

/-- What could be looked at but for faults is hidden by one of them. -/
theorem Between.hidden (hbetween : j.Between segments) (h : j.Cut marked segments)
    (hstored : j.taken + n ≤ j.stored.length) (hvisible : j.path.visible.length < n) :
    j.Hidden segments n := by
  have hcount : j.path.unhandled = (allSpans 0 segments).length - j.path.poll.handled := by
    rw [ReceivePath.unhandled, h.faults.unhandled, allRecords_eq_map, List.length_map]
  have hlen : j.path.visible.length = min j.path.readable (j.stored.length - j.taken) := by
    rw [ReceivePath.visible, List.length_take, Ring.toList_length, h.tracks.ring.occupancy]
  rcases Nat.lt_or_ge faultSlots j.path.unhandled with hbehind | hrecent
  · exact .inl hbehind
  rcases Nat.lt_or_ge j.path.poll.handled (allSpans 0 segments).length with hsome | hall
  · -- the oldest unhandled fault is the one that the poll side is given
    have hspan := List.getElem?_eq_getElem hsome
    generalize (allSpans 0 segments)[j.path.poll.handled] = span at hspan
    have hrecord : (allRecords 0 segments)[j.path.poll.handled]? = some span.record := by
      rw [allRecords_eq_map, List.getElem?_map, hspan]
      rfl
    have hpending : j.path.pendingFault? = some ⟨span.record, j.path.poll.handled + 1, 0⟩ :=
      h.faults.pending?_oldest hrecord (by rw [allRecords_eq_map, List.length_map]; omega)
    have hmem := List.mem_of_getElem? hspan
    have hahead := hbetween.ahead _ span hspan (Nat.le_refl _)
    have hbounds := h.span_le hmem
    have hshort := h.span_short hmem
    have hreadable := h.tracks.readable_eq hpending rfl rfl (by omega) (by omega)
    refine .inr ⟨_, span, hspan, Nat.le_refl _, ?_⟩
    omega
  · have hpending : j.path.pendingFault? = none :=
      h.faults.pending?_eq_none (by rw [allRecords_eq_map, List.length_map]; exact hall)
    have hreadable : j.path.readable = j.stored.length - j.taken := by
      rw [ReceivePath.readable, hpending]
      exact h.tracks.ring.occupancy
    omega

/-- A hidden frame shows the bus as faulted. -/
theorem Copied.faulted (hcopied : j.Copied segments bytes) (hbetween : j.Between segments)
    (h : j.Cut marked segments) (hhidden : j.Hidden segments bytes.length) :
    j.path.status = .faulted := by
  obtain ⟨header, hcomplete, -⟩ := hcopied.whole
  have hlen := hcopied.length_eq hcomplete
  have hsix := hcopied.headerSize_le
  have hpos : 0 < bytes.length := Nat.lt_of_lt_of_le (by decide) hsix
  have hshort := hhidden.visible_lt hbetween h hpos
  refine ReceivePath.status_faulted_iff.2 ⟨?_, ?_⟩
  · refine h.tracks.detection_cases.resolve_right fun hsame => ?_
    have hvisible := (ReceivePath.frameLength_le (hsame.trans hcomplete)).1
    omega
  · rw [Option.isSome_iff_ne_none]
    intro hnone
    have hraised := (FaultLatch.pending?_eq_none_iff _ _).1 hnone
    rcases hhidden with hbehind | ⟨i, span, hspan, hi, -⟩
    · rw [ReceivePath.unhandled, FaultLatch.unhandled] at hbehind
      omega
    · obtain ⟨fault, hpending⟩ := h.pending_isSome (List.getElem?_eq_some_iff.1 hspan).1 hi
      rw [hpending] at hnone
      cases hnone

/-! ### What the poll side does next -/

/-- Retiring takes the copied frame, or it is hidden and stays where it is. -/
theorem Copied.retire (hcopied : j.Copied segments bytes) (hbetween : j.Between segments)
    (h : j.Cut marked segments) : j.retire.taken = j.taken + bytes.length
      ∨ j.retire = j ∧ j.Hidden segments bytes.length := by
  obtain ⟨header, hcomplete, -⟩ := hcopied.whole
  have hlen := hcopied.length_eq hcomplete
  cases hheader : j.path.completeHeader? with
  | some found =>
    have hfound := ReceivePath.completeHeader?_eq_some_iff.1 hheader
    have hsame : found = header := by
      rcases h.tracks.detection_cases with hidle | hread
      · rw [hidle] at hfound
        cases hfound
      · rw [hread, hcomplete] at hfound
        cases hfound
        rfl
    rw [h.tracks.retire_eq hfound, hsame, hlen]
    exact .inl rfl
  | none =>
    refine .inr ⟨retire_nothing hheader, hbetween.hidden h hcopied.spared.stored ?_⟩
    apply Nat.lt_of_not_le
    intro hvisible
    have hread : j.path.detection = .complete header := by
      rw [ReceivePath.detection_eq]
      refine Detection.ofBytes_complete_iff.2 ⟨?_, hlen ▸ hvisible⟩
      have hsix := hcopied.headerSize_le.trans hvisible
      rw [← (Detection.ofBytes_complete_iff.1 hcomplete).1, ReceivePath.visible,
        h.tracks.ring.toList]
      refine acceptableHeader?_take size _ (hsix.trans ?_)
      exact List.length_take_le _ _
    rw [ReceivePath.completeHeader?_eq_some_iff.2 hread] at hheader
    cases hheader

/-- A recovery takes the cursor past the spared bytes. -/
theorem Spared.recover (hspared : j.Spared segments n) (hbetween : j.Between segments)
    (h : j.Cut marked segments) (hstatus : j.path.status = .faulted) :
    j.taken + n ≤ j.recover.taken := by
  obtain ⟨hidle, hsome⟩ := ReceivePath.status_faulted_iff.1 hstatus
  obtain ⟨fault, hpending⟩ := Option.isSome_iff_exists.1 hsome
  obtain ⟨i, span, hspan, hi, htaken, -⟩ := hbetween.recover_eq h hidle hpending
  rw [htaken]
  exact hspared.ahead i span hspan hi

/-- A poll operation stores nothing, and takes what it moves the read cursor over. -/
theorem step_polls (j : Journal size) {s : ReceiveStep} (hs : ∀ event, s ≠ .hear event) :
    (j.step s).stored = j.stored
      ∧ (j.step s).taken = j.taken + ((j.step s).path.ring.read - j.path.ring.read).toNat := by
  cases s with
  | hear event => exact absurd rfl (hs event)
  | retire => exact ⟨rfl, rfl⟩
  | skip => exact ⟨rfl, rfl⟩
  | recover =>
    simp only [step, recover]
    split <;> exact ⟨rfl, rfl⟩

end Journal

/-! ### What the receiver does meanwhile -/

namespace Chronicle

variable {size : RingSize} {c d e : Chronicle size} {segments after later : List Segment}
  {bytes : Bytes}

/-- From one chronicle to the other the receiver heard something, and the poll side did nothing. -/
structure Hears (c d : Chronicle size) (segments after : List Segment) : Prop where
  tells : d.Tells after
  between : d.journal.Between after
  taken : d.journal.taken = c.journal.taken
  stored : c.journal.stored <+: d.journal.stored
  spared : ∀ n, c.journal.Spared segments n → d.journal.Spared after n
  hidden : ∀ n, c.journal.Hidden segments n → d.journal.Hidden after n

theorem Hears.refl (h : c.Tells segments) (hbetween : c.journal.Between segments) :
    c.Hears c segments segments :=
  ⟨h, hbetween, rfl, List.prefix_refl _, fun _ hspared => hspared, fun _ hhidden => hhidden⟩

theorem Hears.trans (hfirst : c.Hears d segments after) (hsecond : d.Hears e after later) :
    c.Hears e segments later where
  tells := hsecond.tells
  between := hsecond.between
  taken := hsecond.taken.trans hfirst.taken
  stored := hfirst.stored.trans hsecond.stored
  spared := fun n hspared => hsecond.spared n (hfirst.spared n hspared)
  hidden := fun n hhidden => hsecond.hidden n (hfirst.hidden n hhidden)

/-- What is hidden stays hidden, since only the poll side handles faults. -/
theorem hears_event (h : c.Tells segments) (hbetween : c.journal.Between segments)
    (event : LineEvent) : ∃ after, c.Hears (c.step (.hear event)) segments after := by
  obtain ⟨finished, htells⟩ := h.step (.hear event)
  have hpoll : (c.journal.hear event).path.poll = c.journal.path.poll :=
    (Journal.receive_keeps c.journal.path event).2
  refine ⟨segments ++ finished, htells, hbetween.hear h.cut htells.cut, rfl,
    Journal.hear_stored c.journal event, fun n hspared => hspared.hear h.cut htells.cut, ?_⟩
  rintro n (hbehind | ⟨i, span, hspan, hi, hstart⟩)
  · refine .inl (Nat.lt_of_lt_of_le hbehind ?_)
    have hbefore := h.cut.faults.unhandled c.journal.path.poll.handled
    have hafter := htells.cut.faults.unhandled (c.step (.hear event)).journal.path.poll.handled
    rw [allRecords_eq_map, List.length_map] at hbefore hafter
    rw [ReceivePath.unhandled, ReceivePath.unhandled, hbefore, hafter, allSpans_append,
      List.length_append]
    show _ ≤ _ + _ - (c.journal.hear event).path.poll.handled
    rw [hpoll]
    omega
  · refine .inr ⟨i, span, ?_, ?_, hstart⟩
    · rw [allSpans_append, List.getElem?_append_left (List.getElem?_eq_some_iff.1 hspan).1, hspan]
    · show (c.journal.hear event).path.poll.handled ≤ i
      rw [hpoll]
      exact hi

theorem hears_all (h : c.Tells segments) (hbetween : c.journal.Between segments)
    (events : List LineEvent) :
    ∃ after, c.Hears ((events.map ReceiveStep.hear).foldl step c) segments after := by
  induction events generalizing c segments with
  | nil => exact ⟨segments, .refl h hbetween⟩
  | cons event rest ih =>
    obtain ⟨after, hfirst⟩ := hears_event h hbetween event
    obtain ⟨later, hrest⟩ := ih hfirst.tells hfirst.between
    exact ⟨later, hfirst.trans hrest⟩

theorem hears_path (c : Chronicle size) (events : List LineEvent) :
    ((events.map ReceiveStep.hear).foldl step c).journal.path
      = (c.journal.path.receiveAll events).1 := by
  induction events generalizing c with
  | nil => rfl
  | cons event rest ih => exact ih (c.step (.hear event))

/-- A copied frame stays where it is. -/
theorem Hears.copied (h : c.Hears d segments after) (hcopied : c.journal.Copied segments bytes) :
    d.journal.Copied after bytes := by
  obtain ⟨header, hcomplete, hbytes⟩ := hcopied.whole
  obtain ⟨more, hmore⟩ := h.stored
  have hstored := hcopied.spared.stored
  have hdrop : d.journal.stored.drop d.journal.taken
      = c.journal.stored.drop c.journal.taken ++ more := by
    rw [h.taken, ← hmore, List.drop_append_of_le_length (by omega)]
  refine ⟨⟨header, ?_, ?_⟩, h.spared _ hcopied.spared⟩
  · rw [hdrop]
    exact Detection.ofBytes_append_complete hcomplete more
  · rw [hdrop, List.take_append_of_le_length (Detection.ofBytes_complete_iff.1 hcomplete).2, hbytes]

end Chronicle

end MultidropBus
