import MultidropBus.Proofs.Receive.Chronicle

/-!
# Recovery brings the read cursor back

Whatever the poll side did before, a recovery puts the read cursor at the end of the span of the
fault, or leaves it where it is if it was already past that end. So it drops nothing that was stored
after the fault, and it stops where the next frame for this station begins.

If bytes are skipped only in front of a bad header, the cursor is never past the end of the span of
an unhandled fault, and never in front of that of a handled one (`Journal.Between`). The poll side
looks at nothing behind the start of the pending span, and at nothing at all once it is past that
start, as a frame that it retired by coincidence may have made it. So a recovery ends exactly at the
end of the span.
-/

namespace MultidropBus

open Segment

namespace Journal

variable {size : RingSize} {identity : Identity} {steps : List ReceiveStep} {j : Journal size}
  {marked after : List (UInt8 × Bool)} {segments finished : List Segment} {span : Span}

/-! ### The cursor and the spans -/

/-- The read cursor is behind the handled spans and not past the end of any other. -/
structure Between (j : Journal size) (segments : List Segment) : Prop where
  behind : ∀ i span, (allSpans 0 segments)[i]? = some span → i < j.path.poll.handled →
    span.stop ≤ j.taken
  ahead : ∀ i span, (allSpans 0 segments)[i]? = some span → j.path.poll.handled ≤ i →
    j.taken ≤ span.stop

theorem fresh_between (identity : Identity) : (fresh identity : Journal size).Between [] where
  behind := by
    intro i span hspan
    cases hspan
  ahead := by
    intro i span hspan
    cases hspan

theorem Cut.pending_isSome (h : j.Cut marked segments) {i : Nat}
    (hi : i < (allSpans 0 segments).length) (hle : j.path.poll.handled ≤ i) :
    ∃ fault, j.path.pendingFault? = some fault := by
  apply Option.ne_none_iff_exists'.1
  intro hnone
  have hraised := (FaultLatch.pending?_eq_none_iff _ _).1 hnone
  rw [h.faults.raised, allRecords_eq_map, List.length_map] at hraised
  omega

/-- A fault whose record is the oldest leaves readable what is in front of its start, and nothing if
the cursor is past that start. -/
theorem Tracks.readable_eq (h : j.Tracks) {fault : Fault} {start : Nat}
    (hpending : j.path.pendingFault? = some fault) (hmissed : fault.missed = 0)
    (hstart : fault.record.start = UInt64.ofNat start) (hstored : start ≤ j.stored.length)
    (hnear : j.taken ≤ start + maxFrameSize) : j.path.readable = start - j.taken := by
  have hroom := h.ring.room
  have hhalf := size.slots_le_half
  have hfits : maxFrameSize + maxFrameSize < UInt64.size := by decide
  rw [ReceivePath.readable, hpending]
  simp only [hmissed, hstart, h.ring.read, ReceivePath.buffered, h.ring.occupancy, Nat.lt_irrefl,
    if_false]
  rcases Nat.lt_or_ge start j.taken with hpassed | hlow
  · -- The way back to the start is nearly a whole round, more than the ring can hold.
    obtain ⟨n, hn⟩ := Nat.exists_eq_add_of_lt hpassed
    rw [Nat.add_assoc] at hn
    rw [hn, Cursor.distance_behind start (n + 1) (by omega) (by omega), if_neg (by omega)]
    omega
  · obtain ⟨n, rfl⟩ := Nat.exists_eq_add_of_le hlow
    rw [Cursor.distance j.taken n (by omega), if_pos (by omega), Nat.add_sub_cancel_left]

/-- The poll side looks at nothing that an unhandled fault gave up. -/
theorem Cut.visible_le (h : j.Cut marked segments) (hbetween : j.Between segments) {i : Nat}
    (hspan : (allSpans 0 segments)[i]? = some span) (hi : j.path.poll.handled ≤ i) :
    j.path.visible.length ≤ span.start - j.taken := by
  have hlen : j.path.visible.length ≤ j.path.readable := List.length_take_le _ _
  obtain ⟨fault, hpending⟩ := h.pending_isSome (List.getElem?_eq_some_iff.1 hspan).1 hi
  obtain ⟨k, first, hfirst, hrecord, -, -, ⟨hmissed, hk⟩ | ⟨hmissed, -⟩⟩ := h.pending hpending
  · have hmem := List.mem_of_getElem? hfirst
    have hahead := hbetween.ahead k first hfirst (Nat.le_of_eq hk.symm)
    have hbounds := h.span_le hmem
    have hshort := h.span_short hmem
    have hfront : first.start ≤ span.start := by
      rcases Nat.eq_or_lt_of_le (hk.symm ▸ hi) with rfl | hlt
      · rw [hfirst] at hspan
        cases hspan
        exact Nat.le_refl _
      · exact hbounds.1.trans (stop_le_start hfirst hspan hlt)
    have hreadable := h.tracks.readable_eq hpending hmissed
      (congrArg FaultRecord.start hrecord) (by omega) (by omega)
    omega
  · have hnothing : j.path.readable = 0 := by
      rw [ReceivePath.readable, hpending]
      exact if_pos hmissed
    omega

/-! ### What keeps the cursor between the spans -/

/-- No unhandled fault ends inside the next `n` bytes: it spares them or gives up what comes behind
them too. -/
structure Spared (j : Journal size) (segments : List Segment) (n : Nat) : Prop where
  stored : j.taken + n ≤ j.stored.length
  ahead : ∀ i span, (allSpans 0 segments)[i]? = some span → j.path.poll.handled ≤ i →
    j.taken + n ≤ span.stop

/-- What the poll side may look at is spared. -/
theorem Between.spared (hbetween : j.Between segments) (h : j.Cut marked segments) {n : Nat}
    (hn : n ≤ j.path.visible.length) : j.Spared segments n where
  stored := (Nat.add_le_add_left hn _).trans h.tracks.visible_le
  ahead := by
    intro i span hspan hi
    have hahead := hbetween.ahead i span hspan hi
    have hbounds := h.span_le (List.mem_of_getElem? hspan)
    have hseen := h.visible_le hbetween hspan hi
    omega

/-- New faults end no earlier than the stream did before them. -/
theorem Spared.hear {n : Nat} (hspared : j.Spared segments n) (h : j.Cut marked segments)
    {event : LineEvent} (hafter : (j.hear event).Cut after (segments ++ finished)) :
    (j.hear event).Spared (segments ++ finished) n where
  stored := hspared.stored.trans (hear_stored j event).length_le
  ahead := by
    intro i span hspan hi
    rw [show (j.hear event).path.poll = j.path.poll from (receive_keeps j.path event).2] at hi
    show j.taken + n ≤ span.stop
    rw [allSpans_append] at hspan
    rcases Nat.lt_or_ge i (allSpans 0 segments).length with hlt | hnew
    · rw [List.getElem?_append_left hlt] at hspan
      exact hspared.ahead i span hspan hi
    · rw [List.getElem?_append_right hnew] at hspan
      have hmem := List.mem_of_getElem? hspan
      obtain ⟨new, hreceived, -, hlate⟩ := hear_logs j event
      have hnoted := hafter.noted
      rw [hreceived, h.noted, allNoted_append] at hnoted
      have hsame := List.append_cancel_left hnoted
      have hentry : (span.stop, Delivery.fault span.kind) ∈ new := by
        have hmapped := List.mem_map_of_mem (f := fun s : Span => (s.stop, Delivery.fault s.kind))
          hmem
        rw [← allNoted_faults, ← hsame] at hmapped
        exact (List.mem_filter.1 hmapped).1
      exact hspared.stored.trans (hlate _ hentry)

/-- Bytes that are spared may be taken. -/
theorem Between.take (hbetween : j.Between segments) {n : Nat} (hspared : j.Spared segments n)
    {poll : PollSide} (hhandled : poll.handled = j.path.poll.handled)
    (known surviving : List Delivery) : (j.take n poll known surviving).Between segments where
  behind := by
    intro i span hspan hi
    change i < poll.handled at hi
    exact (hbetween.behind i span hspan (hhandled ▸ hi)).trans (Nat.le_add_right _ _)
  ahead := by
    intro i span hspan hi
    change poll.handled ≤ i at hi
    exact hspared.ahead i span hspan (hhandled ▸ hi)

theorem Between.retire (hbetween : j.Between segments) (h : j.Cut marked segments) :
    j.retire.Between segments := by
  cases hheader : j.path.completeHeader? with
  | none => exact (retire_nothing hheader).symm ▸ hbetween
  | some header =>
    have hcomplete := ReceivePath.completeHeader?_eq_some_iff.1 hheader
    rw [h.tracks.retire_eq hcomplete]
    refine hbetween.take (hbetween.spared h (ReceivePath.frameLength_le hcomplete).1) ?_ _ _
    rfl

/-- In front of a bad header at least one byte is spared. -/
theorem Between.spared_one (hbetween : j.Between segments) (h : j.Cut marked segments)
    (hstatus : j.path.status = .headerMismatch) : j.Spared segments 1 := by
  have hmismatch := ReceivePath.status_headerMismatch_iff.1 hstatus
  rw [ReceivePath.detection_eq, Detection.ofBytes_mismatch_iff] at hmismatch
  exact hbetween.spared h (Nat.le_trans (by decide) hmismatch.1)

theorem Between.skip (hbetween : j.Between segments) (h : j.Cut marked segments)
    (hspared : j.Spared segments 1) : j.skip.Between segments := by
  rw [h.tracks.skip_eq hspared.stored]
  refine hbetween.take hspared ?_ _ _
  rfl

/-- New faults give up bytes from the end of the stream, and later ones. -/
theorem Between.hear (hbetween : j.Between segments) (h : j.Cut marked segments)
    {event : LineEvent} (hafter : (j.hear event).Cut after (segments ++ finished)) :
    (j.hear event).Between (segments ++ finished) where
  behind := by
    intro i span hspan hi
    rw [show (j.hear event).path.poll = j.path.poll from (receive_keeps j.path event).2] at hi
    rw [allSpans_append, List.getElem?_append_left (Nat.lt_of_lt_of_le hi h.handled_le)] at hspan
    exact hbetween.behind i span hspan hi
  ahead := by
    have hnone : j.Spared segments 0 := ⟨h.tracks.ring.taken_le, hbetween.ahead⟩
    exact (hnone.hear h hafter).ahead

/-- A recovery moves the cursor to the end of the span that is pending. -/
theorem Between.recover_eq (hbetween : j.Between segments) (h : j.Cut marked segments)
    {fault : Fault} (hidle : j.path.detection = .idle)
    (hpending : j.path.pendingFault? = some fault) :
    ∃ i span, (allSpans 0 segments)[i]? = some span ∧ j.path.poll.handled ≤ i
      ∧ j.recover.taken = span.stop ∧ j.recover.path.poll.handled = i + 1 := by
  obtain ⟨i, span, hspan, hrecord, hi, hnumber, -⟩ := h.pending hpending
  have hahead := hbetween.ahead i span hspan hi
  have hbounds := h.span_le (List.mem_of_getElem? hspan)
  have hadvance := h.tracks.ring.advanceTo hahead hbounds.2
  refine ⟨i, span, hspan, hi, ?_⟩
  rw [(h.tracks.recover_eq hidle hpending (by rw [hrecord]; exact hadvance) (by omega)).2]
  exact ⟨Nat.add_sub_cancel' hahead, hnumber⟩

theorem Between.recover (hbetween : j.Between segments) (h : j.Cut marked segments) :
    j.recover.Between segments := by
  by_cases hstatus : j.path.status = .faulted
  · obtain ⟨hidle, hsome⟩ := ReceivePath.status_faulted_iff.1 hstatus
    obtain ⟨fault, hpending⟩ := Option.isSome_iff_exists.1 hsome
    obtain ⟨i, span, hspan, -, htaken, hhandled⟩ := hbetween.recover_eq h hidle hpending
    constructor
    · intro k other hother hk
      rw [htaken]
      rw [hhandled] at hk
      rcases Nat.eq_or_lt_of_le (Nat.le_of_lt_succ hk) with rfl | hlt
      · rw [hspan] at hother
        cases hother
        exact Nat.le_refl _
      · exact (stop_le_start hother hspan hlt).trans (h.span_le (List.mem_of_getElem? hspan)).1
    · intro k other hother hk
      rw [htaken]
      rw [hhandled] at hk
      exact (stop_le_start hspan hother hk).trans (h.span_le (List.mem_of_getElem? hother)).1
  · exact (recover_nothing hstatus).2.symm ▸ hbetween

/-- Every step keeps the cursor between the spans, if a byte is skipped only in front of a bad
header. -/
theorem Between.step {c : Chronicle size} (hbetween : c.journal.Between segments)
    (h : c.Tells segments) {s : ReceiveStep}
    (hskip : s = .skip → c.journal.path.status = .headerMismatch) :
    ∃ finished, (c.step s).Tells (segments ++ finished)
      ∧ (c.step s).journal.Between (segments ++ finished) := by
  cases s with
  | hear event =>
    obtain ⟨finished, hafter⟩ := h.step (.hear event)
    exact ⟨finished, hafter, hbetween.hear h.cut hafter.cut⟩
  | retire =>
    refine ⟨[], ?_⟩
    rw [List.append_nil]
    exact ⟨⟨h.cut.retire, h.alive.step .retire⟩, hbetween.retire h.cut⟩
  | skip =>
    refine ⟨[], ?_⟩
    rw [List.append_nil]
    have hspared := hbetween.spared_one h.cut (hskip rfl)
    exact ⟨⟨h.cut.skip, h.alive.step .skip⟩, hbetween.skip h.cut hspared⟩
  | recover =>
    refine ⟨[], ?_⟩
    rw [List.append_nil]
    exact ⟨⟨h.cut.recover, h.alive.step .recover⟩, hbetween.recover h.cut⟩

theorem Disciplined.skip {s : ReceiveStep} (h : Disciplined size identity (steps ++ [s])) :
    s = .skip → (Chronicle.run identity steps : Chronicle size).journal.path.status
      = .headerMismatch := by
  rintro rfl
  rw [Chronicle.run_journal]
  exact h steps (List.prefix_refl _)

/-- In a disciplined run the cursor is always between the spans. -/
theorem run_between (hdisciplined : Disciplined size identity steps) :
    ∃ segments, (Chronicle.run identity steps : Chronicle size).Tells segments
      ∧ (Chronicle.run identity steps : Chronicle size).journal.Between segments := by
  induction steps using List.reverseRecOn with
  | nil => exact ⟨[], Chronicle.fresh_tells identity, fresh_between identity⟩
  | append_singleton earlier s ih =>
    obtain ⟨segments, h, hbetween⟩ := ih (hdisciplined.of_prefix (List.prefix_append _ _))
    obtain ⟨finished, hafter⟩ := hbetween.step h hdisciplined.skip
    rw [Chronicle.run_append]
    exact ⟨_, hafter⟩

/-! ### What a recovery does -/

/-- A recovery from this fault takes the read cursor to the end of its span and no further. All
cursors are told as positions in the stream. -/
structure Resynchronises (j : Journal size) (fault : Fault) : Prop where
  pending : j.path.pendingFault? = some fault
  answer : j.path.recover.1 = some fault.record.kind
  ordered : fault.record.start.toNat ≤ fault.record.stop.toNat
    ∧ fault.record.stop.toNat ≤ j.path.ring.write.toNat
  /-- The span ends with the last byte stored before the fault was raised. -/
  raised : (j.received.filter fun x => x.2.isFault)[fault.number - 1]?
    = some (fault.record.stop.toNat, .fault fault.record.kind)
  cursor : j.path.recover.2.ring.read.toNat
    = max j.path.ring.read.toNat fault.record.stop.toNat
  kept : j.path.recover.2.ring.toList = j.stored.drop j.path.recover.2.ring.read.toNat
  flushed : j.path.recover.2.poll.flushed
    = j.path.poll.flushed + (j.path.recover.2.ring.read.toNat - j.path.ring.read.toNat)

/-- Where the read cursor was, and even if it lost its way, a recovery takes it to the end of the
span unless it is past that already. -/
theorem Tracks.recovers (h : j.Tracks) (hshort : j.stored.length < UInt64.size) {fault : Fault}
    (hidle : j.path.detection = .idle) (hpending : j.path.pendingFault? = some fault) {stop : Nat}
    (hrecord : fault.record.stop = UInt64.ofNat stop) (hstop : stop ≤ j.stored.length) :
    j.path.recover.1 = some fault.record.kind
      ∧ j.path.recover.2.ring.Holds j.stored (max j.taken stop)
      ∧ j.path.recover.2.poll.flushed = j.path.poll.flushed + (max j.taken stop - j.taken) := by
  have hle := h.ring.taken_le
  have hadvance := h.ring.advanceTo_max hshort hstop
  obtain ⟨hanswer, hrecover⟩ := h.recover_eq hidle hpending (by rw [hrecord]; exact hadvance)
    (by omega)
  have hpath := congrArg Journal.path hrecover
  rw [recover_path] at hpath
  have hring := h.ring.advance (n := max j.taken stop - j.taken) (by omega)
  rw [Nat.add_sub_cancel' (Nat.le_max_left _ _)] at hring
  rw [hpath]
  exact ⟨hanswer, hring, rfl⟩

theorem Cut.resynchronises (h : j.Cut marked segments) (hshort : j.stored.length < UInt64.size)
    {kind : FaultKind} (hkind : j.path.recover.1 = some kind) :
    ∃ fault i span, j.Resynchronises fault ∧ fault.record.kind = kind
      ∧ (allSpans 0 segments)[i]? = some span ∧ fault.record.stop.toNat = span.stop
      ∧ j.path.poll.handled ≤ i := by
  have hstatus := ReceivePath.recover_isSome_iff.1 (Option.isSome_iff_exists.2 ⟨kind, hkind⟩)
  obtain ⟨hidle, hsome⟩ := ReceivePath.status_faulted_iff.1 hstatus
  obtain ⟨fault, hpending⟩ := Option.isSome_iff_exists.1 hsome
  obtain ⟨i, span, hspan, hrecord, hi, hnumber, -⟩ := h.pending hpending
  have hbounds := h.span_le (List.mem_of_getElem? hspan)
  obtain ⟨hanswer, hring, hflushed⟩ :=
    h.tracks.recovers hshort hidle hpending (congrArg FaultRecord.stop hrecord) hbounds.2
  have hstart : fault.record.start.toNat = span.start := by
    rw [hrecord]
    exact UInt64.toNat_ofNat_of_lt' (by omega)
  have hstop : fault.record.stop.toNat = span.stop := by
    rw [hrecord]
    exact UInt64.toNat_ofNat_of_lt' (by omega)
  have hread := h.tracks.ring.read_toNat hshort
  have hread' := hring.read_toNat hshort
  refine ⟨fault, i, span, ⟨hpending, hanswer, ?_, ?_, ?_, ?_, ?_⟩,
    Option.some.inj (hanswer.symm.trans hkind), hspan, hstop, hi⟩
  · rw [hstart, hstop, h.tracks.ring.write_toNat hshort]
    exact hbounds
  · rw [h.noted, allNoted_faults, List.getElem?_map, hnumber, Nat.add_sub_cancel, hspan, hstop,
      hrecord]
    rfl
  · rw [hread', hread, hstop]
  · rw [hread']
    exact hring.toList
  · rw [hread', hread]
    exact hflushed

/-- **Recovery resynchronises and never overreaches.** It moves the read cursor to the later of
where it was and the end of the span, so what was stored after the fault stays, and it counts what
it drops. Behind the span begins the next frame for this station, now or later. If bytes were
skipped only in front of bad headers the cursor was not past that place, so it is there now. -/
theorem recover_resynchronises {kind : FaultKind}
    (hshort : (run identity steps : Journal size).stored.length < UInt64.size)
    (hkind : (run identity steps : Journal size).path.recover.1 = some kind) :
    ∃ fault, (run identity steps : Journal size).Resynchronises fault
      ∧ fault.record.kind = kind
      ∧ (Disciplined size identity steps →
        (run identity steps : Journal size).path.ring.read.toNat ≤ fault.record.stop.toNat
          ∧ (run identity steps : Journal size).path.recover.2.ring.read = fault.record.stop)
      ∧ ∀ more byte mark,
        (Chronicle.run identity (steps ++ more) : Chronicle size).marked[fault.record.stop.toNat]?
          = some (byte, mark) →
        mark = true ∧ identity.accepts byte = true := by
  obtain ⟨segments, h⟩ := Chronicle.run_tells size identity steps
  have hcut := h.cut
  rw [Chronicle.run_journal] at hcut
  obtain ⟨fault, i, span, hresync, hsame, hspan, hstop, hi⟩ := hcut.resynchronises hshort hkind
  refine ⟨fault, hresync, hsame, ?_, ?_⟩
  · intro hdisciplined
    obtain ⟨segments', h', hbetween⟩ := run_between hdisciplined
    have hcut' := h'.cut
    rw [Chronicle.run_journal] at hcut' hbetween
    obtain ⟨fault', i', span', hresync', -, hspan', hstop', hi'⟩ :=
      hcut'.resynchronises hshort hkind
    obtain rfl : fault' = fault := Option.some.inj (hresync'.pending.symm.trans hresync.pending)
    have hle : (run identity steps : Journal size).path.ring.read.toNat
        ≤ fault'.record.stop.toNat := by
      rw [hcut'.tracks.ring.read_toNat hshort, hstop']
      exact hbetween.ahead i' span' hspan' hi'
    exact ⟨hle, UInt64.toNat_inj.1 (hresync.cursor.trans (Nat.max_eq_right hle))⟩
  · intro more byte mark hbyte
    obtain ⟨before, after, hsplit, hend⟩ := split_allSpans (List.mem_of_getElem? hspan)
    obtain ⟨finished, hmore⟩ := h.steps more
    rw [← Chronicle.run_append, hsplit, List.append_assoc] at hmore
    rw [hstop, hend] at hbyte
    have hbegins := hmore.begins_behind hbyte
    rwa [Chronicle.run_journal, run_identity] at hbegins

/-- What is left of a rejected header looks like a header of its own, together with the first byte
of the next frame. The poll side retires what that announces, and is inside the next frame when a
line error gives it up. -/
def strayRun : List ReceiveStep :=
  .hear (.byte 2 true) :: [0, 0, 2, 0, 0].map (fun byte => .hear (.byte byte false))
    ++ [.skip, .hear (.byte 2 true), .hear (.byte 0 false), .hear (.byte 0 false), .retire,
      .hear (.byte 0 false), .hear (.error .framing)]

theorem strayRun_resynchronises :
    (run (.plain 2) strayRun : Journal ⟨4, by decide⟩).path.ring.read.toNat = 9
      ∧ ∃ fault, (run (.plain 2) strayRun : Journal ⟨4, by decide⟩).Resynchronises fault
        ∧ fault.record.kind = .line .framing
        ∧ (run (.plain 2) strayRun : Journal ⟨4, by decide⟩).path.recover.2.ring.read
          = fault.record.stop := by
  have hshort : (run (.plain 2) strayRun : Journal ⟨4, by decide⟩).stored.length < UInt64.size := by
    decide +kernel
  have hkind : (run (.plain 2) strayRun : Journal ⟨4, by decide⟩).path.recover.1
      = some (.line .framing) := by decide +kernel
  have hdisciplined : Disciplined ⟨4, by decide⟩ (.plain 2) strayRun := by decide +kernel
  obtain ⟨fault, hresync, hsame, hstop, -⟩ := recover_resynchronises hshort hkind
  exact ⟨by decide +kernel, fault, hresync, hsame, (hstop hdisciplined).2⟩

end Journal

end MultidropBus
