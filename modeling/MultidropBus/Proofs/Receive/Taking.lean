import MultidropBus.Proofs.Receive.Serving

/-!
# What the poll operations do to an aligned journal

Retiring takes the frame that is the first segment ahead, skipping takes one byte of a rejected
header, and recovering takes everything up to the end of the span of the pending fault. Each keeps
the journal aligned with the segments that remain, and each hands over exactly what the segments it
took had to deliver, except that a recovery from too far behind drops all but the last fault.
-/

namespace MultidropBus

open Segment

namespace Journal

variable {size : RingSize} {j : Journal size} {ahead before after : List Segment}

/-- **Taking whole segments keeps the journal aligned**, if their faults and deliveries are
accounted for. -/
theorem Aligned.take (before : List Segment) (h : j.Aligned (before ++ after)) {poll : PollSide}
    {known surviving : List Delivery}
    (hhandled : ∀ log, j.path.faults.Logs log → j.path.poll.handled ≤ log.length →
      log.drop j.path.poll.handled = allRecords j.taken (before ++ after) →
      poll.handled ≤ log.length
        ∧ log.drop poll.handled = allRecords (j.taken + (allBytes before).length) after)
    (hsurviving : surviving = j.polled ++ known ++ allDeliveries after) :
    (j.take (allBytes before).length poll known surviving).Aligned after where
  ring := by
    have hlen := h.length_eq
    rw [allBytes_append, List.length_append] at hlen
    exact h.ring.advance (by omega)
  layout := by
    show j.stored.drop (j.taken + (allBytes before).length) = allBytes after ++ j.inFlight
    rw [← List.drop_drop, h.layout, allBytes_append, List.append_assoc, List.drop_left]
  tracking := h.tracking
  sound := (allSound_append.1 h.sound).2
  faults := by
    obtain ⟨log, hlogs, hle, hdrop⟩ := h.faults
    exact ⟨log, hlogs, hhandled log hlogs hle hdrop⟩
  noted := by
    obtain ⟨past, hpast, hold⟩ := h.noted
    refine ⟨past ++ allNoted j.taken before, ?_, ?_⟩
    · rw [List.append_assoc]
      exact hpast.trans (by rw [allNoted_append]; rfl)
    · intro x hx
      rcases List.mem_append.1 hx with hx | hx
      · exact Nat.le_trans (hold x hx) (Nat.le_add_right _ _)
      · exact allNoted_le hx
  surviving := hsurviving
  rejections := h.rejections

/-- A segment without a fault is taken, and handed over. -/
theorem Aligned.take_segment {s : Segment} (h : j.Aligned (s :: after))
    (hs : s.isAbandoned = false) {poll : PollSide} (hpoll : poll.handled = j.path.poll.handled) :
    (j.take s.bytes.length poll s.deliveries j.surviving).Aligned after := by
  have hbytes : allBytes [s] = s.bytes := List.append_nil _
  rw [← hbytes]
  refine Aligned.take [s] h ?_ ?_
  · intro log _ hle hdrop
    rw [List.singleton_append, allRecords_cons, records_eq_nil_iff.2 hs, List.nil_append] at hdrop
    rw [hpoll, hbytes]
    exact ⟨hle, hdrop⟩
  · rw [h.surviving, allDeliveries_cons, List.append_assoc]

/-! ### Retiring -/

theorem Aligned.complete_ahead (h : j.Aligned ahead) (hclean : ¬ j.Coincidence) {header : Header}
    (hcomplete : j.path.detection = .complete header) :
    ∃ bytes rest, ahead = .frame bytes :: rest ∧ header.frameLength = bytes.length := by
  obtain ⟨front, hidden, tail, v⟩ := h.view
  rcases v.detection h hclean with ⟨-, hidle⟩ | ⟨bytes, rest, other, rfl, hother, hlen⟩ |
    ⟨_, _, _, hcase⟩
  · rw [hcomplete] at hidle
    cases hidle
  · rw [hcomplete] at hother
    cases hother
    exact ⟨bytes, rest ++ hidden, v.split, hlen⟩
  · rw [hcomplete] at hcase
    rcases hcase with hcase | ⟨hcase, -⟩ <;> cases hcase

theorem Aligned.copy_eq {bytes : Bytes} (h : j.Aligned (.frame bytes :: after)) {header : Header}
    (hcomplete : j.path.detection = .complete header) (hlen : header.frameLength = bytes.length) :
    j.path.copyFrame? = some bytes := by
  rw [ReceivePath.copyFrame?_of_complete hcomplete, h.toList_eq, hlen, allBytes_cons,
    List.append_assoc]
  exact congrArg some List.take_left

/-- The frame ahead is retired whole, and the bytes handed over are those that were heard. -/
theorem Aligned.retire_eq {bytes : Bytes} (h : j.Aligned (.frame bytes :: after)) {header : Header}
    (hcomplete : j.path.detection = .complete header) (hlen : header.frameLength = bytes.length) :
    j.retire = j.take bytes.length { j.path.poll with retired := j.path.poll.retired + 1 }
      [.frame bytes] j.surviving := by
  have hfirst : (j.stored.drop j.taken).take bytes.length = bytes := by
    rw [h.layout, allBytes_cons, List.append_assoc]
    exact List.take_left
  rw [h.tracks.retire_eq hcomplete, hlen, hfirst]

theorem Aligned.retire_frame {bytes : Bytes} (h : j.Aligned (.frame bytes :: after))
    {header : Header} (hcomplete : j.path.detection = .complete header)
    (hlen : header.frameLength = bytes.length) : j.retire.Aligned after := by
  rw [h.retire_eq hcomplete hlen]
  exact h.take_segment rfl rfl

/-- **Retiring keeps the journal aligned**, whether there is a frame or not. -/
theorem Aligned.retire (h : j.Aligned ahead) (hclean : ¬ j.Coincidence) :
    ∃ rest, j.retire.Aligned rest := by
  cases hheader : j.path.completeHeader? with
  | none => exact ⟨ahead, (retire_nothing hheader).symm ▸ h⟩
  | some header =>
    have hcomplete := ReceivePath.completeHeader?_eq_some_iff.1 hheader
    obtain ⟨bytes, rest, rfl, hlen⟩ := h.complete_ahead hclean hcomplete
    exact ⟨rest, h.retire_frame hcomplete hlen⟩

/-! ### Skipping -/

theorem Aligned.mismatch_ahead (h : j.Aligned ahead) (hclean : ¬ j.Coincidence)
    (hmismatch : j.path.detection = .mismatch) :
    ∃ byte bytes rest, ahead = .rejected (byte :: bytes) :: rest := by
  obtain ⟨front, hidden, tail, v⟩ := h.view
  rcases v.detection h hclean with ⟨-, hidle⟩ | ⟨_, _, _, _, hcomplete, -⟩ | ⟨bytes, rest, rfl, -⟩
  · rw [hmismatch] at hidle
    cases hidle
  · rw [hmismatch] at hcomplete
    cases hcomplete
  · have hsplit := v.split
    subst hsplit
    obtain ⟨hne, -⟩ := (allSound_cons.1 h.sound).1
    cases bytes with
    | nil => exact absurd rfl hne
    | cons byte bytes => exact ⟨byte, bytes, rest ++ hidden, rfl⟩

/-- What is left of a rejected header may be cut in two. -/
theorem Aligned.cut_rejected {byte : UInt8} {bytes : Bytes}
    (h : j.Aligned (.rejected (byte :: bytes) :: after)) (hne : bytes ≠ []) :
    j.Aligned (.rejected [byte] :: .rejected bytes :: after) := by
  have hnext : j.taken + (byte :: bytes).length = j.taken + 1 + bytes.length := by
    rw [List.length_cons]
    omega
  obtain ⟨⟨-, start, hstart, hlow, hhigh⟩, hrest⟩ := allSound_cons.1 h.sound
  obtain ⟨log, hlogs, hle, hdrop⟩ := h.faults
  obtain ⟨past, hpast, hold⟩ := h.noted
  change AllSound size j.rejected (j.taken + (byte :: bytes).length) after at hrest
  change _ = allRecords (j.taken + (byte :: bytes).length) after at hdrop
  change _ = past ++ allNoted (j.taken + (byte :: bytes).length) after at hpast
  rw [hnext] at hhigh hrest hdrop hpast
  refine ⟨h.ring, h.layout, h.tracking, allSound_cons.2 ⟨⟨by simp, start, hstart, hlow, ?_⟩,
    allSound_cons.2 ⟨⟨hne, start, hstart, ?_, hhigh⟩, hrest⟩⟩, ⟨log, hlogs, hle, hdrop⟩,
    ⟨past, hpast, hold⟩, h.surviving, h.rejections⟩
  · rw [List.length_singleton]
    omega
  · exact Nat.le_trans hlow (Nat.le_add_right _ _)

theorem Aligned.skip_eq {byte : UInt8} {bytes : Bytes}
    (h : j.Aligned (.rejected (byte :: bytes) :: after)) :
    j.skip = j.take 1 { j.path.poll with skipped := j.path.poll.skipped + 1 } [] j.surviving := by
  have hend := h.length_eq
  rw [allBytes_cons, List.length_append] at hend
  change j.taken + (bytes.length + 1 + _) + _ = _ at hend
  exact h.tracks.skip_eq (by omega)

/-- **Skipping a byte of a bad header keeps the journal aligned.** -/
theorem Aligned.skip (h : j.Aligned ahead) (hclean : ¬ j.Coincidence)
    (hstatus : j.path.status = .headerMismatch) : ∃ rest, j.skip.Aligned rest := by
  have hmismatch := ReceivePath.status_headerMismatch_iff.1 hstatus
  obtain ⟨byte, bytes, rest, rfl⟩ := h.mismatch_ahead hclean hmismatch
  rw [h.skip_eq]
  cases bytes with
  | nil => exact ⟨rest, h.take_segment rfl rfl⟩
  | cons next bytes => exact ⟨_, (h.cut_rejected (by simp)).take_segment rfl rfl⟩

/-! ### Recovering -/

/-- Recovering from a fault takes everything up to the end of its span. -/
theorem Aligned.recover_eq {kind : FaultKind} {span : Bytes} {number missed : Nat}
    (h : j.Aligned (before ++ .abandoned kind span :: after))
    (hidle : j.path.detection = .idle)
    (hpending : j.path.pendingFault? = some ⟨⟨kind,
      UInt64.ofNat (j.taken + (allBytes before).length),
      UInt64.ofNat (j.taken + (allBytes before).length + span.length)⟩, number, missed⟩) :
    j.path.recover.1 = some kind
      ∧ j.recover = j.take (allBytes (before ++ [.abandoned kind span])).length
        { j.path.poll with
          handled := number
          flushed := j.path.poll.flushed
            + (allBytes (before ++ [.abandoned kind span])).length }
        [.fault kind]
        (if faultSlots < j.path.unhandled then
          j.polled ++ sinceLatestFault (j.surviving.drop j.polled.length)
        else j.surviving) := by
  have hend := h.length_eq
  have hspan : (allBytes (before ++ [.abandoned kind span])).length
      = (allBytes before).length + span.length := allBytes_snoc_length _ _
  rw [allBytes_append, List.length_append, allBytes_cons, List.length_append] at hend
  change _ + (_ + (span.length + _)) + _ = _ at hend
  rw [Nat.add_assoc, ← hspan] at hpending
  have hadvance := h.ring.advanceTo
    (Nat.le_add_right j.taken (allBytes (before ++ [.abandoned kind span])).length) (by omega)
  rw [Nat.add_sub_cancel_left] at hadvance
  exact h.tracks.recover_eq hidle hpending hadvance (by omega)

/-- A poll side that keeps up recovers from the first fault ahead, and loses nothing. -/
theorem Aligned.recover_first {kind : FaultKind} {span : Bytes}
    (h : j.Aligned (before ++ .abandoned kind span :: after)) (hclear : Clear before)
    (hfew : j.path.unhandled ≤ faultSlots) (hclean : ¬ j.Coincidence)
    (hidle : j.path.detection = .idle) :
    j.path.recover.1 = some kind ∧ j.recover.surviving = j.surviving ∧ j.recover.Aligned after := by
  obtain ⟨hpending, hview⟩ := h.view_first hclear hfew
  obtain ⟨hkind, hrecover⟩ := h.recover_eq hidle hpending
  have hnothing := hview.deliveries_of_idle h hclean hidle
  rw [hrecover, if_neg (Nat.not_lt_of_le hfew)]
  refine ⟨hkind, rfl, ?_⟩
  rw [← List.singleton_append, ← List.append_assoc] at h
  refine Aligned.take _ h ?_ ?_
  · intro log _ hle hdrop
    rw [allRecords_append, allRecords_append, allRecords_eq_nil_iff.2 hclear, List.nil_append,
      allRecords_cons, allRecords_nil, List.append_nil] at hdrop
    have hlen := congrArg List.length hdrop
    rw [List.length_drop, List.length_append] at hlen
    change log.length - _ = 1 + _ at hlen
    refine ⟨show j.path.poll.handled + 1 ≤ log.length by omega, ?_⟩
    show log.drop (j.path.poll.handled + 1) = _
    rw [← List.drop_drop, hdrop]
    rfl
  · rw [h.surviving, allDeliveries_append, allDeliveries_append, hnothing]
    simp [deliveries]

theorem Aligned.idle_of_behind {kind : FaultKind} {span : Bytes}
    (h : j.Aligned (before ++ .abandoned kind span :: after)) (hclear : Clear after)
    (hmany : faultSlots < j.path.unhandled) : j.path.detection = .idle := by
  rw [ReceivePath.detection_eq, (h.view_last hclear hmany).2.visible]
  exact Detection.ofBytes_nil

/-- A poll side that fell too far behind recovers from the last fault ahead, and loses what is in
front of it. -/
theorem Aligned.recover_last {kind : FaultKind} {span : Bytes}
    (h : j.Aligned (before ++ .abandoned kind span :: after)) (hclear : Clear after)
    (hmany : faultSlots < j.path.unhandled) :
    j.path.recover.1 = some kind
      ∧ j.recover.surviving = j.polled ++ .fault kind :: allDeliveries after
      ∧ j.recover.Aligned after := by
  obtain ⟨⟨missed, -, hpending⟩, -⟩ := h.view_last hclear hmany
  obtain ⟨hkind, hrecover⟩ := h.recover_eq (h.idle_of_behind hclear hmany) hpending
  -- The journal looks for the latest fault in the log, the latch in its records.
  have hlost : sinceLatestFault (j.surviving.drop j.polled.length)
      = .fault kind :: allDeliveries after := by
    rw [h.surviving, List.drop_left, allDeliveries_append]
    exact sinceLatestFault_append _ hclear.deliveries
  rw [hrecover, if_pos hmany, hlost]
  refine ⟨hkind, rfl, ?_⟩
  rw [← List.singleton_append, ← List.append_assoc] at h
  refine Aligned.take _ h ?_ ?_
  · intro log hlogs _ _
    rw [allRecords_eq_nil_iff.2 hclear, List.drop_eq_nil_iff]
    exact ⟨Nat.le_of_eq hlogs.raised, Nat.le_of_eq hlogs.raised.symm⟩
  · rw [List.append_assoc]
    rfl

/-- **Recovering keeps the journal aligned**, whether the bus is faulted or not. -/
theorem Aligned.recover (h : j.Aligned ahead) (hclean : ¬ j.Coincidence) :
    ∃ rest, j.recover.Aligned rest := by
  by_cases hstatus : j.path.status = .faulted
  · obtain ⟨hidle, hfault⟩ := ReceivePath.status_faulted_iff.1 hstatus
    have hfaults : ¬ Clear ahead := by
      intro hclear
      rw [(h.view_clear hclear).1] at hfault
      cases hfault
    rcases Nat.lt_or_ge faultSlots j.path.unhandled with hmany | hfew
    · rcases clear_or_last ahead with hclear | ⟨before, kind, span, after, rfl, hclear⟩
      · exact absurd hclear hfaults
      · exact ⟨after, (h.recover_last hclear hmany).2.2⟩
    · rcases clear_or_first ahead with hclear | ⟨before, kind, span, after, rfl, hclear⟩
      · exact absurd hclear hfaults
      · exact ⟨after, (h.recover_first hclear hfew hclean hidle).2.2⟩
  · exact ⟨ahead, (recover_nothing hstatus).2.symm ▸ h⟩

end Journal

end MultidropBus
