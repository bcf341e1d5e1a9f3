import MultidropBus.Proofs.Receive.Recovery

/-!
# Where a frame that is handed out comes from

The receiver stores nothing but frames that begin with an address byte for this station. The poll
side finds them again from bare bytes, without the address marks, and for the most part it finds
just them: the read cursor is on the border of a segment, or inside a rejected header
(`Journal.OnCourse`). From a border it meets a segment whole. Inside a rejected header it skips on,
unless the next six bytes happen to be an acceptable header. What is retired there may end inside
the next frame. An observer can tell when the cursor is back on course (`Journal.Oriented`), as it
is after every recovery.
-/

namespace MultidropBus

open Segment

/-- A frame is read from the front of the bytes. -/
theorem Frame.parse_destination {bytes : Bytes} {frame : Frame} (h : parse bytes = .ok frame) :
    ∃ rest, bytes = frame.destination :: rest := by
  obtain ⟨⟨-, hwhole⟩, rfl⟩ := parse_eq_ok_iff.1 h
  cases bytes with
  | nil => cases hwhole
  | cons destination rest => exact ⟨rest, rfl⟩

namespace Journal

variable {size : RingSize} {identity : Identity} {steps : List ReceiveStep} {j : Journal size}
  {marked after : List (UInt8 × Bool)} {segments past later finished : List Segment}

/-! ### On course -/

/-- The read cursor is where a segment with bytes begins, or inside a rejected header, or where all
segments end. -/
inductive OnCourse (j : Journal size) (segments : List Segment) : Prop
  | border (past : List Segment) (s : Segment) (later : List Segment)
    (hsplit : segments = past ++ s :: later) (hne : s.bytes ≠ [])
    (htaken : j.taken = (allBytes past).length)
  | inside (past : List Segment) (bytes : Bytes) (later : List Segment)
    (hsplit : segments = past ++ .rejected bytes :: later)
    (hlow : (allBytes past).length < j.taken)
    (hhigh : j.taken < (allBytes past).length + bytes.length)
  | behind (htaken : j.taken = (allBytes segments).length)

/-- Where any segment ends, the cursor is on course. -/
theorem OnCourse.of_split (later : List Segment) (hsplit : segments = past ++ later)
    (htaken : j.taken = (allBytes past).length) : j.OnCourse segments := by
  induction later generalizing past with
  | nil =>
    rw [List.append_nil] at hsplit
    exact .behind (hsplit ▸ htaken)
  | cons s rest ih =>
    by_cases hne : s.bytes = []
    · rw [List.append_cons] at hsplit
      refine ih hsplit ?_
      rw [allBytes_snoc_length, hne]
      exact htaken
    · exact .border past s rest hsplit hne htaken

/-- An observer who finds the poll side oriented is right. -/
theorem Oriented.onCourse (horiented : j.Oriented) (h : j.Cut marked segments) :
    j.OnCourse segments := by
  rcases horiented with ⟨hstate, hall⟩ | ⟨entry, hentry, hend⟩ | ⟨start, hstart, hlow, hhigh⟩
  · have hlen := h.length_eq
    rw [inFlight_of_filtering hstate, List.length_nil, Nat.add_zero] at hlen
    exact .behind (hall.trans hlen.symm)
  · rw [h.noted] at hentry
    obtain ⟨⟨position, s⟩, hx, hnoted⟩ := List.mem_flatMap.1 hentry
    obtain ⟨_, -, rfl⟩ := List.mem_map.1 hnoted
    obtain ⟨before, after, hsplit, hposition⟩ := mem_place hx
    rw [List.append_cons] at hsplit
    refine .of_split after hsplit ?_
    change position + s.bytes.length = j.taken at hend
    change position = 0 + (allBytes before).length at hposition
    rw [allBytes_snoc_length, ← hend, hposition, Nat.zero_add]
  · rw [h.rejections] at hstart
    obtain ⟨bytes, hx⟩ := mem_allRejections_iff.1 hstart
    have hsix : bytes.length = headerSize := (h.settled _ hx).whole.1
    obtain ⟨before, after, hsplit, hposition⟩ := mem_place hx
    change segments = before ++ .rejected bytes :: after at hsplit
    change start = 0 + (allBytes before).length at hposition
    rw [Nat.zero_add] at hposition
    subst hposition
    rcases Nat.eq_or_lt_of_le hlow with hfirst | hlow
    · exact .of_split _ hsplit hfirst.symm
    rcases Nat.eq_or_lt_of_le hhigh with hlast | hhigh
    · rw [List.append_cons] at hsplit
      refine .of_split after hsplit ?_
      rw [allBytes_snoc_length, hlast, ← hsix]
      rfl
    · exact .inside before bytes after hsplit hlow (hsix ▸ hhigh)

theorem OnCourse.append {k : Journal size} (h : j.OnCourse segments) (htaken : k.taken = j.taken)
    (finished : List Segment) : k.OnCourse (segments ++ finished) := by
  cases h with
  | border past s later hsplit hne hat =>
    exact .border past s (later ++ finished) (by rw [hsplit, List.append_assoc]; rfl) hne
      (htaken.trans hat)
  | inside past bytes later hsplit hlow hhigh =>
    exact .inside past bytes (later ++ finished) (by rw [hsplit, List.append_assoc]; rfl)
      (htaken ▸ hlow) (htaken ▸ hhigh)
  | behind hat => exact .of_split finished rfl (htaken.trans hat)

/-! ### What the detector finds -/

/-- The detector reads the stored bytes from the read cursor on, if it may look that far. -/
theorem Tracks.detection_cases (h : j.Tracks) :
    j.path.detection = .idle
      ∨ j.path.detection = Detection.ofBytes size (j.stored.drop j.taken) := by
  rw [ReceivePath.detection_eq, ReceivePath.visible, h.ring.toList]
  exact Detection.ofBytes_take _ _

theorem Cut.drop_eq (h : j.Cut marked segments) (hsplit : segments = past ++ later)
    (htaken : j.taken = (allBytes past).length) :
    j.stored.drop j.taken = allBytes later ++ j.inFlight := by
  rw [h.layout, hsplit, allBytes_append, htaken, List.append_assoc, List.drop_left]

/-- Where an unhandled fault gave bytes up, the poll side looks at nothing. -/
theorem Between.abandoned_hidden (hbetween : j.Between segments) (h : j.Cut marked segments)
    {kind : FaultKind} {bytes : Bytes} (hsplit : segments = past ++ .abandoned kind bytes :: later)
    (hne : bytes ≠ []) (htaken : j.taken = (allBytes past).length) :
    j.path.detection = .idle := by
  have hspan : (allSpans 0 segments)[(allSpans 0 past).length]?
      = some ⟨kind, 0 + (allBytes past).length, 0 + (allBytes past).length + bytes.length⟩ := by
    rw [hsplit, allSpans_append, List.getElem?_append_right (Nat.le_refl _), Nat.sub_self]
    rfl
  have hunhandled : j.path.poll.handled ≤ (allSpans 0 past).length := by
    apply Nat.le_of_not_lt
    intro hhandled
    have hstop := hbetween.behind _ _ hspan hhandled
    have hpos := List.length_pos_iff.2 hne
    simp only at hstop
    omega
  have hseen := h.visible_le hbetween hspan hunhandled
  simp only [htaken, Nat.zero_add, Nat.sub_self, Nat.le_zero_eq] at hseen
  rw [ReceivePath.detection_eq, List.length_eq_zero_iff.1 hseen]
  exact Detection.ofBytes_nil

/-- **On course the detector finds whole frames and bad headers of the receiver's making**, unless
the cursor is at a coincidence. -/
theorem OnCourse.detection (hcourse : j.OnCourse segments) (h : j.Cut marked segments)
    (hbetween : j.Between segments) (hclean : ¬ j.AtCoincidence) :
    j.path.detection = .idle
      ∨ (∃ past bytes later header, segments = past ++ .frame bytes :: later
        ∧ j.taken = (allBytes past).length ∧ j.path.detection = .complete header
        ∧ header.frameLength = bytes.length)
      ∨ (∃ past bytes later, segments = past ++ .rejected bytes :: later
        ∧ (allBytes past).length ≤ j.taken ∧ j.taken < (allBytes past).length + bytes.length
        ∧ j.path.detection = .mismatch) := by
  rcases h.tracks.detection_cases with hidle | hread
  · exact .inl hidle
  cases hcourse with
  | behind htaken =>
    left
    rw [hread, h.drop_eq (List.append_nil segments).symm htaken]
    exact h.tracks.inFlight_idle
  | inside past bytes later hsplit hlow hhigh =>
    have hsettled := h.settled _ (hsplit ▸ split_mem_place past (.rejected bytes) later)
    have hnone : acceptableHeader? size (j.stored.drop j.taken) = none := by
      apply Option.not_isSome_iff_eq_none.1
      intro hsome
      have hsix : bytes.length = headerSize := hsettled.whole.1
      have hstart : (allBytes past).length ∈ j.rejected := by
        rw [h.rejections]
        exact mem_allRejections_iff.2 ⟨bytes, hsplit ▸ split_mem_place past (.rejected bytes) later⟩
      exact hclean ⟨_, hstart, hlow, hsix ▸ hhigh, hsome⟩
    rcases Nat.lt_or_ge (j.stored.drop j.taken).length headerSize with hshort | hlong
    · exact .inl (hread.trans (Detection.ofBytes_idle_iff.2 (.inl hshort)))
    · exact .inr (.inr ⟨past, bytes, later, hsplit, Nat.le_of_lt hlow, hhigh,
        hread.trans (Detection.ofBytes_mismatch_iff.2 ⟨hlong, hnone⟩)⟩)
  | border past s later hsplit hne htaken =>
    have hsettled := h.settled _ (hsplit ▸ split_mem_place past s later)
    rw [h.drop_eq hsplit htaken, allBytes_cons, List.append_assoc] at hread
    cases s with
    | frame bytes =>
      obtain ⟨header, hwhole, hlen⟩ := hsettled.whole
      exact .inr (.inl ⟨past, bytes, later, header, hsplit, htaken,
        hread.trans (Detection.ofBytes_append_complete hwhole _), hlen⟩)
    | rejected bytes =>
      obtain ⟨hsix, hnone⟩ := hsettled.whole
      have hpos := List.length_pos_iff.2 hne
      have hbad := Detection.ofBytes_mismatch_iff.2 ⟨hsix.symm.le, hnone⟩
      exact .inr (.inr ⟨past, bytes, later, hsplit, Nat.le_of_eq htaken.symm,
        htaken ▸ Nat.lt_add_of_pos_right hpos,
        hread.trans (Detection.ofBytes_append_mismatch hbad _)⟩)
    | abandoned kind bytes => exact .inl (hbetween.abandoned_hidden h hsplit hne htaken)

/-! ### Staying on course -/

/-- In front of a bad header the cursor is at no coincidence. -/
theorem Tracks.not_atCoincidence (h : j.Tracks) (hmismatch : j.path.detection = .mismatch) :
    ¬ j.AtCoincidence := by
  rintro ⟨start, -, -, -, hsome⟩
  rcases h.detection_cases with hidle | hread
  · rw [hmismatch] at hidle
    cases hidle
  · rw [hmismatch] at hread
    rw [(Detection.ofBytes_mismatch_iff.1 hread.symm).2] at hsome
    cases hsome

theorem OnCourse.retire (hcourse : j.OnCourse segments) (h : j.Cut marked segments)
    (hbetween : j.Between segments) (hclean : j.path.retire.1 = true → ¬ j.AtCoincidence) :
    j.retire.OnCourse segments := by
  cases hheader : j.path.completeHeader? with
  | none => exact (retire_nothing hheader).symm ▸ hcourse
  | some header =>
    have hcomplete := ReceivePath.completeHeader?_eq_some_iff.1 hheader
    have hdone : j.path.retire.1 = true := by rw [ReceivePath.retire, hheader]
    rcases hcourse.detection h hbetween (hclean hdone) with hidle |
      ⟨past, bytes, later, other, hsplit, htaken, hother, hlen⟩ | ⟨_, _, _, _, _, _, hmismatch⟩
    · rw [hcomplete] at hidle
      cases hidle
    · rw [hcomplete] at hother
      cases hother
      rw [List.append_cons] at hsplit
      refine .of_split later hsplit ?_
      rw [h.tracks.retire_eq hcomplete, allBytes_snoc_length]
      show j.taken + header.frameLength = _
      rw [htaken, hlen]
      rfl
    · rw [hcomplete] at hmismatch
      cases hmismatch

theorem OnCourse.skip (hcourse : j.OnCourse segments) (h : j.Cut marked segments)
    (hbetween : j.Between segments) (hstatus : j.path.status = .headerMismatch) :
    j.skip.OnCourse segments := by
  have hmismatch := ReceivePath.status_headerMismatch_iff.1 hstatus
  rcases hcourse.detection h hbetween (h.tracks.not_atCoincidence hmismatch) with hidle |
    ⟨_, _, _, _, _, _, hcomplete, _⟩ | ⟨past, bytes, later, hsplit, hlow, hhigh, -⟩
  · rw [hmismatch] at hidle
    cases hidle
  · rw [hmismatch] at hcomplete
    cases hcomplete
  · have hlen := h.length_eq
    rw [hsplit, allBytes_append, allBytes_cons, List.length_append, List.length_append] at hlen
    change _ + (bytes.length + _) + _ = _ at hlen
    rw [h.tracks.skip_eq (by omega)]
    rcases Nat.eq_or_lt_of_le hhigh with hend | hmore
    · rw [List.append_cons] at hsplit
      refine .of_split later hsplit ?_
      rw [allBytes_snoc_length]
      exact hend
    · exact .inside past bytes later hsplit (Nat.lt_succ_of_le hlow) hmore

/-- A recovery brings the cursor back on course, wherever it was. -/
theorem Between.recover_onCourse (hbetween : j.Between segments) (h : j.Cut marked segments)
    (hanswer : j.path.recover.1.isSome) : j.recover.OnCourse segments := by
  obtain ⟨hidle, hsome⟩ :=
    ReceivePath.status_faulted_iff.1 (ReceivePath.recover_isSome_iff.1 hanswer)
  obtain ⟨fault, hpending⟩ := Option.isSome_iff_exists.1 hsome
  obtain ⟨i, span, hspan, -, htaken, -⟩ := hbetween.recover_eq h hidle hpending
  obtain ⟨before, after, hsplit, hend⟩ := split_allSpans (List.mem_of_getElem? hspan)
  exact .of_split after hsplit (htaken.trans hend)

end Journal

namespace Chronicle

variable {size : RingSize} {identity : Identity} {steps : List ReceiveStep} {c : Chronicle size}
  {segments : List Segment}

/-- What was not misled is on course, and stays so. -/
theorem onCourse_step (h : c.Tells segments) (hbetween : c.journal.Between segments)
    (hcourse : c.misled = false → c.journal.OnCourse segments) {s : ReceiveStep}
    (hskip : s = .skip → c.journal.path.status = .headerMismatch)
    (hmisled : (c.misled || c.strays s) = false) : (c.step s).journal.OnCourse segments := by
  obtain ⟨hbefore, hstrays⟩ := Bool.or_eq_false_iff.1 hmisled
  have hcourse := hcourse hbefore
  cases s with
  | hear event =>
    have hsame := hcourse.append (k := c.journal.hear event) rfl []
    rwa [List.append_nil] at hsame
  | retire =>
    refine hcourse.retire h.cut hbetween fun hdone => ?_
    rw [strays, hdone, Bool.true_and] at hstrays
    exact of_decide_eq_false hstrays
  | skip => exact hcourse.skip h.cut hbetween (hskip rfl)
  | recover =>
    show c.journal.recover.OnCourse segments
    by_cases hanswer : c.journal.path.recover.1.isSome
    · exact hbetween.recover_onCourse h.cut hanswer
    · rw [(Journal.recover_nothing (mt ReceivePath.recover_isSome_iff.2 hanswer)).2]
      exact hcourse

theorem run_onCourse (hdisciplined : Journal.Disciplined size identity steps) :
    ∃ segments, (run identity steps : Chronicle size).Tells segments
      ∧ (run identity steps : Chronicle size).journal.Between segments
      ∧ ((run identity steps : Chronicle size).misled = false →
        (run identity steps : Chronicle size).journal.OnCourse segments) := by
  induction steps using List.reverseRecOn with
  | nil => exact ⟨[], fresh_tells identity, Journal.fresh_between identity, fun _ => .behind rfl⟩
  | append_singleton earlier s ih =>
    obtain ⟨segments, h, hbetween, hcourse⟩ := ih (hdisciplined.of_prefix (List.prefix_append _ _))
    obtain ⟨finished, hafter, hbetween'⟩ := hbetween.step h hdisciplined.skip
    rw [run_append]
    refine ⟨_, hafter, hbetween', fun hmisled => ?_⟩
    rcases Bool.and_eq_false_iff.1 hmisled with hkept | hback
    · exact (onCourse_step h hbetween hcourse hdisciplined.skip hkept).append rfl finished
    · rw [Bool.not_eq_false'] at hback
      exact (of_decide_eq_true hback).onCourse hafter.cut

/-! ### The frames handed out -/

/-- Whatever frame the poll side can get now, as a copy or through a snapshot, is made of the stored
bytes at the read cursor, and the first of them came in as an address byte for this station. -/
structure Genuine (c : Chronicle size) : Prop where
  copied : ∀ bytes, c.journal.path.copyFrame? = some bytes →
    bytes <+: c.journal.stored.drop c.journal.taken
      ∧ ∃ destination rest, bytes = destination :: rest
        ∧ c.marked[c.journal.taken]? = some (destination, true)
        ∧ c.journal.path.identity.accepts destination = true
  shown : ∀ snapshot frame, snapshot.length = maxFrameSize →
    { c.journal.path with poll := { c.journal.path.poll with snapshot := snapshot } }.currentFrame.1
      = some frame →
    c.marked[c.journal.taken]? = some (frame.destination, true)
      ∧ c.journal.path.identity.accepts frame.destination = true

/-- On course, and at no coincidence, a copy is a frame that the receiver completed. -/
theorem Tells.copied (h : c.Tells segments) (hbetween : c.journal.Between segments)
    (hcourse : c.journal.OnCourse segments) (hclean : ¬ c.journal.AtCoincidence) {bytes : Bytes}
    (hcopy : c.journal.path.copyFrame? = some bytes) :
    bytes <+: c.journal.stored.drop c.journal.taken
      ∧ ∃ destination rest, bytes = destination :: rest
        ∧ c.marked[c.journal.taken]? = some (destination, true)
        ∧ c.journal.path.identity.accepts destination = true := by
  rcases hcourse.detection h.cut hbetween hclean with hidle |
    ⟨past, whole, later, header, hsplit, htaken, hcomplete, hlen⟩ | ⟨_, _, _, _, _, _, hmismatch⟩
  · rw [(ReceivePath.nothing_served_of_idle hidle).2.1] at hcopy
    cases hcopy
  · rw [ReceivePath.copyFrame?_of_complete hcomplete, h.cut.tracks.ring.toList] at hcopy
    cases hcopy
    refine ⟨List.take_prefix _ _, ?_⟩
    have hsix := header.headerSize_le_frameLength
    have hpos : 0 < header.frameLength := Nat.lt_of_lt_of_le (by decide) hsix
    have hne : whole ≠ [] := List.length_pos_iff.1 (hlen ▸ hpos)
    have hsettled := h.cut.settled _ (hsplit ▸ split_mem_place past (.frame whole) later)
    obtain ⟨destination, hmark, haccepts⟩ := hsettled.begins hne
    rw [← htaken] at hmark
    have hfirst : (c.journal.stored.drop c.journal.taken).head? = some destination := by
      rw [List.head?_drop, ← h.cut.marks, List.getElem?_map, hmark]
      rfl
    obtain ⟨rest, hrest⟩ := List.head?_eq_some_iff.1 hfirst
    refine ⟨destination, rest.take (header.frameLength - 1), ?_, hmark, haccepts⟩
    rw [hrest, List.take_cons hpos]
  · have hnone : c.journal.path.completeHeader? = none := by
      rw [ReceivePath.completeHeader?, hmismatch]
    rw [ReceivePath.copyFrame?, hnone] at hcopy
    cases hcopy

theorem Tells.genuine (h : c.Tells segments) (hbetween : c.journal.Between segments)
    (hcourse : c.journal.OnCourse segments) (hclean : ¬ c.journal.AtCoincidence) : c.Genuine where
  copied _ hcopy := h.copied hbetween hcourse hclean hcopy
  shown := by
    intro snapshot frame hsnapshot hframe
    rw [ReceivePath.currentFrame_fst hsnapshot] at hframe
    obtain ⟨bytes, hcopy, hparse⟩ := Option.bind_eq_some_iff.1 hframe
    obtain ⟨-, destination, rest, rfl, hmark, haccepts⟩ := h.copied hbetween hcourse hclean hcopy
    cases hread : Frame.parse (destination :: rest) with
    | error e =>
      rw [hread] at hparse
      cases hparse
    | ok shown =>
      rw [hread] at hparse
      cases hparse
      obtain ⟨rest', hfront⟩ := Frame.parse_destination hread
      cases hfront
      exact ⟨hmark, haccepts⟩

/-- **No frame for another station is handed out**, unless the poll side came upon a coincidence: a
place inside a rejected header at which it reads, or at which it read and retired a frame without
being oriented since. A machine with counts of 32 bits is shown the same faults all the while, if a
word can count those that are unhandled. -/
theorem frames_genuine (hdisciplined : Journal.Disciplined size identity steps)
    (hcount : Journal.KeepsCount size identity steps)
    (hmisled : (run identity steps : Chronicle size).misled = false)
    (hclean : ¬ (Journal.run identity steps : Journal size).AtCoincidence) :
    (run identity steps : Chronicle size).Genuine
      ∧ (run identity steps : Chronicle size).journal.path.WordsAgree := by
  obtain ⟨segments, h, hbetween, hcourse⟩ := run_onCourse hdisciplined
  rw [← run_journal] at hclean
  refine ⟨h.genuine hbetween (hcourse hmisled) hclean, ?_⟩
  refine FaultLatch.inWords_pending? h.cut.handled_le_raised ?_
  rw [run_journal]
  exact hcount steps (List.prefix_refl _)

/-- What is left of a rejected header looks like the header of a frame, with the first byte of the
next frame as its length. What is retired as a frame ends inside that one. Another frame comes in,
and the poll side skips what is left in front of it. -/
def detourRun : List ReceiveStep :=
  .hear (.byte 5 true) :: [7, 1, 12, 255, 0].map (fun byte => .hear (.byte byte false))
    ++ .skip :: .hear (.byte 5 true)
      :: [9, 16, 255, 0, 3, 1, 2, 3].map (fun byte => .hear (.byte byte false))
    ++ .retire :: .hear (.byte 5 true)
      :: [2, 6, 255, 0, 0].map (fun byte => .hear (.byte byte false)) ++ [.skip, .skip, .skip]

/-- The poll side is misled until the last byte is skipped, without a fault anywhere. -/
theorem detourRun_genuine :
    (run (.plain 5) detourRun.dropLast : Chronicle ⟨4, by decide⟩).misled = true
      ∧ (run (.plain 5) detourRun : Chronicle ⟨4, by decide⟩).journal.path.faults.raised = 0
      ∧ (run (.plain 5) detourRun : Chronicle ⟨4, by decide⟩).Genuine
      ∧ (run (.plain 5) detourRun : Chronicle ⟨4, by decide⟩).journal.path.copyFrame?
        = some [5, 2, 6, 255, 0, 0] := by
  have hdisciplined : Journal.Disciplined ⟨4, by decide⟩ (.plain 5) detourRun := by decide +kernel
  obtain ⟨hgenuine, -⟩ := frames_genuine hdisciplined (by decide +kernel) (by decide +kernel)
    (by decide +kernel)
  exact ⟨by decide +kernel, by decide +kernel, hgenuine, by decide +kernel⟩

/-- What is left of a rejected header looks like the header of a frame for station 7, with the first
byte of the next frame as its length. The whole of the next frame is its payload. -/
def foreignRun : List ReceiveStep :=
  .hear (.byte 5 true) :: [7, 1, 12, 255, 0].map (fun byte => .hear (.byte byte false))
    ++ .skip :: .hear (.byte 5 true) :: [9, 13, 255, 0, 0].map fun byte => .hear (.byte byte false)

/-- Station 5 is handed a frame that nobody sent, for a station that it is not. -/
theorem foreignRun_not_genuine :
    Journal.Disciplined ⟨4, by decide⟩ (.plain 5) foreignRun
      ∧ (run (.plain 5) foreignRun : Chronicle ⟨4, by decide⟩).journal.path.copyFrame?
        = some [7, 1, 12, 255, 0, 5, 9, 13, 255, 0, 0]
      ∧ ¬ (run (.plain 5) foreignRun : Chronicle ⟨4, by decide⟩).Genuine := by
  have hcopy : (run (.plain 5) foreignRun : Chronicle ⟨4, by decide⟩).journal.path.copyFrame?
      = some [7, 1, 12, 255, 0, 5, 9, 13, 255, 0, 0] := by decide +kernel
  refine ⟨by decide +kernel, hcopy, ?_⟩
  intro h
  obtain ⟨-, destination, rest, hfirst, -, haccepts⟩ := h.copied _ hcopy
  cases hfirst
  revert haccepts
  decide +kernel

end Chronicle

end MultidropBus
