import MultidropBus.Proofs.Receive.Hearing
import MultidropBus.Proofs.Receive.Polls

/-!
# What the poll side takes from an aligned journal

The poll side looks at the bytes up to the first fault ahead, or at all of them if there is none, or
at nothing if it fell too far behind. In an aligned journal these are the bytes of the segments in
front of that fault (`Journal.View`), so what the detector finds is settled by the first of them: a
frame is found whole, and what is left of a rejected header is no header, unless a coincidence made
it one. Each poll operation then takes whole segments, or one byte of a rejected header, and keeps
the journal aligned.
-/

namespace MultidropBus

open Segment

/-! ### The detector -/

theorem acceptableHeader?_of_append {size : RingSize} {bytes more : Bytes}
    (h : acceptableHeader? size (bytes ++ more) = none) : acceptableHeader? size bytes = none := by
  rcases Nat.lt_or_ge bytes.length headerSize with hshort | hlong
  · exact acceptableHeader?_eq_none size bytes hshort
  · rw [← acceptableHeader?_append size bytes more hlong, h]

namespace Journal

variable {size : RingSize} {j j' : Journal size} {ahead front hidden before after : List Segment}
  {tail : Bytes}

/-- The poll side sees the segments in `front`, none of which a fault gave up, and behind them at
most the beginning of a frame. -/
structure View (j : Journal size) (ahead front hidden : List Segment) (tail : Bytes) : Prop where
  split : ahead = front ++ hidden
  clear : Clear front
  visible : j.path.visible = allBytes front ++ tail
  rest : Detection.ofBytes size tail = .idle

theorem Aligned.toList_eq (h : j.Aligned ahead) :
    j.path.ring.toList = allBytes ahead ++ j.inFlight := h.ring.toList.trans h.layout

/-- Without faults everything is seen. -/
theorem Aligned.view_clear (h : j.Aligned ahead) (hclear : Clear ahead) :
    j.path.pendingFault? = none ∧ j.View ahead ahead [] j.inFlight := by
  obtain ⟨log, hlogs, -, hdrop⟩ := h.faults
  rw [allRecords_eq_nil_iff.2 hclear, List.drop_eq_nil_iff] at hdrop
  have hnone : j.path.pendingFault? = none := hlogs.pending?_eq_none hdrop
  refine ⟨hnone, (List.append_nil _).symm, hclear, ?_, h.tracks.inFlight_idle⟩
  rw [ReceivePath.visible_of_no_fault hnone, h.toList_eq]

/-- A poll side that keeps up sees everything in front of the first fault. -/
theorem Aligned.view_first {kind : FaultKind} {span : Bytes}
    (h : j.Aligned (before ++ .abandoned kind span :: after)) (hclear : Clear before)
    (hfew : j.path.unhandled ≤ faultSlots) :
    j.path.pendingFault? = some ⟨⟨kind, UInt64.ofNat (j.taken + (allBytes before).length),
        UInt64.ofNat (j.taken + (allBytes before).length + span.length)⟩,
        j.path.poll.handled + 1, 0⟩
      ∧ j.View (before ++ .abandoned kind span :: after) before (.abandoned kind span :: after)
        [] := by
  obtain ⟨log, hlogs, hle, hdrop⟩ := h.faults
  have hlen := h.ring.room
  have hslots := size.slots_lt
  have hend := h.length_eq
  rw [allBytes_append, List.length_append] at hend
  rw [allRecords_append, allRecords_eq_nil_iff.2 hclear, List.nil_append, allRecords_cons] at hdrop
  have hfirst : log[j.path.poll.handled]? = some ⟨kind,
      UInt64.ofNat (j.taken + (allBytes before).length),
      UInt64.ofNat (j.taken + (allBytes before).length + span.length)⟩ := by
    have hhead := congrArg List.head? hdrop
    rw [List.head?_drop] at hhead
    rw [hhead]
    rfl
  have hrecent : log.length ≤ j.path.poll.handled + faultSlots := by
    rw [ReceivePath.unhandled, hlogs.unhandled] at hfew
    omega
  have hpending := hlogs.pending?_oldest hfirst hrecent
  refine ⟨hpending, rfl, hclear, ?_, Detection.ofBytes_nil⟩
  have hreadable : j.path.readable = (allBytes before).length := by
    rw [ReceivePath.readable, ReceivePath.pendingFault?, hpending]
    simp only [h.ring.read, Cursor.distance j.taken (allBytes before).length (by omega),
      ReceivePath.buffered, h.ring.occupancy]
    rw [if_neg (by omega), if_pos (by omega)]
  rw [ReceivePath.visible, hreadable, h.toList_eq, allBytes_append, List.append_assoc,
    List.take_left, List.append_nil]

/-- A poll side that fell too far behind sees nothing, and is given the last fault. -/
theorem Aligned.view_last {kind : FaultKind} {span : Bytes}
    (h : j.Aligned (before ++ .abandoned kind span :: after)) (hclear : Clear after)
    (hmany : faultSlots < j.path.unhandled) :
    (∃ missed, 0 < missed ∧ j.path.pendingFault? = some ⟨⟨kind,
        UInt64.ofNat (j.taken + (allBytes before).length),
        UInt64.ofNat (j.taken + (allBytes before).length + span.length)⟩,
        j.path.faults.raised, missed⟩)
      ∧ j.View (before ++ .abandoned kind span :: after) []
        (before ++ .abandoned kind span :: after) [] := by
  obtain ⟨log, hlogs, -, hdrop⟩ := h.faults
  rw [ReceivePath.unhandled, hlogs.unhandled] at hmany
  rw [allRecords_append, allRecords_cons, allRecords_eq_nil_iff.2 hclear, List.append_nil] at hdrop
  obtain ⟨older, hlog⟩ : ∃ older, log = older ++ records (j.taken + (allBytes before).length)
      (.abandoned kind span) := by
    refine ⟨log.take j.path.poll.handled ++ allRecords j.taken before, ?_⟩
    rw [List.append_assoc, ← hdrop, List.take_append_drop]
  subst hlog
  have hlen : (older ++ records (j.taken + (allBytes before).length)
      (.abandoned kind span)).length = older.length + 1 := by
    rw [List.length_append]
    rfl
  rw [hlen] at hmany
  have hraised : j.path.faults.raised = older.length + 1 := hlogs.raised.trans hlen
  have hpending := hlogs.pending?_latest (show j.path.poll.handled + faultSlots < _ by omega)
  have hpositive : 0 < older.length - j.path.poll.handled := by
    have hslots : 0 < faultSlots := by decide
    omega
  refine ⟨⟨_, hpositive, hraised ▸ hpending⟩, rfl, fun _ hs => absurd hs List.not_mem_nil, ?_,
    Detection.ofBytes_nil⟩
  have hreadable : j.path.readable = 0 := by
    rw [ReceivePath.readable, ReceivePath.pendingFault?, hpending]
    exact if_pos hpositive
  rw [ReceivePath.visible, hreadable]
  rfl

/-- Whatever is ahead, the poll side has a view of it. -/
theorem Aligned.view (h : j.Aligned ahead) :
    ∃ front hidden tail, j.View ahead front hidden tail := by
  rcases Nat.lt_or_ge faultSlots j.path.unhandled with hmany | hfew
  · rcases clear_or_last ahead with hclear | ⟨before, kind, span, after, rfl, hclear⟩
    · exact ⟨_, _, _, (h.view_clear hclear).2⟩
    · exact ⟨_, _, _, (h.view_last hclear hmany).2⟩
  · rcases clear_or_first ahead with hclear | ⟨before, kind, span, after, rfl, hclear⟩
    · exact ⟨_, _, _, (h.view_clear hclear).2⟩
    · exact ⟨_, _, _, (h.view_first hclear hfew).2⟩

/-! ### What the detector finds -/

/-- What is left of a rejected header is no header, whatever bytes follow it. -/
theorem Aligned.no_header {bytes : Bytes} (h : j.Aligned (.rejected bytes :: after))
    (hclean : ¬ j.Coincidence) : acceptableHeader? size j.path.ring.toList = none := by
  obtain ⟨hne, start, hstart, hlow, hhigh⟩ := (allSound_cons.1 h.sound).1
  have hpos := List.length_pos_iff.2 hne
  rw [h.ring.toList]
  rcases Nat.eq_or_lt_of_le hlow with heq | hlt
  · exact heq ▸ (h.rejections start hstart).2
  · rw [← Option.not_isSome_iff_eq_none]
    intro hsome
    -- The read cursor is at one of the offsets 1 to 5, where a header would be a coincidence.
    refine hclean ⟨start, hstart, j.taken - start, by omega, by omega, ?_⟩
    rw [Nat.add_sub_cancel' hlow, acceptableHeader?_take size _ (Nat.le_refl _)]
    exact hsome

/-- The first segment in view settles what the detector finds. -/
theorem View.detection (v : j.View ahead front hidden tail) (h : j.Aligned ahead)
    (hclean : ¬ j.Coincidence) :
    (front = [] ∧ j.path.detection = .idle)
      ∨ (∃ bytes rest header, front = .frame bytes :: rest
        ∧ j.path.detection = .complete header ∧ header.frameLength = bytes.length)
      ∨ (∃ bytes rest, front = .rejected bytes :: rest
        ∧ (j.path.detection = .mismatch
          ∨ j.path.detection = .idle ∧ (allBytes front).length < headerSize)) := by
  have hclear := v.clear
  have hvisible := v.visible
  rw [v.split] at h
  rw [ReceivePath.detection_eq]
  cases front with
  | nil =>
    rw [hvisible]
    exact .inl ⟨rfl, v.rest⟩
  | cons s rest =>
    cases s with
    | frame bytes =>
      obtain ⟨header, hwhole, hlength⟩ := (allSound_cons.1 h.sound).1
      refine .inr (.inl ⟨bytes, rest, header, rfl, ?_, hlength⟩)
      rw [hvisible, allBytes_cons, List.append_assoc]
      exact Detection.ofBytes_append_complete hwhole _
    | rejected bytes =>
      refine .inr (.inr ⟨bytes, rest, rfl, ?_⟩)
      -- Not even with the bytes behind the first fault would it be a header.
      have hnone : acceptableHeader? size j.path.visible = none := by
        have hall := h.no_header hclean
        rw [← List.take_append_drop j.path.readable j.path.ring.toList] at hall
        exact acceptableHeader?_of_append hall
      rcases Nat.lt_or_ge j.path.visible.length headerSize with hshort | hlong
      · refine .inr ⟨Detection.ofBytes_idle_iff.2 (.inl hshort), ?_⟩
        rw [hvisible, List.length_append] at hshort
        omega
      · exact .inl (Detection.ofBytes_mismatch_iff.2 ⟨hlong, hnone⟩)
    | abandoned kind bytes => exact absurd (clear_cons.1 hclear).1 (by simp [isAbandoned])

/-- Fewer than six bytes hold no frame. -/
theorem deliveries_of_short {rejected : List Nat} {position : Nat} {segments : List Segment}
    (hsound : AllSound size rejected position segments) (hclear : Clear segments)
    (hshort : (allBytes segments).length < headerSize) : allDeliveries segments = [] := by
  induction segments generalizing position with
  | nil => rfl
  | cons s rest ih =>
    obtain ⟨hs, hrest⟩ := allSound_cons.1 hsound
    rw [allBytes_cons, List.length_append] at hshort
    rw [allDeliveries_cons, ih hrest (clear_cons.1 hclear).2 (by omega), List.append_nil]
    cases s with
    | frame bytes =>
      obtain ⟨header, hwhole, hlength⟩ := hs
      have hsix := header.headerSize_le_frameLength
      change bytes.length + (allBytes rest).length < headerSize at hshort
      omega
    | rejected bytes => rfl
    | abandoned kind bytes => exact absurd (clear_cons.1 hclear).1 (by simp [isAbandoned])

/-- When the detector finds nothing, nothing in view is left to deliver. -/
theorem View.deliveries_of_idle (v : j.View ahead front hidden tail) (h : j.Aligned ahead)
    (hclean : ¬ j.Coincidence) (hidle : j.path.detection = .idle) :
    allDeliveries front = [] := by
  have hsound := h.sound
  rw [v.split, allSound_append] at hsound
  rcases v.detection h hclean with ⟨rfl, -⟩ | ⟨_, _, _, _, hcomplete, -⟩ | ⟨_, _, _, hcase⟩
  · rfl
  · rw [hidle] at hcomplete
    cases hcomplete
  · rcases hcase with hmismatch | ⟨-, hshort⟩
    · rw [hidle] at hmismatch
      cases hmismatch
    · exact deliveries_of_short hsound.1 v.clear hshort

end Journal

end MultidropBus
