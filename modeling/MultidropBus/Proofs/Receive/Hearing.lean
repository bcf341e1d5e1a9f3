import MultidropBus.Proofs.Receive.Alignment

/-!
# What the receiver adds to an aligned journal

Each move that an event makes on a journal keeps it aligned: it finishes at most one segment, behind
those ahead, and leaves the rest of the ring alone. So does every event (`Journal.Aligned.hear`).
-/

namespace MultidropBus

open Segment

namespace Journal

variable {size : RingSize} {j : Journal size} {ahead : List Segment}

/-! ### Faults -/

theorem Aligned.abandon (h : j.Aligned ahead) (kind : FaultKind) :
    (j.abandon kind).Aligned (ahead ++ [.abandoned kind j.inFlight]) := by
  have hlen := h.length_eq
  refine h.finish [] (List.append_nil _).symm h.ring rfl ?_ trivial
    ⟨fun _ hx => hx, h.rejections⟩ rfl (List.append_nil _).symm rfl rfl ?_ rfl
  · intro log hlogs
    have hrecord : (⟨kind, j.path.spanStart, j.path.ring.write⟩ : FaultRecord)
        = ⟨kind, UInt64.ofNat (j.taken + (allBytes ahead).length),
          UInt64.ofNat (j.taken + (allBytes ahead).length + j.inFlight.length)⟩ := by
      rw [h.spanStart, h.ring.write, hlen]
    show (j.path.faults.raise ⟨kind, j.path.spanStart, j.path.ring.write⟩).Logs _
    rw [hrecord]
    exact hlogs.raise _
  · simp [Journal.abandon, Segment.noted, deliveries, bytes, hlen]

/-! ### The start of a frame -/

theorem Aligned.begin (h : j.Aligned ahead) (hstate : j.path.state = .filtering) :
    j.begin.Aligned ahead where
  ring := h.ring
  layout := by
    have hlayout := h.layout
    rw [inFlight_of_filtering hstate] at hlayout
    exact hlayout
  tracking := h.tracks.begin.tracking
  sound := h.sound
  faults := h.faults
  noted := h.noted
  surviving := h.surviving
  rejections := h.rejections

/-! ### Between frames -/

/-- What was heard does not matter between frames. -/
theorem Aligned.overhear (h : j.Aligned ahead) (hstate : j.path.state = .filtering)
    (heard : Bytes) (counters : ReceiveCounters) : (j.overhear heard counters).Aligned ahead where
  ring := h.ring
  layout := by
    have hstate' : (j.overhear heard counters).path.state = .filtering := hstate
    rw [inFlight_of_filtering hstate', ← inFlight_of_filtering hstate]
    exact h.layout
  tracking := by
    intro f hf
    exact absurd (hstate.symm.trans hf) (by simp)
  sound := h.sound
  faults := h.faults
  noted := h.noted
  surviving := h.surviving
  rejections := h.rejections

/-! ### One more byte of a frame -/

/-- A rejected header stays one while the stream goes on behind it. -/
theorem Aligned.rejections_snoc (h : j.Aligned ahead) (byte : UInt8) {start : Nat}
    (hstart : start ∈ j.rejected) :
    start + headerSize ≤ (j.stored ++ [byte]).length
      ∧ acceptableHeader? size ((j.stored ++ [byte]).drop start) = none := by
  obtain ⟨hend, hnone⟩ := h.rejections start hstart
  rw [List.length_append]
  refine ⟨by omega, ?_⟩
  rw [List.drop_append_of_le_length (by omega),
    acceptableHeader?_append size _ [byte] (by rw [List.length_drop]; omega), hnone]

variable {f : InFlight} {ring : Ring size} {byte : UInt8}

theorem Aligned.grow (h : j.Aligned ahead) (hstate : j.path.state = .receiving f)
    (hpush : j.path.ring.push? byte = some ring)
    (hidle : Detection.ofBytes size (j.heard ++ [byte]) = .idle) (counters : ReceiveCounters) :
    (j.grow ring byte (.receiving (.ofBytes size
      (UInt64.ofNat (j.stored.length - j.heard.length)) (j.heard ++ [byte]))) counters).Aligned
      ahead where
  ring := h.ring.push hpush
  layout := by
    have hlayout := h.layout
    rw [inFlight_of_receiving hstate] at hlayout
    rw [inFlight_of_receiving (f := .ofBytes size _ (j.heard ++ [byte])) rfl]
    show (j.stored ++ [byte]).drop j.taken = _ ++ (j.heard ++ [byte])
    rw [List.drop_append_of_le_length h.ring.taken_le, hlayout, List.append_assoc]
  tracking := (h.tracks.grow hpush hidle counters).tracking
  sound := h.sound
  faults := h.faults
  noted := h.noted
  surviving := h.surviving
  rejections := fun _ hstart => h.rejections_snoc byte hstart

theorem Aligned.complete (h : j.Aligned ahead) (hstate : j.path.state = .receiving f)
    (hpush : j.path.ring.push? byte = some ring) {header : Header}
    (hwhole : Detection.ofBytes size (j.heard ++ [byte]) = .complete header) :
    (j.complete ring byte).Aligned (ahead ++ [.frame (j.heard ++ [byte])]) := by
  have hlen := h.length_eq
  have hflight := inFlight_of_receiving hstate
  refine h.finish [byte] (by rw [hflight]; rfl) (h.ring.push hpush) rfl ?_ ?_
    ⟨fun _ hx => hx, fun _ hx => h.rejections_snoc byte hx⟩ rfl rfl rfl rfl ?_ rfl
  · intro log hlogs
    show j.path.faults.Logs (log ++ [])
    rw [List.append_nil]
    exact hlogs
  · exact ⟨header, hwhole, Detection.complete_length (h.tracking f hstate).2 hwhole⟩
  · rw [hflight] at hlen
    simp only [Journal.complete, Segment.noted, deliveries, bytes, List.map_cons, List.map_nil,
      List.length_append, List.length_singleton, ← hlen, Nat.add_assoc]

theorem Aligned.reject (h : j.Aligned ahead) (hstate : j.path.state = .receiving f)
    (hpush : j.path.ring.push? byte = some ring)
    (hbad : Detection.ofBytes size (j.heard ++ [byte]) = .mismatch) :
    (j.reject ring byte).Aligned (ahead ++ [.rejected (j.heard ++ [byte])]) := by
  have hlen := h.length_eq
  have hflight := inFlight_of_receiving hstate
  have hsix := Detection.mismatch_length (h.tracking f hstate).2 hbad
  have hlayout := h.layout
  rw [hflight] at hlen hlayout
  have hhead : j.heard.length + 1 = headerSize := by
    rw [← hsix, List.length_append, List.length_singleton]
  have hstart : j.stored.length + 1 - headerSize = j.taken + (allBytes ahead).length := by omega
  have hheader : (j.stored ++ [byte]).drop (j.taken + (allBytes ahead).length)
      = j.heard ++ [byte] := by
    rw [← List.drop_drop, List.drop_append_of_le_length h.ring.taken_le, hlayout, List.append_assoc,
      List.drop_left]
  refine h.finish [byte] (by rw [hflight]; rfl) (h.ring.push hpush) rfl ?_ ?_
    ⟨List.subset_append_left _ _, ?_⟩ rfl rfl rfl rfl ?_ ?_
  · intro log hlogs
    show j.path.faults.Logs (log ++ [])
    rw [List.append_nil]
    exact hlogs
  · refine ⟨by simp, j.taken + (allBytes ahead).length, ?_, Nat.le_refl _,
      Nat.add_le_add_left (Nat.le_of_eq hsix) _⟩
    exact List.mem_append_right _ (List.mem_singleton.2 hstart.symm)
  · intro start hmem
    rcases List.mem_append.1 hmem with hold | hnew
    · exact h.rejections_snoc byte hold
    · rw [List.mem_singleton.1 hnew, hstart]
      show _ ≤ (j.stored ++ [byte]).length
        ∧ acceptableHeader? size ((j.stored ++ [byte]).drop _) = none
      rw [hheader, List.length_append, List.length_singleton]
      exact ⟨by omega, (Detection.ofBytes_mismatch_iff.1 hbad).2⟩
  · simp [Journal.reject, Journal.grow, Segment.noted, deliveries]
  · simp [Journal.reject, Journal.grow, deliveries]

/-- A data byte inside a frame finishes at most one segment. -/
theorem Aligned.hear_data (h : j.Aligned ahead) (hstate : j.path.state = .receiving f)
    (byte : UInt8) : ∃ finished, (j.hear (.byte byte false)).Aligned (ahead ++ finished) := by
  rw [Journal.hear_data h.tracks hstate byte]
  cases hpush : j.path.ring.push? byte with
  | none => exact ⟨_, (h.abandon .overflow).overhear rfl _ _⟩
  | some ring =>
    cases hread : Detection.ofBytes size (j.heard ++ [byte]) with
    | idle => exact ⟨[], (List.append_nil ahead).symm ▸ h.grow hstate hpush hread _⟩
    | complete header => exact ⟨_, h.complete hstate hpush hread⟩
    | mismatch => exact ⟨_, h.reject hstate hpush hread⟩

/-! ### All events -/

theorem Aligned.takes (h : j.Aligned ahead) {event : LineEvent} {k : Journal size}
    (hk : j.Takes event k) : ∃ finished, k.Aligned (ahead ++ finished) := by
  cases hk with
  | passing hstate heard counters =>
    exact ⟨[], (List.append_nil ahead).symm ▸ h.overhear hstate heard counters⟩
  | byte hnext =>
    cases hnext with
    | first hstate => exact (h.begin hstate).hear_data rfl _
    | next hstate => exact h.hear_data hstate _

/-- **Every event keeps the journal aligned**, and finishes segments only behind those ahead. -/
theorem Aligned.hear (h : j.Aligned ahead) (event : LineEvent) :
    ∃ finished, (j.hear event).Aligned (ahead ++ finished) := by
  rcases hear_cases h.tracks event with ⟨e, -, hfault⟩ | htakes | htakes
  · rw [hfault]
    exact ⟨_, h.abandon _⟩
  · exact h.takes htakes
  · obtain ⟨finished, hfinished⟩ := (h.abandon .truncated).takes htakes
    exact ⟨_, List.append_assoc ahead _ finished ▸ hfinished⟩

end Journal

end MultidropBus
