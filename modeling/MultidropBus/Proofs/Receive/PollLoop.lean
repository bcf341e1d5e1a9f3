import MultidropBus.Proofs.Receive.Taking

/-!
# The poll loop

A poll side that does what the status asks for, round after round, takes one segment a round as long
as no header was rejected: it hands out a frame, or recovers from a fault. After as many rounds as
there are segments ahead it has handed out their frames in order, and the bus is idle.
-/

namespace MultidropBus

open Segment

namespace ReceivePath

variable {size : RingSize} {p : ReceivePath size}

/-- One round of the poll loop. It answers the frame that it hands out, if there is one. -/
def serve (p : ReceivePath size) : Option Bytes × ReceivePath size :=
  match p.status with
  | .idle => (none, p)
  | .completeFrame => (p.copyFrame?, p.retire.2)
  | .headerMismatch => (none, p.skip.2)
  | .faulted => (none, p.recover.2)

/-- Some rounds of the poll loop. It answers the frames that they hand out, in order. -/
def serveRounds : ReceivePath size → Nat → List Bytes × ReceivePath size
  | p, 0 => ([], p)
  | p, n + 1 =>
    let rest := p.serve.2.serveRounds n
    (p.serve.1.toList ++ rest.1, rest.2)

theorem serveRounds_succ {frame : Option Bytes} {q : ReceivePath size} (h : p.serve = (frame, q))
    (n : Nat) :
    p.serveRounds (n + 1) = (frame.toList ++ (q.serveRounds n).1, (q.serveRounds n).2) := by
  rw [serveRounds, h]

/-- On an idle bus nothing happens any more. -/
theorem serveRounds_of_idle (h : p.status = .idle) (n : Nat) : p.serveRounds n = ([], p) := by
  have hserve : p.serve = (none, p) := by rw [serve, h]
  induction n with
  | zero => rfl
  | succ n ih => rw [serveRounds_succ hserve, ih]; rfl

end ReceivePath

namespace Segment

def frame? : Segment → Option Bytes
  | .frame bytes => some bytes
  | _ => none

def frames (segments : List Segment) : List Bytes := segments.filterMap frame?

theorem frames_cons (s : Segment) (rest : List Segment) :
    frames (s :: rest) = s.frame?.toList ++ frames rest := by cases s <;> rfl

theorem frames_append (first second : List Segment) :
    frames (first ++ second) = frames first ++ frames second := List.filterMap_append

/-- Every segment has bytes of its own or is that of a fault. -/
theorem length_le_of_sound {size : RingSize} {rejected : List Nat} {position : Nat}
    {segments : List Segment} (h : AllSound size rejected position segments) :
    segments.length ≤ (allBytes segments).length + segments.countP isAbandoned := by
  induction segments generalizing position with
  | nil => exact Nat.le_refl 0
  | cons s rest ih =>
    obtain ⟨hs, hrest⟩ := allSound_cons.1 h
    have hle := ih hrest
    rw [List.length_cons, allBytes_cons, List.length_append, List.countP_cons]
    cases s with
    | frame bytes =>
      obtain ⟨header, -, hlength⟩ := hs
      have hsix := header.headerSize_le_frameLength
      have hpos : 0 < headerSize := by decide
      change _ ≤ bytes.length + _ + _
      omega
    | rejected bytes =>
      have hpos := List.length_pos_iff.2 hs.1
      change _ ≤ bytes.length + _ + _
      omega
    | abandoned kind bytes =>
      simp only [isAbandoned, if_true]
      omega

end Segment

namespace Journal

variable {size : RingSize} {j : Journal size} {ahead rest : List Segment}

theorem no_coincidence (h : j.rejected = []) : ¬ j.Coincidence := by
  rintro ⟨start, hstart, -⟩
  rw [h] at hstart
  cases hstart

/-! ### One round -/

/-- A frame that is first ahead is in view. -/
theorem Aligned.view_frame {bytes : Bytes} (h : j.Aligned (.frame bytes :: rest))
    (hfew : j.path.unhandled ≤ faultSlots) :
    ∃ front hidden tail, j.View (.frame bytes :: rest) (.frame bytes :: front) hidden tail := by
  rcases clear_or_first rest with hclear | ⟨before, kind, span, after, rfl, hclear⟩
  · exact ⟨rest, [], _, (h.view_clear (clear_cons.2 ⟨rfl, hclear⟩)).2⟩
  · have h' : j.Aligned ((.frame bytes :: before) ++ .abandoned kind span :: after) := h
    exact ⟨before, _, _, (h'.view_first (clear_cons.2 ⟨rfl, hclear⟩) hfew).2⟩

theorem Aligned.serve_frame {bytes : Bytes} (h : j.Aligned (.frame bytes :: rest))
    (hrejected : j.rejected = []) (hfew : j.path.unhandled ≤ faultSlots) :
    ∃ k : Journal size, j.path.serve = (some bytes, k.path) ∧ k.Aligned rest
      ∧ k.rejected = j.rejected ∧ k.inFlight = j.inFlight := by
  obtain ⟨front, hidden, tail, v⟩ := h.view_frame hfew
  obtain ⟨header, hcomplete, hlen⟩ : ∃ header, j.path.detection = .complete header
      ∧ header.frameLength = bytes.length := by
    rcases v.detection h (no_coincidence hrejected) with ⟨hnil, -⟩ |
      ⟨_, _, header, hfront, hcomplete, hlen⟩ | ⟨_, _, hfront, -⟩
    · cases hnil
    · cases hfront
      exact ⟨header, hcomplete, hlen⟩
    · cases hfront
  have hretire := h.retire_eq hcomplete hlen
  refine ⟨j.retire, ?_, h.retire_frame hcomplete hlen, rfl, by rw [hretire]; rfl⟩
  rw [ReceivePath.serve, ReceivePath.status_completeFrame_iff.2 ⟨header, hcomplete⟩]
  exact Prod.ext (h.copy_eq hcomplete hlen) rfl

theorem Aligned.serve_abandoned {kind : FaultKind} {span : Bytes}
    (h : j.Aligned (.abandoned kind span :: rest)) (hrejected : j.rejected = [])
    (hfew : j.path.unhandled ≤ faultSlots) :
    ∃ k : Journal size, j.path.serve = (none, k.path) ∧ k.Aligned rest
      ∧ k.rejected = j.rejected ∧ k.inFlight = j.inFlight := by
  have hnone : Clear [] := fun s hs => absurd hs List.not_mem_nil
  have h' : j.Aligned ([] ++ .abandoned kind span :: rest) := h
  obtain ⟨hpending, hview⟩ := h'.view_first hnone hfew
  have hidle : j.path.detection = .idle := by
    rw [ReceivePath.detection_eq, hview.visible]
    exact Detection.ofBytes_nil
  have hstatus : j.path.status = .faulted :=
    ReceivePath.status_faulted_iff.2 ⟨hidle, by rw [hpending]; rfl⟩
  obtain ⟨-, -, hafter⟩ := h'.recover_first hnone hfew (no_coincidence hrejected) hidle
  refine ⟨j.recover, ?_, hafter, (recover_stored j).2, ?_⟩
  · rw [ReceivePath.serve, hstatus, recover_path]
  · rw [(h'.recover_eq hidle hpending).2]
    rfl

/-! ### All rounds -/

/-- There are no more segments ahead than bytes in the ring and faults to handle. -/
theorem Aligned.length_le (h : j.Aligned ahead) (hempty : j.inFlight = []) :
    ahead.length ≤ j.path.buffered + j.path.unhandled := by
  have hlist := congrArg List.length h.toList_eq
  rw [hempty, List.append_nil, Ring.toList_length] at hlist
  rw [h.unhandled, ReceivePath.buffered, hlist]
  exact length_le_of_sound h.sound

/-- With nothing ahead and no frame in flight the bus is idle and the ring is empty. -/
theorem Aligned.idle_of_nil (h : j.Aligned []) (hempty : j.inFlight = []) :
    j.path.status = .idle ∧ j.path.buffered = 0 := by
  have hnone : Clear [] := fun s hs => absurd hs List.not_mem_nil
  obtain ⟨hpending, hview⟩ := h.view_clear hnone
  refine ⟨ReceivePath.status_idle_iff.2 ⟨?_, hpending⟩, ?_⟩
  · rw [ReceivePath.detection_eq, hview.visible, hempty]
    exact Detection.ofBytes_nil
  · show j.path.ring.occupancy = 0
    rw [← Ring.toList_length, h.toList_eq, hempty]
    rfl

/-- **The poll loop hands out the frames ahead, and nothing else**, by induction on the segments. -/
theorem Aligned.serveRounds (h : j.Aligned ahead) (hrejected : j.rejected = [])
    (hempty : j.inFlight = []) (hfew : j.path.unhandled ≤ faultSlots) {n : Nat}
    (hn : ahead.length ≤ n) :
    ∃ p, j.path.serveRounds n = (frames ahead, p) ∧ p.status = .idle ∧ p.buffered = 0 := by
  induction ahead generalizing j n with
  | nil =>
    obtain ⟨hidle, hbuffered⟩ := h.idle_of_nil hempty
    exact ⟨j.path, ReceivePath.serveRounds_of_idle hidle n, hidle, hbuffered⟩
  | cons s rest ih =>
    obtain ⟨n, rfl⟩ := Nat.exists_eq_add_of_le' (Nat.le_trans (Nat.le_add_left 1 _) hn)
    have hrest : rest.length ≤ n := Nat.le_of_succ_le_succ hn
    have hcount := h.unhandled
    rw [List.countP_cons] at hcount
    obtain ⟨k, hserve, haligned, hsame, hflight⟩ : ∃ k : Journal size,
        j.path.serve = (s.frame?, k.path) ∧ k.Aligned rest ∧ k.rejected = j.rejected
          ∧ k.inFlight = j.inFlight := by
      cases s with
      | frame bytes => exact h.serve_frame hrejected hfew
      | rejected bytes =>
        obtain ⟨-, start, hstart, -⟩ := (allSound_cons.1 h.sound).1
        rw [hrejected] at hstart
        cases hstart
      | abandoned kind span => exact h.serve_abandoned hrejected hfew
    have hfewer : k.path.unhandled ≤ faultSlots := by
      rw [haligned.unhandled]
      omega
    obtain ⟨p, hrounds, hidle, hbuffered⟩ :=
      ih haligned (hsame.trans hrejected) (hflight.trans hempty) hfewer hrest
    refine ⟨p, ?_, hidle, hbuffered⟩
    rw [ReceivePath.serveRounds_succ hserve, hrounds, frames_cons]

/-! ### What is still to come -/

/-- The bytes of a frame in the receiver log that ends behind the first `taken` bytes. -/
def awaited? (taken : Nat) : Nat × Delivery → Option Bytes
  | (stop, .frame bytes) => if taken < stop then some bytes else none
  | (_, .fault _) => none

/-- The frames that were received and are still in the ring. -/
def awaiting (j : Journal size) : List Bytes := j.received.filterMap (awaited? j.taken)

theorem awaited?_of_le {taken : Nat} {x : Nat × Delivery} (h : x.1 ≤ taken) :
    awaited? taken x = none := by
  obtain ⟨stop, entry⟩ := x
  cases entry with
  | frame bytes => exact if_neg (Nat.not_lt_of_le h)
  | fault kind => rfl

theorem awaited?_noted {rejected : List Nat} {position taken : Nat} {s : Segment}
    (h : s.Sound size rejected position) (hle : taken ≤ position) :
    (s.noted position).filterMap (awaited? taken) = s.frame?.toList := by
  cases s with
  | frame bytes =>
    obtain ⟨header, -, hlength⟩ := h
    have hsix := header.headerSize_le_frameLength
    have hpos : 0 < headerSize := by decide
    have hlt : taken < position + bytes.length := by omega
    have hawaited : awaited? taken (position + bytes.length, .frame bytes) = some bytes :=
      if_pos hlt
    show [(position + bytes.length, Delivery.frame bytes)].filterMap (awaited? taken) = [bytes]
    rw [List.filterMap_cons, hawaited]
    rfl
  | rejected bytes => rfl
  | abandoned kind bytes => rfl

theorem awaited?_allNoted {rejected : List Nat} {position taken : Nat} {segments : List Segment}
    (h : AllSound size rejected position segments) (hle : taken ≤ position) :
    (allNoted position segments).filterMap (awaited? taken) = frames segments := by
  induction segments generalizing position with
  | nil => rfl
  | cons s rest ih =>
    obtain ⟨hs, hrest⟩ := allSound_cons.1 h
    rw [allNoted_cons, List.filterMap_append, awaited?_noted hs hle,
      ih hrest (Nat.le_trans hle (Nat.le_add_right _ _)), frames_cons]

/-- What the receiver log still awaits are the frames of the segments ahead. -/
theorem Aligned.awaiting_eq (h : j.Aligned ahead) : j.awaiting = frames ahead := by
  obtain ⟨past, hpast, hold⟩ := h.noted
  have hnone : past.filterMap (awaited? j.taken) = [] :=
    List.filterMap_eq_nil_iff.2 fun x hx => awaited?_of_le (hold x hx)
  rw [awaiting, hpast, List.filterMap_append, hnone, awaited?_allNoted h.sound (Nat.le_refl _),
    List.nil_append]

end Journal

end MultidropBus
