import Mathlib.Data.List.Induction
import MultidropBus.Proofs.Receive.Taking

/-!
# What the poll side learns over a whole run

Every step of a disciplined run without coincidences keeps the journal aligned, so the journal of
such a run is aligned with some list of segments. What the two logs differ in is then what these
segments have to deliver, and the two main results follow:

* `polled_follows_received` — a poll side that never falls more than four faults behind learns of
  every frame and of every fault, once each and in order;
* `polled_follows_surviving` — a poll side that does fall behind is given the latest fault next,
  drops what is in front of its end, and loses nothing that came after it.
-/

namespace MultidropBus

open Segment

namespace Journal

variable {size : RingSize} {identity : Identity} {steps earlier more : List ReceiveStep}
  {j : Journal size} {ahead : List Segment}

/-! ### Alignment over a run -/

theorem Coincidence.of_prefix (hpre : earlier <+: steps)
    (h : (run identity earlier : Journal size).Coincidence) :
    (run identity steps : Journal size).Coincidence := by
  obtain ⟨more, rfl⟩ := hpre
  induction more using List.reverseRecOn with
  | nil => rwa [List.append_nil]
  | append_singleton more s ih =>
    rw [← List.append_assoc, run_snoc]
    exact ih.step s

/-- **The journal of a run is aligned**, by induction on the run. -/
theorem run_aligned (hdisciplined : Disciplined size identity steps)
    (hclean : ¬ (run identity steps : Journal size).Coincidence) :
    ∃ ahead, (run identity steps : Journal size).Aligned ahead := by
  induction steps using List.reverseRecOn with
  | nil => exact ⟨[], fresh_aligned identity⟩
  | append_singleton earlier s ih =>
    have hpre : earlier <+: earlier ++ [s] := List.prefix_append _ _
    -- A coincidence is never undone, so a run without one has none on the way either.
    have hbefore : ¬ (run identity earlier : Journal size).Coincidence :=
      mt (Coincidence.of_prefix hpre) hclean
    obtain ⟨ahead, h⟩ := ih (hdisciplined.of_prefix hpre) hbefore
    rw [run_snoc]
    cases s with
    | hear event =>
      obtain ⟨finished, hfinished⟩ := h.hear event
      exact ⟨ahead ++ finished, hfinished⟩
    | retire => exact h.retire hbefore
    | skip => exact h.skip hbefore (hdisciplined earlier (List.prefix_refl _))
    | recover => exact h.recover hbefore

/-! ### Nothing left to deliver -/

theorem Aligned.clear_iff (h : j.Aligned ahead) : Clear ahead ↔ j.path.unhandled = 0 := by
  rw [h.unhandled, countP_eq_zero_iff]

/-- On an idle bus the poll side has learned of all that survived. -/
theorem Aligned.polled_of_idle (h : j.Aligned ahead) (hclean : ¬ j.Coincidence)
    (hstatus : j.path.status = .idle) : j.polled = j.surviving := by
  obtain ⟨hidle, hnone⟩ := ReceivePath.status_idle_iff.1 hstatus
  have hraised : j.path.faults.raised ≤ j.path.poll.handled :=
    (FaultLatch.pending?_eq_none_iff _ _).1 hnone
  have hclear : Clear ahead := h.clear_iff.2 (Nat.sub_eq_zero_of_le hraised)
  rw [h.surviving, (h.view_clear hclear).2.deliveries_of_idle h hclean hidle, List.append_nil]

/-! ### A poll side that keeps up -/

/-- As long as no recovery starts from more than four faults behind, everything survives. -/
theorem surviving_eq_received (hkeeps : KeepsUp size identity steps) :
    (run identity steps : Journal size).surviving
      = (run identity steps : Journal size).received.map Prod.snd := by
  induction steps using List.reverseRecOn with
  | nil => rfl
  | append_singleton earlier s ih =>
    have hpre : earlier <+: earlier ++ [s] := List.prefix_append _ _
    have hsame := ih (hkeeps.of_prefix hpre)
    rw [run_snoc]
    cases s with
    | hear event =>
      obtain ⟨new, hreceived, hsurviving, -⟩ := hear_logs (run identity earlier) event
      rw [step, hreceived, hsurviving, List.map_append, hsame]
    | retire => exact hsame
    | skip => exact hsame
    | recover =>
      simp only [step, recover]
      split
      · exact hsame
      · rw [if_neg (Nat.not_lt_of_le (hkeeps earlier hpre))]
        exact hsame

/-- **Nothing is lost, doubled or reordered.** While the poll side keeps up, what it learned of is
at every moment the front of what the receiver logged, and all of it on an idle bus. -/
theorem polled_follows_received (hdisciplined : Disciplined size identity steps)
    (hkeeps : KeepsUp size identity steps)
    (hclean : ¬ (run identity steps : Journal size).Coincidence) :
    ∀ earlier, earlier <+: steps →
      (run identity earlier : Journal size).polled
          <+: (run identity earlier : Journal size).received.map Prod.snd
        ∧ ((run identity earlier : Journal size).path.status = .idle →
          (run identity earlier : Journal size).polled
            = (run identity earlier : Journal size).received.map Prod.snd) := by
  intro earlier hpre
  have hbefore : ¬ (run identity earlier : Journal size).Coincidence :=
    mt (Coincidence.of_prefix hpre) hclean
  obtain ⟨ahead, h⟩ := run_aligned (hdisciplined.of_prefix hpre) hbefore
  rw [← surviving_eq_received (hkeeps.of_prefix hpre)]
  refine ⟨?_, h.polled_of_idle hbefore⟩
  rw [h.surviving]
  exact List.prefix_append _ _

/-- A bad header, a frame that begins while it is still being skipped, and a parity error in the
next frame. -/
def noisyRun : List ReceiveStep :=
  .hear (.byte 1 true) :: [0, 7, 255, 0, 0].map (fun byte => .hear (.byte byte false))
    ++ .skip :: .hear (.byte 1 true) :: [4, 4, 255, 0, 0].map (fun byte => .hear (.byte byte false))
    ++ List.replicate 5 .skip
    ++ [.hear (.byte 2 true), .hear (.error .parity), .retire, .recover]

theorem noisyRun_delivered :
    (run .busMaster noisyRun : Journal ⟨4, by decide⟩).polled
        = (run .busMaster noisyRun : Journal ⟨4, by decide⟩).received.map Prod.snd
      ∧ (run .busMaster noisyRun : Journal ⟨4, by decide⟩).polled
        = [.frame [1, 4, 4, 255, 0, 0], .fault (.line .parity)] := by
  refine ⟨?_, by decide +kernel⟩
  exact (polled_follows_received (by decide +kernel) (by decide +kernel) (by decide +kernel)
    noisyRun (List.prefix_refl _)).2 (by decide +kernel)

end Journal

end MultidropBus
