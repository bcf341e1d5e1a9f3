import MultidropBus.Proofs.Receive.Delivery
import MultidropBus.Proofs.Receive.Handles
import MultidropBus.Proofs.Receive.PollLoop

/-!
# Restarts of the receive path

The handles of a station can be dropped and handed out anew at any time. The ring and the fault
latch outlive them, while the new receiver filters and the new poll side has handled no fault. So
faults that were handled before are pending once more. Their spans are behind the read cursor, the
poll side can look at nothing until it has recovered from them again, and these recoveries drop
nothing: what the new handles do is what the old ones would have done, with such recoveries in
between (`Handover.Continues`).

That is so as long as two things are kept apart from restarts. A receiver that is dropped inside of
a frame leaves the beginning of it in the ring, and the next frame is taken for the rest
(`Handover.cutRun_handedOut`). And a new poll side that counts more than four faults, old ones
included, takes the records of the older ones for lost and drops all that is in front of the latest
(`Handover.staleRun_handedOut`). The cursors must not have wrapped either: an old span that lies a
whole round back would seem to lie ahead.
-/

namespace MultidropBus

open Segment

inductive HandoverStep
  | step (s : ReceiveStep)
  /-- All handles are dropped, and new ones are handed out for the same identity. -/
  | restart
deriving DecidableEq, Repr

/-! ### Journals over restarts -/

def Delivery.frame? : Delivery → Option Bytes
  | .frame bytes => some bytes
  | .fault _ => none

/-- A journal that goes on when the handles change hands. -/
structure Handover (size : RingSize) where
  journal : Journal size
  /-- How many faults were handled so far, by whichever handles. -/
  settled : Nat

namespace Handover

variable {size : RingSize}

def fresh (identity : Identity) : Handover size := ⟨.fresh identity, 0⟩

def step (identity : Identity) (h : Handover size) : HandoverStep → Handover size
  | .step s =>
    let journal := h.journal.step s
    ⟨journal, max h.settled journal.path.poll.handled⟩
  | .restart =>
    { h with journal := { h.journal with path := h.journal.path.restart identity } }

/-- The journal of a run that starts with empty buffers. -/
def run (identity : Identity) (steps : List HandoverStep) : Handover size :=
  steps.foldl (step identity) (fresh identity)

/-- The frames that were received whole, in order. -/
def completed (h : Handover size) : List Bytes :=
  (h.journal.received.map Prod.snd).filterMap Delivery.frame?

/-- The frames that were handed out and retired, in order. -/
def handedOut (h : Handover size) : List Bytes := h.journal.polled.filterMap Delivery.frame?

/-- Bytes are skipped only while the bus shows a bad header. -/
def Disciplined (size : RingSize) (identity : Identity) (steps : List HandoverStep) : Prop :=
  ∀ earlier, earlier ++ [.step .skip] <+: steps →
    (run identity earlier : Handover size).journal.path.status = .headerMismatch

/-- The poll side never falls more than four faults behind, counted as if the first handles had gone
on. -/
def KeepsUp (size : RingSize) (identity : Identity) (steps : List HandoverStep) : Prop :=
  ∀ earlier, earlier <+: steps →
    (run identity earlier : Handover size).journal.path.faults.unhandled
      (run identity earlier : Handover size).settled ≤ faultSlots

/-- A restart is harmless in between frames, and a recovery as long as the handles in use count at
most four faults, or all that they count were handled before. -/
def Harmless (h : Handover size) : HandoverStep → Prop
  | .restart => h.journal.path.state = .filtering
  | .step .recover => h.journal.path.unhandled ≤ faultSlots
    ∨ h.journal.path.faults.raised ≤ h.settled
  | .step _ => True

instance (h : Handover size) (s : HandoverStep) : Decidable (h.Harmless s) := by
  unfold Harmless
  split <;> infer_instance

/-- No restart tears a frame, and no recovery gives up frames for the sake of old faults. -/
def Undisturbed (size : RingSize) (identity : Identity) (steps : List HandoverStep) : Prop :=
  ∀ earlier s, earlier ++ [s] <+: steps → (run identity earlier : Handover size).Harmless s

theorem run_snoc (identity : Identity) (steps : List HandoverStep) (s : HandoverStep) :
    (run identity (steps ++ [s]) : Handover size) = (run identity steps).step identity s := by
  rw [run, List.foldl_append]
  rfl

variable {identity : Identity} {steps earlier : List HandoverStep}

theorem Disciplined.of_prefix (h : Disciplined size identity steps) (hpre : earlier <+: steps) :
    Disciplined size identity earlier :=
  fun first hfirst => h first (hfirst.trans hpre)

theorem KeepsUp.of_prefix (h : KeepsUp size identity steps) (hpre : earlier <+: steps) :
    KeepsUp size identity earlier :=
  fun first hfirst => h first (hfirst.trans hpre)

theorem Undisturbed.of_prefix (h : Undisturbed size identity steps) (hpre : earlier <+: steps) :
    Undisturbed size identity earlier :=
  fun first s hfirst => h first s (hfirst.trans hpre)

instance : Decidable (Disciplined size identity steps) :=
  decidable_of_iff (∀ earlier ∈ steps.inits, earlier ++ [.step .skip] <+: steps →
      (run identity earlier : Handover size).journal.path.status = .headerMismatch) <| by
    simp only [Disciplined, List.mem_inits]
    exact ⟨fun h earlier hskip => h earlier ((List.prefix_append _ _).trans hskip) hskip,
      fun h earlier _ => h earlier⟩

instance : Decidable (KeepsUp size identity steps) :=
  decidable_of_iff (∀ earlier ∈ steps.inits,
      (run identity earlier : Handover size).journal.path.faults.unhandled
        (run identity earlier : Handover size).settled ≤ faultSlots) <| by
    simp only [KeepsUp, List.mem_inits]

instance : Decidable (Undisturbed size identity steps) :=
  decidable_of_iff (∀ earlier ∈ steps.inits, ∀ s ∈ steps, earlier ++ [s] <+: steps →
      (run identity earlier : Handover size).Harmless s) <| by
    simp only [Undisturbed, List.mem_inits]
    refine ⟨fun h earlier s hpre => ?_, fun h earlier _ s _ => h earlier s⟩
    exact h earlier ((List.prefix_append _ _).trans hpre) s (hpre.subset (by simp)) hpre

/-! ### What one poll side would have done -/

/-- The journal over restarts is that of a run without any, up to what the handles of the poll side
know and what they made known of faults. -/
structure Continues (h : Handover size) (identity : Identity) (steps : List ReceiveStep) :
    Prop where
  disciplined : Journal.Disciplined size identity steps
  keepsUp : Journal.KeepsUp size identity steps
  same : ∃ poll polled surviving,
    h.journal = (Journal.run identity steps).withHandles poll polled surviving
  handled_le : h.journal.path.poll.handled ≤ h.settled
  settled : h.settled = (Journal.run identity steps : Journal size).path.poll.handled
  handedOut : h.handedOut
    = (Journal.run identity steps : Journal size).polled.filterMap Delivery.frame?

theorem fresh_continues (identity : Identity) :
    (fresh identity : Handover size).Continues identity [] where
  disciplined := fun earlier hpre => absurd (List.prefix_nil.1 hpre) (by simp)
  keepsUp := by
    intro earlier hpre
    rw [List.prefix_nil.1 hpre]
    exact Nat.zero_le _
  same := ⟨_, _, _, rfl⟩
  handled_le := Nat.le_refl 0
  settled := rfl
  handedOut := rfl

variable {h : Handover size} {plain : List ReceiveStep}

/-- In between frames a restart is told by the handles alone. -/
theorem Continues.restart (hh : h.Continues identity plain)
    (hstate : h.journal.path.state = .filtering) :
    (h.step identity .restart).Continues identity plain where
  disciplined := hh.disciplined
  keepsUp := hh.keepsUp
  same := by
    obtain ⟨poll, polled, surviving, hsame⟩ := hh.same
    have hidentity : h.journal.path.identity = identity := by
      rw [hsame]
      exact Journal.run_identity size identity plain
    refine ⟨{}, polled, surviving, ?_⟩
    rw [step, ReceivePath.restart_eq_withPoll hidentity hstate, hsame]
    rfl
  handled_le := Nat.zero_le _
  settled := hh.settled
  handedOut := hh.handedOut

/-- One more step of the handles in use is one more step of the run without restarts. -/
theorem Continues.both (hh : h.Continues identity plain) {s : ReceiveStep}
    (hskip : s = .skip →
      (Journal.run identity plain : Journal size).path.status = .headerMismatch)
    (hfew : (h.step identity (.step s)).journal.path.faults.unhandled
      (h.step identity (.step s)).settled ≤ faultSlots)
    {poll : PollSide} {polled surviving : List Delivery}
    (hsame : h.journal.step s
      = ((Journal.run identity plain).step s).withHandles poll polled surviving)
    (hhandled : max h.settled poll.handled
      = ((Journal.run identity plain : Journal size).step s).path.poll.handled)
    (hpolled : polled.filterMap Delivery.frame?
      = ((Journal.run identity plain : Journal size).step s).polled.filterMap Delivery.frame?) :
    (h.step identity (.step s)).Continues identity (plain ++ [s]) := by
  rw [← Journal.run_snoc] at hsame hhandled hpolled
  have hstep : h.step identity (.step s)
      = ⟨(Journal.run identity (plain ++ [s])).withHandles poll polled surviving,
        (Journal.run identity (plain ++ [s]) : Journal size).path.poll.handled⟩ := by
    rw [← hhandled, step, hsame]
    rfl
  rw [hstep] at hfew ⊢
  refine ⟨hh.disciplined.snoc hskip, hh.keepsUp.snoc ?_, ⟨_, _, _, rfl⟩, ?_, rfl, hpolled⟩
  · rw [← Journal.run_snoc]
    exact hfew
  · rw [← hhandled]
    exact Nat.le_max_right _ _

theorem Continues.hear (hh : h.Continues identity plain) (event : LineEvent)
    (hfew : (h.step identity (.step (.hear event))).journal.path.faults.unhandled
      (h.step identity (.step (.hear event))).settled ≤ faultSlots) :
    (h.step identity (.step (.hear event))).Continues identity (plain ++ [.hear event]) := by
  obtain ⟨journal, settled⟩ := h
  obtain ⟨poll, polled, surviving, rfl⟩ := hh.same
  obtain ⟨surviving', hhear⟩ :=
    Journal.hear_withHandles (Journal.run identity plain) poll polled surviving event
  have hkept := Journal.receive_keeps (Journal.run identity plain : Journal size).path event
  refine hh.both (fun hs => by cases hs) hfew hhear ?_ hh.handedOut
  have hle : poll.handled ≤ settled := hh.handled_le
  rw [Nat.max_eq_left hle]
  exact hh.settled.trans (congrArg PollSide.handled hkept.2.symm)

/-- Handles that have settled all that was settled do what those of the run without restarts do. -/
theorem Continues.poll (hh : h.Continues identity plain) {s : ReceiveStep}
    (hs : ∀ event, s ≠ .hear event)
    (hskip : s = .skip → h.journal.path.status = .headerMismatch)
    (hfew : (h.step identity (.step s)).journal.path.faults.unhandled
      (h.step identity (.step s)).settled ≤ faultSlots)
    (hnew : h.journal.path.poll.handled = h.settled) :
    (h.step identity (.step s)).Continues identity (plain ++ [s]) := by
  obtain ⟨segments, htells, -⟩ := Journal.run_between hh.disciplined
  have htracks := htells.cut.tracks
  rw [Chronicle.run_journal] at htracks
  obtain ⟨journal, settled⟩ := h
  obtain ⟨poll, polled, surviving, rfl⟩ := hh.same
  have hhandled : poll.handled = (Journal.run identity plain : Journal size).path.poll.handled :=
    hnew.trans hh.settled
  have hpending := ReceivePath.pendingFault?_withPoll hhandled
  obtain ⟨poll', known, surviving', hstep, hhandled', hpolled⟩ :=
    htracks.sameStep hhandled hs polled surviving
  refine hh.both (fun hlast => ?_) hfew hstep ?_ ?_
  · exact (ReceivePath.status_withPoll hpending).symm.trans (hskip hlast)
  · rw [hh.settled, hhandled']
    exact Nat.max_eq_right (Journal.step_handled _ s)
  · rw [hpolled, List.filterMap_append, List.filterMap_append, ← hh.handedOut]
    rfl

/-- A step of the handles in use that is none of the run without restarts. -/
theorem Continues.alone (hh : h.Continues identity plain) {s : ReceiveStep} {poll : PollSide}
    {polled surviving : List Delivery}
    (hsame : h.journal.step s
      = (Journal.run identity plain).withHandles poll polled surviving)
    (hle : poll.handled ≤ h.settled)
    (hpolled : polled.filterMap Delivery.frame? = h.handedOut) :
    (h.step identity (.step s)).Continues identity plain := by
  have hstep : h.step identity (.step s)
      = ⟨(Journal.run identity plain).withHandles poll polled surviving, h.settled⟩ := by
    rw [step, hsame]
    exact congrArg (Handover.mk _) (Nat.max_eq_left hle)
  rw [hstep]
  exact ⟨hh.disciplined, hh.keepsUp, ⟨_, _, _, rfl⟩, hle, hh.settled, hpolled.trans hh.handedOut⟩

/-- Handles that are new to some fault settle one at a time, and take nothing out of the ring. -/
theorem Continues.settle (hh : h.Continues identity plain) {s : ReceiveStep}
    (hs : ∀ event, s ≠ .hear event)
    (hskip : s = .skip → h.journal.path.status = .headerMismatch) (hharmless : h.Harmless (.step s))
    (hshort : h.journal.stored.length < UInt64.size)
    (hnew : h.journal.path.poll.handled < h.settled) :
    (h.step identity (.step s)).Continues identity plain := by
  obtain ⟨segments, htells, hbetween⟩ := Journal.run_between hh.disciplined
  have hcut := htells.cut
  rw [Chronicle.run_journal] at hcut hbetween
  obtain ⟨journal, settled⟩ := h
  obtain ⟨poll, polled, surviving, rfl⟩ := hh.same
  have hstale : poll.handled < (Journal.run identity plain : Journal size).path.poll.handled :=
    hh.settled ▸ hnew
  obtain ⟨hidle, -⟩ := hbetween.stale hcut hshort hstale polled surviving
  cases s with
  | hear event => exact absurd rfl (hs event)
  | retire =>
    refine hh.alone (Journal.retire_nothing ?_) (Nat.le_of_lt hnew) rfl
    rw [ReceivePath.completeHeader?, hidle]
  | skip =>
    have hmismatch := ReceivePath.status_headerMismatch_iff.1 (hskip rfl)
    exact absurd (hidle.symm.trans hmismatch) (by decide)
  | recover =>
    obtain ⟨poll', kind, surviving', hdone, hle⟩ :=
      hbetween.recover_stale hcut hshort hstale polled surviving (hh.settled ▸ hharmless)
    refine hh.alone hdone (hh.settled ▸ hle) ?_
    rw [List.filterMap_append]
    exact List.append_nil _

/-- **Every step that comes where it does no harm is told by a run without restarts.** -/
theorem Continues.step (hh : h.Continues identity plain) (s : HandoverStep)
    (hskip : s = .step .skip → h.journal.path.status = .headerMismatch) (hharmless : h.Harmless s)
    (hfew : (h.step identity s).journal.path.faults.unhandled (h.step identity s).settled
      ≤ faultSlots)
    (hshort : h.journal.stored.length < UInt64.size) :
    ∃ plain', (h.step identity s).Continues identity plain' := by
  cases s with
  | restart => exact ⟨plain, hh.restart hharmless⟩
  | step s =>
    by_cases hs : ∃ event, s = .hear event
    · obtain ⟨event, rfl⟩ := hs
      exact ⟨_, hh.hear event hfew⟩
    · have hpoll : ∀ event, s ≠ .hear event := fun event same => hs ⟨event, same⟩
      have hskip' : s = .skip → h.journal.path.status = .headerMismatch :=
        fun same => hskip (congrArg HandoverStep.step same)
      rcases Nat.eq_or_lt_of_le hh.handled_le with hall | hnew
      · exact ⟨_, hh.poll hpoll hskip' hfew hall⟩
      · exact ⟨plain, hh.settle hpoll hskip' hharmless hshort hnew⟩

/-! ### Whole runs -/

/-- What a run may add to, and never takes back. -/
structure Grows (h k : Handover size) : Prop where
  completed : h.completed <+: k.completed
  handedOut : h.handedOut <+: k.handedOut
  stored : h.journal.stored.length ≤ k.journal.stored.length
  coincidence : h.journal.Coincidence → k.journal.Coincidence

theorem Grows.refl (h : Handover size) : h.Grows h :=
  ⟨List.prefix_refl _, List.prefix_refl _, Nat.le_refl _, id⟩

theorem Grows.trans {h k l : Handover size} (hfirst : h.Grows k) (hsecond : k.Grows l) :
    h.Grows l :=
  ⟨hfirst.completed.trans hsecond.completed, hfirst.handedOut.trans hsecond.handedOut,
    hfirst.stored.trans hsecond.stored, hsecond.coincidence ∘ hfirst.coincidence⟩

theorem step_grows (h : Handover size) (identity : Identity) (s : HandoverStep) :
    h.Grows (h.step identity s) := by
  cases s with
  | restart => exact ⟨List.prefix_refl _, List.prefix_refl _, Nat.le_refl _, id⟩
  | step s =>
    obtain ⟨hreceived, hpolled⟩ := h.journal.step_logs s
    exact ⟨(hreceived.map _).filterMap _, hpolled.filterMap _,
      (h.journal.step_extends s).1.length_le, fun hcoincidence => hcoincidence.step s⟩

theorem run_grows (identity : Identity) (steps more : List HandoverStep) :
    (run identity steps : Handover size).Grows (run identity (steps ++ more)) := by
  induction more using List.reverseRecOn with
  | nil =>
    rw [List.append_nil]
    exact .refl _
  | append_singleton more s ih =>
    rw [← List.append_assoc, run_snoc]
    exact ih.trans (step_grows _ identity s)

/-- **A run with restarts continues as one without**, by induction on its steps. -/
theorem run_continues (hdisciplined : Disciplined size identity steps)
    (hkeeps : KeepsUp size identity steps) (hundisturbed : Undisturbed size identity steps)
    (hshort : (run identity steps : Handover size).journal.stored.length < UInt64.size) :
    ∃ plain, (run identity steps : Handover size).Continues identity plain := by
  induction steps using List.reverseRecOn with
  | nil => exact ⟨[], fresh_continues identity⟩
  | append_singleton earlier s ih =>
    have hpre : earlier <+: earlier ++ [s] := List.prefix_append _ _
    have hbefore := Nat.lt_of_le_of_lt (run_grows identity earlier [s]).stored hshort
    obtain ⟨plain, hh⟩ := ih (hdisciplined.of_prefix hpre) (hkeeps.of_prefix hpre)
      (hundisturbed.of_prefix hpre) hbefore
    have hfew := hkeeps _ (List.prefix_refl _)
    rw [run_snoc] at hfew ⊢
    refine hh.step s ?_ (hundisturbed earlier s (List.prefix_refl _)) hfew hbefore
    rintro rfl
    exact hdisciplined earlier (List.prefix_refl _)

theorem frames_of_deliveries (segments : List Segment) :
    (allDeliveries segments).filterMap Delivery.frame? = frames segments := by
  induction segments with
  | nil => rfl
  | cons s rest ih =>
    rw [allDeliveries_cons, List.filterMap_append, ih, frames_cons]
    cases s <;> rfl

/-- What was completed and not handed out yet is still in the ring, and an idle bus has handed out
all of it. -/
theorem Continues.kept (hh : h.Continues identity plain) (hclean : ¬ h.journal.Coincidence) :
    ∃ ahead, h.completed = h.handedOut ++ frames ahead
      ∧ h.journal.path.ring.toList = allBytes ahead ++ h.journal.inFlight
      ∧ (h.journal.path.status = .idle → frames ahead = []) := by
  obtain ⟨journal, settled⟩ := h
  obtain ⟨poll, polled, surviving, rfl⟩ := hh.same
  obtain ⟨ahead, haligned⟩ := Journal.run_aligned hh.disciplined hclean
  have hreceived := Journal.surviving_eq_received hh.keepsUp
  have hsurviving := haligned.surviving
  refine ⟨ahead, ?_, haligned.toList_eq, fun hstatus => ?_⟩
  · rw [hh.handedOut, ← frames_of_deliveries, ← List.filterMap_append, ← hsurviving, hreceived]
    rfl
  · -- The handles in use have no fault before them, so the others would have none either.
    obtain ⟨hidle, hnone⟩ := ReceivePath.status_idle_iff.1 hstatus
    have hraised : (Journal.run identity plain : Journal size).path.faults.raised ≤ poll.handled :=
      (FaultLatch.pending?_eq_none_iff _ _).1 hnone
    have hle : poll.handled ≤ (Journal.run identity plain : Journal size).path.poll.handled :=
      hh.settled ▸ hh.handled_le
    have hpending : (Journal.run identity plain : Journal size).path.pendingFault? = none :=
      (FaultLatch.pending?_eq_none_iff _ _).2 (hraised.trans hle)
    have hsame := ReceivePath.detection_withPoll (hnone.trans hpending.symm)
    have hall := haligned.polled_of_idle hclean
      (ReceivePath.status_idle_iff.2 ⟨hsame.symm.trans hidle, hpending⟩)
    rw [hall] at hsurviving
    rw [← frames_of_deliveries, List.self_eq_append_right.1 hsurviving]
    rfl

/-- From one moment to a later one the frames that were waiting are handed out, then those that are
completed meanwhile, each whole and once. What is not handed out yet is still in the ring, and on an
idle bus nothing is missing. -/
structure HandsOver (h k : Handover size) (waiting fresh since : List Bytes)
    (ahead : List Segment) : Prop where
  waited : h.completed = h.handedOut ++ waiting
  came : k.completed = h.completed ++ fresh
  given : k.handedOut = h.handedOut ++ since
  order : waiting ++ fresh = since ++ frames ahead
  kept : k.journal.path.ring.toList = allBytes ahead ++ k.journal.inFlight
  all : k.journal.path.status = .idle → since = waiting ++ fresh

/-- **No frame is lost or torn by a restart** that comes in between frames: new handles hand out
what the old ones left, and then what is completed under them, and no frame is given up for a fault
that was handled before. -/
theorem run_hands_over (size : RingSize) (identity : Identity) (before after : List HandoverStep)
    (hdisciplined : Disciplined size identity (before ++ .restart :: after))
    (hkeeps : KeepsUp size identity (before ++ .restart :: after))
    (hundisturbed : Undisturbed size identity (before ++ .restart :: after))
    (hclean : ¬ (run identity (before ++ .restart :: after) : Handover size).journal.Coincidence)
    (hshort : (run identity (before ++ .restart :: after) : Handover size).journal.stored.length
      < UInt64.size) :
    ∃ waiting fresh since ahead, (run identity before : Handover size).HandsOver
      (run identity (before ++ .restart :: after)) waiting fresh since ahead := by
  have hpre : before <+: before ++ .restart :: after := List.prefix_append _ _
  have hgrows : (run identity before : Handover size).Grows _ :=
    run_grows identity before (.restart :: after)
  obtain ⟨first, hfirst⟩ := run_continues (hdisciplined.of_prefix hpre) (hkeeps.of_prefix hpre)
    (hundisturbed.of_prefix hpre) (Nat.lt_of_le_of_lt hgrows.stored hshort)
  obtain ⟨plain, hplain⟩ := run_continues hdisciplined hkeeps hundisturbed hshort
  obtain ⟨old, hwaiting, -⟩ := hfirst.kept (mt hgrows.coincidence hclean)
  obtain ⟨ahead, hcompleted, hring, hidle⟩ := hplain.kept hclean
  obtain ⟨fresh, hfresh⟩ := hgrows.completed
  obtain ⟨since, hsince⟩ := hgrows.handedOut
  have horder : frames old ++ fresh = since ++ frames ahead := by
    rw [← hfresh, ← hsince, hwaiting, List.append_assoc, List.append_assoc] at hcompleted
    exact List.append_cancel_left hcompleted
  refine ⟨frames old, fresh, since, ahead, hwaiting, hfresh.symm, hsince.symm, horder, hring,
    fun hstatus => ?_⟩
  rw [horder, hidle hstatus, List.append_nil]

/-- A whole frame, heard byte by byte. -/
def heardFrame : Bytes → List HandoverStep
  | [] => []
  | address :: rest =>
    .step (.hear (.byte address true)) :: rest.map fun byte => .step (.hear (.byte byte false))

/-- A frame that is handed out and a fault that is handled, then a frame that waits and a second
fault. -/
def waitingRun : List HandoverStep :=
  heardFrame [5, 1, 5, 255, 0, 0] ++ [.step (.hear (.error .framing)), .step .retire,
    .step .recover] ++ heardFrame [5, 2, 6, 255, 0, 0] ++ [.step (.hear (.error .parity))]

/-- The first fault once more, the frame that waits, and a new one behind the second fault. -/
def renewedRun : List HandoverStep :=
  [.step .recover, .step .retire] ++ heardFrame [5, 3, 7, 255, 0, 0]
    ++ [.step .recover, .step .retire]

theorem renewedRun_handedOut :
    (run (.plain 5) (waitingRun ++ .restart :: renewedRun) : Handover ⟨4, by decide⟩).handedOut
      = (run (.plain 5) waitingRun : Handover ⟨4, by decide⟩).handedOut
        ++ [[5, 2, 6, 255, 0, 0], [5, 3, 7, 255, 0, 0]] := by
  obtain ⟨waiting, fresh, since, ahead, h⟩ : ∃ waiting fresh since ahead,
      (run (.plain 5) waitingRun : Handover ⟨4, by decide⟩).HandsOver
        (run (.plain 5) (waitingRun ++ .restart :: renewedRun)) waiting fresh since ahead :=
    run_hands_over ⟨4, by decide⟩ (.plain 5) waitingRun renewedRun (by decide +kernel)
      (by decide +kernel) (by decide +kernel) (by decide +kernel) (by decide +kernel)
  have hcompleted : (run (.plain 5) (waitingRun ++ .restart :: renewedRun)
      : Handover ⟨4, by decide⟩).completed
        = (run (.plain 5) waitingRun : Handover ⟨4, by decide⟩).handedOut
          ++ [[5, 2, 6, 255, 0, 0], [5, 3, 7, 255, 0, 0]] := by decide +kernel
  rw [← hcompleted, h.given, h.all (by decide +kernel), h.came, h.waited, List.append_assoc]

/-- The header of a frame, a restart, and a whole frame. -/
def cutRun : List HandoverStep :=
  heardFrame [5, 0, 8, 255, 0, 4] ++ .restart :: heardFrame [5, 0, 4, 255, 0, 0]
    ++ [.step .retire]

/-- The header that the restart left behind takes its payload from the frame that came after it. -/
theorem cutRun_handedOut :
    Disciplined ⟨4, by decide⟩ (.plain 5) cutRun ∧ KeepsUp ⟨4, by decide⟩ (.plain 5) cutRun
      ∧ (run (.plain 5) cutRun : Handover ⟨4, by decide⟩).journal.rejected = []
      ∧ (run (.plain 5) cutRun : Handover ⟨4, by decide⟩).completed = [[5, 0, 4, 255, 0, 0]]
      ∧ (run (.plain 5) cutRun : Handover ⟨4, by decide⟩).handedOut
        = [[5, 0, 8, 255, 0, 4, 5, 0, 4, 255]] := by
  decide +kernel

/-- Four faults that are handled, a frame that waits and a fifth fault, then a restart. -/
def staleRun : List HandoverStep :=
  (List.replicate 4 [.step (.hear (.error .framing)), .step .recover]).flatten
    ++ heardFrame [5, 0, 4, 255, 0, 0] ++ [.step (.hear (.error .framing)), .restart,
    .step .recover]

/-- To the new handles all five faults are new, so the recovery drops the frame in front of the
latest. -/
theorem staleRun_handedOut :
    Disciplined ⟨4, by decide⟩ (.plain 5) staleRun ∧ KeepsUp ⟨4, by decide⟩ (.plain 5) staleRun
      ∧ (run (.plain 5) staleRun : Handover ⟨4, by decide⟩).journal.rejected = []
      ∧ (run (.plain 5) staleRun : Handover ⟨4, by decide⟩).completed = [[5, 0, 4, 255, 0, 0]]
      ∧ (run (.plain 5) staleRun : Handover ⟨4, by decide⟩).handedOut = []
      ∧ (run (.plain 5) staleRun : Handover ⟨4, by decide⟩).journal.path.ring.toList = [] := by
  decide +kernel

end Handover

end MultidropBus
