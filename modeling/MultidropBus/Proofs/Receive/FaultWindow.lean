import Mathlib.Data.List.Induction
import MultidropBus.Proofs.Receive.FaultLog

/-!
# A log of faults, seen through a window of four

Of all faults ever raised the latch keeps the last four, and what it hands to the poll side is told
by the log and by how many faults were handled (`FaultLatch.Shows`). A machine keeps the latch in
words, with a count of 32 bits and the kinds coded in a byte (`WordLatch`). The count may wrap: four
divides the number of counts, so the slots stay the same, and the poll side is shown the same fault
as long as fewer faults are unhandled than a word can count (`FaultLatch.inWords_pending?`).

A poll side that always handles the fault that it is given goes forward through the log
(`Patrol.InOrder`). It passes over faults only in a visit that found more than four unhandled.
-/

namespace MultidropBus

/-! ### What the latch shows -/

namespace FaultLatch

/-- The latch after faults that left these records, oldest first. -/
def ofLog (log : List FaultRecord) : FaultLatch := log.foldl raise empty

theorem ofLog_snoc (log : List FaultRecord) (record : FaultRecord) :
    ofLog (log ++ [record]) = (ofLog log).raise record := List.foldl_append

theorem ofLog_logs (log : List FaultRecord) : (ofLog log).Logs log := by
  induction log using List.reverseRecOn with
  | nil => exact empty_logs
  | append_singleton earlier record ih =>
    rw [ofLog_snoc]
    exact ih.raise record

/-- What a poll side is shown that has handled the first `handled` faults of a log: nothing if these
are all, the next fault if that is one of the last four, and else the last fault of all, with the
number of those passed over. -/
structure Shows (l : FaultLatch) (log : List FaultRecord) (handled : Nat) : Prop where
  nothing : l.pending? handled = none ↔ handled = log.length
  oldest : 1 ≤ log.length - handled → log.length - handled ≤ 4 →
    ∃ record, log[handled]? = some record ∧ l.pending? handled = some ⟨record, handled + 1, 0⟩
  latest : 4 < log.length - handled →
    ∃ record, log.getLast? = some record
      ∧ l.pending? handled = some ⟨record, log.length, log.length - handled - 1⟩

variable {l : FaultLatch} {log : List FaultRecord} {handled : Nat}

theorem Logs.shows (h : l.Logs log) (hle : handled ≤ log.length) : l.Shows log handled where
  nothing := by
    rw [pending?_eq_none_iff, h.raised]
    exact ⟨fun hall => Nat.le_antisymm hle hall, fun hall => Nat.le_of_eq hall.symm⟩
  oldest := by
    intro hsome hfew
    have hnext := List.getElem?_eq_getElem (show handled < log.length by omega)
    have hrecent : log.length ≤ handled + faultSlots := by rw [faultSlots]; omega
    exact ⟨_, hnext, h.pending?_oldest hnext hrecent⟩
  latest := by
    intro hmany
    rcases List.eq_nil_or_concat log with rfl | ⟨older, record, rfl⟩
    · simp at hmany
    · rw [List.concat_eq_append] at h hmany ⊢
      rw [List.length_append, List.length_singleton] at hmany ⊢
      refine ⟨record, List.getLast?_concat, ?_⟩
      rw [h.pending?_latest (by rw [faultSlots]; omega), Nat.sub_right_comm, Nat.add_sub_cancel]

end FaultLatch

/-! ### The latch in machine words -/

/-- The number that stands for a kind. -/
def FaultKind.code : FaultKind → UInt8
  | .line .overrun => 0
  | .line .framing => 1
  | .line .parity => 2
  | .line .noise => 3
  | .overflow => 4
  | .truncated => 5

def FaultKind.ofCode (code : UInt8) : FaultKind :=
  if code = 0 then .line .overrun
  else if code = 1 then .line .framing
  else if code = 2 then .line .parity
  else if code = 3 then .line .noise
  else if code = 4 then .overflow
  else .truncated

theorem FaultKind.ofCode_code (kind : FaultKind) : ofCode kind.code = kind := by
  cases kind with
  | line e => cases e <;> rfl
  | overflow => rfl
  | truncated => rfl

/-- A record with its kind in code. -/
structure FaultSlot where
  code : UInt8
  start : Cursor
  stop : Cursor
deriving DecidableEq, Repr

def FaultRecord.inSlot (r : FaultRecord) : FaultSlot := ⟨r.kind.code, r.start, r.stop⟩

def FaultSlot.record (s : FaultSlot) : FaultRecord := ⟨.ofCode s.code, s.start, s.stop⟩

theorem FaultRecord.record_inSlot (r : FaultRecord) : r.inSlot.record = r := by
  rw [inSlot, FaultSlot.record, FaultKind.ofCode_code]

/-- A fault with its numbers in words. -/
structure WordFault where
  record : FaultRecord
  number : UInt32
  missed : UInt32
deriving DecidableEq, Repr

def Fault.inWords (f : Fault) : WordFault :=
  ⟨f.record, UInt32.ofNat f.number, UInt32.ofNat f.missed⟩

structure WordLatch where
  raised : UInt32
  slots : Vector FaultSlot faultSlots
deriving DecidableEq, Repr

namespace WordLatch

def empty : WordLatch := ⟨0, Vector.replicate faultSlots ⟨0, 0, 0⟩⟩

def slot (number : UInt32) : Fin faultSlots :=
  ⟨number.toNat % faultSlots, Nat.mod_lt _ (by decide)⟩

def raise (w : WordLatch) (record : FaultRecord) : WordLatch :=
  let number := w.raised + 1
  let i := slot number
  ⟨number, w.slots.set i record.inSlot i.isLt⟩

def ofLog (log : List FaultRecord) : WordLatch := log.foldl raise empty

/-- The next fault, with all counts modulo `2 ^ 32`. -/
def pending? (w : WordLatch) (handled : UInt32) : Option WordFault :=
  let behind := w.raised - handled
  if behind = 0 then none
  else if faultSlots < behind.toNat then
    some ⟨w.slots[slot w.raised].record, w.raised, behind - 1⟩
  else some ⟨w.slots[slot (handled + 1)].record, handled + 1, 0⟩

/-- Counts that differ by a full round use the same slot. -/
theorem slot_ofNat (number : Nat) : slot (UInt32.ofNat number) = FaultLatch.slot number := by
  apply Fin.ext
  simp only [slot, FaultLatch.slot, UInt32.toNat_ofNat', faultSlots]
  omega

end WordLatch

namespace FaultLatch

/-- What a machine holds of a latch. -/
def inWords (l : FaultLatch) : WordLatch :=
  ⟨UInt32.ofNat l.raised, l.records.map FaultRecord.inSlot⟩

theorem inWords_empty : empty.inWords = .empty := by
  rw [inWords, empty, Vector.map_replicate]
  rfl

theorem inWords_raise (l : FaultLatch) (record : FaultRecord) :
    (l.raise record).inWords = l.inWords.raise record := by
  have hnumber : UInt32.ofNat (l.raised + 1) = UInt32.ofNat l.raised + 1 := UInt32.ofNat_add _ _
  simp only [inWords, raise, WordLatch.raise, ← hnumber, WordLatch.slot_ofNat, WordLatch.mk.injEq,
    true_and]
  exact Vector.map_set

theorem inWords_ofLog (log : List FaultRecord) : (ofLog log).inWords = .ofLog log := by
  induction log using List.reverseRecOn with
  | nil => exact inWords_empty
  | append_singleton earlier record ih =>
    rw [ofLog_snoc, inWords_raise, ih, WordLatch.ofLog, WordLatch.ofLog, List.foldl_append]
    rfl

/-- **The words show the same fault**, however often the counts have wrapped, unless the poll side
is a full round behind. -/
theorem inWords_pending? {l : FaultLatch} {handled : Nat} (hle : handled ≤ l.raised)
    (hcount : l.unhandled handled < UInt32.size) :
    l.inWords.pending? (UInt32.ofNat handled) = (l.pending? handled).map Fault.inWords := by
  have hrecord (number : Nat) : l.inWords.slots[WordLatch.slot (UInt32.ofNat number)].record
      = l.records[slot number] := by
    simp [inWords, WordLatch.slot_ofNat, FaultRecord.record_inSlot]
  rw [unhandled] at hcount
  have hbehind : UInt32.ofNat l.raised - UInt32.ofNat handled = UInt32.ofNat (l.raised - handled) :=
    (UInt32.ofNat_sub hle).symm
  have htoNat : (UInt32.ofNat (l.raised - handled)).toNat = l.raised - handled :=
    UInt32.toNat_ofNat_of_lt' hcount
  have hzero : UInt32.ofNat (l.raised - handled) = 0 ↔ l.raised - handled = 0 := by
    rw [← UInt32.toNat_inj, htoNat]
    rfl
  have hnext : UInt32.ofNat handled + 1 = UInt32.ofNat (handled + 1) :=
    (UInt32.ofNat_add handled 1).symm
  have hraised : l.inWords.raised = UInt32.ofNat l.raised := rfl
  rw [WordLatch.pending?, pending?, unhandled]
  simp only [hraised, hbehind, htoNat, hzero, hnext, hrecord]
  split
  · rfl
  · split
    · have hmissed : UInt32.ofNat (l.raised - handled) - 1
          = UInt32.ofNat (l.raised - handled - 1) :=
        (UInt32.ofNat_sub (show 1 ≤ l.raised - handled by omega)).symm
      rw [hmissed]
      rfl
    · rfl

-- a full round of unhandled faults looks like none at all
example : (⟨UInt32.size, empty.records⟩ : FaultLatch).inWords.pending? 0 = none
    ∧ ((⟨UInt32.size, empty.records⟩ : FaultLatch).pending? 0).isSome := by
  decide

end FaultLatch

/-! ### A poll side that handles what it is given -/

inductive LatchStep
  | raise (record : FaultRecord)
  /-- The poll side handles the fault that it is given, if there is one. -/
  | handle
deriving DecidableEq, Repr

/-- A fault that the poll side was given, and how many were unhandled then. -/
structure Visit where
  fault : Fault
  unhandled : Nat
deriving DecidableEq, Repr

/-- A latch under way, with all that was raised and all that the poll side was given. -/
structure Patrol where
  latch : FaultLatch
  log : List FaultRecord
  handled : Nat
  visits : List Visit
deriving DecidableEq, Repr

namespace Patrol

def fresh : Patrol := ⟨.empty, [], 0, []⟩

def handle (p : Patrol) : Patrol :=
  match p.latch.pending? p.handled with
  | none => p
  | some fault =>
    { p with
      handled := fault.number
      visits := p.visits ++ [⟨fault, p.latch.unhandled p.handled⟩] }

def step (p : Patrol) : LatchStep → Patrol
  | .raise record => { p with latch := p.latch.raise record, log := p.log ++ [record] }
  | .handle => p.handle

def run (steps : List LatchStep) : Patrol := steps.foldl step fresh

theorem run_snoc (steps : List LatchStep) (s : LatchStep) :
    run (steps ++ [s]) = (run steps).step s := List.foldl_append

/-- The poll side goes forward through the log. -/
structure InOrder (p : Patrol) : Prop where
  logs : p.latch.Logs p.log
  handled_le : p.handled ≤ p.log.length
  /-- Each fault is visited at most once, and an earlier one before a later one. -/
  increasing : p.visits.Pairwise fun a b => a.fault.number < b.fault.number
  /-- A visit shows the very record that was raised under its number. -/
  genuine : ∀ v ∈ p.visits, 1 ≤ v.fault.number ∧ v.fault.number ≤ p.handled
    ∧ p.log[v.fault.number - 1]? = some v.fault.record
  /-- Every handled fault was visited, or it was passed over in a visit that found more than four
  faults unhandled. -/
  complete : ∀ number, 1 ≤ number → number ≤ p.handled → ∃ v ∈ p.visits,
    v.fault.number = number
      ∨ v.fault.number - v.fault.missed ≤ number ∧ number < v.fault.number ∧ 4 < v.unhandled

theorem fresh_inOrder : fresh.InOrder where
  logs := FaultLatch.empty_logs
  handled_le := Nat.le_refl 0
  increasing := List.Pairwise.nil
  genuine := by
    intro v hv
    cases hv
  complete := by
    intro number hlow hhigh
    exact absurd (Nat.le_trans hlow hhigh) (by decide)

variable {p : Patrol}

theorem InOrder.raise (h : p.InOrder) (record : FaultRecord) :
    (p.step (.raise record)).InOrder where
  logs := h.logs.raise record
  handled_le := by
    show p.handled ≤ (p.log ++ [record]).length
    rw [List.length_append]
    exact Nat.le_add_right_of_le h.handled_le
  increasing := h.increasing
  genuine := by
    intro v hv
    obtain ⟨hlow, hhigh, hrecord⟩ := h.genuine v hv
    refine ⟨hlow, hhigh, ?_⟩
    show (p.log ++ [record])[v.fault.number - 1]? = _
    rw [List.getElem?_append_left (List.getElem?_eq_some_iff.1 hrecord).1, hrecord]
  complete := h.complete

/-- A visit leads to the next fault, or over some to the last one. -/
theorem InOrder.pending (h : p.InOrder) {fault : Fault}
    (hpending : p.latch.pending? p.handled = some fault) :
    p.handled < fault.number ∧ fault.number ≤ p.log.length
      ∧ p.log[fault.number - 1]? = some fault.record
      ∧ fault.number - fault.missed = p.handled + 1
      ∧ (fault.missed = 0 ∨ 4 < p.latch.unhandled p.handled) := by
  have hshows := h.logs.shows h.handled_le
  have hunhandled := h.logs.unhandled p.handled
  have hsome : p.handled ≠ p.log.length := by
    intro hall
    rw [hshows.nothing.2 hall] at hpending
    cases hpending
  have hle := h.handled_le
  rcases Nat.lt_or_ge 4 (p.log.length - p.handled) with hmany | hfew
  · obtain ⟨record, hlast, hshown⟩ := hshows.latest hmany
    rw [hshown] at hpending
    cases hpending
    rw [List.getLast?_eq_getElem?] at hlast
    refine ⟨?_, Nat.le_refl _, hlast, ?_, .inr (hunhandled ▸ hmany)⟩
    · show p.handled < p.log.length
      omega
    · show p.log.length - (p.log.length - p.handled - 1) = p.handled + 1
      omega
  · obtain ⟨record, hnext, hshown⟩ := hshows.oldest (by omega) hfew
    rw [hshown] at hpending
    cases hpending
    exact ⟨Nat.lt_succ_self _, Nat.lt_of_le_of_ne hle hsome, hnext, rfl, .inl rfl⟩

theorem InOrder.handle (h : p.InOrder) : p.handle.InOrder := by
  rw [Patrol.handle]
  cases hpending : p.latch.pending? p.handled with
  | none => exact h
  | some fault =>
    obtain ⟨hnew, hle, hrecord, hmissed, hmany⟩ := h.pending hpending
    show InOrder { p with handled := fault.number, visits := _ }
    refine ⟨h.logs, hle, ?_, ?_, ?_⟩
    · refine List.pairwise_append.2 ⟨h.increasing, List.pairwise_singleton _ _, ?_⟩
      intro v hv w hw
      rw [List.mem_singleton.1 hw]
      exact Nat.lt_of_le_of_lt (h.genuine v hv).2.1 hnew
    · intro v hv
      rcases List.mem_append.1 hv with hold | hlast
      · obtain ⟨hlow, hhigh, hshown⟩ := h.genuine v hold
        exact ⟨hlow, Nat.le_trans hhigh (Nat.le_of_lt hnew), hshown⟩
      · rw [List.mem_singleton.1 hlast]
        exact ⟨Nat.one_le_of_lt hnew, Nat.le_refl _, hrecord⟩
    · intro number hlow hhigh
      change number ≤ fault.number at hhigh
      rcases Nat.lt_or_ge p.handled number with hpassed | hbefore
      · -- The fault is new: it is the one visited, or one of those in front of it.
        refine ⟨_, List.mem_append_right _ (List.mem_singleton_self _), ?_⟩
        rcases Nat.eq_or_lt_of_le hhigh with hsame | hover
        · exact .inl hsame.symm
        · refine .inr ⟨Nat.le_trans (Nat.le_of_eq hmissed) hpassed, hover, hmany.resolve_left ?_⟩
          intro hnone
          rw [hnone] at hmissed
          omega
      · obtain ⟨v, hv, hwhich⟩ := h.complete number hlow hbefore
        exact ⟨v, List.mem_append_left _ hv, hwhich⟩

theorem run_inOrder (steps : List LatchStep) : (run steps).InOrder := by
  induction steps using List.reverseRecOn with
  | nil => exact fresh_inOrder
  | append_singleton earlier s ih =>
    rw [run_snoc]
    cases s with
    | raise record => exact ih.raise record
    | handle => exact ih.handle

end Patrol

/-- **The latch shows a log of faults through a window of four**, in words of the machine as well as
in numbers, and a poll side that keeps handling what it is shown goes forward through the log. -/
theorem FaultLatch.shows_log (log : List FaultRecord) (handled : Nat)
    (hcount : log.length < UInt32.size) (hhandled : handled ≤ log.length) :
    (ofLog log).Shows log handled
      ∧ (WordLatch.ofLog log).pending? (UInt32.ofNat handled)
        = ((ofLog log).pending? handled).map Fault.inWords
      ∧ ∀ steps, (Patrol.run steps).InOrder := by
  have hlogs := ofLog_logs log
  refine ⟨hlogs.shows hhandled, ?_, Patrol.run_inOrder⟩
  rw [← inWords_ofLog]
  refine inWords_pending? (hlogs.raised ▸ hhandled) ?_
  rw [hlogs.unhandled]
  exact Nat.lt_of_le_of_lt (Nat.sub_le _ _) hcount

/-- Two more faults than there are slots, of every kind. -/
def sixFaults : List FaultRecord :=
  [⟨.truncated, 0, 8⟩, ⟨.line .noise, 20, 20⟩, ⟨.overflow, 20, 36⟩, ⟨.line .parity, 40, 41⟩,
    ⟨.line .overrun, 41, 41⟩, ⟨.line .framing, 50, 63⟩]

/-- The second and the third fault use the slots of the sixth and the seventh. Whoever handled the
first one only is led past the second, and whoever handled two still finds the third. -/
theorem sixFaults_shown :
    sixFaults.length < UInt32.size ∧ 1 ≤ sixFaults.length
      ∧ (FaultLatch.ofLog sixFaults).Shows sixFaults 1
      ∧ (FaultLatch.ofLog sixFaults).pending? 1 = some ⟨⟨.line .framing, 50, 63⟩, 6, 4⟩
      ∧ (WordLatch.ofLog sixFaults).pending? 1 = some ⟨⟨.line .framing, 50, 63⟩, 6, 4⟩
      ∧ (FaultLatch.ofLog sixFaults).pending? 2 = some ⟨⟨.overflow, 20, 36⟩, 3, 0⟩ := by
  obtain ⟨hshows, hwords, -⟩ := FaultLatch.shows_log sixFaults 1 (by decide) (by decide)
  have hlatest : (FaultLatch.ofLog sixFaults).pending? 1
      = some ⟨⟨.line .framing, 50, 63⟩, 6, 4⟩ := by decide
  refine ⟨by decide, by decide, hshows, hlatest, ?_, by decide⟩
  rw [hlatest] at hwords
  exact hwords

end MultidropBus
