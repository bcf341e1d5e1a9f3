import MultidropBus.Fault

/-!
# The fault latch as a window on a log

The latch keeps four records and a count, but what it says is best told of the list of all faults
ever raised: a latch *logs* that list if its count is the length and the last four records are those
of the list. Raising a fault appends to the list. A poll side at most four faults behind is given
the first record that it has not handled, and one further behind is given the last of all.
-/

namespace MultidropBus

namespace FaultLatch

/-- The latch has taken in these records, oldest first, and still has the last four. -/
structure Logs (l : FaultLatch) (log : List FaultRecord) : Prop where
  raised : l.raised = log.length
  kept : ∀ i record, log[i]? = some record → log.length ≤ i + faultSlots →
    l.records[slot (i + 1)] = record

variable {l : FaultLatch} {log : List FaultRecord}

theorem empty_logs : empty.Logs [] where
  raised := rfl
  kept := by simp

/-- Any latch could have been left by some faults: those of which it still has a record, preceded by
as many others as it counts. -/
theorem exists_logs (l : FaultLatch) : ∃ log, l.Logs log := by
  refine ⟨(List.range l.raised).map fun i => l.records[slot (i + 1)], ?_, ?_⟩
  · rw [List.length_map, List.length_range]
  · intro i record hrecord _
    rw [List.getElem?_map, Option.map_eq_some_iff] at hrecord
    obtain ⟨n, hn, rfl⟩ := hrecord
    obtain ⟨hlt, hget⟩ := List.getElem?_eq_some_iff.1 hn
    rw [← hget, List.getElem_range]

/-- A record is overwritten by the fourth one after it, and by none before. -/
theorem slot_ne {i n : Nat} (h : i < n) (hn : n < i + faultSlots) :
    slot (i + 1) ≠ slot (n + 1) := by
  intro hsame
  have hsame := congrArg Fin.val hsame
  simp only [slot, faultSlots] at hsame hn
  omega

theorem Logs.raise (h : l.Logs log) (record : FaultRecord) :
    (l.raise record).Logs (log ++ [record]) where
  raised := by simp [FaultLatch.raise, h.raised]
  kept := by
    intro i found hfound hrecent
    rw [List.length_append, List.length_singleton] at hrecent
    simp only [FaultLatch.raise, h.raised, Fin.getElem_fin, Vector.getElem_set]
    rcases Nat.lt_or_ge i log.length with holder | hlast
    · rw [List.getElem?_append_left holder] at hfound
      have hslot := slot_ne holder (by omega)
      rw [if_neg fun hsame => hslot (Fin.ext hsame.symm)]
      exact h.kept i found hfound (by omega)
    · have hi : i < (log ++ [record]).length := (List.getElem?_eq_some_iff.1 hfound).1
      rw [List.length_append, List.length_singleton] at hi
      obtain rfl : i = log.length := by omega
      rw [List.getElem?_concat_length] at hfound
      rw [if_pos rfl]
      exact Option.some.inj hfound

/-! ### What the poll side is given -/

theorem Logs.unhandled (h : l.Logs log) (handled : Nat) :
    l.unhandled handled = log.length - handled := by
  rw [FaultLatch.unhandled, h.raised]

theorem Logs.pending?_eq_none (h : l.Logs log) {handled : Nat} (hall : log.length ≤ handled) :
    l.pending? handled = none :=
  (pending?_eq_none_iff l handled).2 (h.raised ▸ hall)

/-- A poll side that keeps up is given the oldest fault that it has not handled. -/
theorem Logs.pending?_oldest (h : l.Logs log) {handled : Nat} {record : FaultRecord}
    (hnext : log[handled]? = some record) (hrecent : log.length ≤ handled + faultSlots) :
    l.pending? handled = some ⟨record, handled + 1, 0⟩ := by
  have hlt : handled < log.length := (List.getElem?_eq_some_iff.1 hnext).1
  simp only [pending?, h.unhandled]
  rw [if_neg (by omega), if_neg (by omega), h.kept handled record hnext hrecent]

/-- A poll side that fell too far behind is given the latest fault. -/
theorem Logs.pending?_latest {older : List FaultRecord} {record : FaultRecord} {handled : Nat}
    (h : l.Logs (older ++ [record])) (hbehind : handled + faultSlots < older.length + 1) :
    l.pending? handled = some ⟨record, older.length + 1, older.length - handled⟩ := by
  have hlast : l.records[slot (older.length + 1)] = record :=
    h.kept older.length record (by simp) (by simp [faultSlots])
  have hraised : l.raised = older.length + 1 := by simpa using h.raised
  simp only [pending?, h.unhandled, List.length_append, List.length_singleton, hraised, hlast]
  rw [if_neg (by omega), if_pos (by omega)]
  simp only [Option.some.injEq, Fault.mk.injEq, true_and]
  omega

/-- Whatever the poll side is given, it is a fault that it has not handled, and the number tells
which. -/
theorem Logs.of_pending? (h : l.Logs log) {handled : Nat} {fault : Fault}
    (hpending : l.pending? handled = some fault) :
    ∃ i, log[i]? = some fault.record ∧ handled ≤ i ∧ fault.number = i + 1
      ∧ (fault.missed = 0 ∧ i = handled ∨ 0 < fault.missed ∧ i + 1 = log.length) := by
  rcases Nat.lt_or_ge handled log.length with hsome | hall
  · rcases Nat.lt_or_ge (handled + faultSlots) log.length with hbehind | hrecent
    · rcases List.eq_nil_or_concat log with rfl | ⟨older, record, rfl⟩
      · cases hsome
      · rw [List.concat_eq_append] at h hbehind ⊢
        rw [List.length_append, List.length_singleton] at hbehind
        rw [h.pending?_latest hbehind] at hpending
        cases hpending
        have hslots : 0 < faultSlots := by decide
        refine ⟨older.length, List.getElem?_concat_length, by omega, rfl, .inr ⟨?_, by simp⟩⟩
        show 0 < older.length - handled
        omega
    · have hnext := List.getElem?_eq_getElem hsome
      rw [h.pending?_oldest hnext hrecent] at hpending
      cases hpending
      exact ⟨handled, hnext, Nat.le_refl _, rfl, .inl ⟨rfl, rfl⟩⟩
  · rw [h.pending?_eq_none hall] at hpending
    cases hpending

/-- A poll side with at most four faults before it handles them one by one. -/
theorem number_of_pending {l : FaultLatch} {handled : Nat} {fault : Fault}
    (hfew : l.unhandled handled ≤ faultSlots) (hpending : l.pending? handled = some fault) :
    fault.number = handled + 1 := by
  rw [pending?] at hpending
  simp only [Nat.not_lt_of_le hfew, if_false] at hpending
  split at hpending
  · cases hpending
  · cases hpending
    rfl

theorem lt_number {l : FaultLatch} {handled : Nat} {fault : Fault}
    (hpending : l.pending? handled = some fault) : handled < fault.number := by
  have hraised : handled < l.raised := by
    refine Nat.lt_of_not_le fun hall => ?_
    rw [(pending?_eq_none_iff l handled).2 hall] at hpending
    cases hpending
  simp only [pending?] at hpending
  split at hpending
  · cases hpending
  · split at hpending <;> cases hpending
    · exact hraised
    · exact Nat.lt_succ_self handled

/-! ### What was raised meanwhile -/

/-- The records of the faults that were raised from one state of the latch to a later one, provided
that none among them was overwritten. -/
def recordsSince (before after : FaultLatch) : List FaultRecord :=
  (List.range (after.raised - before.raised)).map fun i =>
    after.records[slot (before.raised + i + 1)]

/-- The kinds of the faults that were raised from one state of the latch to a later one, provided
that no record among them was overwritten. -/
def raisedSince (before after : FaultLatch) : List FaultKind :=
  (List.range (after.raised - before.raised)).map fun i =>
    after.records[slot (before.raised + i + 1)].kind

theorem raisedSince_eq (before after : FaultLatch) :
    before.raisedSince after = (before.recordsSince after).map FaultRecord.kind := by
  rw [raisedSince, recordsSince, List.map_map]
  rfl

theorem Logs.recordsSince {before after : FaultLatch} {new : List FaultRecord}
    (hbefore : before.Logs log) (hafter : after.Logs (log ++ new))
    (hfew : new.length ≤ faultSlots) : before.recordsSince after = new := by
  have hcount : after.raised - before.raised = new.length := by
    rw [hbefore.raised, hafter.raised, List.length_append]
    omega
  rw [FaultLatch.recordsSince, hcount]
  apply List.ext_getElem
  · simp
  · intro i _ hi
    have hrecord : (log ++ new)[log.length + i]? = some new[i] := by
      rw [List.getElem?_append_right (by omega), Nat.add_sub_cancel_left,
        List.getElem?_eq_getElem hi]
    simp only [List.getElem_map, List.getElem_range, hbefore.raised]
    exact hafter.kept _ _ hrecord (by rw [List.length_append]; omega)

theorem Logs.raisedSince {before after : FaultLatch} {new : List FaultRecord}
    (hbefore : before.Logs log) (hafter : after.Logs (log ++ new))
    (hfew : new.length ≤ faultSlots) : before.raisedSince after = new.map FaultRecord.kind := by
  rw [raisedSince_eq, hbefore.recordsSince hafter hfew]

end FaultLatch

end MultidropBus
