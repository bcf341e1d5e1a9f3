import Mathlib.Data.List.Infix
import MultidropBus.Proofs.Receive.FaultWindow
import MultidropBus.Proofs.Receive.Reading
import MultidropBus.Receive.Polling

/-!
# A journal of the receive path

An observer follows a receive path through a run and keeps a journal of it. The observer sees the
events of the line, the answers of the poll operations, the counters, the count and records of the
fault latch, and the two cursors of the ring; everything else in the journal is worked out from
these, by comparing the path before and after each step.

* The *receiver log* `received` has one entry for each frame that was counted as complete, with the
  bytes heard since its address byte, and one for each fault raised.
* The *poll log* `polled` has one entry for each frame retired, with the bytes that a copy made just
  before would hold, and one for each fault that a recovery answered.
* The *surviving log* is the receiver log less what the poll side lost by falling more than four
  faults behind: a recovery from there drops the entries not yet reported that are older than the
  latest fault.
-/

namespace MultidropBus

/-- What either side of a receive path may do next. -/
inductive ReceiveStep
  /-- The receiver hears an event of the line. -/
  | hear (event : LineEvent)
  | retire
  | skip
  | recover
deriving DecidableEq, Repr

/-- What the receiver has to report, and what the poll side comes to know. -/
inductive Delivery
  | frame (bytes : Bytes)
  | fault (kind : FaultKind)
deriving DecidableEq, Repr

def Delivery.isFault : Delivery → Bool
  | .frame _ => false
  | .fault _ => true

/-- The entries of a log from its latest fault on. -/
def sinceLatestFault : List Delivery → List Delivery
  | [] => []
  | entry :: rest => if rest.any Delivery.isFault then sinceLatestFault rest else entry :: rest

theorem sinceLatestFault_append {kind : FaultKind} (before : List Delivery) {after : List Delivery}
    (h : ∀ entry ∈ after, entry.isFault = false) :
    sinceLatestFault (before ++ .fault kind :: after) = .fault kind :: after := by
  induction before with
  | nil =>
    have hnone : after.any Delivery.isFault = false :=
      List.any_eq_false.2 fun entry hentry => Bool.not_eq_true _ ▸ h entry hentry
    rw [List.nil_append, sinceLatestFault, hnone]
    rfl
  | cons entry rest ih =>
    rw [List.cons_append, sinceLatestFault, if_pos, ih]
    simp [Delivery.isFault]

namespace LineEvent

/-- The byte that an event may put into the ring. -/
def bytes : LineEvent → Bytes
  | .byte data _ => [data]
  | .error _ => []

/-- The bytes heard since the last address byte, once the event is heard too. -/
def extend (heard : Bytes) : LineEvent → Bytes
  | .byte data true => [data]
  | .byte data false => heard ++ [data]
  | .error _ => heard

end LineEvent

/-- How many faults were raised and not yet handled. -/
def ReceivePath.unhandled {size : RingSize} (p : ReceivePath size) : Nat :=
  p.faults.unhandled p.poll.handled

/-- A machine that keeps the latch and the number of the last fault handled in words is shown the
same fault. -/
def ReceivePath.WordsAgree {size : RingSize} (p : ReceivePath size) : Prop :=
  p.faults.inWords.pending? (UInt32.ofNat p.poll.handled) = p.pendingFault?.map Fault.inWords

/-- A receive path, and what an observer noted down about it. -/
structure Journal (size : RingSize) where
  path : ReceivePath size
  /-- The bytes heard since the last address byte, that one included. -/
  heard : Bytes
  /-- Every byte that went into the ring, in order. -/
  stored : Bytes
  /-- How many of the stored bytes have left the ring. -/
  taken : Nat
  /-- Where in the stored bytes the rejected headers begin. -/
  rejected : List Nat
  /-- The receiver log, each entry with the number of bytes stored by then. -/
  received : List (Nat × Delivery)
  /-- The poll log. -/
  polled : List Delivery
  /-- The surviving log. -/
  surviving : List Delivery

namespace Journal

variable {size : RingSize}

def fresh (identity : Identity) : Journal size :=
  ⟨.fresh identity, [], [], 0, [], [], [], []⟩

/-- Notes down an event of the line. -/
def hear (j : Journal size) (event : LineEvent) : Journal size :=
  let after := (j.path.receive event).1
  let heard := event.extend j.heard
  let stored :=
    if after.ring.write = j.path.ring.write then j.stored else j.stored ++ event.bytes
  let faults := (j.path.faults.raisedSince after.faults).map fun kind =>
    (j.stored.length, Delivery.fault kind)
  let frames :=
    if after.counters.completed = j.path.counters.completed then []
    else [(stored.length, Delivery.frame heard)]
  { j with
    path := after
    heard := heard
    stored := stored
    rejected :=
      if after.counters.rejected = j.path.counters.rejected then j.rejected
      else j.rejected ++ [stored.length - headerSize]
    received := j.received ++ (faults ++ frames)
    surviving := j.surviving ++ (faults ++ frames).map Prod.snd }

/-- Notes down a poll operation and what it made known. -/
def poll (j : Journal size) (after : ReceivePath size) (known : List Delivery) : Journal size :=
  { j with
    path := after
    taken := j.taken + (after.ring.read - j.path.ring.read).toNat
    polled := j.polled ++ known }

def retire (j : Journal size) : Journal size :=
  let done := j.path.retire
  j.poll done.2 (if done.1 then [.frame (j.path.copyFrame?.getD [])] else [])

def skip (j : Journal size) : Journal size := j.poll j.path.skip.2 []

def recover (j : Journal size) : Journal size :=
  match j.path.recover with
  | (none, after) => j.poll after []
  | (some kind, after) =>
    { j.poll after [.fault kind] with
      surviving :=
        if faultSlots < j.path.unhandled then
          j.polled ++ sinceLatestFault (j.surviving.drop j.polled.length)
        else j.surviving }

def step (j : Journal size) : ReceiveStep → Journal size
  | .hear event => j.hear event
  | .retire => j.retire
  | .skip => j.skip
  | .recover => j.recover

/-- The journal of a run that starts with empty buffers. -/
def run (identity : Identity) (steps : List ReceiveStep) : Journal size :=
  steps.foldl step (fresh identity)

/-- Bytes are skipped only while the bus shows a bad header. -/
def Disciplined (size : RingSize) (identity : Identity) (steps : List ReceiveStep) : Prop :=
  ∀ earlier, earlier ++ [.skip] <+: steps →
    (run identity earlier : Journal size).path.status = .headerMismatch

/-- The poll side never falls more than four faults behind. -/
def KeepsUp (size : RingSize) (identity : Identity) (steps : List ReceiveStep) : Prop :=
  ∀ earlier, earlier <+: steps →
    (run identity earlier : Journal size).path.unhandled ≤ faultSlots

/-- There are never more unhandled faults than a word can count. -/
def KeepsCount (size : RingSize) (identity : Identity) (steps : List ReceiveStep) : Prop :=
  ∀ earlier, earlier <+: steps →
    (run identity earlier : Journal size).path.unhandled < UInt32.size

/-- Inside a rejected header, behind its first byte, six stored bytes in a row happen to be an
acceptable header. -/
def Coincidence (j : Journal size) : Prop :=
  ∃ start ∈ j.rejected, ∃ offset < headerSize, 1 ≤ offset
    ∧ (acceptableHeader? size ((j.stored.drop (start + offset)).take headerSize)).isSome

instance {identity : Identity} {steps : List ReceiveStep} :
    Decidable (Disciplined size identity steps) :=
  decidable_of_iff (∀ earlier ∈ steps.inits, earlier ++ [.skip] <+: steps →
      (run identity earlier : Journal size).path.status = .headerMismatch) <| by
    simp only [Disciplined, List.mem_inits]
    exact ⟨fun h earlier hskip => h earlier ((List.prefix_append _ _).trans hskip) hskip,
      fun h earlier _ => h earlier⟩

instance {identity : Identity} {steps : List ReceiveStep} :
    Decidable (KeepsUp size identity steps) :=
  decidable_of_iff (∀ earlier ∈ steps.inits,
      (run identity earlier : Journal size).path.unhandled ≤ faultSlots) <| by
    simp only [KeepsUp, List.mem_inits]

instance {identity : Identity} {steps : List ReceiveStep} :
    Decidable (KeepsCount size identity steps) :=
  decidable_of_iff (∀ earlier ∈ steps.inits,
      (run identity earlier : Journal size).path.unhandled < UInt32.size) <| by
    simp only [KeepsCount, List.mem_inits]

instance (j : Journal size) : Decidable j.Coincidence := by
  unfold Coincidence
  infer_instance

theorem run_snoc (identity : Identity) (steps : List ReceiveStep) (s : ReceiveStep) :
    (run identity (steps ++ [s]) : Journal size) = (run identity steps).step s := by
  rw [run, List.foldl_append]
  rfl

theorem Disciplined.of_prefix {identity : Identity} {earlier steps : List ReceiveStep}
    (h : Disciplined size identity steps) (hpre : earlier <+: steps) :
    Disciplined size identity earlier :=
  fun first hfirst => h first (hfirst.trans hpre)

theorem KeepsUp.of_prefix {identity : Identity} {earlier steps : List ReceiveStep}
    (h : KeepsUp size identity steps) (hpre : earlier <+: steps) : KeepsUp size identity earlier :=
  fun first hfirst => h first (hfirst.trans hpre)

/-! ### What no step changes -/

theorem recover_path (j : Journal size) : j.recover.path = j.path.recover.2 := by
  simp only [recover]
  cases j.path.recover with
  | mk kind after => cases kind <;> rfl

/-- The receiver leaves alone what is not its own. -/
theorem store_keeps (p : ReceivePath size) (f : InFlight) (byte : UInt8) :
    (p.store f byte).1.identity = p.identity ∧ (p.store f byte).1.poll = p.poll := by
  rw [ReceivePath.store]
  cases p.ring.push? byte with
  | none => exact ⟨rfl, rfl⟩
  | some ring =>
    cases f.track size byte with
    | more frame => exact ⟨rfl, rfl⟩
    | complete => exact ⟨rfl, rfl⟩
    | rejected => exact ⟨rfl, rfl⟩

theorem acceptAddress_keeps (p : ReceivePath size) (address : Address) :
    (p.acceptAddress address).1.identity = p.identity
      ∧ (p.acceptAddress address).1.poll = p.poll := by
  rw [ReceivePath.acceptAddress]
  split
  · exact store_keeps _ _ _
  · exact ⟨rfl, rfl⟩

theorem receive_keeps (p : ReceivePath size) (event : LineEvent) :
    (p.receive event).1.identity = p.identity ∧ (p.receive event).1.poll = p.poll := by
  cases event with
  | error e => exact ⟨rfl, rfl⟩
  | byte data address =>
    cases address with
    | true =>
      show (p.receiveAddress data).1.identity = _ ∧ (p.receiveAddress data).1.poll = _
      rw [ReceivePath.receiveAddress]
      cases p.state with
      | filtering => exact acceptAddress_keeps p data
      | receiving f => exact acceptAddress_keeps (p.fault .truncated).1 data
    | false =>
      show (p.receiveData data).1.identity = _ ∧ (p.receiveData data).1.poll = _
      rw [ReceivePath.receiveData]
      cases p.state with
      | filtering => exact ⟨rfl, rfl⟩
      | receiving f => exact store_keeps p f data

theorem step_identity (j : Journal size) (s : ReceiveStep) :
    (j.step s).path.identity = j.path.identity := by
  cases s with
  | hear event => exact (receive_keeps j.path event).1
  | retire =>
    show j.path.retire.2.identity = _
    rw [ReceivePath.retire]
    cases j.path.completeHeader? <;> rfl
  | skip =>
    show j.path.skip.2.identity = _
    simp only [ReceivePath.skip]
    split <;> rfl
  | recover =>
    show j.recover.path.identity = _
    rw [recover_path, ReceivePath.recover]
    split
    · rfl
    · cases j.path.pendingFault? <;> rfl

theorem run_identity (size : RingSize) (identity : Identity) (steps : List ReceiveStep) :
    (run identity steps : Journal size).path.identity = identity := by
  suffices h : ∀ j : Journal size, (steps.foldl step j).path.identity = j.path.identity from h _
  induction steps with
  | nil => exact fun _ => rfl
  | cons s rest ih => exact fun j => (ih (j.step s)).trans (step_identity j s)

/-! ### What a journal never takes back -/

theorem hear_stored (j : Journal size) (event : LineEvent) :
    j.stored <+: (j.hear event).stored := by
  simp only [hear]
  split
  · exact List.prefix_refl _
  · exact List.prefix_append _ _

/-- The receiver adds the same entries to both logs, each noted by the number of bytes stored. -/
theorem hear_logs (j : Journal size) (event : LineEvent) :
    ∃ new, (j.hear event).received = j.received ++ new
      ∧ (j.hear event).surviving = j.surviving ++ new.map Prod.snd
      ∧ ∀ x ∈ new, j.stored.length ≤ x.1 := by
  refine ⟨_, rfl, rfl, ?_⟩
  intro x hx
  rcases List.mem_append.1 hx with hfault | hframe
  · obtain ⟨kind, -, rfl⟩ := List.mem_map.1 hfault
    exact Nat.le_refl _
  · split at hframe
    · cases hframe
    · rw [List.mem_singleton.1 hframe]
      exact (hear_stored j event).length_le

theorem hear_rejected (j : Journal size) (event : LineEvent) :
    j.rejected ⊆ (j.hear event).rejected := by
  simp only [hear]
  split
  · exact fun _ h => h
  · exact List.subset_append_left _ _

theorem recover_stored (j : Journal size) :
    j.recover.stored = j.stored ∧ j.recover.rejected = j.rejected := by
  simp only [recover]
  split <;> exact ⟨rfl, rfl⟩

theorem step_extends (j : Journal size) (s : ReceiveStep) :
    j.stored <+: (j.step s).stored ∧ j.rejected ⊆ (j.step s).rejected := by
  cases s with
  | hear event => exact ⟨hear_stored j event, hear_rejected j event⟩
  | retire => exact ⟨List.prefix_refl _, fun _ h => h⟩
  | skip => exact ⟨List.prefix_refl _, fun _ h => h⟩
  | recover =>
    rw [step, (recover_stored j).1, (recover_stored j).2]
    exact ⟨List.prefix_refl _, fun _ h => h⟩

/-- A coincidence stays one. -/
theorem Coincidence.step {j : Journal size} (h : j.Coincidence) (s : ReceiveStep) :
    (j.step s).Coincidence := by
  obtain ⟨start, hstart, offset, hhigh, hlow, hsome⟩ := h
  obtain ⟨⟨more, hmore⟩, hrejected⟩ := step_extends j s
  refine ⟨start, hrejected hstart, offset, hhigh, hlow, ?_⟩
  rw [acceptableHeader?_take size _ (Nat.le_refl _)] at hsome ⊢
  obtain ⟨header, hheader⟩ := Option.isSome_iff_exists.1 hsome
  have hlong := (acceptableHeader?_fits hheader).1
  rw [List.length_drop] at hlong
  have hdrop : (j.step s).stored.drop (start + offset)
      = j.stored.drop (start + offset) ++ more := by
    rw [← hmore, List.drop_append_of_le_length (by omega)]
  rw [hdrop, acceptableHeader?_append size _ more (by rw [List.length_drop]; omega)]
  exact hsome

end Journal

end MultidropBus
