import MultidropBus.Proofs.Node.Moves
import MultidropBus.Proofs.Transmit.Session

/-!
# The board does what a recording line notes down

The transmitter asks for actions, and the serial driver carries them out on the registers. A
recording line, if nothing bounds its log, writes the same actions down. Where the registers mirror
the record before an action they mirror it afterwards (`Mirrors.perform`), so all that a session on
a recording line shows of its record can be read off the registers. The session may go on for ever:
the capacity of the log plays no part in what keeps it in step (`InStep.pumped`).
-/

namespace MultidropBus

/-! ### Bits of a register value -/

theorem union_and (a b mask : UInt32) : (a ||| b) &&& mask = a &&& mask ||| b &&& mask :=
  UInt32.toBitVec_inj.1 BitVec.and_or_distrib_right

theorem hasBits_eq_false_iff {value bits : UInt32} :
    hasBits value bits = false ↔ value &&& bits = 0 := by
  simp [hasBits]

/-- Bits that a value does not have come from what is added to it. -/
theorem hasBits_or_of_eq_false {a bits : UInt32} (h : hasBits a bits = false) (b : UInt32) :
    hasBits (a ||| b) bits = hasBits b bits := by
  rw [hasBits, union_and, hasBits_eq_false_iff.1 h, UInt32.zero_or, hasBits]

theorem hasBits_union_eq_false {value a b : UInt32} :
    hasBits value (a ||| b) = false ↔ hasBits value a = false ∧ hasBits value b = false := by
  rw [hasBits_eq_false_iff, hasBits_eq_false_iff, hasBits_eq_false_iff, UInt32.and_comm, union_and,
    UInt32.or_eq_zero_iff, UInt32.and_comm a, UInt32.and_comm b]

/-- Clearing bits that are clear changes nothing. -/
theorem and_not_of_hasBits_eq_false {value bits : UInt32} (h : hasBits value bits = false) :
    value &&& ~~~bits = value := by
  calc value &&& ~~~bits
      = bits &&& value ||| ~~~bits &&& value := by
        rw [UInt32.and_comm bits, hasBits_eq_false_iff.1 h, UInt32.zero_or, UInt32.and_comm]
    _ = value := by rw [← union_and, UInt32.or_not_self, UInt32.neg_one_and]

namespace LineRecorder

/-- Carries out an action by writing it down, however long the log is. -/
def note (r : LineRecorder) : TransmitAction → LineRecorder
  | .markAddress => { r with nextIsAddress := true }
  | .write byte =>
    { r with nextIsAddress := false, written := r.written ++ [(byte, r.nextIsAddress)] }
  | .listen source => r.setListening true source
  | .unlisten source => r.setListening false source
  | .drive high => r.drive high
  | .requestInterrupt => { r with requests := r.requests + 1 }

def noteAll (r : LineRecorder) (actions : List TransmitAction) : LineRecorder :=
  actions.foldl note r

/-- The enable bits of the transmit interrupts that are listened to. -/
def enableBits (r : LineRecorder) : UInt32 :=
  bitIf r.listensBufferEmpty emptyInterruptBit ||| bitIf r.listensComplete completeInterruptBit

section Control

variable {control : UInt32} (hquiet : hasBits control transmitInterruptBits = false)

include hquiet

theorem hasBits_empty (r : LineRecorder) :
    hasBits (control ||| r.enableBits) emptyInterruptBit = r.listensBufferEmpty := by
  rw [hasBits_or_of_eq_false (hasBits_union_eq_false.1 hquiet).1, enableBits]
  cases r.listensBufferEmpty <;> cases r.listensComplete <;> rfl

theorem hasBits_complete (r : LineRecorder) :
    hasBits (control ||| r.enableBits) completeInterruptBit = r.listensComplete := by
  rw [hasBits_or_of_eq_false (hasBits_union_eq_false.1 hquiet).2, enableBits]
  cases r.listensBufferEmpty <;> cases r.listensComplete <;> rfl

theorem enableBits_unlisten (r : LineRecorder) (source : TransmitInterrupt) :
    control ||| (r.setListening false source).enableBits
      = (control ||| r.enableBits) &&& ~~~source.enableBit := by
  obtain ⟨hempty, hcomplete⟩ := hasBits_union_eq_false.1 hquiet
  have hkept : control &&& ~~~source.enableBit = control := by
    cases source with
    | bufferEmpty => exact and_not_of_hasBits_eq_false hempty
    | complete => exact and_not_of_hasBits_eq_false hcomplete
  have hbits : (r.setListening false source).enableBits
      = r.enableBits &&& ~~~source.enableBit := by
    simp only [enableBits]
    cases source <;> simp only [setListening] <;>
      cases r.listensBufferEmpty <;> cases r.listensComplete <;> rfl
  rw [union_and, hkept, hbits]

end Control

theorem enableBits_listen (r : LineRecorder) (source : TransmitInterrupt) :
    (r.setListening true source).enableBits = r.enableBits ||| source.enableBit := by
  simp only [enableBits]
  cases source <;> simp only [setListening] <;>
    cases r.listensBufferEmpty <;> cases r.listensComplete <;> rfl

theorem others_enableBits (r : LineRecorder) (control : UInt32) :
    (control ||| r.enableBits) &&& ~~~transmitInterruptBits
      = control &&& ~~~transmitInterruptBits := by
  have hnone : r.enableBits &&& ~~~transmitInterruptBits = 0 := by
    rw [enableBits]
    cases r.listensBufferEmpty <;> cases r.listensComplete <;> rfl
  rw [union_and, hnone, UInt32.or_zero]

/-- The registers and the pin show what the record says. The words in `before` were transmitted
before the record began, and the first control register then held `control`. What it holds later is
told if neither transmit interrupt was enabled by then. -/
structure Mirrors (r : LineRecorder) (before : List UInt32) (control : UInt32) (d : SerialDriver)
    (b : Board) : Prop where
  mark : d.nextIsAddress = r.nextIsAddress
  transmitted : b.transmitted = before ++ r.written.map lineWord
  enables : hasBits control transmitInterruptBits = false → b.control1 = control ||| r.enableBits
  pin : b.driveHigh = r.driveHigh

variable {r : LineRecorder} {before : List UInt32} {control : UInt32} {d d' : SerialDriver}
  {b b' : Board}

/-- Only what the transmitter set counts, but for the requests. -/
theorem Mirrors.congr (h : r.Mirrors before control d b) {requests : Nat}
    (hmark : d'.nextIsAddress = d.nextIsAddress)
    (hout : b'.outputs = { b.outputs with requests := requests }) :
    r.Mirrors before control d' b' where
  mark := hmark.trans h.mark
  transmitted := (congrArg Outputs.transmitted hout).trans h.transmitted
  enables hquiet := (congrArg Outputs.control1 hout).trans (h.enables hquiet)
  pin := (congrArg Outputs.driveHigh hout).trans h.pin

theorem Mirrors.perform (h : r.Mirrors before control d b) (action : TransmitAction) :
    (r.note action).Mirrors before control (d.perform b action).1 (d.perform b action).2 := by
  cases action with
  | markAddress => exact ⟨rfl, h.transmitted, h.enables, h.pin⟩
  | requestInterrupt => exact ⟨h.mark, h.transmitted, h.enables, h.pin⟩
  | drive high =>
    have hwords := (congrArg Outputs.transmitted (b.outputs_drive high)).trans h.transmitted
    exact ⟨h.mark, hwords, h.enables, rfl⟩
  | listen source =>
    have hbits (hquiet : hasBits control transmitInterruptBits = false) :
        b.control1 ||| source.enableBit
          = control ||| (r.setListening true source).enableBits := by
      rw [h.enables hquiet, enableBits_listen, UInt32.or_assoc]
    have hout := b.outputs_writeControl1 (b.control1 ||| source.enableBit)
    have hwords := (congrArg Outputs.transmitted hout).trans h.transmitted
    cases source <;> exact ⟨h.mark, hwords, hbits, h.pin⟩
  | unlisten source =>
    have hbits (hquiet : hasBits control transmitInterruptBits = false) :
        b.control1 &&& ~~~source.enableBit
          = control ||| (r.setListening false source).enableBits := by
      rw [h.enables hquiet, enableBits_unlisten hquiet]
    have hout := b.outputs_writeControl1 (b.control1 &&& ~~~source.enableBit)
    have hwords := (congrArg Outputs.transmitted hout).trans h.transmitted
    cases source <;> exact ⟨h.mark, hwords, hbits, h.pin⟩
  | write byte =>
    have hword : (b.writeData (lineWord (byte, d.nextIsAddress))).transmitted
        = b.transmitted ++ [lineWord (byte, d.nextIsAddress)] :=
      congrArg Outputs.transmitted (b.outputs_writeData _)
    refine ⟨rfl, hword.trans ?_, h.enables, h.pin⟩
    rw [h.transmitted, h.mark, List.append_assoc, ← List.map_singleton, ← List.map_append]
    rfl

theorem Mirrors.performAll (h : r.Mirrors before control d b) (actions : List TransmitAction) :
    (r.noteAll actions).Mirrors before control (d.performAll b actions).1
      (d.performAll b actions).2 := by
  induction actions generalizing r d b with
  | nil => exact h
  | cons action rest ih => exact ih (h.perform action)

end LineRecorder

/-! ### Sessions without a bound -/

namespace Session

variable {size : RingSize} {depth : Nat} {t : Session size depth} {activeLow : Bool}
  {done : List Bytes}

/-- The session after a transmit event, with room in the log for whatever is written. -/
def pumped (t : Session size depth) (event : TransmitEvent) : Session size depth :=
  { t with bench := { t.bench with
    station := { t.bench.station with transmit := (t.path.pump event).1 }
    line := t.bench.line.noteAll (t.path.pump event).2 } }

theorem Progress.pending_inv (h : t.Progress done) (hphase : t.phase = .pending) :
    ∃ frame, frame ≠ [] ∧ t.path.slot.Holds frame ∧ t.accepted = done ++ [frame]
      ∧ t.written = done.flatMap markFirst := by
  cases h with
  | pending _ hne hholds haccepted hwritten => exact ⟨_, hne, hholds, haccepted, hwritten⟩
  | idle hother => rw [hphase] at hother; cases hother
  | sending hother => rw [hphase] at hother; cases hother
  | draining hother => rw [hphase] at hother; cases hother

theorem Progress.sending_inv (h : t.Progress done) (hphase : t.phase = .sending) :
    ∃ frame, 0 < t.path.cursor ∧ t.path.cursor ≤ frame.length ∧ t.path.slot.Holds frame
      ∧ t.accepted = done ++ [frame]
      ∧ t.written = done.flatMap markFirst ++ (markFirst frame).take t.path.cursor := by
  cases h with
  | sending _ hpos hle hholds haccepted hwritten =>
    exact ⟨_, hpos, hle, hholds, haccepted, hwritten⟩
  | idle hother => rw [hphase] at hother; cases hother
  | pending hother => rw [hphase] at hother; cases hother
  | draining hother => rw [hphase] at hother; cases hother

theorem Progress.draining_inv (h : t.Progress done) (hphase : t.phase = .draining) :
    ∃ frame, t.accepted = done ++ [frame]
      ∧ t.written = (done ++ [frame]).flatMap markFirst := by
  cases h with
  | draining _ haccepted hwritten => exact ⟨_, haccepted, hwritten⟩
  | idle hother => rw [hphase] at hother; cases hother
  | pending hother => rw [hphase] at hother; cases hother
  | sending hother => rw [hphase] at hother; cases hother

/-- **Every transmit event keeps the session in step**, also those that find the log of a recording
line full. -/
theorem InStep.pumped (h : t.InStep activeLow done) (event : TransmitEvent) :
    ∃ done', (t.pumped event).InStep activeLow done' := by
  have hpumped := t.path.pump_pumped event
  rw [Session.pumped]
  generalize t.path.pump event = pumped at hpumped
  cases hpumped with
  | stray hstray => exact ⟨done, h⟩
  | void hphase hevent hnone =>
    obtain ⟨frame, hne, hholds, -⟩ := h.progress.pending_inv hphase
    rw [hholds, List.getElem?_eq_none_iff] at hnone
    exact absurd (List.length_eq_zero_iff.1 (Nat.le_zero.1 hnone)) hne
  | @started first hphase hevent hfirst =>
    obtain ⟨frame, hne, hholds, haccepted, hwritten⟩ := h.progress.pending_inv hphase
    obtain ⟨head, rest, rfl⟩ := List.exists_cons_of_ne_nil hne
    obtain rfl : head = first := Option.some.inj ((hholds 0).symm.trans hfirst)
    exact ⟨done, h.started hholds haccepted hwritten hphase⟩
  | wrote hphase hevent hbyte =>
    obtain ⟨frame, hpos, -, hholds, haccepted, hwritten⟩ := h.progress.sending_inv hphase
    exact ⟨done, h.wrote hpos ((hholds _).symm.trans hbyte) hholds haccepted hwritten hphase⟩
  | turned hphase hevent hend =>
    obtain ⟨frame, hpos, hle, hholds, haccepted, hwritten⟩ := h.progress.sending_inv hphase
    rw [hholds, List.getElem?_eq_none_iff] at hend
    exact ⟨done, h.turned (Nat.le_antisymm hle hend) haccepted hwritten hphase⟩
  | finished hphase =>
    obtain ⟨frame, haccepted, hwritten⟩ := h.progress.draining_inv hphase
    exact ⟨_, h.finished haccepted hwritten hphase⟩

end Session

end MultidropBus
