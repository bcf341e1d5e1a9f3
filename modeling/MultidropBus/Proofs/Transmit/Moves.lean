import MultidropBus.Bench

/-!
# What is loaded and what the pump does with it

A slot *holds* a frame if it answers every index as the frame does. The bytes behind the end of the
frame, which may be those of a longer earlier one, are then never looked at. An offer is refused
without a trace, or the slot holds the frame afterwards and the interrupt is requested. A transmit
event that fits the phase is one of four moves on the bench, and any other event does nothing.
-/

namespace MultidropBus

/-- A frame as it goes over the line: only its first byte carries the address mark. -/
def markFirst : Bytes → List (UInt8 × Bool)
  | [] => []
  | first :: rest => (first, true) :: rest.map (·, false)

theorem markFirst_length (frame : Bytes) : (markFirst frame).length = frame.length := by
  cases frame with
  | nil => rfl
  | cons first rest => rw [markFirst, List.length_cons, List.length_map, List.length_cons]

/-- Behind the first byte nothing is marked. -/
theorem markFirst_take_succ {frame : Bytes} {n : Nat} {byte : UInt8} (hn : 0 < n)
    (hbyte : frame[n]? = some byte) :
    (markFirst frame).take (n + 1) = (markFirst frame).take n ++ [(byte, false)] := by
  cases frame with
  | nil => cases hbyte
  | cons first rest =>
    obtain ⟨n, rfl⟩ := Nat.exists_eq_add_of_le' hn
    rw [List.getElem?_cons_succ] at hbyte
    rw [markFirst, List.take_succ_cons, List.take_succ_cons, List.take_add_one, List.getElem?_map,
      hbyte]
    rfl

/-! ### The slot -/

namespace TransmitSlot

/-- The slot answers every index as the frame does. -/
def Holds (s : TransmitSlot) (frame : Bytes) : Prop := ∀ i, s.byte? i = frame[i]?

variable {s : TransmitSlot} {frame : Bytes}

theorem Holds.frame_eq (h : s.Holds frame) :
    s.frame = frame := by
  apply List.ext_getElem?
  intro i
  rw [← h i, TransmitSlot.frame, byte?, List.getElem?_take]
  by_cases hi : s.length ≤ i
  · rw [if_pos hi, if_neg (Nat.not_lt_of_le hi)]
  · rw [if_neg hi, if_pos (Nat.lt_of_not_le hi)]
    simp

/-- **Loading a frame covers the one before it**, whatever is left of that one in the slot. -/
theorem load_fits (hidle : s.phase = .idle) (hne : frame ≠ [])
    (hlen : frame.length ≤ maxFrameSize) :
    ∃ loaded : TransmitSlot, s.load frame = (.ok (), loaded) ∧ loaded.phase = .pending
      ∧ loaded.Holds frame := by
  rw [load, if_neg (not_not_intro hidle), if_neg (Nat.not_lt_of_le hlen), if_neg hne]
  refine ⟨_, rfl, rfl, ?_⟩
  intro i
  show (if frame.length ≤ i then none else
    (Vector.ofFn fun i : Fin maxFrameSize => frame.getD i s.bytes[i])[i]?) = frame[i]?
  by_cases hi : frame.length ≤ i
  · rw [if_pos hi, List.getElem?_eq_none hi]
  · have hslot : i < maxFrameSize := by omega
    have hframe : i < frame.length := Nat.lt_of_not_le hi
    rw [if_neg hi, List.getElem?_eq_getElem hframe]
    simp [hslot, hframe]

theorem load_refused (h : ¬ (s.phase = .idle ∧ frame ≠ [] ∧ frame.length ≤ maxFrameSize)) :
    ∃ e, s.load frame = (.error e, s) := by
  rw [load]
  by_cases hbusy : s.phase ≠ .idle
  · exact ⟨_, if_pos hbusy⟩
  rw [if_neg hbusy]
  by_cases hlong : maxFrameSize < frame.length
  · exact ⟨_, if_pos hlong⟩
  rw [if_neg hlong]
  by_cases hempty : frame = []
  · exact ⟨_, if_pos hempty⟩
  · exact absurd ⟨Decidable.not_not.1 hbusy, hempty, Nat.le_of_not_lt hlong⟩ h

end TransmitSlot

/-! ### Offers -/

namespace TransmitPath

/-- What becomes of the offer of a frame: it is refused without a trace, or it waits in the slot and
the interrupt is requested. -/
inductive Offer (p : TransmitPath) (frame : Bytes) : SendOutcome → Prop
  | refused (e : SendError) : Offer p frame ⟨.error e, p, []⟩
  | loaded {slot : TransmitSlot} (hidle : p.phase = .idle) (hne : frame ≠ [])
      (hphase : slot.phase = .pending) (hholds : slot.Holds frame) :
      Offer p frame ⟨.ok (), { p with slot := slot }, [.requestInterrupt]⟩

variable {p : TransmitPath} {frame payload : Bytes} {destination source : Address}

theorem sendFrame_fits (hidle : p.phase = .idle) (hne : frame ≠ [])
    (hlen : frame.length ≤ maxFrameSize) :
    ∃ slot : TransmitSlot, slot.phase = .pending ∧ slot.Holds frame
      ∧ p.sendFrame frame = ⟨.ok (), { p with slot := slot }, [.requestInterrupt]⟩ := by
  obtain ⟨slot, hload, hphase, hholds⟩ := TransmitSlot.load_fits hidle hne hlen
  refine ⟨slot, hphase, hholds, ?_⟩
  rw [sendFrame, hload]

theorem sendFrame_offer (p : TransmitPath) (frame : Bytes) : p.Offer frame (p.sendFrame frame) := by
  by_cases h : p.slot.phase = .idle ∧ frame ≠ [] ∧ frame.length ≤ maxFrameSize
  · obtain ⟨slot, hphase, hholds, hsend⟩ := sendFrame_fits h.1 h.2.1 h.2.2
    rw [hsend]
    exact .loaded h.1 h.2.1 hphase hholds
  · obtain ⟨e, hload⟩ := TransmitSlot.load_refused h
    rw [sendFrame, hload]
    exact .refused e

/-- An idle transmitter encodes a payload that a frame can hold and offers the frame. -/
theorem send_eq_sendFrame (hidle : p.phase = .idle) (hlen : payload.length ≤ maxPayloadSize) :
    p.send destination source payload
      = p.sendFrame (Frame.wire destination source payload) := by
  have hfree : p.isTransmitting = false := by rw [isTransmitting, hidle]; rfl
  have hroom : ¬ (List.replicate maxFrameSize (0 : UInt8)).length
      < headerSize + payload.length := by
    rw [List.length_replicate]
    exact Nat.not_lt_of_le (Nat.add_le_add_left hlen headerSize)
  have hwire := Frame.wire_length destination source payload
  rw [send, hfree, Frame.encodeInto, if_neg (Nat.not_lt_of_le hlen), if_neg hroom]
  show p.sendFrame ((overwrite _ _).take _) = _
  rw [overwrite_of_le _ _ (by omega), List.take_append_of_le_length (by omega),
    List.take_of_length_le (by omega)]

theorem send_offer (p : TransmitPath) (destination source : Address) (payload : Bytes) :
    p.Offer (Frame.wire destination source payload) (p.send destination source payload) := by
  by_cases hidle : p.phase = .idle
  · by_cases hlen : payload.length ≤ maxPayloadSize
    · rw [send_eq_sendFrame hidle hlen]
      exact p.sendFrame_offer _
    · have hfree : p.isTransmitting = false := by rw [isTransmitting, hidle]; rfl
      rw [send, hfree, Frame.encodeInto, if_pos (Nat.lt_of_not_le hlen)]
      exact .refused _
  · have hbusy : p.isTransmitting = true := by simp [isTransmitting, hidle]
    rw [send, if_pos hbusy]
    exact .refused _

end TransmitPath

/-! ### The moves of the pump -/

/-- Whether an event makes the pump do something in a phase. -/
def TransmitEvent.fits : TransmitEvent → TransmitPhase → Bool
  | .kick, .pending => true
  | .bufferEmpty, .pending => true
  | .bufferEmpty, .sending => true
  | .complete, .draining => true
  | _, _ => false

theorem TransmitPath.pump_of_not_fits {p : TransmitPath} {event : TransmitEvent}
    (h : event.fits p.phase = false) : p.pump event = (p, []) := by
  simp only [pump]
  generalize p.phase = phase at h
  cases phase <;> cases event <;> first | rfl | cases h

/-- What an event makes of a transmit path, and what it asks for. -/
inductive TransmitPath.Pumped (p : TransmitPath) (event : TransmitEvent) :
    TransmitPath × List TransmitAction → Prop
  | stray (hstray : event.fits p.phase = false) : Pumped p event (p, [])
  | void (hphase : p.phase = .pending) (hevent : event ≠ .complete)
    (hfirst : p.slot.byte? 0 = none) : Pumped p event (p.setPhase .idle, [])
  | started {first : UInt8} (hphase : p.phase = .pending) (hevent : event ≠ .complete)
    (hfirst : p.slot.byte? 0 = some first) :
    Pumped p event ({ p with cursor := 1 }.setPhase .sending,
      [.drive (DriverEnable.assertedLevel p.activeLow), .markAddress, .write first,
        .listen .bufferEmpty])
  | wrote {byte : UInt8} (hphase : p.phase = .sending) (hevent : event = .bufferEmpty)
    (hbyte : p.slot.byte? p.cursor = some byte) :
    Pumped p event ({ p with cursor := p.cursor + 1 }, [.write byte])
  | turned (hphase : p.phase = .sending) (hevent : event = .bufferEmpty)
    (hend : p.slot.byte? p.cursor = none) :
    Pumped p event (p.setPhase .draining, [.unlisten .bufferEmpty, .listen .complete])
  | finished (hphase : p.phase = .draining) (hevent : event = .complete) :
    Pumped p event ({ p with sent := p.sent + 1 }.setPhase .idle,
      [.unlisten .complete, .drive (DriverEnable.releasedLevel p.activeLow)])

theorem TransmitPath.pump_pumped (p : TransmitPath) (event : TransmitEvent) :
    p.Pumped event (p.pump event) := by
  have hstart (hphase : p.phase = .pending) (hevent : event ≠ .complete) :
      p.Pumped event p.start := by
    rw [start]
    cases hfirst : p.slot.byte? 0 with
    | none => exact .void hphase hevent hfirst
    | some first => exact .started hphase hevent hfirst
  have hnext (hphase : p.phase = .sending) (hevent : event = .bufferEmpty) :
      p.Pumped event p.next := by
    rw [next]
    cases hbyte : p.slot.byte? p.cursor with
    | none => exact .turned hphase hevent hbyte
    | some byte => exact .wrote hphase hevent hbyte
  by_cases hfits : event.fits p.phase = false
  case pos =>
    rw [pump_of_not_fits hfits]
    exact .stray hfits
  cases hphase : p.phase with
  | idle => exact absurd (by rw [hphase]; cases event <;> rfl) hfits
  | pending =>
    cases event with
    | kick => simp only [pump, hphase]; exact hstart hphase (by decide)
    | bufferEmpty => simp only [pump, hphase]; exact hstart hphase (by decide)
    | complete => exact absurd (by rw [hphase]; rfl) hfits
  | sending =>
    cases event with
    | bufferEmpty => simp only [pump, hphase]; exact hnext hphase rfl
    | kick => exact absurd (by rw [hphase]; rfl) hfits
    | complete => exact absurd (by rw [hphase]; rfl) hfits
  | draining =>
    cases event with
    | complete => simp only [pump, hphase]; exact .finished hphase rfl
    | kick => exact absurd (by rw [hphase]; rfl) hfits
    | bufferEmpty => exact absurd (by rw [hphase]; rfl) hfits

/-- The pump puts nothing into the slot. -/
theorem TransmitPath.pump_slot (p : TransmitPath) (event : TransmitEvent) :
    (p.pump event).1.slot.bytes = p.slot.bytes ∧ (p.pump event).1.slot.length = p.slot.length
      ∧ ((p.pump event).1.phase = .pending → p.phase = .pending) := by
  have hpumped := p.pump_pumped event
  generalize p.pump event = pumped at hpumped
  cases hpumped with
  | stray => exact ⟨rfl, rfl, id⟩
  | void hphase => exact ⟨rfl, rfl, fun _ => hphase⟩
  | started hphase => exact ⟨rfl, rfl, fun _ => hphase⟩
  | wrote => exact ⟨rfl, rfl, id⟩
  | turned => exact ⟨rfl, rfl, nofun⟩
  | finished => exact ⟨rfl, rfl, nofun⟩

namespace Bench

variable {size : RingSize} {depth : Nat} {b : Bench size depth} {frame : Bytes}
  {event : TransmitEvent}

/-- The bench once a frame waits in the slot. -/
def load (b : Bench size depth) (slot : TransmitSlot) : Bench size depth :=
  { b with
    station := { b.station with transmit := { b.station.transmit with slot := slot } }
    line := { b.line with requests := b.line.requests + 1 } }

/-- An offer leaves the bench as it is, or the frame waits in the slot. -/
theorem transmit_cases {send : TransmitPath → SendOutcome}
    (h : b.station.transmit.Offer frame (send b.station.transmit)) :
    (∃ e, b.transmit send = .ok (.error e, b))
      ∨ b.station.transmit.phase = .idle ∧ frame ≠ [] ∧ ∃ slot : TransmitSlot,
        slot.phase = .pending ∧ slot.Holds frame ∧ b.transmit send = .ok (.ok (), b.load slot) := by
  generalize houtcome : send b.station.transmit = outcome at h
  rw [transmit]
  cases h with
  | refused e =>
    simp only [houtcome]
    exact .inl ⟨e, rfl⟩
  | loaded hidle hne hphase hholds =>
    simp only [houtcome]
    exact .inr ⟨hidle, hne, _, hphase, hholds, rfl⟩

/-- A transmit event changes the transmitter and the line only. -/
theorem pump_ok {b' : Bench size depth} (h : b.pump event = .ok b') :
    ∃ line, b.line.performAll (b.station.transmit.pump event).2 = .ok line
      ∧ b' = { b with
          station := { b.station with transmit := (b.station.transmit.pump event).1 }
          line := line } := by
  rw [pump] at h
  cases hline : b.line.performAll (b.station.transmit.pump event).2 with
  | error e =>
    rw [hline] at h
    cases h
  | ok line =>
    rw [hline] at h
    exact ⟨line, rfl, (Except.ok.inj h).symm⟩

/-- The bench once the line is driven and the first byte is written. -/
def startFrame (b : Bench size depth) (first : UInt8) : Bench size depth :=
  let p := b.station.transmit
  { b with
    station := { b.station with transmit := { p with cursor := 1 }.setPhase .sending }
    line := { b.line.drive (DriverEnable.assertedLevel p.activeLow) with
      nextIsAddress := false
      written := b.line.written ++ [(first, true)]
      listensBufferEmpty := true } }

/-- The bench once the next byte is written. -/
def writeNext (b : Bench size depth) (byte : UInt8) : Bench size depth :=
  let p := b.station.transmit
  { b with
    station := { b.station with transmit := { p with cursor := p.cursor + 1 } }
    line := { b.line with
      nextIsAddress := false
      written := b.line.written ++ [(byte, b.line.nextIsAddress)] } }

/-- The bench once all bytes are written and the end is awaited. -/
def awaitEnd (b : Bench size depth) : Bench size depth :=
  { b with
    station := { b.station with transmit := b.station.transmit.setPhase .draining }
    line := { b.line with listensBufferEmpty := false, listensComplete := true } }

/-- The bench once the line is released. -/
def endFrame (b : Bench size depth) : Bench size depth :=
  let p := b.station.transmit
  { b with
    station := { b.station with transmit := { p with sent := p.sent + 1 }.setPhase .idle }
    line := { b.line with listensComplete := false }.drive
      (DriverEnable.releasedLevel p.activeLow) }

theorem pump_start (hphase : b.station.transmit.phase = .pending) (hevent : event ≠ .complete)
    {first : UInt8} (hfirst : b.station.transmit.slot.byte? 0 = some first) :
    b.pump event = if b.line.written.length < recorderCapacity then .ok (b.startFrame first)
      else .error ⟨first, true⟩ := by
  have hpump : b.station.transmit.pump event = b.station.transmit.start := by
    cases event with
    | bufferEmpty => simp only [TransmitPath.pump, hphase]
    | kick => simp only [TransmitPath.pump, hphase]
    | complete => exact absurd rfl hevent
  rw [pump, hpump, TransmitPath.start, hfirst]
  simp only [LineRecorder.performAll, LineRecorder.perform, LineRecorder.write, LineRecorder.drive]
  by_cases hroom : b.line.written.length < recorderCapacity
  · rw [if_pos hroom, if_pos hroom]
    rfl
  · rw [if_neg hroom, if_neg hroom]
    rfl

theorem pump_next (hphase : b.station.transmit.phase = .sending) {byte : UInt8}
    (hbyte : b.station.transmit.slot.byte? b.station.transmit.cursor = some byte) :
    b.pump .bufferEmpty = if b.line.written.length < recorderCapacity then .ok (b.writeNext byte)
      else .error ⟨byte, b.line.nextIsAddress⟩ := by
  have hpump : b.station.transmit.pump .bufferEmpty = b.station.transmit.next := by
    simp only [TransmitPath.pump, hphase]
  rw [pump, hpump, TransmitPath.next, hbyte]
  simp only [LineRecorder.performAll, LineRecorder.perform, LineRecorder.write]
  by_cases hroom : b.line.written.length < recorderCapacity
  · rw [if_pos hroom, if_pos hroom]
    rfl
  · rw [if_neg hroom, if_neg hroom]
    rfl

theorem pump_turn (hphase : b.station.transmit.phase = .sending)
    (hend : b.station.transmit.slot.byte? b.station.transmit.cursor = none) :
    b.pump .bufferEmpty = .ok b.awaitEnd := by
  have hpump : b.station.transmit.pump .bufferEmpty = b.station.transmit.next := by
    simp only [TransmitPath.pump, hphase]
  rw [pump, hpump, TransmitPath.next, hend]
  rfl

theorem pump_finish (hphase : b.station.transmit.phase = .draining) :
    b.pump .complete = .ok b.endFrame := by
  have hpump : b.station.transmit.pump .complete = b.station.transmit.finish := by
    simp only [TransmitPath.pump, hphase]
  rw [pump, hpump]
  rfl

theorem pump_stray (hstray : event.fits b.station.transmit.phase = false) :
    b.pump event = .ok b := by
  rw [pump, TransmitPath.pump_of_not_fits hstray]
  rfl

end Bench

end MultidropBus
