import MultidropBus.Board.Serial
import Mathlib.Data.List.TakeWhile

/-!
# What the driver reads off the registers

The serial interface shows one word at a time, and only through bits of its registers. Behind them
stands a queue, in which a word with anything left to deal with is *pending*. Each pending word
means one event, an error if it came with errors and a byte otherwise, and `readEvent` takes exactly
the first pending word off the queue. What it tells is the event of that word, unless the filter is
armed and the event is a data byte: then it tells nothing, and the words behind have to wait for the
next look.
-/

namespace MultidropBus

/-- Which of several errors is reported. -/
def ErrorFlags.reported? (e : ErrorFlags) : Option LineError :=
  if e.overrun then some .overrun
  else if e.framing then some .framing
  else if e.parity then some .parity
  else if e.noise then some .noise
  else .none

theorem ErrorFlags.isSome_reported? (e : ErrorFlags) : e.reported?.isSome = e.any := by
  cases e with | mk parity framing noise overrun =>
    cases parity <;> cases framing <;> cases noise <;> cases overrun <;> rfl

/-- What a word on its way in means to a receiver. -/
def Arrival.event? (a : Arrival) : Option LineEvent :=
  match a.errors.reported? with
  | some e => some (.error e)
  | none => if a.ready then some (.byte a.word.toUInt8 (hasBits a.word addressBit)) else none

/-- Exactly the pending words mean something. -/
theorem Arrival.isSome_event? (a : Arrival) : a.event?.isSome = a.isPending := by
  unfold Arrival.event? Arrival.isPending
  rw [← a.errors.isSome_reported?]
  cases a.errors.reported? with
  | some e => exact (Bool.or_true _).symm
  | none => cases a.ready <;> rfl

/-- Words that are not pending can be left out. -/
theorem Arrival.filterMap_pending (arrivals : List Arrival) :
    (arrivals.filter Arrival.isPending).filterMap Arrival.event?
      = arrivals.filterMap Arrival.event? := by
  rw [List.filterMap_filter]
  congr 1
  funext a
  have hmeans := a.isSome_event?
  cases hpending : a.isPending with
  | true => rfl
  | false =>
    rw [hpending] at hmeans
    exact (Option.isNone_iff_eq_none.mp (by simpa using hmeans)).symm

/-- The words that still have to be dealt with. -/
def Board.pending (b : Board) : List Arrival := b.arrivals.filter (·.isPending)

/-- Whether an event gets past the driver. -/
def SerialDriver.admits (d : SerialDriver) : LineEvent → Bool
  | .byte _ address => address || !d.filtering
  | .error _ => true

/-! ### The registers -/

/-- The line bits and the transmit flags share the status register and do not disturb each other. -/
theorem status_bits : ∀ parity framing noise overrun ready complete empty : Bool,
    let errors : ErrorFlags := ⟨parity, framing, noise, overrun⟩
    let status := errors.bits ||| bitIf ready readyBit
      ||| (bitIf complete completeBit ||| bitIf empty emptyBit)
    ErrorFlags.ofBits status = errors ∧ hasBits status readyBit = ready
      ∧ status &&& errorBits = errors.bits := by
  decide +kernel

/-- What the driver needs to know of a status register whose first word has the given errors. -/
structure Shows (status : UInt32) (errors : ErrorFlags) (ready : Bool) : Prop where
  error : lineErrorOf status = errors.reported?
  ready : hasBits status readyBit = ready
  errorBits : status &&& errorBits = errors.bits

theorem shows_bits (errors : ErrorFlags) (ready complete empty : Bool) :
    Shows (errors.bits ||| bitIf ready readyBit
      ||| (bitIf complete completeBit ||| bitIf empty emptyBit)) errors ready := by
  obtain ⟨herrors, hready, hmasked⟩ := status_bits errors.parity errors.framing errors.noise
    errors.overrun ready complete empty
  exact ⟨congrArg ErrorFlags.reported? herrors, hready, hmasked⟩

namespace Board

theorem length_pending_le (b : Board) : b.pending.length ≤ b.arrivals.length :=
  List.length_filter_le ..

/-- An empty queue shows neither an error nor a word. -/
theorem readStatus_nil {b : Board} (h : b.pending = []) :
    Shows b.readStatus.1 .none false ∧ b.readStatus.2 = { b with arrivals := [] } := by
  have hdropped : b.arrivals.dropWhile (!·.isPending) = [] :=
    List.dropWhile_eq_nil_iff.mpr fun a hmem => by
      simpa using List.filter_eq_nil_iff.mp h a hmem
  simp only [readStatus, hdropped, and_true]
  exact shows_bits .none false b.transmitComplete b.transmitEmpty

/-- Otherwise the first pending word is shown, with the words behind it in place. -/
theorem readStatus_cons {b : Board} {first : Arrival} {rest : List Arrival}
    (h : b.pending = first :: rest) :
    first.isPending = true ∧ Shows b.readStatus.1 first.errors first.ready
      ∧ ∃ behind, b.readStatus.2 = { b with arrivals := first :: behind }
        ∧ behind.filter (·.isPending) = rest := by
  obtain ⟨dealt, behind, hsplit, hdealt, hpending, hbehind⟩ := List.filter_eq_cons_iff.mp h
  have hdropped : b.arrivals.dropWhile (!·.isPending) = first :: behind := by
    rw [hsplit, List.dropWhile_append_of_pos (by simpa using hdealt)]
    exact List.dropWhile_cons_of_neg (by simp [hpending])
  simp only [readStatus, hdropped]
  exact ⟨hpending, shows_bits first.errors first.ready b.transmitComplete b.transmitEmpty,
    behind, rfl, hbehind⟩

/-- Looking at the status register takes nothing. -/
theorem pending_readStatus (b : Board) : b.readStatus.2.pending = b.pending := by
  cases h : b.pending with
  | nil => rw [(readStatus_nil h).2]; rfl
  | cons first rest =>
    obtain ⟨hpending, -, behind, hread, hbehind⟩ := readStatus_cons h
    rw [hread, ← hbehind]
    exact List.filter_cons_of_pos hpending

end Board

namespace SerialDriver

/-- With nothing pending there is no event. -/
theorem readEvent_nil (d : SerialDriver) {b : Board} (h : b.pending = []) :
    (d.readEvent b).1 = none ∧ (d.readEvent b).2.pending = [] := by
  obtain ⟨hshows, hread⟩ := Board.readStatus_nil h
  have hfaultless : lineErrorOf b.readStatus.1 = none := hshows.error
  simp only [readEvent, hfaultless, hshows.ready, hread]
  exact ⟨rfl, rfl⟩

/-- Otherwise the first pending word is taken off the queue, whether the driver tells its event or
not. -/
theorem readEvent_cons (d : SerialDriver) {b : Board} {first : Arrival} {rest : List Arrival}
    (h : b.pending = first :: rest) :
    ∃ event, first.event? = some event ∧ (d.readEvent b).2.pending = rest
      ∧ (d.readEvent b).1 = if d.admits event then some event else none := by
  obtain ⟨hpending, hshows, behind, hread, hbehind⟩ := Board.readStatus_cons h
  cases herror : first.errors.reported? with
  | some e =>
    refine ⟨.error e, by simp [Arrival.event?, herror], ?_,
      by simp [readEvent, hshows.error, herror, admits]⟩
    -- clearing the flags that the status register showed leaves none
    have htaken : (d.readEvent b).2.arrivals = { first with
        ready := false, errors := first.errors.clear first.errors.bits } :: behind := by
      cases hready : first.ready <;>
        simp [readEvent, hshows.error, herror, hshows.ready, hready, hshows.errorBits, hread,
          Board.readData, Board.writeClear, Board.record]
    rw [Board.pending, htaken, ErrorFlags.clear_bits, ← hbehind]
    exact List.filter_cons_of_neg Bool.false_ne_true
  | none =>
    have hfaultless : first.errors.any = false := by
      rw [← first.errors.isSome_reported?, herror]; rfl
    have hready : first.ready = true := by
      simpa [Arrival.isPending, hfaultless] using hpending
    have htaken : d.readEvent b
        = (if d.admits (.byte first.word.toUInt8 (hasBits first.word addressBit))
          then some (.byte first.word.toUInt8 (hasBits first.word addressBit)) else none,
          { b with arrivals := { first with ready := false } :: behind }) := by
      cases hfiltering : d.filtering <;> cases haddress : hasBits first.word addressBit <;>
        simp [readEvent, hshows.error, herror, hshows.ready, hready, hread, Board.readData, admits,
          hfiltering, haddress]
    refine ⟨.byte first.word.toUInt8 (hasBits first.word addressBit),
      by simp [Arrival.event?, herror, hready], ?_, by rw [htaken]⟩
    rw [htaken, Board.pending, ← hbehind]
    exact List.filter_cons_of_neg (by simp [Arrival.isPending, hfaultless])

/-- An event comes from the first pending word. -/
theorem readEvent_some {d : SerialDriver} {b board : Board} {event : LineEvent}
    (hlook : d.readEvent b = (some event, board)) :
    ∃ first, b.pending = first :: board.pending ∧ first.event? = some event := by
  cases h : b.pending with
  | nil =>
    have hquiet := (d.readEvent_nil h).1
    rw [hlook] at hquiet
    cases hquiet
  | cons first rest =>
    obtain ⟨meant, hmeans, hbehind, htold⟩ := d.readEvent_cons h
    rw [hlook] at hbehind htold
    split at htold
    case isTrue => cases htold; exact ⟨first, by rw [← hbehind], hmeans⟩
    case isFalse => cases htold

/-- Without an event there was no pending word, or the filter kept its event back. -/
theorem readEvent_none {d : SerialDriver} {b board : Board}
    (hlook : d.readEvent b = (none, board)) :
    b.pending = [] ∧ board.pending = []
      ∨ ∃ first event, b.pending = first :: board.pending ∧ first.event? = some event
          ∧ d.admits event = false := by
  cases h : b.pending with
  | nil =>
    have hempty := (d.readEvent_nil h).2
    rw [hlook] at hempty
    exact .inl ⟨rfl, hempty⟩
  | cons first rest =>
    obtain ⟨meant, hmeans, hbehind, htold⟩ := d.readEvent_cons h
    rw [hlook] at hbehind htold
    split at htold
    case isTrue => cases htold
    case isFalse hdropped =>
      exact .inr ⟨first, meant, by rw [← hbehind], hmeans, by simpa using hdropped⟩

/-- Looking for a transmit event takes nothing from the line. -/
theorem pending_pendingEvent (b : Board) : (pendingEvent b).2.pending = b.pending := by
  rw [← b.pending_readStatus]
  simp only [pendingEvent]
  repeat' split
  all_goals rfl

end SerialDriver

end MultidropBus
