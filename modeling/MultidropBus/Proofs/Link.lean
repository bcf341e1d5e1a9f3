import MultidropBus.Proofs.Receive.Delivery
import MultidropBus.Proofs.Receive.PollLoop
import MultidropBus.Proofs.Receive.WholeFrame
import MultidropBus.Proofs.Transmit.Draining

/-!
# From one station to another

A payload that one station sends is a frame that another one hands out. The sender writes the frame
with the mark on its first byte; the receiver, which may be in the middle of another frame, hears
the marked byte as an address and the others as data and completes exactly one frame; and its poll
loop hands out what was still in the ring, in order, and this frame last.
-/

namespace MultidropBus

open Segment

variable {size size' : RingSize} {depth : Nat} {destination source : Address} {payload : Bytes}

/-- What a receiver hears of a byte and its address mark. -/
def LineEvent.ofWritten (x : UInt8 × Bool) : LineEvent := .byte x.1 x.2

theorem ofWritten_markFirst (address : Address) (rest : Bytes) :
    (markFirst (address :: rest)).map LineEvent.ofWritten
      = .byte address true :: rest.map (.byte · false) := by
  rw [markFirst, List.map_cons, List.map_map]
  rfl

/-! ### The sender -/

namespace Bench

/-- The bench with an empty record. -/
def cleared (b : Bench size depth) : Bench size depth := { b with line := b.line.clearWritten }

/-- **An idle sender accepts the payload and writes its frame**, marked as it should be. -/
theorem send_drain {b : Bench size depth} (destination source : Address)
    (hidle : b.station.transmit.phase = .idle)
    (hlen : payload.length ≤ maxPayloadSize)
    (hlog : b.line.written.length + (headerSize + payload.length) ≤ recorderCapacity) :
    ∃ loaded sent : Bench size depth,
      b.transmit (·.send destination source payload) = .ok (.ok (), loaded)
        ∧ loaded.drain = .ok sent ∧ sent.station.transmit.phase = .idle
        ∧ sent.line.written
          = b.line.written ++ markFirst (Frame.wire destination source payload) := by
  have hwire := Frame.wire_length destination source payload
  have hmax : headerSize + payload.length ≤ maxFrameSize := Nat.add_le_add_left hlen headerSize
  have hne : Frame.wire destination source payload ≠ [] := fun hnil => by cases hnil
  obtain ⟨slot, hphase, hholds, hsend⟩ :=
    TransmitPath.sendFrame_fits hidle hne (hwire ▸ hmax)
  let loaded : Bench size depth := { b with
    station := { b.station with transmit := { b.station.transmit with slot := slot } }
    line := { b.line with requests := b.line.requests + 1 } }
  have hloaded : b.transmit (·.send destination source payload) = .ok (.ok (), loaded) := by
    rw [transmit]
    simp only [TransmitPath.send_eq_sendFrame hidle hlen, hsend]
    rfl
  obtain ⟨sent, hdrain, hdone, hwritten⟩ := drain_loaded (b := loaded) hphase hholds hne
    (hwire ▸ hmax) (hwire ▸ hlog)
  exact ⟨loaded, sent, hloaded, hdrain, hdone, hwritten⟩

end Bench

/-! ### The receiver -/

namespace Journal

variable {j : Journal size} {ahead : List Segment}

theorem hearAll_path (j : Journal size) (events : List LineEvent) :
    (j.hearAll events).path = (j.path.receiveAll events).1 := by
  induction events generalizing j with
  | nil => rfl
  | cons event rest ih => exact ih (j.hear event)

/-- A receiver hears these marked bytes: one frame is completed, and as many rounds of the poll loop
as it may take, or more, hand out the frames that were still in the ring and one with these
addresses and this payload behind them. The bus is idle then and the ring is empty. -/
structure Delivers (j : Journal size) (written : List (UInt8 × Bool))
    (destination source : Address) (payload : Bytes) : Prop where
  completed : (j.path.receiveAll (written.map .ofWritten)).1.counters.completed
    = j.path.counters.completed + 1
  served : ∃ last frame, Frame.parse last = .ok frame ∧ frame.destination = destination
    ∧ frame.source = source ∧ frame.payload = payload
    ∧ ∀ n, (j.path.receiveAll (written.map .ofWritten)).1.buffered
        + (j.path.receiveAll (written.map .ofWritten)).1.unhandled ≤ n →
      ∃ p, (j.path.receiveAll (written.map .ofWritten)).1.serveRounds n = (j.awaiting ++ [last], p)
        ∧ p.status = .idle ∧ p.buffered = 0

/-- The frame of a payload is heard as a whole frame, after at most one fault. -/
theorem Aligned.hear_wire (source : Address) (h : j.Aligned ahead)
    (hlen : payload.length ≤ maxPayloadSize)
    (hroom : j.path.buffered + (headerSize + payload.length) ≤ size.slots)
    (haccepts : j.path.identity.accepts destination = true) :
    ∃ cut, cut.countP isAbandoned ≤ 1 ∧ frames cut = []
      ∧ (j.hearAll ((markFirst (Frame.wire destination source payload)).map .ofWritten)).Aligned
        (ahead ++ cut ++ [.frame (Frame.wire destination source payload)])
      ∧ j.Received
        (j.hearAll ((markFirst (Frame.wire destination source payload)).map .ofWritten)) := by
  have hwire := Frame.wire_length destination source payload
  have hmax : headerSize + payload.length ≤ maxFrameSize := Nat.add_le_add_left hlen headerSize
  have hfits : headerSize + payload.length ≤ frameLimit size := Nat.le_min.2 ⟨by omega, hmax⟩
  obtain ⟨rest, hfirst⟩ :
      ∃ rest, Frame.wire destination source payload = destination :: rest := ⟨_, rfl⟩
  have hreadable := readable_wire destination source hlen hfits
  rw [← hwire] at hroom
  rw [hfirst] at hreadable hroom
  obtain ⟨cut, hcut, haligned, hreceived⟩ := h.hear_frame hreadable haccepts hroom
  rw [← ofWritten_markFirst, ← hfirst] at haligned hreceived
  rcases hcut with rfl | ⟨span, rfl⟩
  · exact ⟨_, Nat.zero_le _, rfl, haligned, hreceived⟩
  · exact ⟨_, Nat.le_refl _, rfl, haligned, hreceived⟩

theorem Aligned.delivers (h : j.Aligned ahead) (hrejected : j.rejected = [])
    (hfew : j.path.unhandled < faultSlots) (hlen : payload.length ≤ maxPayloadSize)
    (hroom : j.path.buffered + (headerSize + payload.length) ≤ size.slots)
    (haccepts : j.path.identity.accepts destination = true) :
    j.Delivers (markFirst (Frame.wire destination source payload)) destination source payload := by
  obtain ⟨cut, hone, hnone, haligned, hreceived⟩ := h.hear_wire source hlen hroom haccepts
  let k := j.hearAll ((markFirst (Frame.wire destination source payload)).map .ofWritten)
  have hpath : (j.path.receiveAll _).1 = k.path := (hearAll_path j _).symm
  have hempty : k.inFlight = [] := inFlight_of_filtering hreceived.filtering
  have hunhandled : k.path.unhandled ≤ faultSlots := by
    rw [haligned.unhandled, List.countP_append, List.countP_append, ← h.unhandled,
      List.countP_singleton]
    show j.path.unhandled + cut.countP isAbandoned + 0 ≤ faultSlots
    omega
  have hframes : frames (ahead ++ cut ++ [.frame (Frame.wire destination source payload)])
      = j.awaiting ++ [Frame.wire destination source payload] := by
    rw [frames_append, frames_append, hnone, h.awaiting_eq, List.append_nil]
    rfl
  constructor
  · rw [hpath]
    exact hreceived.completed
  · refine ⟨_, _, Frame.parse_wire _ _ hlen, rfl, rfl, rfl, ?_⟩
    intro n hn
    rw [hpath] at hn ⊢
    rw [← hframes]
    exact haligned.serveRounds (hreceived.rejected.trans hrejected) hempty hunhandled
      (Nat.le_trans (haligned.length_le hempty) hn)

end Journal

/-- **A payload sent is a payload handed out.** An idle sender accepts it and writes its frame, and
a receiver that rejected no header so far, has a fault record to spare and room for the frame
delivers it behind what it held, even if it was in the middle of another frame. -/
theorem link_delivers {identity : Identity} {steps : List ReceiveStep}
    (hdisciplined : Journal.Disciplined size identity steps)
    (hrejected : (Journal.run identity steps : Journal size).rejected = [])
    (hfew : (Journal.run identity steps : Journal size).path.unhandled < faultSlots)
    (hlen : payload.length ≤ maxPayloadSize)
    (hroom : (Journal.run identity steps : Journal size).path.buffered
      + (headerSize + payload.length) ≤ size.slots)
    (haccepts : identity.accepts destination = true)
    {b : Bench size' depth} (hidle : b.station.transmit.phase = .idle) :
    ∃ loaded sent : Bench size' depth,
      b.cleared.transmit (·.send destination source payload) = .ok (.ok (), loaded)
        ∧ loaded.drain = .ok sent ∧ sent.station.transmit.phase = .idle
        ∧ (Journal.run identity steps : Journal size).Delivers sent.line.written destination source
          payload := by
  have hlog : b.cleared.line.written.length + (headerSize + payload.length) ≤ recorderCapacity := by
    have hcapacity : headerSize + maxPayloadSize ≤ recorderCapacity := by decide
    show 0 + _ ≤ _
    omega
  obtain ⟨loaded, sent, hloaded, hdrain, hdone, hwritten⟩ :=
    Bench.send_drain (b := b.cleared) destination source hidle hlen hlog
  obtain ⟨ahead, h⟩ := Journal.run_aligned hdisciplined (Journal.no_coincidence hrejected)
  rw [← Journal.run_identity size identity steps] at haccepts
  refine ⟨loaded, sent, hloaded, hdrain, hdone, ?_⟩
  rw [hwritten]
  exact h.delivers hrejected hfew hlen hroom haccepts

/-- A frame that nobody took yet, and the first two bytes of another one. -/
def interruptedRun : List ReceiveStep :=
  [1, 4, 4, 255, 0, 0].zipIdx.map (fun x => .hear (.byte x.1 (x.2 == 0)))
    ++ [.hear (.byte 2 true), .hear (.byte 9 false)]

theorem interruptedRun_delivers :
    (Journal.run .busMaster interruptedRun : Journal ⟨4, by decide⟩).awaiting
        = [[1, 4, 4, 255, 0, 0]]
      ∧ ∃ loaded sent : Bench ⟨3, by decide⟩ defaultOutboxDepth,
        (⟨.blank .busMaster, .empty, {}⟩ : Bench ⟨3, by decide⟩ defaultOutboxDepth).cleared.transmit
            (·.send 5 0 [7, 7]) = .ok (.ok (), loaded)
          ∧ loaded.drain = .ok sent ∧ sent.station.transmit.phase = .idle
          ∧ (Journal.run .busMaster interruptedRun : Journal ⟨4, by decide⟩).Delivers
            sent.line.written 5 0 [7, 7] := by
  refine ⟨by decide +kernel, ?_⟩
  exact link_delivers (by decide +kernel) (by decide +kernel) (by decide +kernel) (by decide)
    (by decide +kernel) (by decide) rfl

end MultidropBus
