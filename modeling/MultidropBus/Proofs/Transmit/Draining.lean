import MultidropBus.Proofs.Transmit.Moves

/-!
# A loaded frame goes out whole

A bench that only reports a free register for as long as the station listens for it, and then the
end of the last byte, takes the loaded frame through all its phases: `Bench.drain` writes exactly
the frame, with the mark on its first byte, and leaves the transmitter idle.
-/

namespace MultidropBus

namespace Bench

variable {size : RingSize} {depth : Nat} {b : Bench size depth}

theorem feed_of_unlistened (h : b.line.listensBufferEmpty = false) (room : Nat) :
    b.feed room = .ok b := by
  cases room with
  | zero => rfl
  | succ room => rw [feed, h]; rfl

theorem feed_succ (hlistens : b.line.listensBufferEmpty = true)
    (hphase : b.station.transmit.phase = .sending) (room : Nat) :
    b.feed (room + 1) = (b.pump .bufferEmpty).bind (·.feed room) := by
  have hbusy : b.station.transmit.isTransmitting = true := by
    rw [TransmitPath.isTransmitting, hphase]
    rfl
  rw [feed, hlistens, hbusy]
  rfl

/-- **What is left of a frame goes out unmarked**, by induction on the bytes that are left. -/
theorem feed_rest {frame rest : Bytes} {room : Nat} (hphase : b.station.transmit.phase = .sending)
    (hlistens : b.line.listensBufferEmpty = true) (hunmarked : b.line.nextIsAddress = false)
    (hholds : b.station.transmit.slot.Holds frame)
    (hrest : frame.drop b.station.transmit.cursor = rest) (hroom : rest.length ≤ room)
    (hlog : b.line.written.length + rest.length ≤ recorderCapacity) :
    ∃ b', b.feed (room + 1) = .ok b' ∧ b'.station.transmit.phase = .draining
      ∧ b'.line.written = b.line.written ++ rest.map (·, false) := by
  -- The slot answers the pump with the first byte that is left, or that there is none.
  have hslot := hholds b.station.transmit.cursor
  rw [← List.head?_drop, hrest] at hslot
  rw [feed_succ hlistens hphase]
  induction rest generalizing b room with
  | nil =>
    rw [pump_turn hphase hslot]
    exact ⟨b.awaitEnd, feed_of_unlistened rfl room, rfl, (List.append_nil _).symm⟩
  | cons byte rest ih =>
    rw [List.length_cons] at hroom hlog
    obtain ⟨room, rfl⟩ := Nat.exists_eq_add_of_le' (Nat.le_trans (Nat.le_add_left 1 _) hroom)
    have hnext : frame.drop (b.station.transmit.cursor + 1) = rest := by
      rw [← List.drop_drop, hrest]
      rfl
    have hslot' := hholds (b.station.transmit.cursor + 1)
    rw [← List.head?_drop, hnext] at hslot'
    have hlog' : (b.writeNext byte).line.written.length + rest.length ≤ recorderCapacity := by
      show (b.line.written ++ [(byte, b.line.nextIsAddress)]).length + rest.length ≤ _
      rw [List.length_append, List.length_singleton]
      omega
    obtain ⟨b', hfeed, hdraining, hwritten⟩ := ih (b := b.writeNext byte) hphase hlistens rfl hholds
      hnext (Nat.le_of_succ_le_succ hroom) hlog' hslot'
    refine ⟨b', ?_, hdraining, ?_⟩
    · rw [pump_next hphase hslot, if_pos (by omega)]
      exact (feed_succ (b := b.writeNext byte) hlistens hphase room).trans hfeed
    · rw [hwritten]
      show (b.line.written ++ [(byte, b.line.nextIsAddress)]) ++ _ = _
      rw [hunmarked, List.append_assoc]
      rfl

/-- **A loaded frame is written whole**, and the transmitter is idle behind it. -/
theorem drain_loaded {frame : Bytes} (hphase : b.station.transmit.phase = .pending)
    (hholds : b.station.transmit.slot.Holds frame) (hne : frame ≠ [])
    (hlen : frame.length ≤ maxFrameSize)
    (hlog : b.line.written.length + frame.length ≤ recorderCapacity) :
    ∃ b', b.drain = .ok b' ∧ b'.station.transmit.phase = .idle
      ∧ b'.line.written = b.line.written ++ markFirst frame := by
  cases frame with
  | nil => exact absurd rfl hne
  | cons first rest =>
    rw [List.length_cons] at hlen hlog
    have hstart : b.pump .kick = .ok (b.startFrame first) := by
      rw [pump_start hphase (by simp) (hholds 0), if_pos (by omega)]
    have hrest : (first :: rest).drop (b.startFrame first).station.transmit.cursor = rest := rfl
    have hlog' : (b.startFrame first).line.written.length + rest.length ≤ recorderCapacity := by
      show (b.line.written ++ [(first, true)]).length + rest.length ≤ _
      rw [List.length_append, List.length_singleton]
      omega
    obtain ⟨b', hfeed, hdraining, hwritten⟩ := feed_rest (b := b.startFrame first) rfl rfl rfl
      hholds hrest (Nat.le_of_succ_le hlen) hlog'
    refine ⟨b'.endFrame, ?_, rfl, ?_⟩
    · simp only [drain, hstart, bind, Except.bind, hfeed]
      exact pump_finish hdraining
    · show b'.line.written = _
      rw [hwritten]
      exact List.append_assoc _ _ _

end Bench

end MultidropBus
