import MultidropBus.Proofs.Receive.Taking

/-!
# A frame that comes in whole

A frame written for a payload reads as the beginning of one up to its last byte, and as a whole
frame with it. A receiver with room for it therefore finishes exactly one segment, and that segment
is the frame, whether it was waiting for a frame or in the middle of another one; in the latter case
the other one is cut short first.
-/

namespace MultidropBus

open Segment

/-! ### Reading a written frame -/

namespace Frame

variable {payload : Bytes}

theorem acceptableHeader?_wire (size : RingSize) (destination source : Address)
    (hlen : payload.length ≤ maxPayloadSize)
    (hfits : headerSize + payload.length ≤ frameLimit size) :
    acceptableHeader? size (wire destination source payload)
      = some (.announce destination source (UInt16.ofNat payload.length)) := by
  have hannounced := announce_frameLength destination source hlen
  rw [acceptableHeader?, wire, Header.validate_announce]
  exact if_pos (decide_eq_true (hannounced ▸ hfits))

theorem ofBytes_wire (size : RingSize) (destination source : Address)
    (hlen : payload.length ≤ maxPayloadSize)
    (hfits : headerSize + payload.length ≤ frameLimit size) :
    Detection.ofBytes size (wire destination source payload)
      = .complete (.announce destination source (UInt16.ofNat payload.length)) := by
  refine Detection.ofBytes_complete_iff.2
    ⟨acceptableHeader?_wire size destination source hlen hfits, ?_⟩
  rw [announce_frameLength destination source hlen, wire_length]

/-- Less than all of a written frame is the beginning of one. -/
theorem ofBytes_wire_take (size : RingSize) (destination source : Address)
    (hlen : payload.length ≤ maxPayloadSize)
    (hfits : headerSize + payload.length ≤ frameLimit size) {n : Nat}
    (hn : n < headerSize + payload.length) :
    Detection.ofBytes size ((wire destination source payload).take n) = .idle := by
  have hshort : ((wire destination source payload).take n).length = n := by
    rw [List.length_take, wire_length, Nat.min_eq_left (Nat.le_of_lt hn)]
  rcases Nat.lt_or_ge n headerSize with hfew | hmany
  · exact Detection.ofBytes_idle_iff.2 (.inl (hshort.symm ▸ hfew))
  · refine Detection.ofBytes_idle_iff.2
      (.inr ⟨.announce destination source (UInt16.ofNat payload.length), ?_, ?_⟩)
    · rw [acceptableHeader?_take size _ hmany]
      exact acceptableHeader?_wire size destination source hlen hfits
    · rw [hshort, announce_frameLength destination source hlen]
      exact hn

end Frame

/-! ### Hearing it -/

namespace Journal

variable {size : RingSize} {j : Journal size} {ahead : List Segment} {frame : Bytes}

/-- A frame that a receiver of this size takes for nothing but itself. -/
structure Readable (size : RingSize) (frame : Bytes) : Prop where
  beginning : ∀ n < frame.length, Detection.ofBytes size (frame.take n) = .idle
  whole : ∃ header, Detection.ofBytes size frame = .complete header

theorem readable_wire (destination source : Address) {payload : Bytes}
    (hlen : payload.length ≤ maxPayloadSize)
    (hfits : headerSize + payload.length ≤ frameLimit size) :
    Readable size (Frame.wire destination source payload) where
  beginning := by
    intro n hn
    rw [Frame.wire_length] at hn
    exact Frame.ofBytes_wire_take size destination source hlen hfits hn
  whole := ⟨_, Frame.ofBytes_wire size destination source hlen hfits⟩

def hearAll (j : Journal size) (events : List LineEvent) : Journal size := events.foldl hear j

/-- One frame more is complete and the receiver waits for the next. -/
structure Received (j k : Journal size) : Prop where
  filtering : k.path.state = .filtering
  completed : k.path.counters.completed = j.path.counters.completed + 1
  rejected : k.rejected = j.rejected

theorem push?_of_room {r : Ring size} (h : r.occupancy < size.slots) (byte : UInt8) :
    ∃ ring, r.push? byte = some ring ∧ ring.occupancy = r.occupancy + 1 := by
  cases hpush : r.push? byte with
  | none => exact absurd ((Ring.push?_eq_none_iff r byte).1 hpush) (Nat.not_le_of_lt h)
  | some ring => exact ⟨ring, rfl, (Ring.push?_occupancy hpush).1⟩

/-- The receiver is still in the same frame, and these bytes of it came in. -/
structure Continued (j k : Journal size) (bytes : Bytes) : Prop where
  receiving : ∃ f, k.path.state = .receiving f
  heard : k.heard = j.heard ++ bytes
  buffered : k.path.buffered = j.path.buffered + bytes.length
  completed : k.path.counters.completed = j.path.counters.completed
  rejected : k.rejected = j.rejected

/-- **A frame goes on** as long as what was heard of it is the beginning of one, by induction on the
bytes that come in. -/
theorem Aligned.hear_beginning (h : j.Aligned ahead) {f : InFlight}
    (hstate : j.path.state = .receiving f) {bytes : Bytes}
    (hidle : ∀ n ≤ bytes.length, Detection.ofBytes size (j.heard ++ bytes.take n) = .idle)
    (hroom : j.path.buffered + bytes.length ≤ size.slots) :
    (j.hearAll (bytes.map (.byte · false))).Aligned ahead
      ∧ j.Continued (j.hearAll (bytes.map (.byte · false))) bytes := by
  induction bytes generalizing j f with
  | nil => exact ⟨h, ⟨f, hstate⟩, (List.append_nil _).symm, rfl, rfl, rfl⟩
  | cons byte rest ih =>
    rw [List.length_cons] at hroom hidle
    obtain ⟨ring, hpush, hoccupancy⟩ := push?_of_room (r := j.path.ring)
      (show j.path.buffered < size.slots by omega) byte
    have hone : Detection.ofBytes size (j.heard ++ [byte]) = .idle := hidle 1 (by omega)
    let k := j.grow ring byte (.receiving (.ofBytes size
      (UInt64.ofNat (j.stored.length - j.heard.length)) (j.heard ++ [byte]))) j.path.counters
    have hgrow : j.hear (.byte byte false) = k := by
      rw [Journal.hear_data h.tracks hstate byte, hpush]
      simp only [hone]
      rfl
    have hbuffered : k.path.buffered = j.path.buffered + 1 := hoccupancy
    have hlater : ∀ n ≤ rest.length,
        Detection.ofBytes size (k.heard ++ rest.take n) = .idle := by
      intro n hn
      have hnext := hidle (n + 1) (by omega)
      rwa [List.take_succ_cons, List.append_cons] at hnext
    obtain ⟨haligned, hcontinued⟩ :=
      ih (j := k) (h.grow hstate hpush hone _) rfl hlater (by omega)
    have hall : j.hearAll ((byte :: rest).map (.byte · false))
        = k.hearAll (rest.map (.byte · false)) := by
      rw [← hgrow]
      rfl
    rw [hall]
    refine ⟨haligned, hcontinued.receiving, ?_, ?_, hcontinued.completed, hcontinued.rejected⟩
    · rw [hcontinued.heard]
      exact (List.append_cons _ _ _).symm
    · rw [hcontinued.buffered, hbuffered, List.length_cons]
      omega

/-- **The rest of a frame comes in**: up to its last byte the frame goes on, and with it the frame
is complete. -/
theorem Aligned.hear_rest (h : j.Aligned ahead) (hframe : Readable size frame) {rest : Bytes}
    (hsplit : frame = j.heard ++ rest) (hne : rest ≠ []) {f : InFlight}
    (hstate : j.path.state = .receiving f)
    (hroom : j.path.buffered + rest.length ≤ size.slots) :
    (j.hearAll (rest.map (.byte · false))).Aligned (ahead ++ [.frame frame])
      ∧ j.Received (j.hearAll (rest.map (.byte · false))) := by
  obtain ⟨front, last, rfl⟩ : ∃ front last, rest = front ++ [last] :=
    ⟨_, _, (List.dropLast_append_getLast hne).symm⟩
  rw [List.length_append, List.length_singleton] at hroom
  have hidle : ∀ n ≤ front.length,
      Detection.ofBytes size (j.heard ++ front.take n) = .idle := by
    intro n hn
    have hbeginning := hframe.beginning (j.heard ++ front.take n).length (by
      rw [hsplit, List.length_append, List.length_append, List.length_append, List.length_take,
        List.length_singleton]
      omega)
    rwa [hsplit, ← List.take_append_drop n front, List.append_assoc, ← List.append_assoc j.heard,
      List.take_append_drop, List.take_left] at hbeginning
  let k := j.hearAll (front.map (.byte · false))
  obtain ⟨haligned, hcontinued⟩ : k.Aligned ahead ∧ j.Continued k front :=
    h.hear_beginning hstate hidle (by omega)
  obtain ⟨g, hreceiving⟩ := hcontinued.receiving
  have hbuffered := hcontinued.buffered
  obtain ⟨ring, hpush, -⟩ := push?_of_room (r := k.path.ring)
    (show k.path.buffered < size.slots by omega) last
  obtain ⟨header, hwhole⟩ := hframe.whole
  have hheard : frame = k.heard ++ [last] := by
    rw [hsplit, hcontinued.heard, List.append_assoc]
  have hcomplete : k.hear (.byte last false) = k.complete ring last := by
    rw [hheard] at hwhole
    rw [Journal.hear_data haligned.tracks hreceiving last, hpush]
    simp only [hwhole]
  have hall : j.hearAll ((front ++ [last]).map (.byte · false)) = k.complete ring last := by
    rw [← hcomplete, hearAll, List.map_append, List.foldl_append]
    rfl
  rw [hall, hheard]
  exact ⟨haligned.complete hreceiving hpush (hheard ▸ hwhole), rfl,
    congrArg (· + 1) hcontinued.completed, hcontinued.rejected⟩

/-- **A bad header comes in.** Its last byte tells, and the receiver waits for the next frame. -/
theorem Aligned.hear_bad_header (h : j.Aligned ahead) (hnew : j.heard = []) {f : InFlight}
    (hstate : j.path.state = .receiving f) {front : Bytes} {last : UInt8}
    (hsix : (front ++ [last]).length = headerSize)
    (hbad : acceptableHeader? size (front ++ [last]) = none)
    (hroom : j.path.buffered + headerSize ≤ size.slots) :
    (j.hearAll ((front ++ [last]).map (.byte · false))).Aligned
        (ahead ++ [.rejected (front ++ [last])])
      ∧ (j.hearAll ((front ++ [last]).map (.byte · false))).path.state = .filtering := by
  rw [List.length_append, List.length_singleton] at hsix
  have hidle : ∀ n ≤ front.length,
      Detection.ofBytes size (j.heard ++ front.take n) = .idle := by
    intro n _
    refine Detection.ofBytes_idle_iff.2 (.inl ?_)
    rw [hnew, List.nil_append, List.length_take]
    omega
  let k := j.hearAll (front.map (.byte · false))
  obtain ⟨haligned, hcontinued⟩ : k.Aligned ahead ∧ j.Continued k front :=
    h.hear_beginning hstate hidle (by omega)
  obtain ⟨g, hreceiving⟩ := hcontinued.receiving
  have hbuffered := hcontinued.buffered
  have hheard : k.heard = front := by rw [hcontinued.heard, hnew, List.nil_append]
  obtain ⟨ring, hpush, -⟩ := push?_of_room (r := k.path.ring)
    (show k.path.buffered < size.slots by omega) last
  have hmismatch : Detection.ofBytes size (k.heard ++ [last]) = .mismatch := by
    rw [hheard]
    refine Detection.ofBytes_mismatch_iff.2 ⟨?_, hbad⟩
    rw [List.length_append, List.length_singleton]
    omega
  have hreject : k.hear (.byte last false) = k.reject ring last := by
    rw [Journal.hear_data haligned.tracks hreceiving last, hpush]
    simp only [hmismatch]
  have hall : j.hearAll ((front ++ [last]).map (.byte · false)) = k.reject ring last := by
    rw [← hreject, hearAll, List.map_append, List.foldl_append]
    rfl
  rw [hall, ← hheard]
  exact ⟨haligned.reject hreceiving hpush hmismatch, rfl⟩

/-- Between frames an accepted address byte is the first byte of a frame. -/
theorem hearAll_accepted (hstate : j.path.state = .filtering) {address : Address}
    (haccepts : j.path.identity.accepts address = true) (rest : Bytes) :
    j.hearAll (.byte address true :: rest.map (.byte · false))
      = j.begin.hearAll ((address :: rest).map (.byte · false)) := by
  show (j.hear (.byte address true)).hearAll _ = _
  rw [hear_accepted hstate haccepts]
  rfl

/-- **A whole frame comes in between frames.** -/
theorem Aligned.hear_between (h : j.Aligned ahead) (hstate : j.path.state = .filtering)
    {address : Address} {rest : Bytes} (hframe : Readable size (address :: rest))
    (haccepts : j.path.identity.accepts address = true)
    (hroom : j.path.buffered + (address :: rest).length ≤ size.slots) :
    (j.hearAll (.byte address true :: rest.map (.byte · false))).Aligned
        (ahead ++ [.frame (address :: rest)])
      ∧ j.Received (j.hearAll (.byte address true :: rest.map (.byte · false))) := by
  obtain ⟨haligned, hreceived⟩ := (h.begin hstate).hear_rest hframe rfl (by simp) rfl hroom
  rw [hearAll_accepted hstate haccepts]
  exact ⟨haligned, hreceived.filtering, hreceived.completed, hreceived.rejected⟩

/-- **A whole frame comes in**, perhaps in the middle of another one, which is cut short. -/
theorem Aligned.hear_frame (h : j.Aligned ahead) {address : Address} {rest : Bytes}
    (hframe : Readable size (address :: rest))
    (haccepts : j.path.identity.accepts address = true)
    (hroom : j.path.buffered + (address :: rest).length ≤ size.slots) :
    ∃ cut, (cut = [] ∨ ∃ span, cut = [.abandoned .truncated span])
      ∧ (j.hearAll (.byte address true :: rest.map (.byte · false))).Aligned
        (ahead ++ cut ++ [.frame (address :: rest)])
      ∧ j.Received (j.hearAll (.byte address true :: rest.map (.byte · false))) := by
  cases hstate : j.path.state with
  | filtering =>
    refine ⟨[], .inl rfl, ?_⟩
    rw [List.append_nil]
    exact h.hear_between hstate hframe haccepts hroom
  | receiving f =>
    have hstep : j.hearAll (.byte address true :: rest.map (.byte · false))
        = (j.abandon .truncated).hearAll (.byte address true :: rest.map (.byte · false)) := by
      show (j.hear (.byte address true)).hearAll _ = _
      rw [hear_cut h.tracks hstate]
      rfl
    obtain ⟨haligned, hreceived⟩ := (h.abandon .truncated).hear_between rfl hframe haccepts hroom
    rw [hstep]
    exact ⟨_, .inr ⟨_, rfl⟩, haligned, hreceived.filtering, hreceived.completed, hreceived.rejected⟩

end Journal

end MultidropBus
