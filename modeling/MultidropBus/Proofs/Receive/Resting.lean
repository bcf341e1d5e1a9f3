import MultidropBus.Proofs.Link
import MultidropBus.Proofs.Receive.ForeignTraffic

/-!
# What a resting station makes of a frame

A station at rest hears a frame from its first byte to its last. If the frame is for others nothing
goes into the ring. Otherwise the frame does, all of it, or no more than its header if the ring
could never hold the rest (`ReceivePath.AtRest.stores_iff`). The poll loop then hands out the frame,
or gets rid of the header, and comes to rest again (`ReceivePath.AtRest.serves`). Where the cursors
stand, what the counters show and what the latch remembers does not matter.
-/

namespace MultidropBus

open Segment

/-- What a receiver hears of a frame on the line. -/
def LineEvent.ofFrame (frame : Bytes) : List LineEvent := (markFirst frame).map .ofWritten

theorem LineEvent.ofFrame_cons (address : Address) (rest : Bytes) :
    ofFrame (address :: rest) = .byte address true :: rest.map (.byte · false) :=
  ofWritten_markFirst address rest

namespace ReceivePath

variable {size : RingSize} {p : ReceivePath size}

/-- The receiver waits for an address, the ring is empty, and every fault was handled. -/
structure AtRest (p : ReceivePath size) : Prop where
  waiting : p.state = .filtering
  empty : p.buffered = 0
  handled : p.poll.handled = p.faults.raised

theorem fresh_atRest (identity : Identity) : (fresh identity : ReceivePath size).AtRest :=
  ⟨rfl, Ring.occupancy_empty, rfl⟩

/-- Between frames data bytes do nothing. -/
theorem receiveAll_data (h : p.state = .filtering) (bytes : Bytes) :
    p.receiveAll (bytes.map (.byte · false)) = (p, []) := by
  induction bytes with
  | nil => rfl
  | cons byte rest ih =>
    have hbyte : p.receive (.byte byte false) = (p, []) := by
      rw [receive, receiveData, h]
    rw [List.map_cons, receiveAll, hbyte, ih]
    rfl

/-- Of a frame for others nothing stays but the count of its address. -/
theorem receiveAll_foreign (h : p.state = .filtering) {address : Address}
    (hother : p.identity.accepts address = false) (rest : Bytes) :
    p.receiveAll (LineEvent.ofFrame (address :: rest)) = (p.addForeign 1, []) := by
  have hignores : p.ignores (.byte address true) = true := by
    rw [ignores, isReceiving, h, hother]
    rfl
  have hwaiting : (p.addForeign 1).state = .filtering := h
  have haddress : p.receive (.byte address true) = (p.addForeign 1, []) := receive_ignored hignores
  rw [LineEvent.ofFrame_cons, receiveAll, haddress, receiveAll_data hwaiting]
  rfl

/-! ### The poll loop -/

theorem status_of_short (hnone : p.pendingFault? = none)
    (hshort : p.ring.toList.length < headerSize) : p.status = .idle := by
  refine status_idle_iff.2 ⟨?_, hnone⟩
  rw [detection_eq, visible_of_no_fault hnone]
  exact Detection.ofBytes_idle_iff.2 (.inl hshort)

/-- The poll loop hands out at most this one frame and comes to rest. -/
structure Serves (p : ReceivePath size) (frame : Bytes) : Prop where
  frames : ∀ n, (p.serveRounds n).1 = [] ∨ (p.serveRounds n).1 = [frame]
  idle : ∀ n, p.buffered + p.unhandled ≤ n → (p.serveRounds n).2.status = .idle

theorem Serves.of_idle (h : p.status = .idle) (frame : Bytes) : p.Serves frame where
  frames n := .inl (by rw [serveRounds_of_idle h])
  idle n _ := by rw [serveRounds_of_idle h, h]

/-- A bad header that is alone in the ring goes away with its first byte, since what is left is too
short to be looked at. -/
theorem Serves.of_bad_header (hnone : p.pendingFault? = none)
    (hlength : p.ring.toList.length = headerSize)
    (hbad : Detection.ofBytes size p.ring.toList = .mismatch) (frame : Bytes) :
    p.Serves frame := by
  have hpos : 0 < headerSize := by decide
  have hoccupancy : p.ring.occupancy = headerSize := p.ring.toList_length.symm.trans hlength
  have hstatus : p.status = .headerMismatch :=
    status_headerMismatch_iff.2 (by rw [detection_eq, visible_of_no_fault hnone, hbad])
  have hskip : p.skip.2 = { p with
      ring := (p.ring.advance 1).2
      poll := { p.poll with skipped := p.poll.skipped + 1 } } := by
    have hsome : (p.ring.advance 1).1 ≠ 0 := by
      rw [Ring.advance_fst, hoccupancy]
      decide
    simp only [skip, if_neg hsome]
  have hserve : p.serve = (none, p.skip.2) := by rw [serve, hstatus]
  have hidle : p.skip.2.status = .idle := by
    rw [hskip]
    refine status_of_short hnone ?_
    show (p.ring.advance 1).2.toList.length < headerSize
    rw [Ring.toList_advance, List.length_drop, hlength]
    decide
  constructor
  · intro n
    cases n with
    | zero => exact .inl rfl
    | succ n =>
      rw [serveRounds_succ hserve, serveRounds_of_idle hidle]
      exact .inl rfl
  · intro n hn
    rw [buffered, hoccupancy] at hn
    obtain ⟨n, rfl⟩ := Nat.exists_eq_add_of_le' (show 1 ≤ n by omega)
    rw [serveRounds_succ hserve, serveRounds_of_idle hidle, hidle]

end ReceivePath

/-! ### Reading a frame that is too long -/

theorem Frame.acceptableHeader?_wire_too_long (size : RingSize) (destination source : Address)
    {payload : Bytes} (hlen : payload.length ≤ maxPayloadSize)
    (hlong : frameLimit size < headerSize + payload.length) :
    acceptableHeader? size (wire destination source payload) = none := by
  have hannounced := announce_frameLength destination source hlen
  rw [acceptableHeader?, wire, Header.validate_announce]
  exact if_neg (by rw [Header.fits, hannounced, decide_eq_true_iff]; omega)

namespace Journal

variable {size : RingSize} {p : ReceivePath size}

/-- A journal that begins with the path as it is. As many bytes were stored and taken as the read
cursor says; which ones does not matter any more. -/
def startingAt (p : ReceivePath size) : Journal size where
  path := p
  heard := []
  stored := List.replicate p.ring.read.toNat 0
  taken := p.ring.read.toNat
  rejected := []
  received := []
  polled := []
  surviving := []

/-- At rest there is nothing ahead. -/
theorem startingAt_aligned (h : p.AtRest) : (startingAt p).Aligned [] where
  ring :=
    { read := UInt64.ofNat_toNat.symm
      taken_le := by rw [startingAt, List.length_replicate]
      room := by
        rw [startingAt, List.length_replicate]
        exact Nat.le_add_right _ _
      toList := by
        have hempty : p.ring.toList = [] :=
          List.length_eq_zero_iff.1 (p.ring.toList_length.trans h.empty)
        rw [startingAt, List.drop_replicate, Nat.sub_self]
        exact hempty }
  layout := by
    have hnone : (startingAt p).inFlight = [] := inFlight_of_filtering h.waiting
    rw [hnone, startingAt, List.drop_replicate, Nat.sub_self]
    rfl
  tracking f hf := nomatch h.waiting.symm.trans hf
  sound := allSound_nil
  faults := by
    obtain ⟨log, hlogs⟩ := p.faults.exists_logs
    have hall : p.poll.handled = log.length := h.handled.trans hlogs.raised
    exact ⟨log, hlogs, hall.le, List.drop_eq_nil_iff.2 hall.ge⟩
  noted := ⟨[], rfl, by simp⟩
  surviving := rfl
  rejections start hstart := nomatch hstart

end Journal

namespace ReceivePath.AtRest

variable {size : RingSize} {p : ReceivePath size} {destination source : Address} {payload : Bytes}

open Journal

/-- A frame for others leaves nothing but the count of its address. -/
theorem hear_other (h : p.AtRest) (source : Address) (payload : Bytes)
    (hother : p.identity.accepts destination = false) :
    (p.receiveAll (LineEvent.ofFrame (Frame.wire destination source payload))).1
      = p.addForeign 1 := by
  obtain ⟨rest, hfirst⟩ :
      ∃ rest, Frame.wire destination source payload = destination :: rest := ⟨_, rfl⟩
  rw [hfirst, receiveAll_foreign h.waiting hother]

/-- A frame that fits the ring is received whole. -/
theorem hear_whole (h : p.AtRest) (source : Address) (hlen : payload.length ≤ maxPayloadSize)
    (hfits : headerSize + payload.length ≤ frameLimit size)
    (haccepts : p.identity.accepts destination = true) :
    ∃ k : Journal size,
      (p.receiveAll (LineEvent.ofFrame (Frame.wire destination source payload))).1 = k.path
        ∧ k.Aligned [.frame (Frame.wire destination source payload)] ∧ k.rejected = []
        ∧ k.inFlight = [] := by
  have hlength := Frame.wire_length destination source payload
  have hreadable := readable_wire destination source hlen hfits
  obtain ⟨rest, hfirst⟩ :
      ∃ rest, Frame.wire destination source payload = destination :: rest := ⟨_, rfl⟩
  rw [hfirst] at hlength hreadable ⊢
  have hroom : (startingAt p).path.buffered + (destination :: rest).length ≤ size.slots := by
    have hempty : (startingAt p).path.buffered = 0 := h.empty
    have hle := hfits.trans (Nat.min_le_left _ _)
    omega
  obtain ⟨haligned, hreceived⟩ :=
    (startingAt_aligned h).hear_between h.waiting hreadable haccepts hroom
  rw [LineEvent.ofFrame_cons]
  exact ⟨_, (hearAll_path (startingAt p) _).symm, haligned, hreceived.rejected,
    inFlight_of_filtering hreceived.filtering⟩

/-- Of a frame that is too long for the ring only the header is stored. -/
theorem hear_too_long (h : p.AtRest) (source : Address) (hlen : payload.length ≤ maxPayloadSize)
    (hlong : frameLimit size < headerSize + payload.length) (hroom : headerSize ≤ size.slots)
    (haccepts : p.identity.accepts destination = true) :
    ∃ k : Journal size,
      (p.receiveAll (LineEvent.ofFrame (Frame.wire destination source payload))).1 = k.path
        ∧ k.Aligned [.rejected ((Frame.wire destination source payload).take headerSize)]
        ∧ k.inFlight = [] := by
  have hnone := Frame.acceptableHeader?_wire_too_long size destination source hlen hlong
  obtain ⟨front, last, rest, hsplit, hsix⟩ : ∃ front last rest,
      Frame.wire destination source payload = (front ++ [last]) ++ rest
        ∧ (front ++ [last]).length = headerSize := ⟨[_, _, _, _, _], _, _, rfl, rfl⟩
  obtain ⟨more, hfirst⟩ :
      ∃ more, Frame.wire destination source payload = destination :: more := ⟨_, rfl⟩
  have hbad : acceptableHeader? size (front ++ [last]) = none := by
    rw [← acceptableHeader?_append size _ rest hsix.ge, ← hsplit, hnone]
  have hempty : (startingAt p).begin.path.buffered = 0 := h.empty
  let k := (startingAt p).begin.hearAll ((front ++ [last]).map (.byte · false))
  obtain ⟨haligned, hwaiting⟩ :
      k.Aligned ([] ++ [.rejected (front ++ [last])]) ∧ k.path.state = .filtering :=
    ((startingAt_aligned h).begin h.waiting).hear_bad_header rfl (f := .begin p.ring.write) rfl
      hsix hbad (by omega)
  -- The rest of the frame passes by.
  have hall : (startingAt p).hearAll (LineEvent.ofFrame (destination :: more))
      = k.hearAll (rest.map (.byte · false)) := by
    rw [LineEvent.ofFrame_cons, hearAll_accepted h.waiting haccepts, ← hfirst, hsplit,
      List.map_append, hearAll, List.foldl_append]
    rfl
  have hpath := hearAll_path (startingAt p) (LineEvent.ofFrame (destination :: more))
  rw [hall, hearAll_path, ReceivePath.receiveAll_data hwaiting, ← hfirst] at hpath
  rw [hsplit, List.take_left' hsix, ← hsplit]
  exact ⟨k, hpath.symm, haligned, inFlight_of_filtering hwaiting⟩

/-- **Exactly the stations that accept the destination store some of a frame.** -/
theorem stores_iff (h : p.AtRest) (source : Address) (hlen : payload.length ≤ maxPayloadSize)
    (hroom : headerSize ≤ size.slots) :
    (p.receiveAll (LineEvent.ofFrame (Frame.wire destination source payload))).1.ring ≠ p.ring
      ↔ p.identity.accepts destination = true := by
  have hempty : p.ring.toList = [] :=
    List.length_eq_zero_iff.1 (p.ring.toList_length.trans h.empty)
  have hlength := Frame.wire_length destination source payload
  have hpos : 0 < headerSize := by decide
  cases haccepts : p.identity.accepts destination with
  | false =>
    refine iff_of_false (not_not_intro ?_) Bool.false_ne_true
    rw [h.hear_other source payload haccepts]
    rfl
  | true =>
    refine iff_of_true (fun hsame => ?_) rfl
    obtain ⟨k, s, hpath, haligned, hflight, hne⟩ : ∃ (k : Journal size) (s : Segment),
        (p.receiveAll (LineEvent.ofFrame (Frame.wire destination source payload))).1 = k.path
          ∧ k.Aligned [s] ∧ k.inFlight = [] ∧ s.bytes ≠ [] := by
      rcases Nat.lt_or_ge (frameLimit size) (headerSize + payload.length) with hlong | hfits
      · obtain ⟨k, hpath, haligned, hflight⟩ :=
          h.hear_too_long source hlen hlong hroom haccepts
        exact ⟨k, _, hpath, haligned, hflight, by nofun⟩
      · obtain ⟨k, hpath, haligned, -, hflight⟩ := h.hear_whole source hlen hfits haccepts
        exact ⟨k, _, hpath, haligned, hflight, by nofun⟩
    have hlist := haligned.toList_eq
    rw [← hpath, hsame, hempty, hflight, List.append_nil, allBytes_cons, allBytes_nil,
      List.append_nil] at hlist
    exact hne hlist.symm

/-- **The poll loop hands out that frame or none.** -/
theorem serves (h : p.AtRest) (destination source : Address)
    (hlen : payload.length ≤ maxPayloadSize) (hroom : headerSize ≤ size.slots) :
    (p.receiveAll (LineEvent.ofFrame (Frame.wire destination source payload))).1.Serves
      (Frame.wire destination source payload) := by
  have hlength := Frame.wire_length destination source payload
  cases haccepts : p.identity.accepts destination with
  | false =>
    have hnone : (p.addForeign 1).pendingFault? = none :=
      (p.faults.pending?_eq_none_iff _).2 h.handled.ge
    rw [h.hear_other source payload haccepts]
    refine Serves.of_idle (status_of_short hnone ?_) _
    show p.ring.toList.length < headerSize
    rw [p.ring.toList_length, show p.ring.occupancy = 0 from h.empty]
    decide
  | true =>
    rcases Nat.lt_or_ge (frameLimit size) (headerSize + payload.length) with hlong | hfits
    · obtain ⟨k, hpath, haligned, hflight⟩ := h.hear_too_long source hlen hlong hroom haccepts
      have hlist := haligned.toList_eq
      rw [hflight, List.append_nil, allBytes_cons, allBytes_nil, List.append_nil] at hlist
      have hheader : k.path.ring.toList
          = (Frame.wire destination source payload).take headerSize := hlist
      have hsix : k.path.ring.toList.length = headerSize := by
        rw [hheader, List.length_take]
        omega
      have hnone : k.path.pendingFault? = none :=
        (haligned.view_clear (clear_cons.2 ⟨rfl, fun _ hs => nomatch hs⟩)).1
      rw [hpath]
      refine Serves.of_bad_header hnone hsix ?_ _
      refine Detection.ofBytes_mismatch_iff.2 ⟨hsix.ge, ?_⟩
      rw [hheader, acceptableHeader?_take size _ (Nat.le_refl _),
        Frame.acceptableHeader?_wire_too_long size destination source hlen hlong]
    · obtain ⟨k, hpath, haligned, hrejected, hflight⟩ := h.hear_whole source hlen hfits haccepts
      have hfew : k.path.unhandled ≤ faultSlots := by
        rw [haligned.unhandled]
        exact Nat.zero_le _
      rw [hpath]
      constructor
      · intro n
        cases n with
        | zero => exact .inl rfl
        | succ n =>
          obtain ⟨q, hrounds, -⟩ :=
            haligned.serveRounds hrejected hflight hfew (Nat.le_add_left 1 n)
          rw [hrounds]
          exact .inr rfl
      · intro n hn
        obtain ⟨q, hrounds, hidle, -⟩ := haligned.serveRounds hrejected hflight hfew
          ((haligned.length_le hflight).trans hn)
        rw [hrounds]
        exact hidle

end ReceivePath.AtRest

end MultidropBus
