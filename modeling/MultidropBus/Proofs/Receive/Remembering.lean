import MultidropBus.Proofs.Receive.ForeignTraffic
import MultidropBus.Proofs.Receive.Handles

/-!
# What the receiver remembers of a frame

The receiver keeps four things about the frame in flight, and changes them in place with each byte:
where the frame began, how many of its bytes are stored, the header as far as it came in, and the
length that a whole header announces. Each of them can be told from the ring alone, as a function of
the bytes that went into it since the frame began (`InFlight.Remembers`). That holds after any steps
of a station, since neither the transmitter nor the poll side has a part in it.

A frame that the receiver still remembers has grown by one with each data byte since, unless a new
one began. As it is shorter than any frame may be, it cannot go on for long
(`Station.run_remembers`).
-/

namespace MultidropBus

open Segment

/-! ### The journal of a station -/

namespace Journal

variable {size : RingSize} {j : Journal size}

/-- Notes down a step of a station. Of those that are no steps of the receive path, only the
question for the current frame leaves something behind, in the snapshot of the poll side. -/
def follow (j : Journal size) : StationStep → Journal size
  | .hear event => j.hear event
  | .ask .retire => j.retire
  | .ask .skip => j.skip
  | .ask .recover => j.recover
  | .ask .currentFrame => j.withHandles j.path.currentFrame.2.poll j.polled j.surviving
  | _ => j

/-- The journal of a station that starts with empty buffers. -/
def following (identity : Identity) (steps : List StationStep) : Journal size :=
  steps.foldl follow (fresh identity)

/-- The bytes that went into the ring from this place on, as far as a cursor can tell. -/
def storedSince (j : Journal size) (start : Cursor) : Bytes :=
  j.stored.drop (j.stored.length - (j.path.ring.write - start).toNat)

theorem currentFrame_snd (p : ReceivePath size) :
    p.currentFrame.2 = p.withPoll p.currentFrame.2.poll
      ∧ p.currentFrame.2.poll.handled = p.poll.handled := by
  rw [ReceivePath.currentFrame]
  cases p.completeHeader? <;> exact ⟨rfl, rfl⟩

theorem follow_path (s : Station size) (hpath : j.path = s.receive) (step : StationStep) :
    (j.follow step).path = (s.step step).1.receive := by
  obtain ⟨receive, transmit⟩ := s
  obtain rfl : j.path = receive := hpath
  cases step with
  | hear event => rfl
  | pump event => rfl
  | ask request =>
    cases request with
    | currentFrame => exact (currentFrame_snd j.path).1.symm
    | recover => exact j.recover_path
    | _ => rfl

/-- The journal is about the receive path of the station that it follows. -/
theorem following_path (identity : Identity) (steps : List StationStep) :
    (following identity steps : Journal size).path
      = ((Station.start identity).1.run steps).1.receive := by
  suffices h : ∀ (j : Journal size) (s : Station size), j.path = s.receive →
      (steps.foldl follow j).path = (s.run steps).1.receive from h _ _ rfl
  induction steps with
  | nil => exact fun _ _ hpath => hpath
  | cons step rest ih => exact fun j s hpath => ih _ _ (follow_path s hpath step)

/-- The stream is cut into segments, and something was heard of a frame in flight. -/
structure Kept (j : Journal size) : Prop where
  cut : ∃ marked segments, j.Cut marked segments
  alive : j.Alive

theorem fresh_kept (identity : Identity) : (fresh identity : Journal size).Kept :=
  ⟨⟨[], [], fresh_cut identity⟩, fun _ hf => nomatch hf⟩

theorem Kept.follow (h : j.Kept) (step : StationStep) : (j.follow step).Kept := by
  obtain ⟨⟨marked, segments, hcut⟩, halive⟩ := h
  cases step with
  | hear event =>
    obtain ⟨finished, hheard⟩ := hcut.hear halive event
    exact ⟨⟨_, _, hheard⟩, hear_alive j event⟩
  | pump event => exact ⟨⟨_, _, hcut⟩, halive⟩
  | ask request =>
    cases request with
    | currentFrame =>
      have hhandled := Nat.le_of_eq (currentFrame_snd j.path).2
      exact ⟨⟨_, _, hcut.withHandles hhandled _ _⟩, fun f hf => halive f hf⟩
    | retire => exact ⟨⟨_, _, hcut.retire⟩, halive.step .retire⟩
    | skip => exact ⟨⟨_, _, hcut.skip⟩, halive.step .skip⟩
    | recover => exact ⟨⟨_, _, hcut.recover⟩, halive.step .recover⟩
    | _ => exact ⟨⟨_, _, hcut⟩, halive⟩

theorem following_snoc (identity : Identity) (steps : List StationStep) (step : StationStep) :
    (following identity (steps ++ [step]) : Journal size)
      = (following identity steps).follow step := by
  rw [following, List.foldl_append]
  rfl

theorem following_kept (identity : Identity) (steps : List StationStep) :
    (following identity steps : Journal size).Kept := by
  induction steps using List.reverseRecOn with
  | nil => exact fresh_kept identity
  | append_singleton earlier step ih =>
    rw [following_snoc]
    exact ih.follow step

end Journal

/-! ### A memory of the bytes so far -/

namespace InFlight

variable {size : RingSize} {identity : Identity} {f g : InFlight} {bytes : Bytes} {byte : UInt8}

/-- What the receiver remembers of a frame agrees with the bytes stored since it began. -/
structure Remembers (f : InFlight) (size : RingSize) (identity : Identity) (write : Cursor)
    (since : Bytes) : Prop where
  begun : 1 ≤ f.received
  distance : (write - f.start).toNat = f.received
  stored : since.length = f.received
  header : f.header.toList.take (min f.received headerSize) = since.take headerSize
  accepted : identity.accepts f.header[0] = true
  announced : f.frameLength.isSome ↔ headerSize ≤ f.received
  whole : ∀ n, f.frameLength = some n → ∃ header, Header.validate f.header.toList = .ok header
    ∧ n = headerSize + header.length.toNat ∧ n ≤ min size.slots maxFrameSize ∧ f.received < n
  /-- The next byte is counted too, in a word of 32 bits as in any longer one. -/
  countable : f.received + 1 < UInt32.size

/-- The header bytes that came in are those of the frame. -/
theorem header_take (size : RingSize) (start : Cursor) (bytes : Bytes) :
    (ofBytes size start bytes).header.toList.take (min bytes.length headerSize)
      = bytes.take headerSize := by
  apply List.ext_getElem
  · simp [Nat.min_comm]
  · intro i hi hi'
    have hcame : i < bytes.length := by
      rw [List.length_take] at hi'
      omega
    simp [ofBytes, hcame]

/-- A whole header is checked on the bytes of the frame. -/
theorem validate_header (start : Cursor) (hlong : headerSize ≤ bytes.length) :
    Header.validate (ofBytes size start bytes).header.toList = Header.validate bytes := by
  have hheader := header_take size start bytes
  rw [Nat.min_eq_right hlong, List.take_of_length_le (by simp)] at hheader
  rw [hheader, Header.validate, Header.validate, Header.ofBytes?_take bytes (Nat.le_refl _)]

/-- The length is that of an acceptable header. -/
theorem frameLength_eq_some_iff (start : Cursor) {n : Nat} :
    (ofBytes size start bytes).frameLength = some n
      ↔ ∃ header, acceptableHeader? size bytes = some header ∧ header.frameLength = n := by
  simp only [ofBytes]
  split
  · rename_i hshort
    simp [acceptableHeader?_eq_none size bytes hshort]
  · exact Option.map_eq_some_iff

/-- **The memory of a frame that goes on is right**, wherever in the stream the frame began. -/
theorem ofBytes_remembers (position : Nat) (hidle : Detection.ofBytes size bytes = .idle)
    (hbegun : bytes ≠ []) (haccepts : identity.accepts (bytes.getD 0 0) = true) :
    (ofBytes size (UInt64.ofNat position) bytes).Remembers size identity
      (UInt64.ofNat (position + bytes.length)) bytes := by
  have hshort : bytes.length < 64 := Detection.length_lt_of_idle hidle
  have hwhole : ∀ {n}, (ofBytes size (UInt64.ofNat position) bytes).frameLength = some n →
      ∃ header, acceptableHeader? size bytes = some header ∧ header.frameLength = n
        ∧ bytes.length < n := by
    intro n hn
    obtain ⟨header, hheader, rfl⟩ := (frameLength_eq_some_iff _).1 hn
    have hlong := (acceptableHeader?_fits hheader).1
    obtain ⟨other, hother, hmissing⟩ := Detection.header_of_idle hidle hlong
    obtain rfl := Option.some.inj (hheader.symm.trans hother)
    exact ⟨header, hheader, rfl, hmissing⟩
  refine
    { begun := List.length_pos_iff.2 hbegun
      distance := Cursor.distance position bytes.length (Nat.lt_trans hshort (by decide))
      stored := rfl
      header := header_take size _ bytes
      accepted := ?accepted
      announced := ?announced
      whole := ?whole
      countable := Nat.lt_of_le_of_lt hshort (by decide) }
  case accepted => simpa [ofBytes] using haccepts
  case announced =>
    rw [Option.isSome_iff_exists]
    constructor
    · rintro ⟨n, hn⟩
      obtain ⟨header, hheader, -⟩ := hwhole hn
      exact (acceptableHeader?_fits hheader).1
    · intro hlong
      obtain ⟨header, hheader, -⟩ := Detection.header_of_idle hidle hlong
      exact ⟨_, (frameLength_eq_some_iff _).2 ⟨header, hheader, rfl⟩⟩
  case whole =>
    intro n hn
    obtain ⟨header, hheader, rfl, hmissing⟩ := hwhole hn
    obtain ⟨hvalid, hfits⟩ := acceptableHeader?_eq_some_iff.1 hheader
    have hlong := (acceptableHeader?_fits hheader).1
    exact ⟨header, (validate_header _ hlong).trans hvalid, rfl, hfits, hmissing⟩

/-- A frame that goes on is longer by the byte. -/
theorem track_more (h : f.track size byte = .more g) : g.received = f.received + 1 := by
  simp only [track] at h
  split at h
  · split at h
    · cases h
    · split at h
      · cases h
      · split at h
        · cases h
        · cases h
          rfl
  · split at h
    · cases h
    · cases h
      rfl

end InFlight

namespace Journal

variable {size : RingSize} {j : Journal size} {f : InFlight}

/-- The frame in flight is all that was stored from its start on. -/
theorem Kept.remembers (h : j.Kept) (hstate : j.path.state = .receiving f) :
    f.Remembers size j.path.identity j.path.ring.write (j.storedSince f.start)
      ∧ Detection.ofBytes size (j.storedSince f.start) = .idle := by
  obtain ⟨⟨marked, segments, hcut⟩, halive⟩ := h
  obtain ⟨hf, hidle⟩ := hcut.tracks.tracking f hstate
  have hbegun := halive f hstate
  have hflight := inFlight_of_receiving hstate
  have hlayout := hcut.layout
  rw [hflight] at hlayout
  have hlen : j.stored.length = (allBytes segments).length + j.heard.length := by
    rw [hlayout, List.length_append]
  obtain ⟨address, hmark, haccepts⟩ := hcut.flight (hflight ▸ hbegun)
  have hfirst : j.heard.getD 0 0 = address := by
    have hstored : j.stored[(allBytes segments).length]? = some address := by
      rw [← hcut.marks, List.getElem?_map, hmark]
      rfl
    rw [hlayout, List.getElem?_append_right (Nat.le_refl _), Nat.sub_self] at hstored
    rw [List.getD_eq_getElem?_getD, hstored]
    rfl
  have hremembers := InFlight.ofBytes_remembers (allBytes segments).length hidle hbegun
    (hfirst ▸ haccepts)
  rw [hlen, Nat.add_sub_cancel] at hf
  rw [← hf, ← hlen, ← hcut.tracks.ring.write] at hremembers
  have hsince : j.storedSince f.start = j.heard := by
    rw [storedSince, hremembers.distance, ← hremembers.stored, hlen, Nat.add_sub_cancel, hlayout,
      List.drop_left]
  rw [hsince]
  exact ⟨hremembers, hidle⟩

end Journal

/-! ### A frame cannot go on for long -/

namespace StationStep

/-- A data byte on the line. -/
def isData : StationStep → Bool
  | .hear (.byte _ false) => true
  | _ => false

/-- An address byte for this station. -/
def addresses (identity : Identity) : StationStep → Bool
  | .hear (.byte address true) => identity.accepts address
  | _ => false

end StationStep

namespace ReceivePath

variable {size : RingSize} {p : ReceivePath size} {event : LineEvent} {f g : InFlight}

/-- What is still in flight after a byte was stored has grown by it. -/
theorem store_receiving {byte : UInt8} (h : (p.store g byte).1.state = .receiving f) :
    f.received = g.received + 1 := by
  rw [store] at h
  cases hpush : p.ring.push? byte with
  | none =>
    rw [hpush] at h
    cases h
  | some ring =>
    rw [hpush] at h
    cases hprogress : g.track size byte with
    | more frame =>
      simp only [hprogress] at h
      cases h
      exact InFlight.track_more hprogress
    | complete =>
      simp only [hprogress] at h
      cases h
    | rejected =>
      simp only [hprogress] at h
      cases h

/-- An address of another station begins nothing, and cuts short what there is. -/
theorem receiveAddress_foreign {address : Address} (h : p.identity.accepts address = false) :
    (p.receiveAddress address).1.state = .filtering := by
  rw [receiveAddress]
  cases hstate : p.state with
  | filtering =>
    simp only [acceptAddress, h]
    exact hstate
  | receiving g =>
    have hkeeps : (p.fault .truncated).1.identity = p.identity := rfl
    simp only [acceptAddress, hkeeps, h]
    rfl

/-- A frame in flight after an event that begins none was in flight before, and has grown by the
data byte if it was one. -/
theorem receive_receiving (hquiet : (StationStep.hear event).addresses p.identity = false)
    (h : (p.receive event).1.state = .receiving f) :
    ∃ g, p.state = .receiving g
      ∧ f.received = g.received + [StationStep.hear event].countP StationStep.isData := by
  cases event with
  | error e => cases h
  | byte byte mark =>
    cases mark with
    | true => cases (receiveAddress_foreign hquiet).symm.trans h
    | false =>
      change (p.receiveData byte).1.state = _ at h
      rw [receiveData] at h
      cases hstate : p.state with
      | filtering =>
        rw [hstate] at h
        cases hstate.symm.trans h
      | receiving g =>
        rw [hstate] at h
        exact ⟨g, rfl, store_receiving h⟩

end ReceivePath

namespace Journal

variable {size : RingSize} {j : Journal size} {f : InFlight}

theorem follow_identity (j : Journal size) (step : StationStep) :
    (j.follow step).path.identity = j.path.identity := by
  cases step with
  | hear event => exact j.step_identity (.hear event)
  | pump event => rfl
  | ask request =>
    cases request with
    | retire => exact j.step_identity .retire
    | skip => exact j.step_identity .skip
    | recover => exact j.step_identity .recover
    | _ => rfl

theorem following_identity (identity : Identity) (steps : List StationStep) :
    (following identity steps : Journal size).path.identity = identity := by
  induction steps using List.reverseRecOn with
  | nil => rfl
  | append_singleton earlier step ih => rw [following_snoc, follow_identity, ih]

theorem follow_receiving {step : StationStep} (hquiet : step.addresses j.path.identity = false)
    (h : (j.follow step).path.state = .receiving f) :
    ∃ g, j.path.state = .receiving g
      ∧ f.received = g.received + [step].countP StationStep.isData := by
  cases step with
  | hear event => exact ReceivePath.receive_receiving hquiet h
  | pump event => exact ⟨f, h, rfl⟩
  | ask request =>
    refine ⟨f, ?_, rfl⟩
    cases request with
    | retire => exact j.path.retire_sameReceiver.state.symm.trans h
    | skip => exact j.path.skip_sameReceiver.state.symm.trans h
    | recover => exact (j.step_receiver (s := .recover) fun event hs => by cases hs).1.symm.trans h
    | _ => exact h

/-- Until a new frame begins, the frame in flight has grown by the data bytes that came in. -/
theorem following_receiving (identity : Identity) (steps more : List StationStep)
    (hquiet : ∀ step ∈ more, step.addresses identity = false)
    (h : (following identity (steps ++ more) : Journal size).path.state = .receiving f) :
    ∃ g, (following identity steps : Journal size).path.state = .receiving g
      ∧ f.received = g.received + more.countP StationStep.isData := by
  induction more using List.reverseRecOn generalizing f with
  | nil => exact ⟨f, List.append_nil steps ▸ h, rfl⟩
  | append_singleton earlier step ih =>
    rw [← List.append_assoc, following_snoc] at h
    have hlast : step.addresses (following identity (steps ++ earlier) : Journal size).path.identity
        = false := by
      rw [following_identity]
      exact hquiet step (List.mem_append_right _ (List.mem_singleton_self step))
    obtain ⟨g, hg, hgrown⟩ := follow_receiving hlast h
    obtain ⟨first, hfirst, hearlier⟩ :=
      ih (fun s hs => hquiet s (List.mem_append_left _ hs)) hg
    refine ⟨first, hfirst, ?_⟩
    rw [hgrown, hearlier, List.countP_append, Nat.add_assoc]

end Journal

namespace Station

variable {size : RingSize}

/-- A station with empty buffers some steps after its start. -/
def after (identity : Identity) (steps : List StationStep) : Station size :=
  ((start identity).1.run steps).1

/-- **What the receiver remembers of a frame is right, and no frame goes on for long.** After any
steps of a station, a frame in flight began as many bytes before the write cursor as it has, all
that is kept of it agrees with these bytes, and one more byte can be counted. Where the ring holds a
header, fewer bytes are in flight than the longest frame has, and as many data bytes as are missing
take the receiver back to waiting for an address, unless one for this station comes first. -/
theorem run_remembers (identity : Identity) (steps : List StationStep) {f : InFlight}
    (hstate : (after identity steps : Station size).receive.state = .receiving f) :
    f.Remembers size identity (after identity steps : Station size).receive.ring.write
        ((Journal.following identity steps : Journal size).storedSince f.start)
      ∧ (headerSize ≤ size.slots → f.received < min size.slots maxFrameSize
        ∧ ∀ more, (∀ step ∈ more, step.addresses identity = false) →
          min size.slots maxFrameSize ≤ f.received + more.countP StationStep.isData →
          (after identity (steps ++ more) : Station size).receive.state = .filtering) := by
  have hkept : ∀ all, (Journal.following identity all : Journal size).Kept :=
    Journal.following_kept identity
  simp only [after, ← Journal.following_path] at hstate ⊢
  obtain ⟨hremembers, hidle⟩ := (hkept steps).remembers hstate
  rw [Journal.following_identity] at hremembers
  refine ⟨hremembers, fun hholds => ⟨?_, fun more hquiet hlong => ?_⟩⟩
  · rw [← hremembers.stored]
    exact Detection.length_lt_frameLimit hholds hidle
  · cases hafter : (Journal.following identity (steps ++ more) : Journal size).path.state with
    | filtering => rfl
    | receiving g =>
      -- The frame would be too long by now.
      obtain ⟨first, hfirst, hgrown⟩ :=
        Journal.following_receiving identity steps more hquiet hafter
      obtain rfl := ReceiverState.receiving.inj (hstate.symm.trans hfirst)
      obtain ⟨hagain, hshort⟩ := (hkept (steps ++ more)).remembers hafter
      have hless := Detection.length_lt_frameLimit hholds hshort
      rw [hagain.stored, hgrown] at hless
      exact absurd hlong (Nat.not_le_of_lt hless)

/-- A frame of eight bytes, begun anew after its second byte. The poll side gives up the first try,
and takes a byte out from under the second. -/
def heldUpSteps : List StationStep :=
  [.hear (.byte 5 true), .hear (.byte 0 false), .hear (.byte 5 true), .ask .recover]
    ++ [0, 6, 0xff, 0, 2].map (fun byte => .hear (.byte byte false))
    ++ [.ask .skip, .ask .currentFrame, .hear (.byte 42 false), .ask .status]

/-- Seven of the bytes are in flight, and the last one ends the frame. -/
theorem heldUpSteps_remembered :
    let frame : InFlight := ⟨2, 7, #v[5, 0, 6, 0xff, 0, 2], some 8⟩
    (after (.plain 5) heldUpSteps : Station ⟨3, by decide⟩).receive.state = .receiving frame
      ∧ (Journal.following (.plain 5) heldUpSteps : Journal ⟨3, by decide⟩).storedSince 2
        = [5, 0, 6, 0xff, 0, 2, 42]
      ∧ frame.Remembers ⟨3, by decide⟩ (.plain 5) 9 [5, 0, 6, 0xff, 0, 2, 42]
      ∧ (after (.plain 5) (heldUpSteps ++ [.ask .retire, .hear (.byte 43 false)])
        : Station ⟨3, by decide⟩).receive.state = .filtering := by
  have hstate : (after (.plain 5) heldUpSteps : Station ⟨3, by decide⟩).receive.state
      = .receiving ⟨2, 7, #v[5, 0, 6, 0xff, 0, 2], some 8⟩ := by decide +kernel
  have hstored : (Journal.following (.plain 5) heldUpSteps : Journal ⟨3, by decide⟩).storedSince 2
      = [5, 0, 6, 0xff, 0, 2, 42] := by decide +kernel
  have hwrite : (after (.plain 5) heldUpSteps : Station ⟨3, by decide⟩).receive.ring.write = 9 := by
    decide +kernel
  obtain ⟨hremembers, hends⟩ := run_remembers (.plain 5) heldUpSteps hstate
  rw [hstored, hwrite] at hremembers
  exact ⟨hstate, hstored, hremembers,
    (hends (by decide)).2 [.ask .retire, .hear (.byte 43 false)] (by decide) (by decide)⟩

end Station

end MultidropBus
