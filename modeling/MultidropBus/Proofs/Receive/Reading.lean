import MultidropBus.Proofs.Frame.RoundTrip
import MultidropBus.Receive.Tracking
import MultidropBus.Ring.Lemmas

/-!
# One reading of the bytes of a frame, for both sides

The receiver follows a frame byte by byte, and the poll side looks at whole stretches of the ring.
Both come to the same view of where frames begin and end, because both apply one reading,
`Detection.ofBytes`, which depends on nothing but a byte string and the size of the ring:

* `Ring.detect_eq` — the detector reads the oldest bytes of the ring, as many as it may look at;
* `InFlight.track_ofBytes` — the receiver reads the bytes of the frame so far, its own memory being
  a function of them (`InFlight.ofBytes`).

The reading is fixed by the first six bytes and the length: a whole frame or a bad header stays what
it is when more bytes follow.
-/

namespace MultidropBus

/-! ### Headers -/

/-- Only the first six bytes count for a header. -/
theorem Header.ofBytes?_take (bytes : Bytes) {k : Nat} (h : headerSize ≤ k) :
    ofBytes? (bytes.take k) = ofBytes? bytes := by
  obtain ⟨k, rfl⟩ := Nat.exists_eq_add_of_le' h
  rcases bytes with _ | ⟨a, _ | ⟨b, _ | ⟨c, _ | ⟨d, _ | ⟨e, _ | ⟨f, rest⟩⟩⟩⟩⟩⟩ <;>
    simp [headerSize, ofBytes?]

/-- The header at the start of a byte string, if a station with a ring of this size takes it. -/
def acceptableHeader? (size : RingSize) (bytes : Bytes) : Option Header :=
  match Header.validate bytes with
  | .error _ => none
  | .ok header => if header.fits size then some header else none

theorem acceptableHeader?_take (size : RingSize) (bytes : Bytes) {k : Nat} (h : headerSize ≤ k) :
    acceptableHeader? size (bytes.take k) = acceptableHeader? size bytes := by
  simp only [acceptableHeader?, Header.validate, Header.ofBytes?_take bytes h]

theorem acceptableHeader?_append (size : RingSize) (bytes more : Bytes)
    (h : headerSize ≤ bytes.length) :
    acceptableHeader? size (bytes ++ more) = acceptableHeader? size bytes := by
  rw [← acceptableHeader?_take size (bytes ++ more) h, List.take_left]

theorem acceptableHeader?_eq_none (size : RingSize) (bytes : Bytes)
    (h : bytes.length < headerSize) :
    acceptableHeader? size bytes = none := by
  simp only [acceptableHeader?, Header.validate, (Header.ofBytes?_eq_none_iff bytes).2 h]

theorem acceptableHeader?_eq_some_iff {size : RingSize} {bytes : Bytes} {header : Header} :
    acceptableHeader? size bytes = some header
      ↔ Header.validate bytes = .ok header ∧ header.frameLength ≤ frameLimit size := by
  rw [acceptableHeader?]
  cases Header.validate bytes with
  | error e => simp
  | ok other =>
    by_cases hfits : other.fits size
    · simp only [hfits, if_true, Option.some.injEq, Except.ok.injEq]
      refine ⟨?_, fun h => h.1⟩
      rintro rfl
      exact ⟨rfl, by simpa [Header.fits] using hfits⟩
    · simp only [hfits, if_false, Except.ok.injEq, reduceCtorEq, false_iff, not_and]
      rintro rfl
      simpa [Header.fits] using hfits

/-- An acceptable header announces a frame that the ring can hold whole. -/
theorem acceptableHeader?_fits {size : RingSize} {bytes : Bytes} {header : Header}
    (h : acceptableHeader? size bytes = some header) :
    headerSize ≤ bytes.length ∧ header.frameLength ≤ frameLimit size := by
  refine ⟨Nat.le_of_not_lt fun hshort => ?_, (acceptableHeader?_eq_some_iff.1 h).2⟩
  rw [acceptableHeader?_eq_none size bytes hshort] at h
  cases h

theorem Header.headerSize_le_frameLength (h : Header) : headerSize ≤ h.frameLength :=
  Nat.le_add_right _ _

/-! ### The reading -/

/-- What a byte string starts with: a whole frame, the beginning of one, or no header at all. -/
def Detection.ofBytes (size : RingSize) (bytes : Bytes) : Detection :=
  if bytes.length < headerSize then .idle
  else
    match acceptableHeader? size bytes with
    | none => .mismatch
    | some header => if header.frameLength ≤ bytes.length then .complete header else .idle

namespace Detection

variable {size : RingSize} {bytes : Bytes} {header : Header}

theorem ofBytes_nil : ofBytes size [] = .idle := rfl

theorem ofBytes_complete_iff :
    ofBytes size bytes = .complete header
      ↔ acceptableHeader? size bytes = some header ∧ header.frameLength ≤ bytes.length := by
  have hsmall := header.headerSize_le_frameLength
  simp only [ofBytes]
  split
  · rename_i hshort
    simp [acceptableHeader?_eq_none size bytes hshort]
  · cases acceptableHeader? size bytes with
    | none => simp
    | some other =>
      by_cases hwhole : other.frameLength ≤ bytes.length
      · simp only [if_pos hwhole, complete.injEq, Option.some.injEq]
        constructor
        · rintro rfl
          exact ⟨rfl, hwhole⟩
        · exact fun h => h.1
      · simp only [if_neg hwhole, Option.some.injEq, reduceCtorEq, false_iff, not_and]
        rintro rfl
        exact hwhole

theorem ofBytes_mismatch_iff :
    ofBytes size bytes = .mismatch
      ↔ headerSize ≤ bytes.length ∧ acceptableHeader? size bytes = none := by
  simp only [ofBytes]
  split
  · rename_i hshort
    simp only [reduceCtorEq, false_iff, not_and]
    omega
  · rename_i hlong
    cases acceptableHeader? size bytes with
    | none => simp; omega
    | some other => by_cases hwhole : other.frameLength ≤ bytes.length <;> simp [hwhole]

theorem ofBytes_idle_iff :
    ofBytes size bytes = .idle
      ↔ bytes.length < headerSize
        ∨ ∃ header, acceptableHeader? size bytes = some header
          ∧ bytes.length < header.frameLength := by
  simp only [ofBytes]
  split
  · rename_i hshort
    simp [hshort]
  · rename_i hlong
    cases acceptableHeader? size bytes with
    | none => simp [hlong]
    | some other =>
      by_cases hwhole : other.frameLength ≤ bytes.length <;> simp [hwhole, hlong]
      omega

/-- The beginning of a frame that has its header lacks some of the bytes that it announces. -/
theorem header_of_idle (h : ofBytes size bytes = .idle) (hlong : headerSize ≤ bytes.length) :
    ∃ header, acceptableHeader? size bytes = some header ∧ bytes.length < header.frameLength :=
  (ofBytes_idle_iff.1 h).resolve_left (Nat.not_lt_of_le hlong)

/-- While the beginning of a frame is read, less is there than any frame may have. -/
theorem length_lt_of_idle (h : ofBytes size bytes = .idle) : bytes.length < maxFrameSize := by
  have hsmall : headerSize < maxFrameSize := by decide
  rcases ofBytes_idle_iff.1 h with hshort | ⟨header, hheader, hmissing⟩
  · omega
  · have hfits := Nat.le_trans (acceptableHeader?_fits hheader).2 (Nat.min_le_right _ _)
    omega

/-- Where a header has room, so has the beginning of any frame. -/
theorem length_lt_frameLimit (hholds : headerSize ≤ size.slots)
    (h : ofBytes size bytes = .idle) : bytes.length < frameLimit size := by
  have hsmall : headerSize ≤ maxFrameSize := by decide
  rcases ofBytes_idle_iff.1 h with hshort | ⟨header, hheader, hmissing⟩
  · exact Nat.lt_of_lt_of_le hshort (Nat.le_min.2 ⟨hholds, hsmall⟩)
  · exact Nat.lt_of_lt_of_le hmissing (acceptableHeader?_fits hheader).2

/-- A whole frame is one whatever follows it. -/
theorem ofBytes_append_complete (h : ofBytes size bytes = .complete header) (more : Bytes) :
    ofBytes size (bytes ++ more) = .complete header := by
  obtain ⟨hheader, hlen⟩ := ofBytes_complete_iff.1 h
  have hsix := (acceptableHeader?_fits hheader).1
  refine ofBytes_complete_iff.2 ⟨?_, ?_⟩
  · rw [acceptableHeader?_append size bytes more hsix, hheader]
  · rw [List.length_append]
    omega

/-- A bad header is one whatever follows it. -/
theorem ofBytes_append_mismatch (h : ofBytes size bytes = .mismatch) (more : Bytes) :
    ofBytes size (bytes ++ more) = .mismatch := by
  obtain ⟨hsix, hnone⟩ := ofBytes_mismatch_iff.1 h
  refine ofBytes_mismatch_iff.2 ⟨?_, (acceptableHeader?_append size bytes more hsix).trans hnone⟩
  rw [List.length_append]
  omega

/-- Fewer bytes read as the beginning of a frame, or the same as all of them. -/
theorem ofBytes_take (bytes : Bytes) (k : Nat) :
    ofBytes size (bytes.take k) = .idle ∨ ofBytes size (bytes.take k) = ofBytes size bytes := by
  rcases Nat.lt_or_ge (bytes.take k).length headerSize with hshort | hlong
  · exact .inl (ofBytes_idle_iff.2 (.inl hshort))
  · have hsame : acceptableHeader? size (bytes.take k) = acceptableHeader? size bytes :=
      acceptableHeader?_take size bytes (Nat.le_trans hlong (List.length_take_le _ _))
    have hle : (bytes.take k).length ≤ bytes.length := List.length_take_le' _ _
    cases hread : ofBytes size (bytes.take k) with
    | idle => exact .inl rfl
    | complete header =>
      right
      obtain ⟨hheader, hwhole⟩ := ofBytes_complete_iff.1 hread
      exact (ofBytes_complete_iff.2 ⟨hsame ▸ hheader, Nat.le_trans hwhole hle⟩).symm
    | mismatch =>
      right
      obtain ⟨hsix, hnone⟩ := ofBytes_mismatch_iff.1 hread
      exact (ofBytes_mismatch_iff.2 ⟨Nat.le_trans hsix hle, hsame ▸ hnone⟩).symm

/-- A frame is whole with the very byte that makes it so. -/
theorem complete_length {byte : UInt8} (h : ofBytes size bytes = .idle)
    (hwhole : ofBytes size (bytes ++ [byte]) = .complete header) :
    header.frameLength = (bytes ++ [byte]).length := by
  obtain ⟨hheader, hlen⟩ := ofBytes_complete_iff.1 hwhole
  have hsix := (acceptableHeader?_fits hheader).1
  have hsmall := header.headerSize_le_frameLength
  rw [List.length_append, List.length_singleton] at hlen hsix ⊢
  rcases ofBytes_idle_iff.1 h with hshort | ⟨other, hother, hmissing⟩
  · omega
  · have hlong := (acceptableHeader?_fits hother).1
    rw [acceptableHeader?_append size bytes [byte] hlong, hother] at hheader
    cases hheader
    omega

/-- A header is bad with its sixth byte. -/
theorem mismatch_length {byte : UInt8} (h : ofBytes size bytes = .idle)
    (hbad : ofBytes size (bytes ++ [byte]) = .mismatch) :
    (bytes ++ [byte]).length = headerSize := by
  obtain ⟨hsix, hnone⟩ := ofBytes_mismatch_iff.1 hbad
  rw [List.length_append, List.length_singleton] at hsix ⊢
  rcases ofBytes_idle_iff.1 h with hshort | ⟨other, hother, -⟩
  · omega
  · have hlong := (acceptableHeader?_fits hother).1
    rw [acceptableHeader?_append size bytes [byte] hlong, hother] at hnone
    cases hnone

theorem complete_fits (h : ofBytes size bytes = .complete header) :
    header.frameLength ≤ frameLimit size :=
  (acceptableHeader?_fits (ofBytes_complete_iff.1 h).1).2

end Detection

/-! ### The two sides -/

namespace Ring

variable {size : RingSize}

/-- **The detector reads the oldest bytes of the ring.** -/
theorem detect_eq (r : Ring size) (available : Nat) :
    r.detect available = Detection.ofBytes size (r.toList.take available) := by
  have hlen : (r.toList.take available).length = min available r.occupancy := by
    rw [List.length_take, toList_length]
  simp only [detect, Detection.ofBytes, hlen]
  split
  · rfl
  · rename_i hlong
    have hheader : acceptableHeader? size (r.toList.take available)
        = acceptableHeader? size (r.window 0 headerSize) := by
      rw [window_eq, List.drop_zero, acceptableHeader?_take size _ (by omega),
        acceptableHeader?_take size _ (Nat.le_refl _)]
    rw [hheader, acceptableHeader?]
    cases Header.validate (r.window 0 headerSize) with
    | error e => rfl
    | ok header => by_cases hfits : header.fits size <;> simp [hfits]

end Ring

namespace InFlight

/-- What the receiver remembers of a frame that begins at `start`, after these bytes of it. -/
def ofBytes (size : RingSize) (start : Cursor) (bytes : Bytes) : InFlight where
  start := start
  received := bytes.length
  header := Vector.ofFn fun i => bytes.getD i 0
  frameLength :=
    if bytes.length < headerSize then none
    else (acceptableHeader? size bytes).map Header.frameLength

theorem begin_eq (size : RingSize) (start : Cursor) : begin start = ofBytes size start [] := by
  have hheader : Vector.replicate headerSize 0
      = Vector.ofFn fun i : Fin headerSize => ([] : Bytes).getD i 0 := by
    ext i hi
    simp
  rw [begin, hheader]
  rfl

/-- The header fills up from the front. -/
theorem header_snoc (bytes : Bytes) (byte : UInt8) :
    (Vector.ofFn fun i : Fin headerSize => bytes.getD i 0).setIfInBounds bytes.length byte
      = Vector.ofFn fun i : Fin headerSize => (bytes ++ [byte]).getD i 0 := by
  ext i hi
  simp only [Vector.getElem_setIfInBounds, Vector.getElem_ofFn, List.getD_eq_getElem?_getD,
    List.getElem?_append, List.getElem?_singleton]
  grind

/-- A header of six bytes is kept whole. -/
theorem header_toList (bytes : Bytes) (h : bytes.length = headerSize) :
    (Vector.ofFn fun i : Fin headerSize => bytes.getD i 0).toList = bytes := by
  apply List.ext_getElem
  · simp [h]
  · intro i hi hi'
    simp [List.getD_eq_getElem?_getD, hi']

/-- **The receiver reads the bytes of the frame so far.** -/
theorem track_ofBytes (size : RingSize) (start : Cursor) (bytes : Bytes) (byte : UInt8)
    (h : Detection.ofBytes size bytes = .idle) :
    (ofBytes size start bytes).track size byte
      = match Detection.ofBytes size (bytes ++ [byte]) with
        | .idle => .more (ofBytes size start (bytes ++ [byte]))
        | .complete _ => .complete
        | .mismatch => .rejected := by
  have hlen : (bytes ++ [byte]).length = bytes.length + 1 := by simp
  simp only [track, ofBytes, header_snoc]
  rcases Nat.lt_trichotomy (bytes.length + 1) headerSize with hfew | hsix | hmany
  · have hidle : Detection.ofBytes size (bytes ++ [byte]) = .idle :=
      Detection.ofBytes_idle_iff.2 (.inl (by omega))
    have hshort : bytes.length < headerSize := by omega
    simp [hidle, Nat.ne_of_lt hfew, hshort, hlen, hfew]
  · rw [if_pos hsix, header_toList _ (hlen.trans hsix)]
    simp only [Detection.ofBytes, acceptableHeader?, hlen, hsix]
    cases Header.validate (bytes ++ [byte]) with
    | error e => rfl
    | ok header =>
      have hsmall := header.headerSize_le_frameLength
      by_cases hfits : header.fits size
      · by_cases hwhole : header.frameLength = headerSize
        · simp [hfits, hwhole]
        · have hmore : ¬ header.frameLength ≤ headerSize := by omega
          simp [hfits, hwhole, hmore]
      · simp [hfits]
  · -- The header was read with the sixth byte, and no later byte changes it.
    obtain hshort | ⟨header, hheader, hmissing⟩ := Detection.ofBytes_idle_iff.1 h
    · omega
    · have hkeeps : acceptableHeader? size (bytes ++ [byte]) = some header := by
        rw [acceptableHeader?_append size bytes [byte] (by omega), hheader]
      have hlong : ¬ bytes.length < headerSize := by omega
      simp only [Detection.ofBytes, hlen, hheader, hkeeps, if_neg hlong,
        if_neg (Nat.ne_of_gt hmany), if_neg (Nat.not_lt_of_gt hmany), Option.map_some,
        Option.some.injEq]
      by_cases hwhole : header.frameLength = bytes.length + 1
      · simp [hwhole]
      · have hmore : ¬ header.frameLength ≤ bytes.length + 1 := by omega
        simp [hwhole, hmore]

end InFlight

end MultidropBus
