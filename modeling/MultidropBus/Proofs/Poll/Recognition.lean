import MultidropBus.Poll.Message
import MultidropBus.Proofs.Frame.RoundTrip

/-!
# Recognising poll messages

A payload carries a message exactly if it starts with the payload of that message. The three words
are of one length, so no payload starts with two of them, and the order in which they are looked for
does not matter. Whatever a master pads its requests with is not looked at, while a `pong` is none
without its count.

A message is put together in a vector that refuses what does not fit it, and nobody looks whether it
did. No message is too long for that vector.
-/

namespace MultidropBus

/-- Adds bytes to a vector with room for `room` bytes: all of them, or none if they do not fit. -/
def extendWithin (room : Nat) (bytes more : Bytes) : Bytes :=
  if bytes.length + more.length ≤ room then bytes ++ more else bytes

namespace PollMessage

/-- The word that a message starts with. -/
def word : PollMessage → Bytes
  | ping => pingWord
  | pong _ => pongWord
  | send => sendWord

/-- What follows the word. -/
def argument : PollMessage → Bytes
  | pong pending => [pending]
  | ping | send => []

/-- The message put together in a vector with room for the longest one, its word first. -/
def fill (m : PollMessage) : Bytes :=
  extendWithin maxSize (extendWithin maxSize [] m.word) m.argument

variable {m : PollMessage} {payload : Bytes}

theorem payload_eq (m : PollMessage) : m.payload = m.word ++ m.argument := by
  cases m with
  | ping => exact (List.append_nil _).symm
  | pong pending => rfl
  | send => exact (List.append_nil _).symm

/-- Nothing of a message is cut off. -/
theorem fill_eq_payload (m : PollMessage) : m.fill = m.payload := by
  have hfits := m.payload_length_le
  rw [payload_eq, List.length_append] at hfits
  have hword : extendWithin maxSize [] m.word = m.word := by
    rw [extendWithin, List.nil_append, List.length_nil, if_pos (by omega)]
  rw [fill, hword, extendWithin, if_pos hfits, payload_eq]

/-! ### Recognition -/

/-- A payload starts with at most one word of a given length. -/
theorem not_prefix_of_ne {word other : Bytes} (h : word <+: payload)
    (hlen : word.length = other.length) (hne : word ≠ other) : ¬ other <+: payload := by
  intro hother
  have hle : word.length ≤ other.length := Nat.le_of_eq hlen
  exact hne ((List.prefix_of_prefix_length_le h hother hle).eq_of_length hlen)

/-- Behind a word stands its argument, if there is any byte at all. -/
theorem snoc_prefix_iff {word : Bytes} {byte : UInt8} :
    word ++ [byte] <+: payload ↔ word <+: payload ∧ payload[word.length]? = some byte := by
  constructor
  · rintro ⟨rest, rfl⟩
    rw [List.append_assoc]
    exact ⟨List.prefix_append _ _, by simp⟩
  · rintro ⟨⟨rest, rfl⟩, hbyte⟩
    rw [List.getElem?_append_right (Nat.le_refl _), Nat.sub_self] at hbyte
    obtain ⟨rest, rfl⟩ := List.head?_eq_some_iff.1 (List.head?_eq_getElem?.trans hbyte)
    exact (List.prefix_append_right_inj word).2 (List.cons_prefix_cons.2 ⟨rfl, List.nil_prefix⟩)

theorem payload_prefix_of_ofPayload? (h : ofPayload? payload = some m) : m.payload <+: payload := by
  simp only [ofPayload?, List.isPrefixOf_iff_prefix] at h
  split at h
  case isTrue hping =>
    cases h
    exact hping
  case isFalse =>
    split at h
    case isTrue hsend =>
      cases h
      exact hsend
    case isFalse =>
      split at h
      case isTrue hpong =>
        obtain ⟨pending, hbyte, rfl⟩ := Option.map_eq_some_iff.1 h
        exact snoc_prefix_iff.2 ⟨hpong, hbyte⟩
      case isFalse => cases h

theorem ofPayload?_of_payload_prefix (h : m.payload <+: payload) : ofPayload? payload = some m := by
  simp only [ofPayload?, List.isPrefixOf_iff_prefix]
  cases m with
  | ping =>
    have hping : pingWord <+: payload := h
    rw [if_pos hping]
  | send =>
    have hsend : sendWord <+: payload := h
    have hping : ¬ pingWord <+: payload := not_prefix_of_ne hsend rfl (by decide)
    rw [if_neg hping, if_pos hsend]
  | pong pending =>
    obtain ⟨hpong, hbyte⟩ := snoc_prefix_iff.1 h
    have hping : ¬ pingWord <+: payload := not_prefix_of_ne hpong rfl (by decide)
    have hsend : ¬ sendWord <+: payload := not_prefix_of_ne hpong rfl (by decide)
    rw [if_neg hping, if_neg hsend, if_pos hpong, hbyte]
    rfl

/-- **A payload carries a message exactly if it starts with it.** -/
theorem ofPayload?_eq_some_iff : ofPayload? payload = some m ↔ m.payload <+: payload :=
  ⟨payload_prefix_of_ofPayload?, ofPayload?_of_payload_prefix⟩

/-! ### Frames -/

theorem ofFrame?_eq_some_iff {f : Frame} : ofFrame? f = some m ↔ m.payload <+: f.payload :=
  ofPayload?_eq_some_iff

/-- A frame made of a message is whole, and the message is read out of it again. -/
theorem ofFrame?_encode (m : PollMessage) (destination source : Address) :
    ∃ bytes frame, m.encode destination source = .ok bytes ∧ Frame.parse bytes = .ok frame
      ∧ frame.destination = destination ∧ frame.source = source ∧ frame.payload = m.payload
      ∧ ofFrame? frame = some m := by
  have hlen : m.payload.length ≤ maxPayloadSize := Nat.le_trans m.payload_length_le (by decide)
  refine ⟨_, _, (Frame.encode_eq_ok_iff _ _ _ _).2 ⟨hlen, rfl⟩,
    Frame.parse_wire destination source hlen, rfl, rfl, rfl, ?_⟩
  exact ofFrame?_eq_some_iff.2 (List.prefix_refl _)

/-- **Poll messages are recognised by how a payload starts, and by nothing else.** A payload starts
with at most one of them, so what follows it does not matter, neither behind the bare payload of the
message nor in a frame. Putting it together cuts nothing off. -/
theorem recognised_by_start (m : PollMessage) :
    (∀ payload, ofPayload? payload = some m ↔ m.payload <+: payload)
      ∧ (∀ payload other, m.payload <+: payload → other.payload <+: payload → other = m)
      ∧ m.fill = m.payload
      ∧ (∀ trailing, ofPayload? (m.payload ++ trailing) = some m)
      ∧ ∀ destination source, ∃ bytes frame,
        m.encode destination source = .ok bytes ∧ Frame.parse bytes = .ok frame
          ∧ frame.destination = destination ∧ frame.source = source ∧ frame.payload = m.payload
          ∧ ofFrame? frame = some m := by
  refine ⟨fun _ => ofPayload?_eq_some_iff, fun payload other hm hother => ?_, m.fill_eq_payload,
    fun trailing => ofPayload?_eq_some_iff.2 (List.prefix_append _ _), m.ofFrame?_encode⟩
  have hsame : some other = some m :=
    (ofPayload?_eq_some_iff.2 hother).symm.trans (ofPayload?_eq_some_iff.2 hm)
  exact Option.some.inj hsame

/-- A padded `pong` is one, and a `pong` without its count is not. -/
example : ofPayload? [0x70, 0x6F, 0x6E, 0x67, 3, 0, 0] = some (.pong 3)
    ∧ ofPayload? [0x70, 0x6F, 0x6E, 0x67] = none := by
  decide

end PollMessage

end MultidropBus
