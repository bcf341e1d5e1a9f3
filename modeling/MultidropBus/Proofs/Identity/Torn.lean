import MultidropBus.Proofs.Identity.Storage
import MultidropBus.Proofs.Node.Moves

/-!
# Torn records

When the power fails while a record is written, only a beginning of it reaches the flash, and behind
that beginning everything is erased. Such a *torn copy* is read field by field like any other bytes.
Up to the tear the fields read as they were meant. The field that was torn may still be read, an
address or a membership out of erased bytes among them, but behind it nothing is left that was ever
written. So after each field what is left is a torn copy of the fields that were meant to follow
(`TornCopy.behind`). The last field is a flag, and an erased byte is no flag: no torn copy is read
to its end (`Identity.decode?_torn`), and a node that finds one starts as if it had found nothing.
-/

namespace MultidropBus

/-- What flash holds where nothing was written. -/
def erasedBytes (n : Nat) : Bytes := List.replicate n 0xFF

/-- Only a beginning of the record was written; behind it the flash is erased. -/
def TornCopy (record bytes : Bytes) : Prop :=
  ∃ written n, written <+: record ∧ written ≠ record ∧ bytes = written ++ erasedBytes n

/-- Of a torn copy of the field the reader leaves erased bytes only, if it makes anything of it. -/
def LeavesErased {α : Type} (read : Bytes → Option (α × Bytes)) (field : Bytes) : Prop :=
  ∀ bytes a rest, TornCopy field bytes → read bytes = some (a, rest) → ∃ n, rest = erasedBytes n

section

variable {α : Type} {read : Bytes → Option (α × Bytes)} {field later bytes rest : Bytes} {a b : α}

theorem erasedBytes_tornCopy (hlater : later ≠ []) (n : Nat) : TornCopy later (erasedBytes n) :=
  ⟨[], n, List.nil_prefix, hlater.symm, rfl⟩

/-- Two fields were torn in the first, or behind it. -/
theorem TornCopy.append_cases (h : TornCopy (field ++ later) bytes) :
    TornCopy field bytes ∨ ∃ left, bytes = field ++ left ∧ TornCopy later left := by
  obtain ⟨written, n, hpart, hcut, rfl⟩ := h
  by_cases hwhole : field <+: written
  · obtain ⟨front, rfl⟩ := hwhole
    refine .inr ⟨front ++ erasedBytes n, List.append_assoc _ _ _, front, n, ?_, ?_, rfl⟩
    · exact (List.prefix_append_right_inj field).1 hpart
    · exact fun hsame => hcut (hsame ▸ rfl)
  · have hinside : written <+: field :=
      (List.prefix_or_prefix_of_prefix (List.prefix_append field later) hpart).resolve_left hwhole
    exact .inl ⟨written, n, hinside, fun hsame => hwhole (hsame ▸ List.prefix_refl _), rfl⟩

/-- **Behind a field of a torn copy stands a torn copy of what follows**, wherever it was torn. -/
theorem TornCopy.behind (h : TornCopy (field ++ later) bytes) (hspells : Spells read field b)
    (hleaves : LeavesErased read field) (hlater : later ≠ [])
    (hread : read bytes = some (a, rest)) : TornCopy later rest := by
  rcases h.append_cases with hinside | ⟨left, rfl, hbehind⟩
  · obtain ⟨n, rfl⟩ := hleaves _ _ _ hinside hread
    exact erasedBytes_tornCopy hlater n
  · rw [hspells] at hread
    cases hread
    exact hbehind

theorem eq_nil_of_torn_byte {byte : UInt8} {written : Bytes} (hpart : written <+: [byte])
    (hcut : written ≠ [byte]) : written = [] := by
  rcases List.prefix_cons_iff.1 hpart with hnone | ⟨more, hwritten, hmore⟩
  · exact hnone
  · rw [hwritten, List.prefix_nil.1 hmore] at hcut
    exact absurd rfl hcut

/-- A field of one byte that was torn was not written at all. -/
theorem TornCopy.byte {byte : UInt8} (h : TornCopy [byte] bytes) : ∃ n, bytes = erasedBytes n := by
  obtain ⟨written, n, hpart, hcut, rfl⟩ := h
  exact ⟨n, by rw [eq_nil_of_torn_byte hpart hcut, List.nil_append]⟩

end

/-! ### Numbers -/

namespace Varint

/-- A number does not end with a byte that says that it goes on. -/
theorem undigits_of_unended {bytes : Bytes} (h : ∀ b ∈ bytes, ¬ b < 128) (room : Nat) :
    undigits room bytes = none := by
  induction room generalizing bytes with
  | zero => rfl
  | succ room ih =>
    cases bytes with
    | nil => rfl
    | cons b rest =>
      obtain ⟨hgoesOn, hrest⟩ := List.forall_mem_cons.1 h
      rw [undigits, if_neg hgoesOn, ih hrest]
      rfl

/-- Every byte of a number but the last says that the number goes on. -/
theorem unended_of_torn_digits {room n : Nat} {written : Bytes} (hpart : written <+: digits room n)
    (hcut : written ≠ digits room n) : ∀ b ∈ written, ¬ b < 128 := by
  induction room generalizing n written with
  | zero => exact absurd (List.prefix_nil.1 hpart) hcut
  | succ room ih =>
    rw [digits] at hpart hcut
    split at hpart
    case isTrue hlast =>
      rw [if_pos hlast] at hcut
      rw [eq_nil_of_torn_byte hpart hcut]
      exact List.forall_mem_nil _
    case isFalse hmore =>
      rw [if_neg hmore] at hcut
      cases written with
      | nil => exact List.forall_mem_nil _
      | cons b front =>
        obtain ⟨rfl, hfront⟩ := List.cons_prefix_cons.1 hpart
        refine List.forall_mem_cons.2 ⟨?_, ih hfront fun hsame => hcut (hsame ▸ rfl)⟩
        simp only [UInt8.lt_iff_toNat_lt, UInt8.toNat_ofNat', UInt8.reduceToNat]
        omega

/-- **A torn number is not read.** Neither the bytes before the tear nor the erased ones end it. -/
theorem read?_torn {width n : Nat} {bytes : Bytes} (h : TornCopy (write width n) bytes) :
    read? width bytes = none := by
  obtain ⟨written, m, hpart, hcut, rfl⟩ := h
  have hunended : ∀ b ∈ written ++ erasedBytes m, ¬ b < 128 := by
    rintro b hb
    rcases List.mem_append.1 hb with hwritten | herased
    · exact unended_of_torn_digits hpart hcut b hwritten
    · rw [List.eq_of_mem_replicate herased]
      decide
  rw [read?, undigits_of_unended hunended]
  rfl

theorem write_leavesErased (width n : Nat) : LeavesErased (read? width) (write width n) := by
  intro bytes a rest h hread
  rw [read?_torn h] at hread
  cases hread

end Varint

/-! ### The other fields -/

theorem byte_leavesErased (byte : UInt8) : LeavesErased readByte? [byte] := by
  intro bytes a rest h hread
  obtain ⟨n, rfl⟩ := h.byte
  cases n with
  | zero => cases hread
  | succ n =>
    cases hread
    exact ⟨n, rfl⟩

/-- An erased byte is no flag. -/
theorem readFlag?_erased (n : Nat) : readFlag? (erasedBytes n) = none := by
  cases n <;> rfl

theorem readFlag?_torn {flag : Bool} {bytes : Bytes} (h : TornCopy [flagByte flag] bytes) :
    readFlag? bytes = none := by
  obtain ⟨n, rfl⟩ := h.byte
  exact readFlag?_erased n

theorem flag_leavesErased (flag : Bool) : LeavesErased readFlag? [flagByte flag] := by
  intro bytes a rest h hread
  rw [readFlag?_torn h] at hread
  cases hread

/-- Memberships that were torn behind their number are read out of erased bytes. -/
theorem GroupList.leavesErased (g : GroupList) : LeavesErased readGroups? g.encode := by
  intro bytes a rest h hread
  have hfew : g.members.length < Nat.pow 2 countWidth :=
    Nat.lt_of_le_of_lt g.length_le (by decide)
  rcases h.append_cases with hcount | ⟨left, rfl, written, n, hpart, hcut, rfl⟩
  · rw [readGroups?, Varint.read?_torn hcount] at hread
    cases hread
  · have hshort : written.length ≤ g.members.length := hpart.length_le
    simp only [readGroups?, Varint.write_spells (by decide) hfew _, Option.bind_eq_bind,
      Option.bind_some, Option.bind_eq_some_iff, Prod.exists] at hread
    obtain ⟨members, behind, hmembers, groups, -, heq⟩ := hread
    cases heq
    rw [readBytes?] at hmembers
    split at hmembers
    · cases hmembers
    · cases hmembers
      refine ⟨n - (g.members.length - written.length), ?_⟩
      rw [List.drop_append, List.drop_of_length_le hshort, List.nil_append, erasedBytes,
        List.drop_replicate, erasedBytes]

/-! ### Whole records -/

namespace Identity

/-- **A torn copy of a record is not read.** Field by field only a torn copy of what should follow
is left, and the last field of that is refused. -/
theorem decode?_torn (c : Identity) {bytes : Bytes} (h : TornCopy c.encode bytes) :
    decode? bytes = none := by
  have hlayout : c.encode = [c.version] ++ ([c.address] ++ (c.groups.encode
      ++ ([flagByte c.promiscuous] ++ (Varint.write baudrateWidth c.baudrate.toNat
      ++ [flagByte c.driveActiveLow])))) := by
    simp only [encode, GroupList.encode, List.append_assoc, List.cons_append, List.nil_append]
  have hbaudrate : Spells (Varint.read? baudrateWidth)
      (Varint.write baudrateWidth c.baudrate.toNat) c.baudrate.toNat :=
    Varint.write_spells (by decide) c.baudrate.toNat_lt
  have hbyte (b : UInt8) : Spells readByte? [b] b := fun _ => rfl
  rw [hlayout] at h
  rw [Option.eq_none_iff_forall_ne_some]
  rintro ⟨found, left⟩ hread
  simp only [decode?, Option.bind_eq_bind, Option.bind_eq_some_iff, Prod.exists] at hread
  obtain ⟨_, r₁, hversion, _, r₂, haddress, _, r₃, hgroups, _, r₄, hpromiscuous, _, r₅, hrate, _,
    r₆, hdrive, -⟩ := hread
  have h₁ := h.behind (hbyte _) (byte_leavesErased _) (by simp) hversion
  have h₂ := h₁.behind (hbyte _) (byte_leavesErased _) (by simp) haddress
  have h₃ := h₂.behind c.groups.encode_spells c.groups.leavesErased (by simp) hgroups
  have h₄ := h₃.behind (flagByte_spells _) (flag_leavesErased _) (by simp) hpromiscuous
  have h₅ := h₄.behind hbaudrate (Varint.write_leavesErased _ _) (by simp) hrate
  rw [readFlag?_torn h₅] at hdrive
  cases hdrive

/-- The checks of an identity never find fault with its layout. -/
theorem validate_ne_deserialize (c : Identity) : c.validate ≠ .error .deserialize := by
  rw [validate]
  split
  · simp
  split
  · simp
  split
  · simp
  · split <;> simp

/-- A beginning of a record lacks the layout of one exactly if it is not all of it. -/
theorem load_eq_deserialize_iff (c : Identity) {written : Bytes} (hpart : written <+: c.encode)
    (n : Nat) : load (written ++ erasedBytes n) = .error .deserialize ↔ written ≠ c.encode := by
  constructor
  · rintro hload rfl
    rw [load_of_decode? (c.encode_spells _)] at hload
    cases hvalid : c.validate with
    | ok u =>
      rw [hvalid] at hload
      cases hload
    | error e =>
      rw [hvalid] at hload
      cases hload
      exact c.validate_ne_deserialize hvalid
  · intro hcut
    rw [load, c.decode?_torn ⟨written, n, hpart, hcut, rfl⟩]

end Identity

/-! ### Torn pages -/

/-- Programmed bytes are read back, and erased ones behind them. -/
theorem Flash.read_program (start : Nat) {bytes : Bytes} {length : Nat}
    (h : bytes.length ≤ length) :
    (erased.program start bytes).read start length
      = .ok (bytes ++ erasedBytes (length - bytes.length)) := by
  refine congrArg Except.ok (List.ext_getElem ?_ ?_)
  · simp only [List.length_map, List.length_range, List.length_append, erasedBytes,
      List.length_replicate]
    omega
  · intro i _ _
    simp only [program, List.getElem_map, List.getElem_range, Nat.add_sub_cancel_left,
      if_neg (Nat.not_lt_of_le (Nat.le_add_right start i)), List.getElem_append, erasedBytes,
      List.getElem_replicate, List.getD_eq_getElem?_getD]
    split
    case isTrue hlt => rw [List.getElem?_eq_getElem hlt, Option.getD_some]
    case isFalse hge => rw [List.getElem?_eq_none (Nat.le_of_not_lt hge), Option.getD_none]; rfl

/-- **A torn record is never mistaken for an identity.** A beginning of a stored record is refused
for its layout unless it is the whole record, with nothing behind it and with erased bytes up to the
size that is read. A flash whose page reads so makes the fallback keypad of the node, at its start
and for good; and a page that was erased reads so after any beginning was written to it. -/
theorem Identity.torn_falls_back (c : Identity) {written : Bytes} (hpart : written <+: c.encode) :
    (load written = .error .deserialize ↔ written ≠ c.encode)
      ∧ (load (written ++ erasedBytes (maxStoredSize - written.length)) = .error .deserialize
        ↔ written ≠ c.encode)
      ∧ (Flash.erased.program identityOffset written).read identityOffset maxStoredSize
        = .ok (written ++ erasedBytes (maxStoredSize - written.length))
      ∧ (written ≠ c.encode → ∀ flash : Flash,
        flash.read identityOffset maxStoredSize
            = .ok (written ++ erasedBytes (maxStoredSize - written.length)) →
          flash.identity = (.keypad fallbackAddress, .identityMissing .deserialize)
            ∧ ∀ board moves,
              ((Node.boot flash board).run moves).identity = .keypad fallbackAddress) := by
  have hbare := c.load_eq_deserialize_iff hpart 0
  rw [erasedBytes, List.replicate_zero, List.append_nil] at hbare
  have hpage := c.load_eq_deserialize_iff hpart (maxStoredSize - written.length)
  have hfits : written.length ≤ maxStoredSize :=
    (hpart.length_le.trans c.encode_length_le).trans (by decide)
  refine ⟨hbare, hpage, Flash.read_program identityOffset hfits, ?_⟩
  intro hcut flash hread
  have hidentity : flash.identity = (.keypad fallbackAddress, .identityMissing .deserialize) := by
    simp only [Flash.identity, hread, hpage.2 hcut]
  refine ⟨hidentity, fun board moves => ?_⟩
  rw [Node.run_identity, Node.boot_identity, hidentity]

/-- A record with two memberships and a speed of three bytes. -/
def gatewayIdentity : Identity := ⟨1, 7, ⟨[60, 100], by decide⟩, false, 115200, true⟩

/-- The record is torn between its memberships: an erased byte is read as the second of them. -/
theorem gatewayIdentity_torn : [1, 7, 2, 60] <+: gatewayIdentity.encode
    ∧ (Flash.erased.program identityOffset [1, 7, 2, 60]).identity
      = (.keypad 29, .identityMissing .deserialize) := by
  have hpart : [1, 7, 2, 60] <+: gatewayIdentity.encode := by decide +kernel
  obtain ⟨-, -, hread, hfallback⟩ := gatewayIdentity.torn_falls_back hpart
  exact ⟨hpart, (hfallback (by decide +kernel) _ hread).1⟩

end MultidropBus
