import MultidropBus.Identity.Record

/-!
# Stored identities come back

A byte string *spells* a value for a reader if the reader takes exactly these bytes off the front of
whatever they stand in front of. What a writer writes spells the value written. Other spellings of
the same value may exist, since numbers may be written longer than necessary, but none of them is
shorter than the one that is written. Both facts are proved for one field after the other and then
for the whole record (`Identity.encode_spells`, `Identity.decode?_spelling`). So an identity that is
stored is read back whatever follows it, and storing what was read never takes more room than it
had.
-/

namespace MultidropBus

/-- The reader takes exactly these bytes off the front, and reads them as `a`. -/
def Spells {α : Type} (read : Bytes → Option (α × Bytes)) (spelling : Bytes) (a : α) : Prop :=
  ∀ rest, read (spelling ++ rest) = some (a, rest)

/-! ### Numbers -/

namespace Varint

/-- A number is never spelled with fewer bytes than it is written with. -/
theorem undigits_spelling {room n : Nat} {bytes rest : Bytes}
    (h : undigits room bytes = some (n, rest)) :
    ∃ spelling, bytes = spelling ++ rest ∧ Spells (undigits room) spelling n
      ∧ (digits room n).length ≤ spelling.length := by
  induction room generalizing bytes n with
  | zero => cases h
  | succ room ih =>
    cases bytes with
    | nil => cases h
    | cons b tail =>
      rw [undigits] at h
      by_cases hlast : b < 128
      · rw [if_pos hlast] at h
        cases h
        have hsmall : b.toNat < 128 := hlast
        refine ⟨[b], rfl, ?_, ?_⟩
        · intro rest
          rw [List.singleton_append, undigits, if_pos hlast]
        · rw [digits, if_pos hsmall]
          exact Nat.le_refl 1
      · rw [if_neg hlast] at h
        obtain ⟨⟨m, left⟩, htail, heq⟩ := Option.map_eq_some_iff.1 h
        cases heq
        obtain ⟨spelling, rfl, hspells, hle⟩ := ih htail
        refine ⟨b :: spelling, rfl, ?_, ?_⟩
        · intro rest
          rw [List.cons_append, undigits, if_neg hlast, hspells rest]
          rfl
        · have hbyte := b.toNat_lt
          have hrest : (b.toNat - 128 + 128 * m) / 128 = m := by omega
          rw [digits]
          split
          · exact Nat.le_add_left 1 _
          · rw [hrest]
            exact Nat.succ_le_succ hle

theorem pow_le_of_maxBytes (width : Nat) : Nat.pow 2 width ≤ Nat.pow 128 (maxBytes width) := by
  show 2 ^ width ≤ (2 ^ 7) ^ ((width + 6) / 7)
  rw [← Nat.pow_mul]
  exact Nat.pow_le_pow_right (by decide) (by omega)

/-- What is written spells the number, if it has no more bits than the width. -/
theorem write_spells {width n : Nat} (hpos : 0 < width) (h : n < Nat.pow 2 width) :
    Spells (read? width) (write width n) n := by
  intro rest
  obtain ⟨room, hroom⟩ : ∃ room, maxBytes width = room + 1 :=
    Nat.exists_eq_add_of_le' (by rw [maxBytes]; omega)
  have hfits := Nat.lt_of_lt_of_le h (pow_le_of_maxBytes width)
  rw [hroom] at hfits
  rw [read?, write, hroom, undigits_digits room n rest hfits]
  exact Option.filter_some_pos (decide_eq_true h)

theorem read?_spelling {width n : Nat} {bytes rest : Bytes}
    (h : read? width bytes = some (n, rest)) :
    n < Nat.pow 2 width ∧ ∃ spelling, bytes = spelling ++ rest
      ∧ Spells (read? width) spelling n ∧ (write width n).length ≤ spelling.length := by
  obtain ⟨hread, hsmall⟩ := Option.filter_eq_some_iff.1 h
  obtain ⟨spelling, hbytes, hspells, hle⟩ := undigits_spelling hread
  refine ⟨of_decide_eq_true hsmall, spelling, hbytes, ?_, hle⟩
  intro rest
  rw [read?, hspells rest]
  exact Option.filter_some_pos hsmall

/-- A number takes no more bytes than its width allows for. -/
theorem digits_length_le (room n : Nat) : (digits room n).length ≤ room := by
  induction room generalizing n with
  | zero => exact Nat.le_refl 0
  | succ room ih =>
    rw [digits]
    split
    · exact Nat.le_add_left 1 room
    · exact Nat.succ_le_succ (ih _)

end Varint

/-! ### The other fields -/

theorem readByte?_spelling {b : UInt8} {bytes rest : Bytes}
    (h : readByte? bytes = some (b, rest)) : bytes = b :: rest := by
  cases bytes with
  | nil => cases h
  | cons first tail =>
    cases h
    rfl

theorem flagByte_spells (flag : Bool) : Spells readFlag? [flagByte flag] flag := by
  intro rest
  cases flag <;> rfl

theorem readFlag?_spelling {flag : Bool} {bytes rest : Bytes}
    (h : readFlag? bytes = some (flag, rest)) : bytes = flagByte flag :: rest := by
  cases bytes with
  | nil => cases h
  | cons b tail =>
    rw [readFlag?] at h
    by_cases hzero : b = 0
    · rw [if_pos hzero] at h
      cases h
      rw [hzero]
      rfl
    · rw [if_neg hzero] at h
      by_cases hone : b = 1
      · rw [if_pos hone] at h
        cases h
        rw [hone]
        rfl
      · rw [if_neg hone] at h
        cases h

/-- The memberships as they stand in a record. -/
def GroupList.encode (g : GroupList) : Bytes :=
  Varint.write countWidth g.members.length ++ g.members

theorem GroupList.ofList?_members (g : GroupList) : ofList? g.members = some g :=
  dif_pos g.length_le

theorem GroupList.members_of_ofList? {members : List Address} {g : GroupList}
    (h : ofList? members = some g) : g.members = members := by
  rw [ofList?] at h
  split at h
  · cases h
    rfl
  · cases h

/-- Memberships are read wherever their number is spelled in front of them. -/
theorem GroupList.spells {g : GroupList} {count : Bytes}
    (hcount : Spells (Varint.read? countWidth) count g.members.length) :
    Spells readGroups? (count ++ g.members) g := by
  intro rest
  have hmembers : readBytes? g.members.length (g.members ++ rest) = some (g.members, rest) := by
    rw [readBytes?, if_neg (by rw [List.length_append]; omega), List.take_left, List.drop_left]
  rw [readGroups?, List.append_assoc, hcount]
  simp only [Option.bind_eq_bind, Option.bind_some, hmembers, g.ofList?_members]

theorem GroupList.encode_spells (g : GroupList) : Spells readGroups? g.encode g := by
  have hfew := g.length_le
  refine GroupList.spells (Varint.write_spells (by decide) ?_)
  exact Nat.lt_of_le_of_lt hfew (by decide)

theorem readGroups?_spelling {g : GroupList} {bytes rest : Bytes}
    (h : readGroups? bytes = some (g, rest)) :
    ∃ spelling, bytes = spelling ++ rest ∧ Spells readGroups? spelling g
      ∧ g.encode.length ≤ spelling.length := by
  simp only [readGroups?, Option.bind_eq_bind, Option.bind_eq_some_iff, Prod.exists] at h
  obtain ⟨n, behind, hcount, members, left, hmembers, groups, hgroups, heq⟩ := h
  cases heq
  obtain ⟨-, count, rfl, hspells, hle⟩ := Varint.read?_spelling hcount
  have hsame := GroupList.members_of_ofList? hgroups
  rw [readBytes?] at hmembers
  split at hmembers
  · cases hmembers
  · rename_i hlong
    cases hmembers
    have hlen : g.members.length = n := by
      rw [hsame, List.length_take]
      omega
    refine ⟨count ++ g.members, ?_, GroupList.spells (hlen ▸ hspells), ?_⟩
    · rw [hsame, List.append_assoc, List.take_append_drop]
    · rw [GroupList.encode, hlen, List.length_append, List.length_append]
      omega

/-! ### Whole records -/

namespace Identity

/-- A record is read field by field, however its two numbers are spelled. -/
theorem spells {c : Identity} {groups baudrate : Bytes}
    (hgroups : Spells readGroups? groups c.groups)
    (hbaudrate : Spells (Varint.read? baudrateWidth) baudrate c.baudrate.toNat) :
    Spells decode? ([c.version, c.address] ++ groups ++ [flagByte c.promiscuous] ++ baudrate
      ++ [flagByte c.driveActiveLow]) c := by
  intro rest
  simp only [List.append_assoc, List.cons_append, List.nil_append, decode?, readByte?,
    Option.bind_eq_bind, Option.bind_some, hgroups _]
  rw [← List.singleton_append, flagByte_spells]
  simp only [Option.bind_some, hbaudrate _]
  rw [← List.singleton_append, flagByte_spells]
  simp only [Option.bind_some, UInt32.ofNat_toNat]

/-- **What is stored spells the identity.** -/
theorem encode_spells (c : Identity) : Spells decode? c.encode c := by
  have hbaudrate : Spells (Varint.read? baudrateWidth)
      (Varint.write baudrateWidth c.baudrate.toNat) c.baudrate.toNat :=
    Varint.write_spells (by decide) c.baudrate.toNat_lt
  have hrecord := spells c.groups.encode_spells hbaudrate
  rw [GroupList.encode] at hrecord
  rw [encode, List.append_assoc [c.version, c.address]]
  exact hrecord

/-- **No spelling of an identity is shorter than what is stored for it.** -/
theorem decode?_spelling {c : Identity} {bytes rest : Bytes}
    (h : decode? bytes = some (c, rest)) :
    ∃ spelling, bytes = spelling ++ rest ∧ Spells decode? spelling c
      ∧ c.encode.length ≤ spelling.length := by
  simp only [decode?, Option.bind_eq_bind, Option.bind_eq_some_iff, Prod.exists] at h
  obtain ⟨version, r₁, hversion, address, r₂, haddress, groups, r₃, hgroups, promiscuous, r₄,
    hpromiscuous, n, r₅, hbaudrate, driveActiveLow, r₆, hdrive, heq⟩ := h
  cases heq
  obtain ⟨count, rfl, hcount, hcountLe⟩ := readGroups?_spelling hgroups
  obtain ⟨hsmall, rate, rfl, hrate, hrateLe⟩ := Varint.read?_spelling hbaudrate
  have hvalue : (UInt32.ofNat n).toNat = n := UInt32.toNat_ofNat_of_lt' hsmall
  have hrecord := spells (c := ⟨version, address, groups, promiscuous, UInt32.ofNat n,
    driveActiveLow⟩) hcount (hvalue.symm ▸ hrate)
  refine ⟨_, ?_, hrecord, ?_⟩
  · rw [readByte?_spelling hversion, readByte?_spelling haddress, readFlag?_spelling hpromiscuous,
      readFlag?_spelling hdrive]
    simp
  · rw [GroupList.encode, List.length_append] at hcountLe
    simp only [encode, hvalue, List.length_append, List.length_cons, List.length_nil]
    omega

theorem encode_length_le (c : Identity) : c.encode.length ≤ 14 := by
  have hfew : c.groups.members.length ≤ 4 := c.groups.length_le
  have hcount : Varint.write countWidth c.groups.members.length
      = [UInt8.ofNat c.groups.members.length] := by
    rw [Varint.write]
    exact if_pos (by omega)
  have hrate : (Varint.write baudrateWidth c.baudrate.toNat).length ≤ 5 :=
    Varint.digits_length_le _ _
  simp only [encode, hcount, List.length_append, List.length_cons, List.length_nil]
  omega

/-- A record that is laid out well is taken if the identity passes its checks. -/
theorem load_of_decode? {c : Identity} {bytes rest : Bytes}
    (h : decode? bytes = some (c, rest)) :
    load bytes = match c.validate with
      | .ok () => .ok c
      | .error e => .error e := by
  by_cases hversion : c.version ≠ identityVersion
  · have hvalid : c.validate = .error .versionMismatch := by rw [validate, if_pos hversion]
    simp only [load, h, if_pos hversion, hvalid]
  · cases hvalid : c.validate with
    | ok u => simp only [load, h, if_neg hversion, hvalid]
    | error e => simp only [load, h, if_neg hversion, hvalid]

theorem store_eq_ok_iff (c : Identity) (room : Nat) (stored : Bytes) :
    c.store room = .ok stored ↔ c.encode.length ≤ room ∧ stored = c.encode := by
  rw [store]
  split
  · rename_i hroom
    rw [Except.ok.injEq]
    exact ⟨fun h => ⟨hroom, h.symm⟩, fun h => h.2.symm⟩
  · rename_i hroom
    exact ⟨(fun h => nomatch h), fun h => absurd h.1 hroom⟩

theorem decode?_of_load {c : Identity} {bytes : Bytes} (h : load bytes = .ok c) :
    c.validate = .ok () ∧ ∃ rest, decode? bytes = some (c, rest) := by
  cases hdecode : decode? bytes with
  | none =>
    rw [load, hdecode] at h
    cases h
  | some found =>
    obtain ⟨found, rest⟩ := found
    rw [load_of_decode? hdecode] at h
    cases hvalid : found.validate with
    | ok u =>
      rw [hvalid] at h
      cases h
      exact ⟨hvalid, rest, rfl⟩
    | error e =>
      rw [hvalid] at h
      cases h

/-- **The stored form decodes to what was stored.** A buffer takes it exactly if it is long enough,
and fourteen bytes always are. Whatever follows it, it is read back as the identity it was made
from, or as the error that this identity fails its checks with. And what was read from any bytes
passes its checks, and comes back from a record no longer than the bytes that spelled it. -/
theorem stored_comes_back (c : Identity) :
    (∀ room stored, c.store room = .ok stored ↔ c.encode.length ≤ room ∧ stored = c.encode)
      ∧ c.encode.length ≤ 14 ∧ c.store maxStoredSize = .ok c.encode
      ∧ (∀ room stored rest, c.store room = .ok stored →
        load (stored ++ rest) = match c.validate with
          | .ok () => .ok c
          | .error e => .error e)
      ∧ ∀ bytes, load bytes = .ok c → c.validate = .ok ()
        ∧ ∃ spelling rest, bytes = spelling ++ rest ∧ Spells decode? spelling c
          ∧ c.encode.length ≤ spelling.length
          ∧ ∀ room, c.encode.length ≤ room →
            ∃ stored, c.store room = .ok stored ∧ load stored = .ok c := by
  have hshort := c.encode_length_le
  have hstore (room : Nat) (h : c.encode.length ≤ room) : c.store room = .ok c.encode :=
    (c.store_eq_ok_iff room c.encode).2 ⟨h, rfl⟩
  refine ⟨c.store_eq_ok_iff, hshort, hstore _ (Nat.le_trans hshort (by decide)), ?_, ?_⟩
  · intro room stored rest hstored
    rw [((c.store_eq_ok_iff room stored).1 hstored).2]
    exact load_of_decode? (c.encode_spells rest)
  · intro bytes hload
    obtain ⟨hvalid, rest, hdecode⟩ := decode?_of_load hload
    obtain ⟨spelling, hbytes, hspells, hle⟩ := decode?_spelling hdecode
    refine ⟨hvalid, spelling, rest, hbytes, hspells, hle, ?_⟩
    intro room hroom
    refine ⟨c.encode, hstore room hroom, ?_⟩
    have hagain := load_of_decode? (c.encode_spells [])
    rw [List.append_nil, hvalid] at hagain
    exact hagain

/-- A record that spells its number of memberships with three bytes and its speed with five, and
two bytes behind it. -/
def wideRecord : Bytes := [1, 5, 129, 128, 0, 60, 0, 128, 203, 128, 128, 0, 1, 7, 7]

theorem wideRecord_comes_back :
    load wideRecord = .ok ⟨1, 5, ⟨[60], by decide⟩, false, 9600, true⟩
      ∧ encode ⟨1, 5, ⟨[60], by decide⟩, false, 9600, true⟩ = [1, 5, 1, 60, 0, 128, 75, 1]
      ∧ load [1, 5, 1, 60, 0, 128, 75, 1, 9]
        = .ok ⟨1, 5, ⟨[60], by decide⟩, false, 9600, true⟩ := by
  have hload : load wideRecord = .ok ⟨1, 5, ⟨[60], by decide⟩, false, 9600, true⟩ := rfl
  obtain ⟨-, -, hstored, hback, hread⟩ :=
    stored_comes_back ⟨1, 5, ⟨[60], by decide⟩, false, 9600, true⟩
  obtain ⟨hvalid, -⟩ := hread wideRecord hload
  refine ⟨hload, by decide +kernel, ?_⟩
  have hagain := hback maxStoredSize _ [9] hstored
  rw [hvalid] at hagain
  exact hagain

end Identity

end MultidropBus
