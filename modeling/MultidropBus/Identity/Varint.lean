import MultidropBus.Bytes

/-!
# Variable-length numbers

A number is written in groups of seven bits, lowest first. Every byte but the last has its high bit
set. A number of `width` bits has at most ⌈`width` / 7⌉ bytes. Reading accepts longer spellings than
writing produces, as long as they stay within that many bytes and the value stays below `2 ^ width`.
-/

namespace MultidropBus.Varint

/-- The number of bytes that a number of `width` bits can take. -/
def maxBytes (width : Nat) : Nat := (width + 6) / 7

/-- The shortest spelling of a number in at most the given number of bytes. -/
def digits : Nat → Nat → Bytes
  | 0, _ => []
  | room + 1, n =>
    if n < 128 then [UInt8.ofNat n] else UInt8.ofNat (n % 128 + 128) :: digits room (n / 128)

def write (width n : Nat) : Bytes := digits (maxBytes width) n

/-- The number at the start of a byte string, if it ends within the given number of bytes, and the
bytes after it. -/
def undigits : Nat → Bytes → Option (Nat × Bytes)
  | 0, _ => none
  | _, [] => none
  | room + 1, b :: rest =>
    if b < 128 then some (b.toNat, rest)
    else (undigits room rest).map fun (n, rest) => (b.toNat - 128 + 128 * n, rest)

/-- The number of `width` bits at the start of a byte string, and the bytes after it. -/
def read? (width : Nat) (bytes : Bytes) : Option (Nat × Bytes) :=
  (undigits (maxBytes width) bytes).filter (·.1 < Nat.pow 2 width)

theorem undigits_digits (room n : Nat) (rest : Bytes) (h : n < Nat.pow 128 (room + 1)) :
    undigits (room + 1) (digits (room + 1) n ++ rest) = some (n, rest) := by
  induction room generalizing n with
  | zero =>
    have hn : n < 128 := by simpa using h
    have hb : UInt8.ofNat n < 128 := by simp [UInt8.lt_iff_toNat_lt]; omega
    have hv : n % 256 = n := by omega
    simp [digits, undigits, hn, hb, hv]
  | succ room ih =>
    by_cases hn : n < 128
    · have hb : UInt8.ofNat n < 128 := by simp [UInt8.lt_iff_toNat_lt]; omega
      have hv : n % 256 = n := by omega
      simp [digits, undigits, hn, hb, hv]
    · have hb : ¬ UInt8.ofNat (n % 128 + 128) < 128 := by simp [UInt8.lt_iff_toNat_lt]; omega
      have hdiv : n / 128 < Nat.pow 128 (room + 1) := by
        change n < 128 ^ (room + 1) * 128 at h
        show n / 128 < 128 ^ (room + 1)
        omega
      rw [digits, if_neg hn, List.cons_append, undigits, if_neg hb, ih _ hdiv]
      simp only [Option.map_some, UInt8.toNat_ofNat']
      congr 2
      omega

end MultidropBus.Varint
