import FermiSdk.Lib.Codec

/-!
# Compact lengths

The compact-u16 encoding of a length: its 7-bit groups, the lowest first, with the high bit set in
each byte but the last. A number below `128 ^ (k + 1)` takes at most `k + 1` bytes, and no other
does (`length_encode_le_iff`).
-/

namespace FermiSdk.Lib.CompactU16

/-- The groups of `n`, at most `fuel + 1` of them. -/
def groups : Nat → Nat → Bytes
  | 0, n => [UInt8.ofNat n]
  | fuel + 1, n =>
    if n < 128 then [UInt8.ofNat n] else UInt8.ofNat (128 + n % 128) :: groups fuel (n / 128)

/-- Seven bits in a byte, the lowest first. -/
def encode (n : Nat) : Bytes := groups n n

/-- Reading groups up to the first byte without the high bit. -/
def decode : Bytes → Option (Nat × Bytes)
  | [] => none
  | b :: bs =>
    if b.toNat < 128 then some (b.toNat, bs)
    else (decode bs).map fun p => (b.toNat - 128 + 128 * p.1, p.2)

theorem decode_groups (rest : Bytes) {fuel n : Nat} (h : n ≤ fuel) :
    decode (groups fuel n ++ rest) = some (n, rest) := by
  induction fuel generalizing n with
  | zero =>
    obtain rfl : n = 0 := by omega
    rfl
  | succ fuel ih =>
    unfold groups
    split
    · next hn =>
      have hbyte : (UInt8.ofNat n).toNat = n := by
        rw [UInt8.toNat_ofNat']
        omega
      rw [List.singleton_append, decode, hbyte, if_pos hn]
    · next hn =>
      have hbyte : (UInt8.ofNat (128 + n % 128)).toNat = 128 + n % 128 := by
        rw [UInt8.toNat_ofNat']
        omega
      have hvalue : 128 + n % 128 - 128 + 128 * (n / 128) = n := by omega
      rw [List.cons_append, decode, hbyte, if_neg (by omega), ih (by omega), Option.map_some,
        hvalue]

/-- A length below 2^16. -/
def codec : Codec Nat where
  Valid n := n < 2 ^ 16
  encode := encode
  decode := decode
  decode_encode _ rest := decode_groups rest (Nat.le_refl _)

/-- Values in a row with their compact count in front. -/
def counted {α : Type} (c : Codec α) : Codec (List α) where
  Valid l := l.length < 2 ^ 16 ∧ ∀ a ∈ l, c.Valid a
  encode l := codec.encode l.length ++ l.flatMap c.encode
  decode bs := (codec.decode bs).bind fun p => c.decodeMany p.1 p.2
  decode_encode {l} h rest := by
    rw [List.append_assoc, codec.decode_encode h.1, Option.bind_some, c.decodeMany_flatMap rest h.2]

/-! ## Lengths -/

theorem length_groups_pos (fuel n : Nat) : 1 ≤ (groups fuel n).length := by
  cases fuel with
  | zero => exact Nat.le_refl 1
  | succ fuel =>
    unfold groups
    split
    · exact Nat.le_refl 1
    · exact Nat.succ_le_succ (Nat.zero_le _)

theorem length_groups_le_iff {fuel n : Nat} (h : n ≤ fuel) (k : Nat) :
    (groups fuel n).length ≤ k + 1 ↔ n < 128 ^ (k + 1) := by
  induction fuel generalizing n k with
  | zero =>
    obtain rfl : n = 0 := by omega
    simp [groups]
  | succ fuel ih =>
    unfold groups
    split
    · next hn =>
      have hpow : 128 ^ 1 ≤ 128 ^ (k + 1) := Nat.pow_le_pow_right (by decide) (by omega)
      simp only [List.length_singleton]
      omega
    · next hn =>
      rw [List.length_cons]
      cases k with
      | zero =>
        have := length_groups_pos fuel (n / 128)
        omega
      | succ k =>
        rw [Nat.succ_le_succ_iff, ih (by omega), Nat.div_lt_iff_lt_mul (by decide),
          ← Nat.pow_succ]

theorem length_encode_le_iff (n k : Nat) : (encode n).length ≤ k + 1 ↔ n < 128 ^ (k + 1) :=
  length_groups_le_iff (Nat.le_refl n) k

theorem length_encode_pos (n : Nat) : 1 ≤ (encode n).length := length_groups_pos n n

/-- **A length below 2^16 takes one byte below 2^7, two below 2^14, else three.** -/
theorem length_encode {n : Nat} (h : n < 2 ^ 16) :
    (encode n).length = if n < 0x80 then 1 else if n < 0x4000 then 2 else 3 := by
  have hpos := length_encode_pos n
  have hone := length_encode_le_iff n 0
  have htwo := length_encode_le_iff n 1
  have hthree := length_encode_le_iff n 2
  norm_num at hone htwo hthree
  split
  · omega
  · split
    · omega
    · omega

end FermiSdk.Lib.CompactU16
