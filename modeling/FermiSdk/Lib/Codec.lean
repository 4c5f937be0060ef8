import Mathlib.Data.List.Basic
import Mathlib.Data.List.Infix
import Mathlib.Tactic.Common
import Mathlib.Tactic.Linarith
import Mathlib.Tactic.Ring

/-!
# Byte codecs

A codec is an encoder with the decoder that reads its output off the front of any bytes
(`Codec.decode_encode`). Codecs are closed under concatenation (`Codec.pair`), change of type
(`Codec.imap`) and counted repetition (`Codec.counted`), so that a format is written down once, as
one codec, and is then

* lossless: `Codec.decodeAll_encode`, and
* unambiguous: `Codec.encode_append_inj`, also when it is followed by other data, or repeated
  without a count (`Codec.flatMap_encode_inj`).

Formats with different tags in front are told apart by the tags (`ne_of_tags`).
-/

namespace FermiSdk.Lib

/-- A sequence of bytes. -/
abbrev Bytes := List UInt8

/-! ## Little-endian integers -/

/-- The `w` low bytes of `n`, least significant first. -/
def leBytes : Nat → Nat → Bytes
  | 0, _ => []
  | w + 1, n => UInt8.ofNat n :: leBytes w (n / 256)

/-- The number whose bytes these are, least significant first. -/
def leNat : Bytes → Nat
  | [] => 0
  | b :: bs => b.toNat + 256 * leNat bs

/-- The number whose two's complement bytes these are, least significant first. -/
def leInt (bs : Bytes) : Int :=
  if 2 * leNat bs < 256 ^ bs.length then leNat bs else leNat bs - 256 ^ bs.length

@[simp] theorem length_leBytes (w n : Nat) : (leBytes w n).length = w := by
  induction w generalizing n with
  | zero => rfl
  | succ w ih => rw [leBytes, List.length_cons, ih]

theorem leNat_leBytes {w n : Nat} (h : n < 256 ^ w) : leNat (leBytes w n) = n := by
  induction w generalizing n with
  | zero => simp_all [leBytes, leNat]
  | succ w ih =>
    have hdiv : n / 256 < 256 ^ w := by
      rw [Nat.div_lt_iff_lt_mul (by decide), ← Nat.pow_succ]
      exact h
    rw [leBytes, leNat, ih hdiv, UInt8.toNat_ofNat']
    omega

theorem leNat_lt (bs : Bytes) : leNat bs < 256 ^ bs.length := by
  induction bs with
  | nil => exact Nat.one_pos
  | cons b bs ih =>
    have hb := b.toNat_lt
    rw [leNat, List.length_cons, Nat.pow_succ]
    omega

/-- An integer in the two's complement range of `w` bytes is read back from its residue. -/
theorem leInt_leBytes {w : Nat} {n : Int} (hlo : -(256 ^ w) ≤ 2 * n) (hhi : 2 * n < 256 ^ w) :
    leInt (leBytes w (n % 256 ^ w).toNat) = n := by
  have hpos : (0 : Int) < 256 ^ w := by positivity
  have hm := Int.emod_nonneg n hpos.ne'
  have hlt : (n % 256 ^ w).toNat < 256 ^ w := by
    zify
    rw [Int.toNat_of_nonneg hm]
    exact Int.emod_lt_of_pos n hpos
  rw [leInt, leNat_leBytes hlt, length_leBytes]
  zify
  rw [Int.toNat_of_nonneg hm]
  rcases le_or_gt 0 n with h | h
  · rw [Int.emod_eq_of_lt h (by linarith), if_pos hhi]
  · have e : n % 256 ^ w = n + 256 ^ w := by
      rw [← Int.add_emod_right, Int.emod_eq_of_lt (by linarith) (by linarith)]
    rw [e, if_neg (by linarith), Int.add_sub_cancel]

/-! The bytes of a number are the ones that it was read from. -/

theorem leBytes_leNat (bs : Bytes) : leBytes bs.length (leNat bs) = bs := by
  induction bs with
  | nil => rfl
  | cons b bs ih =>
    have hb := b.toNat_lt
    have hlow : UInt8.ofNat (b.toNat + 256 * leNat bs) = b := by
      rw [← UInt8.toNat_inj, UInt8.toNat_ofNat']
      omega
    have hhigh : (b.toNat + 256 * leNat bs) / 256 = leNat bs := by omega
    rw [leNat, List.length_cons, leBytes, hlow, hhigh, ih]

/-- The residue of the number that two's complement bytes stand for. -/
theorem leInt_emod (bs : Bytes) : leInt bs % 256 ^ bs.length = leNat bs := by
  have hlt : (leNat bs : Int) < 256 ^ bs.length := by exact_mod_cast leNat_lt bs
  have hmod : (leNat bs : Int) % 256 ^ bs.length = leNat bs :=
    Int.emod_eq_of_lt (Int.natCast_nonneg _) hlt
  unfold leInt
  split
  · exact hmod
  · rw [Int.sub_emod_right, hmod]

theorem leBytes_leInt (bs : Bytes) :
    leBytes bs.length (leInt bs % 256 ^ bs.length).toNat = bs := by
  rw [leInt_emod, Int.toNat_natCast, leBytes_leNat]

/-! ## Codecs -/

/-- An encoding of the valid values of `α`, and the decoder that reads one off the front. -/
structure Codec (α : Type) where
  Valid : α → Prop
  encode : α → Bytes
  decode : Bytes → Option (α × Bytes)
  decode_encode {a : α} (h : Valid a) (rest : Bytes) :
    decode (encode a ++ rest) = some (a, rest)

namespace Codec

variable {α β : Type}

/-- Decoding of a whole input. -/
def decodeAll (c : Codec α) (bs : Bytes) : Option α :=
  match c.decode bs with
  | some (a, []) => some a
  | _ => none

theorem decodeAll_encode (c : Codec α) {a : α} (h : c.Valid a) :
    c.decodeAll (c.encode a) = some a := by
  have := c.decode_encode h []
  rw [List.append_nil] at this
  rw [decodeAll, this]

/-- **An encoding is unambiguous**, whatever follows it. -/
theorem encode_append_inj (c : Codec α) {a b : α} {r s : Bytes} (ha : c.Valid a) (hb : c.Valid b)
    (h : c.encode a ++ r = c.encode b ++ s) : a = b ∧ r = s := by
  have := c.decode_encode ha r
  rw [h, c.decode_encode hb s, Option.some_inj, Prod.mk.injEq] at this
  exact ⟨this.1.symm, this.2.symm⟩

theorem encode_inj (c : Codec α) {a b : α} (ha : c.Valid a) (hb : c.Valid b)
    (h : c.encode a = c.encode b) : a = b :=
  (c.encode_append_inj (r := []) (s := []) ha hb (by rw [h])).1

/-- Bytes are the encoding of a valid value. -/
def Encodes (c : Codec α) (a : α) (bs : Bytes) : Prop := c.Valid a ∧ bs = c.encode a

theorem Encodes.inj {c : Codec α} {a b : α} {bs : Bytes} (ha : c.Encodes a bs)
    (hb : c.Encodes b bs) : a = b :=
  c.encode_inj ha.1 hb.1 (ha.2.symm.trans hb.2)

/-- A list of encodings without a count is unambiguous if no encoding is empty. -/
theorem flatMap_encode_inj (c : Codec α) (hne : ∀ a, c.encode a ≠ []) :
    ∀ {l m : List α}, (∀ a ∈ l, c.Valid a) → (∀ a ∈ m, c.Valid a) →
      l.flatMap c.encode = m.flatMap c.encode → l = m
  | [], [], _, _, _ => rfl
  | [], b :: m, _, _, h => by
    rw [List.flatMap_nil, List.flatMap_cons] at h
    exact absurd (List.append_eq_nil_iff.1 h.symm).1 (hne b)
  | a :: l, [], _, _, h => by
    rw [List.flatMap_nil, List.flatMap_cons] at h
    exact absurd (List.append_eq_nil_iff.1 h).1 (hne a)
  | a :: l, b :: m, hl, hm, h => by
    rw [List.flatMap_cons, List.flatMap_cons] at h
    obtain ⟨rfl, htail⟩ := c.encode_append_inj (hl a (by simp)) (hm b (by simp)) h
    rw [flatMap_encode_inj c hne (fun x hx => hl x (by simp [hx]))
      (fun x hx => hm x (by simp [hx])) htail]

/-! ## Building blocks -/

/-- `n` bytes as they are. -/
def raw (n : Nat) : Codec Bytes where
  Valid bs := bs.length = n
  encode bs := bs
  decode bs := if n ≤ bs.length then some (bs.take n, bs.drop n) else none
  decode_encode {a} h rest := by
    subst h
    rw [if_pos (by rw [List.length_append]; omega), List.take_left, List.drop_left]

/-- `n` bytes, known to be as many. -/
def fixed (n : Nat) : Codec { bs : Bytes // bs.length = n } where
  Valid _ := True
  encode a := a.1
  decode bs := if h : (bs.take n).length = n then some (⟨bs.take n, h⟩, bs.drop n) else none
  decode_encode {a} _ rest := by
    have htake : (a.1 ++ rest).take n = a.1 := List.take_left' a.2
    have hdrop : (a.1 ++ rest).drop n = rest := List.drop_left' a.2
    simp only [htake, hdrop, a.2, dite_true]

/-- Fixed bytes, which carry nothing. -/
def const (t : Bytes) : Codec Unit where
  Valid _ := True
  encode _ := t
  decode bs := if t <+: bs then some ((), bs.drop t.length) else none
  decode_encode _ rest := by
    rw [if_pos (List.prefix_append t rest), List.drop_left]

/-- A change of the type of the values. -/
def imap (c : Codec α) (f : α → β) (g : β → α) (hfg : ∀ b, f (g b) = b) : Codec β where
  Valid b := c.Valid (g b)
  encode b := c.encode (g b)
  decode bs := (c.decode bs).map fun p => (f p.1, p.2)
  decode_encode h rest := by rw [c.decode_encode h rest, Option.map_some, hfg]

/-- Two encodings in a row. -/
def pair (c : Codec α) (d : Codec β) : Codec (α × β) where
  Valid p := c.Valid p.1 ∧ d.Valid p.2
  encode p := c.encode p.1 ++ d.encode p.2
  decode bs := (c.decode bs).bind fun p => (d.decode p.2).map fun q => ((p.1, q.1), q.2)
  decode_encode {a} h rest := by
    rw [List.append_assoc, c.decode_encode h.1, Option.bind_some, d.decode_encode h.2,
      Option.map_some]

/-- An unsigned integer of `w` bytes. -/
def uint (w : Nat) : Codec Int where
  Valid n := 0 ≤ n ∧ n < 256 ^ w
  encode n := leBytes w n.toNat
  decode bs := ((raw w).decode bs).map fun p => ((leNat p.1 : Int), p.2)
  decode_encode {n} h rest := by
    have hlt : n.toNat < 256 ^ w := by
      zify
      rw [Int.toNat_of_nonneg h.1]
      exact h.2
    rw [show leBytes w n.toNat ++ rest = (raw w).encode (leBytes w n.toNat) ++ rest from rfl,
      (raw w).decode_encode (length_leBytes w _), Option.map_some, leNat_leBytes hlt,
      Int.toNat_of_nonneg h.1]

/-- A two's complement integer of `w` bytes. -/
def sint (w : Nat) : Codec Int where
  Valid n := -(256 ^ w) ≤ 2 * n ∧ 2 * n < 256 ^ w
  encode n := leBytes w (n % 256 ^ w).toNat
  decode bs := ((raw w).decode bs).map fun p => (leInt p.1, p.2)
  decode_encode {n} h rest := by
    rw [show leBytes w (n % 256 ^ w).toNat ++ rest =
        (raw w).encode (leBytes w (n % 256 ^ w).toNat) ++ rest from rfl,
      (raw w).decode_encode (length_leBytes w _), Option.map_some, leInt_leBytes h.1 h.2]

instance (w : Nat) (n : Int) : Decidable ((uint w).Valid n) :=
  inferInstanceAs (Decidable (0 ≤ n ∧ n < 256 ^ w))

instance (w : Nat) (n : Int) : Decidable ((sint w).Valid n) :=
  inferInstanceAs (Decidable (-(256 ^ w) ≤ 2 * n ∧ 2 * n < 256 ^ w))

/-- A choice coded by a number: `f` numbers the choices and `g` reads the numbers. -/
def choice (w : Nat) (f : α → Int) (g : Int → Option α)
    (h : ∀ a, (0 ≤ f a ∧ f a < 256 ^ w) ∧ g (f a) = some a) : Codec α where
  Valid _ := True
  encode a := (uint w).encode (f a)
  decode bs := ((uint w).decode bs).bind fun p => (g p.1).map fun a => (a, p.2)
  decode_encode {a} _ rest := by
    rw [(uint w).decode_encode (h a).1, Option.bind_some, (h a).2, Option.map_some]

/-- Bytes with their length in front. -/
def blob (w : Nat) : Codec Bytes where
  Valid bs := (bs.length : Int) < 256 ^ w
  encode bs := (uint w).encode bs.length ++ bs
  decode bs := ((uint w).decode bs).bind fun p => (raw p.1.toNat).decode p.2
  decode_encode {a} h rest := by
    rw [List.append_assoc, (uint w).decode_encode ⟨Int.natCast_nonneg _, h⟩, Option.bind_some]
    exact (raw _).decode_encode (Int.toNat_natCast _).symm rest

/-- Reading `n` values in a row. -/
def decodeMany (c : Codec α) : Nat → Bytes → Option (List α × Bytes)
  | 0, bs => some ([], bs)
  | n + 1, bs =>
    (c.decode bs).bind fun p => (c.decodeMany n p.2).map fun q => (p.1 :: q.1, q.2)

theorem decodeMany_flatMap (c : Codec α) (rest : Bytes) :
    ∀ {l : List α}, (∀ a ∈ l, c.Valid a) →
      c.decodeMany l.length (l.flatMap c.encode ++ rest) = some (l, rest)
  | [], _ => rfl
  | a :: l, h => by
    rw [List.flatMap_cons, List.append_assoc, List.length_cons, decodeMany,
      c.decode_encode (h a (by simp)), Option.bind_some,
      decodeMany_flatMap c rest (fun x hx => h x (by simp [hx])), Option.map_some]

/-- Values in a row with their count in front. -/
def counted (w : Nat) (c : Codec α) : Codec (List α) where
  Valid l := (l.length : Int) < 256 ^ w ∧ ∀ a ∈ l, c.Valid a
  encode l := (uint w).encode l.length ++ l.flatMap c.encode
  decode bs := ((uint w).decode bs).bind fun p => c.decodeMany p.1.toNat p.2
  decode_encode {l} h rest := by
    rw [List.append_assoc, (uint w).decode_encode ⟨Int.natCast_nonneg _, h.1⟩, Option.bind_some,
      Int.toNat_natCast, c.decodeMany_flatMap rest h.2]

end Codec

/-! ## Tags -/

/-- Data behind tags of which neither starts the other is different. -/
theorem ne_of_tags {t u x y : Bytes} (htu : ¬ t <+: u) (hut : ¬ u <+: t) : t ++ x ≠ u ++ y := by
  intro h
  rcases List.prefix_or_prefix_of_prefix (List.prefix_append t x)
    (h ▸ List.prefix_append u y) with hp | hp
  · exact htu hp
  · exact hut hp

end FermiSdk.Lib
