import FermiSdk.Lib.Codec
import FermiSdk.Lib.Numeral

/-!
# Base58

The base58 text of a byte string: one change of base from 256 to 58 that keeps leading zeros, with
the digits written in an alphabet without look-alikes. Decoding undoes it (`decode_encode`).
-/

namespace FermiSdk.Lib.Base58

/-- The base58 digits in order. -/
def ALPHABET : List Char := "123456789ABCDEFGHJKLMNPQRSTUVWXYZabcdefghijkmnopqrstuvwxyz".toList

def digitChar (d : Nat) : Char := ALPHABET.getD d '1'

/-- The text of bytes, with a first digit for each zero byte in front. -/
def encode (bytes : Bytes) : String :=
  String.ofList ((Numeral.rebase 256 58 (bytes.map UInt8.toNat)).map digitChar)

/-- The bytes behind a text, unless it has a character outside the alphabet. -/
def decode (text : String) : Option Bytes :=
  (text.toList.mapM fun c => ALPHABET.idxOf? c).map fun digits =>
    (Numeral.rebase 58 256 digits).map UInt8.ofNat

theorem digitChar_eq_getElem {d : Nat} (hd : d < ALPHABET.length) : digitChar d = ALPHABET[d] := by
  rw [digitChar, List.getD_eq_getElem?_getD, List.getElem?_eq_getElem hd, Option.getD_some]

theorem idxOf?_digitChar : ∀ d < 58, ALPHABET.idxOf? (digitChar d) = some d := by
  decide +kernel

theorem mapM_digitChar :
    ∀ {l : List Nat}, (∀ d ∈ l, d < 58) →
      (l.map digitChar).mapM (fun c => ALPHABET.idxOf? c) = some l
  | [], _ => rfl
  | d :: l, h => by
    rw [List.map_cons, List.mapM_cons, idxOf?_digitChar d (h d (by simp)),
      mapM_digitChar fun x hx => h x (by simp [hx])]
    rfl

theorem lt_of_mem_rebase {l : List Nat} {d : Nat} (h : d ∈ Numeral.rebase 256 58 l) : d < 58 :=
  Numeral.lt_of_mem_rebase (by decide) h

theorem map_ofNat_toNat (bytes : Bytes) : (bytes.map UInt8.toNat).map UInt8.ofNat = bytes := by
  have h : UInt8.ofNat ∘ UInt8.toNat = id := funext fun _ => UInt8.ofNat_toNat
  rw [List.map_map, h, List.map_id]

theorem lt_of_mem_map_toNat {bytes : Bytes} : ∀ d ∈ bytes.map UInt8.toNat, d < 256 := by
  intro d hd
  obtain ⟨b, -, rfl⟩ := List.mem_map.1 hd
  exact b.toNat_lt

/-- **Decoding undoes encoding.** -/
theorem decode_encode (bytes : Bytes) : decode (encode bytes) = some bytes := by
  rw [decode, encode, String.toList_ofList, mapM_digitChar fun d => lt_of_mem_rebase,
    Option.map_some, Numeral.rebase_rebase (by decide) (by decide) lt_of_mem_map_toNat, map_ofNat_toNat]

/-- A text is at least as long as its bytes. -/
theorem length_le_length_encode (bytes : Bytes) : bytes.length ≤ (encode bytes).length := by
  rw [encode, String.length_ofList, List.length_map]
  have hlength : bytes.length = (bytes.map UInt8.toNat).length := by rw [List.length_map]
  rw [hlength]
  exact Numeral.length_le_length_rebase (by decide) (by decide)

theorem digitChar_ne_space : ∀ d < 58, digitChar d ≠ ' ' := by
  decide +kernel

theorem space_notMem_encode (bytes : Bytes) : ' ' ∉ (encode bytes).toList := by
  rw [encode, String.toList_ofList]
  intro hmem
  obtain ⟨d, hd, hspace⟩ := List.mem_map.1 hmem
  exact digitChar_ne_space d (lt_of_mem_rebase hd) hspace

end FermiSdk.Lib.Base58
