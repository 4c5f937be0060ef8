import Mathlib.Data.List.Basic
import Mathlib.Tactic.Common

/-!
# Base64

The base64 text of a byte string: three bytes are four digits of six bits, and what is left at the end
is filled up with `=`. Decoding undoes it (`decode_encode`).
-/

namespace FermiSdk.Lib.Base64

/-- The base64 digits in order. -/
def ALPHABET : List Char :=
  "ABCDEFGHIJKLMNOPQRSTUVWXYZabcdefghijklmnopqrstuvwxyz0123456789+/".toList

def digitChar (d : Nat) : Char := ALPHABET.getD d 'A'

def digitValue (c : Char) : Option Nat := ALPHABET.idxOf? c

/-- The digits of one, two or three bytes. -/
def digits : List UInt8 → List Nat
  | [a] => [a.toNat / 4, a.toNat % 4 * 16]
  | [a, b] => [a.toNat / 4, a.toNat % 4 * 16 + b.toNat / 16, b.toNat % 16 * 4]
  | a :: b :: c :: _ =>
    [a.toNat / 4, a.toNat % 4 * 16 + b.toNat / 16, b.toNat % 16 * 4 + c.toNat / 64, c.toNat % 64]
  | [] => []

/-- Three bytes at a time. -/
def encodeChars : List UInt8 → List Char
  | a :: b :: c :: rest => (digits [a, b, c]).map digitChar ++ encodeChars rest
  | [a, b] => (digits [a, b]).map digitChar ++ ['=']
  | [a] => (digits [a]).map digitChar ++ ['=', '=']
  | [] => []

/-- The text of bytes, filled up to a multiple of four. -/
def encode (bytes : List UInt8) : String := String.ofList (encodeChars bytes)

/-- The bytes of two, three or four digits. -/
def group : List Nat → List UInt8
  | [w, x] => [UInt8.ofNat (w * 4 + x / 16)]
  | [w, x, y] => [UInt8.ofNat (w * 4 + x / 16), UInt8.ofNat (x % 16 * 16 + y / 4)]
  | [w, x, y, z] => [UInt8.ofNat (w * 4 + x / 16), UInt8.ofNat (x % 16 * 16 + y / 4),
    UInt8.ofNat (y % 4 * 64 + z)]
  | _ => []

/-- Four digits at a time. Nothing may follow the filling. -/
def decodeChars : List Char → Option (List UInt8)
  | [] => some []
  | w :: x :: y :: z :: rest =>
    if z ≠ '=' then do
      pure (group (← [w, x, y, z].mapM digitValue) ++ (← decodeChars rest))
    else if rest ≠ [] then none
    else if y ≠ '=' then ([w, x, y].mapM digitValue).map group
    else ([w, x].mapM digitValue).map group
  | _ => none

/-- The bytes behind a text, if it is one. -/
def decode (text : String) : Option (List UInt8) := decodeChars text.toList

theorem digitValue_digitChar : ∀ d < 64, digitValue (digitChar d) = some d := by
  decide +kernel

theorem digitChar_ne_pad : ∀ d < 64, digitChar d ≠ '=' := by
  decide +kernel

theorem lt_of_mem_digits {bytes : List UInt8} : ∀ d ∈ digits bytes, d < 64 := by
  have hbyte (a : UInt8) : a.toNat < 256 := a.toNat_lt
  match bytes with
  | [] => simp [digits]
  | [a] =>
    have ha := hbyte a
    simp only [digits, List.mem_cons, List.not_mem_nil, or_false]
    omega
  | [a, b] =>
    have ha := hbyte a
    have hb := hbyte b
    simp only [digits, List.mem_cons, List.not_mem_nil, or_false]
    omega
  | a :: b :: c :: _ =>
    have ha := hbyte a
    have hb := hbyte b
    have hc := hbyte c
    simp only [digits, List.mem_cons, List.not_mem_nil, or_false]
    omega

theorem mapM_digitChar {l : List Nat} (h : ∀ d ∈ l, d < 64) :
    (l.map digitChar).mapM digitValue = some l := by
  induction l with
  | nil => rfl
  | cons d l ih =>
    rw [List.map_cons, List.mapM_cons, digitValue_digitChar d (h d List.mem_cons_self),
      ih fun x hx => h x (List.mem_cons_of_mem _ hx)]
    rfl

theorem ofNat_eq {a : UInt8} {n : Nat} (h : n % 256 = a.toNat) : UInt8.ofNat n = a := by
  rw [← UInt8.toNat_inj, UInt8.toNat_ofNat', h]

/-- The bytes of the digits of one to three bytes. -/
theorem group_digits {bytes : List UInt8} (h : bytes.length ≤ 3) : group (digits bytes) = bytes := by
  have hbyte (a : UInt8) : a.toNat < 256 := a.toNat_lt
  match bytes, h with
  | [], _ => rfl
  | [a], _ =>
    have ha := hbyte a
    rw [digits, group, @ofNat_eq a _ (by omega)]
  | [a, b], _ =>
    have ha := hbyte a
    have hb := hbyte b
    rw [digits, group, @ofNat_eq a _ (by omega), @ofNat_eq b _ (by omega)]
  | [a, b, c], _ =>
    have ha := hbyte a
    have hb := hbyte b
    have hc := hbyte c
    rw [digits, group, @ofNat_eq a _ (by omega), @ofNat_eq b _ (by omega), @ofNat_eq c _ (by omega)]

theorem mapM_digits (bytes : List UInt8) :
    ((digits bytes).map digitChar).mapM digitValue = some (digits bytes) :=
  mapM_digitChar lt_of_mem_digits

theorem decodeChars_encodeChars (bytes : List UInt8) :
    decodeChars (encodeChars bytes) = some bytes := by
  have hne (d : Nat) (bytes : List UInt8) (h : d ∈ digits bytes) : digitChar d ≠ '=' :=
    digitChar_ne_pad d (lt_of_mem_digits d h)
  fun_induction encodeChars bytes with
  | case1 a b c rest ih =>
    have hlast : digitChar (c.toNat % 64) ≠ '=' := hne _ [a, b, c] (by simp [digits])
    have hdigits := mapM_digits [a, b, c]
    have hgroup := @group_digits [a, b, c] (by simp)
    show decodeChars (_ :: _ :: _ :: digitChar (c.toNat % 64) :: encodeChars rest) = _
    rw [decodeChars, if_pos hlast, ih]
    simp only [digits, List.map_cons, List.map_nil] at hdigits hgroup
    rw [hdigits]
    show some (group _ ++ rest) = _
    rw [hgroup]
    rfl
  | case2 a b =>
    have hlast : digitChar (b.toNat % 16 * 4) ≠ '=' := hne _ [a, b] (by simp [digits])
    show decodeChars [_, _, digitChar (b.toNat % 16 * 4), '='] = _
    rw [decodeChars, if_neg (by simp), if_neg (by simp), if_pos hlast]
    exact (congrArg (Option.map group) (mapM_digits [a, b])).trans
      (congrArg some (group_digits (by simp)))
  | case3 a =>
    show decodeChars [_, _, '=', '='] = _
    rw [decodeChars, if_neg (by simp), if_neg (by simp), if_neg (by simp)]
    exact (congrArg (Option.map group) (mapM_digits [a])).trans
      (congrArg some (group_digits (by simp)))
  | case4 => rfl

/-- **Decoding undoes encoding.** -/
theorem decode_encode (bytes : List UInt8) : decode (encode bytes) = some bytes := by
  rw [decode, encode, String.toList_ofList, decodeChars_encodeChars]

end FermiSdk.Lib.Base64
