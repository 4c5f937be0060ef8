import FermiSdk.NumberText
import FermiSdk.Lib.DigitText

/-!
# JavaScript strings

A string is the list of its UTF-16 code units: these are what `length` counts and `slice` cuts, so a
string can be cut inside a character.
-/

namespace FermiSdk

open FermiSdk.Lib

/-- A JavaScript string, by its UTF-16 code units. -/
abbrev JsString := List UInt16

/-- The code unit of a character below U+10000. -/
def codeUnit (c : Char) : UInt16 := UInt16.ofNat c.toNat

namespace JsString

/-- The code units of a character: one, or a surrogate pair. -/
def ofChar (c : Char) : JsString :=
  if c.toNat < 0x10000 then [codeUnit c]
  else
    let offset := c.toNat - 0x10000
    [UInt16.ofNat (0xd800 + offset / 0x400), UInt16.ofNat (0xdc00 + offset % 0x400)]

/-- The code units of a text. -/
def ofString (text : String) : JsString := text.toList.flatMap ofChar

/-- `String(n)` of an integer below 10^21. -/
def ofInt (n : Int) : JsString :=
  if n < 0 then codeUnit '-' :: DigitText.ofNat n.natAbs else DigitText.ofNat n.natAbs

end JsString

/-- `Number(text)` of a text of digits. -/
def numberOfDigits (text : JsString) : JsNumber := .int (nearestDouble (DigitText.value text))

/-- The number of a text of digits is a safe integer exactly if the digits say so, and then it is
exact. -/
theorem isSafeInteger_numberOfDigits {text : JsString} :
    (numberOfDigits text).isSafeInteger = true ↔ (DigitText.value text : Int) ≤ MAX_SAFE_INTEGER := by
  unfold numberOfDigits
  rw [JsNumber.isSafeInteger_int]
  unfold MAX_SAFE_INTEGER
  by_cases h : DigitText.value text < 2 ^ 53
  · rw [nearestDouble_of_lt h]
    omega
  · have := le_nearestDouble (Nat.le_of_not_lt h)
    omega

theorem numberOfDigits_of_safe {text : JsString}
    (h : (DigitText.value text : Int) ≤ MAX_SAFE_INTEGER) :
    numberOfDigits text = .int (DigitText.value text) := by
  unfold MAX_SAFE_INTEGER at h
  rw [numberOfDigits, nearestDouble_of_lt (by omega)]

end FermiSdk
