import FermiSdk.Lib.Throws
import Mathlib.Data.Rat.Defs
import Mathlib.Tactic.Linarith

/-!
# JavaScript numbers

The SDK takes quantities as `bigint` (an unbounded integer, here `Int`), as `number` (a double,
`JsNumber`), or as either (`BigNumberish`). A double is an integer, another finite value, an
infinity or NaN; the SDK's checks (`Number.isInteger`, `Number.isSafeInteger`) tell the first kind
from the rest. `-0` is the integer 0, as every use in the SDK (`BigInt(x)`, a byte write, `String(x)`)
takes it.
-/

namespace FermiSdk

open FermiSdk.Lib

/-- A JavaScript `number`. -/
inductive JsNumber where
  /-- An integer-valued double. -/
  | int (value : Int)
  /-- A finite double that is not an integer. -/
  | frac (value : Rat) (fractional : value.den ≠ 1)
  | nan
  | infinity (negative : Bool)
  deriving DecidableEq

/-- `Number.MAX_SAFE_INTEGER`. -/
def MAX_SAFE_INTEGER : Int := 2 ^ 53 - 1

namespace JsNumber

/-- `Number.isInteger(x) && lo <= x && x <= hi`. -/
def isIntegerIn (lo hi : Int) : JsNumber → Bool
  | .int value => lo ≤ value && value ≤ hi
  | _ => false

/-- `BigInt(x)` of a number. -/
def toBigInt : JsNumber → Throws Int
  | .int value => pure value
  | _ => throw "The number cannot be converted to a BigInt because it is not an integer"

/-- The integer that a number is. -/
def toInt? : JsNumber → Option Int
  | .int value => some value
  | _ => none

/-- `Number.isSafeInteger`. -/
def isSafeInteger : JsNumber → Bool
  | .int value => -MAX_SAFE_INTEGER ≤ value && value ≤ MAX_SAFE_INTEGER
  | _ => false

/-- `x < n`. -/
def below (x : JsNumber) (n : Int) : Bool :=
  match x with
  | .int value => value < n
  | .frac value _ => value < n
  | .nan => false
  | .infinity negative => negative

/-- `x > n`. -/
def above (x : JsNumber) (n : Int) : Bool :=
  match x with
  | .int value => n < value
  | .frac value _ => n < value
  | .nan => false
  | .infinity negative => !negative

/-- Whether a number counts as true in a condition. -/
def truthy : JsNumber → Bool
  | .int value => value ≠ 0
  | .nan => false
  | _ => true

theorem isIntegerIn_iff {lo hi : Int} {x : JsNumber} :
    x.isIntegerIn lo hi = true ↔ ∃ n, x = .int n ∧ lo ≤ n ∧ n ≤ hi := by
  cases x <;> simp [isIntegerIn]

theorem isSafeInteger_int {n : Int} :
    (JsNumber.int n).isSafeInteger = true ↔ -MAX_SAFE_INTEGER ≤ n ∧ n ≤ MAX_SAFE_INTEGER := by
  simp [isSafeInteger]

@[simp] theorem toInt?_eq_some {x : JsNumber} {n : Int} : x.toInt? = some n ↔ x = .int n := by
  cases x <;> simp [toInt?]

@[simp] theorem toBigInt_eq_ok {x : JsNumber} {n : Int} : x.toBigInt = .ok n ↔ x = .int n := by
  cases x <;> simp [toBigInt]

/-- A range check, the conversion, and what is made of the integer. -/
theorem checked_bind_eq_ok {β : Type} {lo hi : Int} {x : JsNumber} {e : String}
    {f : Int → Throws β} {b : β} :
    (throwIf (!x.isIntegerIn lo hi) e >>= fun _ => x.toBigInt >>= f) = .ok b ↔
      ∃ n, x = .int n ∧ (lo ≤ n ∧ n ≤ hi) ∧ f n = .ok b := by
  simp only [Throws.bind_eq_ok, Throws.throwIf_eq_ok, exists_const, Bool.not_eq_true',
    Bool.not_eq_false, isIntegerIn_iff, toBigInt_eq_ok]
  constructor
  · rintro ⟨⟨n, rfl, hrange⟩, m, hm, hf⟩
    cases hm
    exact ⟨n, rfl, hrange, hf⟩
  · rintro ⟨n, rfl, hrange, hf⟩
    exact ⟨⟨n, rfl, hrange⟩, n, rfl, hf⟩

/-- A range check followed by the conversion. -/
theorem checked_eq_ok {lo hi n : Int} {x : JsNumber} {e : String} :
    (throwIf (!x.isIntegerIn lo hi) e >>= fun _ => x.toBigInt) = .ok n ↔
      x = .int n ∧ lo ≤ n ∧ n ≤ hi := by
  rw [← bind_pure x.toBigInt, checked_bind_eq_ok]
  constructor
  · rintro ⟨m, hx, hrange, hm⟩
    rw [Throws.pure_eq_ok] at hm
    exact hm ▸ ⟨hx, hrange⟩
  · rintro ⟨hx, hrange⟩
    exact ⟨n, hx, hrange, rfl⟩

end JsNumber

/-- `bigint | number`. -/
inductive BigNumberish where
  | bigint (value : Int)
  | number (value : JsNumber)
  deriving DecidableEq

/-- `toBigInt` of `intents.ts` and `trading.ts`: a number must be a safe integer. -/
def toBigInt : BigNumberish → Throws Int
  | .bigint value => pure value
  | .number value => do
    throwIf (!value.isSafeInteger) "number inputs must be safe integers"
    value.toBigInt

/-- The value is an integer between `lo` and `hi`, and a safe one when it is a `number`. -/
def BigNumberish.Within (lo hi : Int) : BigNumberish → Prop
  | .bigint value => lo ≤ value ∧ value ≤ hi
  | .number value => ∃ n, value = .int n ∧ value.isSafeInteger ∧ lo ≤ n ∧ n ≤ hi

@[simp] theorem toBigInt_bigint (n : Int) : toBigInt (.bigint n) = .ok n := rfl

theorem toBigInt_number_eq_ok {value : JsNumber} {n : Int} :
    toBigInt (.number value) = .ok n ↔ value = .int n ∧ value.isSafeInteger := by
  simp only [toBigInt, Throws.bind_eq_ok, Throws.throwIf_eq_ok, exists_const,
    JsNumber.toBigInt_eq_ok, Bool.not_eq_true', Bool.not_eq_false]
  exact and_comm

/-- The integers `toBigInt` accepts within a range are those of `Within`. -/
theorem BigNumberish.within_iff {lo hi : Int} {value : BigNumberish} :
    value.Within lo hi ↔ ∃ n, toBigInt value = .ok n ∧ lo ≤ n ∧ n ≤ hi := by
  cases value with
  | bigint n => simp [BigNumberish.Within, toBigInt]
  | number x =>
    simp only [BigNumberish.Within, toBigInt_number_eq_ok]
    exact exists_congr fun n => by tauto

end FermiSdk
