import FermiSdk.Js

/-!
# Texts of numbers

`String(x)` of a JavaScript number. A double is written with as few digits as tell it from the other
doubles, and with the nearest of these digits. Integers below 10^21 are written out, with zeros for
the digits that are not needed; below 2^53 every digit is (`shownInteger_of_lt`). Numbers from 10^21
on and below 10^-6 have an exponent.
-/

namespace FermiSdk

/-! ## Integers below 10^21 -/

/-- The double nearest to an integer, with ties to even. -/
def nearestDouble (n : Nat) : Nat :=
  let unit := 2 ^ (n.log2 - 52)
  let quotient := n / unit
  let rest := n % unit
  if unit < 2 * rest ∨ (2 * rest = unit ∧ quotient % 2 = 1) then (quotient + 1) * unit
  else quotient * unit

/-- The multiple of `10 ^ j` that a double may be written as, if one rounds to it: the nearer one,
and on a tie the one with an even digit before the zeros. -/
def roundMultiple (x j : Nat) : Option Nat :=
  let quotient := x / 10 ^ j
  let below := quotient * 10 ^ j
  let above := (quotient + 1) * 10 ^ j
  let nearer := above - x < x - below ∨ (above - x = x - below ∧ quotient % 2 = 1)
  if nearestDouble above = x ∧ (nearestDouble below ≠ x ∨ nearer) then some above
  else if nearestDouble below = x then some below
  else none

/-- The integer in `String(x)` of an integral double below 10^21: the digits that tell it from other
doubles, as few as there can be, and zeros. -/
def shownInteger (x : Nat) : Nat := ((List.range 22).reverse.findSome? (roundMultiple x)).getD x

theorem nearestDouble_of_lt {n : Nat} (h : n < 2 ^ 53) : nearestDouble n = n := by
  have hlog : n.log2 - 52 = 0 := by
    by_cases hn : n = 0
    · subst hn
      rfl
    · have := (Nat.log2_lt hn).2 h
      omega
  unfold nearestDouble
  rw [hlog]
  simp [Nat.mod_one]

theorem le_nearestDouble {n : Nat} (h : 2 ^ 53 ≤ n) : 2 ^ 53 ≤ nearestDouble n := by
  have hn : n ≠ 0 := by omega
  have hlog : 53 ≤ n.log2 := (Nat.le_log2 hn).2 h
  have hself : 2 ^ n.log2 ≤ n := Nat.log2_self_le hn
  obtain ⟨e, he⟩ : ∃ e, n.log2 = 53 + e := ⟨n.log2 - 53, by omega⟩
  have hsub : n.log2 - 52 = e + 1 := by omega
  have hle : 2 ^ 53 ≤ n / 2 ^ (e + 1) * 2 ^ (e + 1) := by
    have hquotient : 2 ^ 52 ≤ n / 2 ^ (e + 1) := by
      rw [Nat.le_div_iff_mul_le (by positivity), ← Nat.pow_add]
      rw [he] at hself
      have hexp : 52 + (e + 1) = 53 + e := by omega
      rw [hexp]
      exact hself
    have hunit : 2 ≤ 2 ^ (e + 1) := by
      rw [Nat.pow_succ]
      have := Nat.one_le_two_pow (n := e)
      omega
    calc 2 ^ 53 = 2 ^ 52 * 2 := by norm_num
      _ ≤ n / 2 ^ (e + 1) * 2 ^ (e + 1) := Nat.mul_le_mul hquotient hunit
  unfold nearestDouble
  rw [hsub]
  dsimp only
  split
  · exact hle.trans (Nat.mul_le_mul_right _ (Nat.le_succ _))
  · exact hle

/-- A double below 2^53 is the only integer that rounds to it. -/
theorem roundMultiple_of_lt {x j n : Nat} (h : x < 2 ^ 53) (hn : roundMultiple x j = some n) :
    n = x := by
  have hbelow : x / 10 ^ j * 10 ^ j ≤ x := Nat.div_mul_le_self x _
  have habove : x < (x / 10 ^ j + 1) * 10 ^ j := by
    rw [Nat.mul_comm]
    exact Nat.lt_mul_div_succ x (Nat.pow_pos (by decide))
  have hnot : nearestDouble ((x / 10 ^ j + 1) * 10 ^ j) ≠ x := by
    by_cases hlt : (x / 10 ^ j + 1) * 10 ^ j < 2 ^ 53
    · rw [nearestDouble_of_lt hlt]
      exact habove.ne'
    · have := le_nearestDouble (Nat.le_of_not_lt hlt)
      omega
  unfold roundMultiple at hn
  dsimp only at hn
  rw [if_neg fun h => hnot h.1, nearestDouble_of_lt (Nat.lt_of_le_of_lt hbelow h)] at hn
  split at hn
  · next heq => exact (Option.some.inj hn).symm.trans heq
  · cases hn

/-- **Doubles below 2^53 are shown exactly.** -/
theorem shownInteger_of_lt {x : Nat} (h : x < 2 ^ 53) : shownInteger x = x := by
  unfold shownInteger
  cases hfound : (List.range 22).reverse.findSome? (roundMultiple x) with
  | none => rfl
  | some n =>
    obtain ⟨j, -, hj⟩ := List.exists_of_findSome?_eq_some hfound
    exact roundMultiple_of_lt h hj

/-! ## Shortest decimals -/

/-- The exponent of the step from the positive double `x` to the next: a double has 53 binary digits,
the last of them not below 2^-1074. -/
def stepExponent (x : Rat) : Int :=
  max ((x.num.natAbs.log2 : Int) - x.den.log2 - 52) (-1074)

/-- Whether a decimal is read as the double `x`: it is at most half a step away (down from a power of
two, half of the smaller step there), and where it is just as near to the next double, `x` is the
even one. -/
def isReadAs (x decimal : Rat) : Bool :=
  let step : Rat := 2 ^ stepExponent x
  let stepDown := if x = 2 ^ 52 * step ∧ stepExponent x ≠ -1074 then step / 2 else step
  if (x / step).num % 2 = 0 then x - stepDown / 2 ≤ decimal ∧ decimal ≤ x + step / 2
  else x - stepDown / 2 < decimal ∧ decimal < x + step / 2

/-- The digits that `x` may be written with, if the last of them counts `10 ^ place`: the nearer of
the two next to `x` that are read as `x`, and on a tie the even one. -/
def digitsAt (x : Rat) (place : Int) : Option Nat :=
  let unit : Rat := 10 ^ place
  let below := (x / unit).floor.toNat
  let above := below + 1
  let excess := above * unit - x
  let lack := x - below * unit
  let nearer := excess < lack ∨ (excess = lack ∧ below % 2 = 1)
  if isReadAs x (above * unit) ∧ (¬ isReadAs x (below * unit) ∨ nearer) then some above
  else if isReadAs x (below * unit) then some below
  else none

/-- The shortest decimal that is read as the positive double `x`, by its digits and the place of the
last of them. Seventeen digits are always enough. -/
def shortestDecimal (x : Rat) : Nat × Int :=
  let top : Int := (toString x.num.natAbs).length - (toString x.den).length + 1
  ((List.range 19).findSome? fun (i : Nat) =>
    (digitsAt x (top - i)).map (·, top - i)).getD (0, 0)

/-- The text of a positive double, `Number::toString`. The digits end at `place`, and the point stands
after the first `point` of them. -/
def positiveText (x : Rat) : String :=
  let (digits, place) := shortestDecimal x
  let shown := (toString digits).toList
  let point := shown.length + place
  if 0 ≤ place ∧ point ≤ 21 then String.ofList (shown ++ List.replicate place.toNat '0')
  else if 0 < point ∧ point ≤ 21 then
    String.ofList (shown.take point.toNat ++ '.' :: shown.drop point.toNat)
  else if -6 < point ∧ point ≤ 0 then
    "0." ++ String.ofList (List.replicate (-point).toNat '0' ++ shown)
  else
    let exponent := (if 0 < point then "e+" else "e-") ++ toString (point - 1).natAbs
    match shown with
    | [digit] => String.ofList [digit] ++ exponent
    | digit :: rest => String.ofList (digit :: '.' :: rest) ++ exponent
    | [] => ""

/-! ## Texts -/

namespace JsNumber

/-- `String(x)`. -/
def text : JsNumber → String
  | .int value =>
    (if value < 0 then "-" else "") ++
      if value.natAbs < 10 ^ 21 then toString (shownInteger value.natAbs)
      else positiveText value.natAbs
  | .frac value _ => (if value < 0 then "-" else "") ++ positiveText |value|
  | .nan => "NaN"
  | .infinity negative => if negative then "-Infinity" else "Infinity"

instance : ToString JsNumber := ⟨text⟩

/-- A safe integer is written in full. -/
theorem toString_int_of_safe {n : Int} (h : (JsNumber.int n).isSafeInteger = true) :
    toString (JsNumber.int n) = toString n := by
  rw [isSafeInteger_int] at h
  unfold MAX_SAFE_INTEGER at h
  have hlt : n.natAbs < 2 ^ 53 := by omega
  have hshort : n.natAbs < 10 ^ 21 := by omega
  show text (.int n) = toString n
  simp only [text, if_pos hshort, shownInteger_of_lt hlt]
  cases n with
  | ofNat m => rfl
  | negSucc m =>
    rw [if_pos (Int.negSucc_lt_zero m)]
    rfl

end JsNumber

example : toString (JsNumber.int (2 ^ 60)) = "1152921504606847000" := by decide +kernel

example : toString (JsNumber.int (10 ^ 21)) = "1e+21" := by decide +kernel

example : positiveText (2 ^ (-20 : Int)) = "9.5367431640625e-7" := by decide +kernel

end FermiSdk
