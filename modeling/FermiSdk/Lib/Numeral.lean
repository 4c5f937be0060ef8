import Mathlib.Data.List.TakeWhile
import Mathlib.Data.Nat.Digits.Lemmas
import Mathlib.Tactic.Common

/-!
# Change of base that keeps leading zeros

Text encodings of byte strings such as base58 read the bytes as one number, write it in another
base, and keep one zero digit for each leading zero byte. Digits are listed most significant first.
`rebase b c` is that conversion, and `rebase c b` undoes it on every list of base `b` digits
(`rebase_rebase`).
-/

namespace FermiSdk.Lib.Numeral

/-- The digits of `n`, in front of `acc`: the division loop, with fuel `n` for its length. -/
def pushDigits (b : Nat) : Nat → Nat → List Nat → List Nat
  | 0, _, acc => acc
  | fuel + 1, n, acc => if n = 0 then acc else pushDigits b fuel (n / b) (n % b :: acc)

/-- The digits of `n` in base `b`, none for zero. -/
def digits (b n : Nat) : List Nat := pushDigits b n n []

/-- The number with the given digits. -/
def value (b : Nat) (l : List Nat) : Nat := l.foldl (fun n d => n * b + d) 0

/-- How many zeros a list starts with. -/
def zeros (l : List Nat) : Nat := (l.takeWhile (· == 0)).length

/-- The digits in base `c` of the number with the given digits in base `b`, with as many leading
zeros. -/
def rebase (b c : Nat) (l : List Nat) : List Nat :=
  List.replicate (zeros l) 0 ++ digits c (value b l)

variable {b c : Nat}

theorem pushDigits_eq (hb : 1 < b) :
    ∀ {fuel n : Nat} {acc : List Nat}, n ≤ fuel →
      pushDigits b fuel n acc = (Nat.digits b n).reverse ++ acc
  | 0, n, acc, h => by
    obtain rfl : n = 0 := by omega
    simp [pushDigits]
  | fuel + 1, n, acc, h => by
    unfold pushDigits
    split
    · next hn => simp [hn]
    · next hn =>
      have hlt : n / b < n := Nat.div_lt_self (Nat.pos_of_ne_zero hn) hb
      rw [pushDigits_eq hb (show n / b ≤ fuel by omega),
        Nat.digits_def' hb (Nat.pos_of_ne_zero hn), List.reverse_cons, List.append_assoc,
        List.singleton_append]

theorem digits_eq (hb : 1 < b) (n : Nat) : digits b n = (Nat.digits b n).reverse := by
  rw [digits, pushDigits_eq hb (le_refl n), List.append_nil]

theorem value_eq (l : List Nat) : value b l = Nat.ofDigits b l.reverse := by
  rw [value, Nat.ofDigits_eq_foldr, List.foldr_reverse]
  congr 1
  funext n d
  push_cast
  rw [Nat.mul_comm, Nat.add_comm]

/-- A list is its leading zeros and a rest that does not start with one. -/
theorem exists_replicate_append (l : List Nat) :
    ∃ m, l = List.replicate (zeros l) 0 ++ m ∧ ∀ h : m ≠ [], m.head h ≠ 0 := by
  refine ⟨l.dropWhile (· == 0), ?_, fun h => ?_⟩
  · have hz : l.takeWhile (· == 0) = List.replicate (zeros l) 0 :=
      List.eq_replicate_iff.2 ⟨rfl, fun d hd => by simpa using List.mem_takeWhile_imp hd⟩
    rw [← hz, List.takeWhile_append_dropWhile]
  · simpa using List.head_dropWhile_not (· == 0) h

theorem zeros_replicate_append {k : Nat} {m : List Nat} (h : ∀ h : m ≠ [], m.head h ≠ 0) :
    zeros (List.replicate k 0 ++ m) = k := by
  have hm : m.takeWhile (· == 0) = [] := by
    cases m with
    | nil => rfl
    | cons d m => exact List.takeWhile_cons_of_neg (by simpa using h (by simp))
  rw [zeros, List.takeWhile_append_of_pos (by simp), hm, List.append_nil, List.length_replicate]

theorem value_replicate_append (k : Nat) (m : List Nat) :
    value b (List.replicate k 0 ++ m) = value b m := by
  rw [value, List.foldl_append]
  have : (List.replicate k 0).foldl (fun n d => n * b + d) 0 = 0 := by
    induction k with
    | zero => rfl
    | succ k ih => rw [List.replicate_succ, List.foldl_cons, Nat.zero_mul, ih]
  rw [this, value]

theorem value_digits (hb : 1 < b) (n : Nat) : value b (digits b n) = n := by
  rw [value_eq, digits_eq hb, List.reverse_reverse, Nat.ofDigits_digits]

theorem value_cons (d : Nat) (l : List Nat) :
    value b (d :: l) = d * b ^ l.length + value b l := by
  rw [value_eq, List.reverse_cons, Nat.ofDigits_append, Nat.ofDigits_singleton, ← value_eq,
    List.length_reverse, Nat.mul_comm, Nat.add_comm]

theorem value_lt {l : List Nat} (h : ∀ d ∈ l, d < b) : value b l < b ^ l.length := by
  induction l with
  | nil => exact Nat.one_pos
  | cons d l ih =>
    have hd : d + 1 ≤ b := h d (by simp)
    have hl := ih fun x hx => h x (by simp [hx])
    rw [value_cons, List.length_cons, Nat.pow_succ, Nat.mul_comm (b ^ l.length)]
    calc d * b ^ l.length + value b l < d * b ^ l.length + b ^ l.length := by omega
      _ = (d + 1) * b ^ l.length := by rw [Nat.add_mul, Nat.one_mul]
      _ ≤ b * b ^ l.length := Nat.mul_le_mul_right _ hd

/-- Lists of digits of one length are ordered as their values are. -/
theorem value_lt_value_iff {l m : List Nat} (hlength : l.length = m.length)
    (hl : ∀ d ∈ l, d < b) (hm : ∀ d ∈ m, d < b) : value b l < value b m ↔ l < m := by
  induction l generalizing m with
  | nil =>
    obtain rfl : m = [] := List.length_eq_zero_iff.1 hlength.symm
    simp
  | cons d l ih =>
    cases m with
    | nil => cases hlength
    | cons e m =>
      have hlength : l.length = m.length := Nat.succ.inj hlength
      have hl' : ∀ x ∈ l, x < b := fun x hx => hl x (by simp [hx])
      have hm' : ∀ x ∈ m, x < b := fun x hx => hm x (by simp [hx])
      have hvl := value_lt hl'
      have hvm := value_lt hm'
      rw [List.cons_lt_cons_iff, ← ih hlength hl' hm', value_cons, value_cons, hlength] at *
      -- the first digit that differs weighs more than all digits after it
      rcases Nat.lt_trichotomy d e with hde | rfl | hde
      · have := Nat.mul_le_mul_right (b ^ m.length) (Nat.succ_le_of_lt hde)
        rw [Nat.succ_mul] at this
        omega
      · omega
      · have := Nat.mul_le_mul_right (b ^ m.length) (Nat.succ_le_of_lt hde)
        rw [Nat.succ_mul] at this
        omega

theorem head_digits_ne_zero (hb : 1 < b) {n : Nat} (h : digits b n ≠ []) :
    (digits b n).head h ≠ 0 := by
  simp only [digits_eq hb, List.head_reverse]
  rw [digits_eq hb, ne_eq, List.reverse_eq_nil_iff, Nat.digits_eq_nil_iff_eq_zero] at h
  exact Nat.getLast_digit_ne_zero b h

/-- The digits of a number are the ones it was read from, if they do not start with a zero. -/
theorem digits_value (hb : 1 < b) {m : List Nat} (hlt : ∀ d ∈ m, d < b)
    (hhead : ∀ h : m ≠ [], m.head h ≠ 0) : digits b (value b m) = m := by
  rw [digits_eq hb, value_eq, Nat.digits_ofDigits b hb m.reverse (by simpa using hlt),
    List.reverse_reverse]
  intro h
  rw [List.getLast_reverse]
  exact hhead _

/-- The digits of a number in base `b` are below `b`. -/
theorem lt_of_mem_rebase (hc : 1 < c) {l : List Nat} {d : Nat} (h : d ∈ rebase b c l) : d < c := by
  rcases List.mem_append.1 h with h | h
  · rw [(List.mem_replicate.1 h).2]
    omega
  · rw [digits_eq hc, List.mem_reverse] at h
    exact Nat.digits_lt_base hc h

/-- A smaller base needs no fewer digits. -/
theorem length_le_length_rebase (hc : 1 < c) (hcb : c ≤ b) {l : List Nat} :
    l.length ≤ (rebase b c l).length := by
  obtain ⟨m, hm, hhead⟩ := exists_replicate_append l
  have hdigits : m.length ≤ (digits c (value b m)).length := by
    cases m with
    | nil => exact Nat.zero_le _
    | cons d m =>
      have hd : 1 ≤ d := Nat.one_le_iff_ne_zero.2 (hhead (List.cons_ne_nil d m))
      rw [digits_eq (by omega), List.length_reverse, List.length_cons, Nat.succ_le_iff,
        Nat.lt_digits_length_iff hc, value_cons]
      calc c ^ m.length ≤ b ^ m.length := Nat.pow_le_pow_left hcb _
        _ ≤ d * b ^ m.length := Nat.le_mul_of_pos_left _ hd
        _ ≤ d * b ^ m.length + value b m := Nat.le_add_right _ _
  have hv : value b l = value b m := by
    conv_lhs => rw [hm]
    exact value_replicate_append _ _
  rw [rebase, List.length_append, List.length_replicate, hv]
  calc l.length = (List.replicate (zeros l) 0 ++ m).length := congrArg List.length hm
    _ = zeros l + m.length := by rw [List.length_append, List.length_replicate]
    _ ≤ zeros l + (digits c (value b m)).length := Nat.add_le_add_left hdigits _

/-- **A change of base is undone by the change back.** -/
theorem rebase_rebase (hb : 1 < b) (hc : 1 < c) {l : List Nat} (hl : ∀ d ∈ l, d < b) :
    rebase c b (rebase b c l) = l := by
  obtain ⟨m, hm, hhead⟩ := exists_replicate_append l
  have hlt : ∀ d ∈ m, d < b := fun d hd => hl d (hm ▸ List.mem_append_right _ hd)
  have hz : zeros (rebase b c l) = zeros l :=
    zeros_replicate_append fun h => head_digits_ne_zero hc h
  have hv : value c (rebase b c l) = value b m := by
    rw [rebase, value_replicate_append, value_digits hc, hm, value_replicate_append]
  rw [rebase, hz, hv, digits_value hb hlt hhead, ← hm]

end FermiSdk.Lib.Numeral
