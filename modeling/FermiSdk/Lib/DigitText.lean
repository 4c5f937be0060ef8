import FermiSdk.Lib.Numeral

/-!
# Texts of decimal digits

Texts as lists of code units. The value of a text of digits, and the text of a number without leading
zeros, which has that value (`value_ofNat`). Texts that are filled up with zeros to one length are
ordered as their values are (`value_lt_iff_pad`).
-/

namespace FermiSdk.Lib.DigitText

/-- `[0-9]`. -/
def isDigit (u : UInt16) : Bool := 48 ≤ u && u ≤ 57

/-- The number that a digit stands for. -/
def digit (u : UInt16) : Nat := u.toNat - 48

/-- The number that a text of digits stands for. -/
def value (text : List UInt16) : Nat := Numeral.value 10 (text.map digit)

/-- The digits of a number. -/
def ofNat (n : Nat) : List UInt16 :=
  if n = 0 then [48] else (Numeral.digits 10 n).map fun d => UInt16.ofNat (48 + d)

/-- The text, filled up with leading zeros to `k` digits. -/
def pad (k : Nat) (text : List UInt16) : List UInt16 :=
  List.replicate (k - text.length) 48 ++ text

variable {u : UInt16} {n k : Nat}

theorem digit_lt (h : isDigit u = true) : digit u < 10 := by
  simp only [isDigit, Bool.and_eq_true, decide_eq_true_eq, UInt16.le_iff_toNat_le] at h
  have : u.toNat ≤ 57 := h.2
  unfold digit
  omega

theorem digit_lt_of_mem {text : List UInt16} (h : ∀ u ∈ text, isDigit u = true) :
    ∀ d ∈ text.map digit, d < 10 := by
  intro d hd
  obtain ⟨u, hu, rfl⟩ := List.mem_map.1 hd
  exact digit_lt (h u hu)

theorem isDigit_ofDigit : ∀ d < 10, isDigit (UInt16.ofNat (48 + d)) = true := by
  decide

theorem digit_ofDigit : ∀ d < 10, digit (UInt16.ofNat (48 + d)) = d := by
  decide

theorem lt_of_mem_digits {d : Nat} (h : d ∈ Numeral.digits 10 n) : d < 10 := by
  rw [Numeral.digits_eq (by decide), List.mem_reverse] at h
  exact Nat.digits_lt_base (by decide) h

theorem isDigit_of_mem_ofNat (h : u ∈ ofNat n) : isDigit u = true := by
  unfold ofNat at h
  split at h
  · rw [List.mem_singleton.1 h]
    decide
  · obtain ⟨d, hd, rfl⟩ := List.mem_map.1 h
    exact isDigit_ofDigit d (lt_of_mem_digits hd)

/-- **The text of a number has its value.** -/
theorem value_ofNat (n : Nat) : value (ofNat n) = n := by
  unfold value ofNat
  split
  · next hn =>
    subst hn
    rfl
  · have hdigits : ((Numeral.digits 10 n).map fun d => UInt16.ofNat (48 + d)).map digit =
        Numeral.digits 10 n := by
      rw [List.map_map]
      conv_rhs => rw [← List.map_id (Numeral.digits 10 n)]
      apply List.map_congr_left
      intro d hd
      exact digit_ofDigit d (lt_of_mem_digits hd)
    rw [hdigits, Numeral.value_digits (by decide)]

theorem length_ofNat_pos (n : Nat) : 0 < (ofNat n).length := by
  unfold ofNat
  split
  · exact Nat.one_pos
  · next hn =>
    rw [List.length_map, Numeral.digits_eq (by decide), List.length_reverse]
    exact List.length_pos_of_ne_nil (Nat.digits_ne_nil_iff_ne_zero.2 hn)

theorem length_ofNat_le (hk : 0 < k) (h : n < 10 ^ k) : (ofNat n).length ≤ k := by
  unfold ofNat
  split
  · exact hk
  · rw [List.length_map, Numeral.digits_eq (by decide), List.length_reverse]
    exact (Nat.digits_length_le_iff (by decide) n).2 h

/-- The order of digits is that of their code units. -/
theorem digit_lt_iff {u u' : UInt16} (h : isDigit u = true) (h' : isDigit u' = true) :
    digit u < digit u' ↔ u < u' := by
  simp only [isDigit, Bool.and_eq_true, decide_eq_true_eq, UInt16.le_iff_toNat_le] at h h'
  have : 48 ≤ u.toNat := h.1
  have : 48 ≤ u'.toNat := h'.1
  rw [UInt16.lt_iff_toNat_lt]
  unfold digit
  omega

theorem digit_inj {u u' : UInt16} (h : isDigit u = true) (h' : isDigit u' = true) :
    digit u = digit u' ↔ u = u' := by
  have hlt := digit_lt_iff h h'
  have hgt := digit_lt_iff h' h
  rw [UInt16.lt_iff_toNat_lt] at hlt hgt
  rw [← UInt16.toNat_inj]
  omega

theorem map_digit_lt_iff {text text' : List UInt16} (h : ∀ u ∈ text, isDigit u = true)
    (h' : ∀ u ∈ text', isDigit u = true) : text.map digit < text'.map digit ↔ text < text' := by
  induction text generalizing text' with
  | nil => cases text' <;> simp
  | cons u text ih =>
    cases text' with
    | nil => simp
    | cons u' text' =>
      have hu := h u List.mem_cons_self
      have hu' := h' u' List.mem_cons_self
      rw [List.map_cons, List.map_cons, List.cons_lt_cons_iff, List.cons_lt_cons_iff,
        digit_lt_iff hu hu', digit_inj hu hu',
        ih (fun x hx => h x (List.mem_cons_of_mem _ hx)) fun x hx => h' x (List.mem_cons_of_mem _ hx)]

theorem value_pad (text : List UInt16) : value (pad k text) = value text := by
  unfold value pad
  rw [List.map_append, List.map_replicate]
  exact Numeral.value_replicate_append _ _

theorem length_pad {text : List UInt16} (h : text.length ≤ k) : (pad k text).length = k := by
  rw [pad, List.length_append, List.length_replicate]
  omega

theorem isDigit_of_mem_pad {text : List UInt16} (h : ∀ u ∈ text, isDigit u = true) :
    ∀ u ∈ pad k text, isDigit u = true := by
  intro u hu
  rcases List.mem_append.1 hu with hu | hu
  · rw [(List.mem_replicate.1 hu).2]
    decide
  · exact h u hu

/-- **Texts of digits are ordered as their values are**, once they are filled up with zeros. -/
theorem value_lt_iff_pad {text text' : List UInt16} (hlength : text.length ≤ k)
    (hlength' : text'.length ≤ k) (h : ∀ u ∈ text, isDigit u = true)
    (h' : ∀ u ∈ text', isDigit u = true) : value text < value text' ↔ pad k text < pad k text' := by
  have hpad := isDigit_of_mem_pad (k := k) h
  have hpad' := isDigit_of_mem_pad (k := k) h'
  rw [← value_pad (k := k) text, ← value_pad (k := k) text', ← map_digit_lt_iff hpad hpad']
  apply Numeral.value_lt_value_iff
  · rw [List.length_map, List.length_map, length_pad hlength, length_pad hlength']
  · exact digit_lt_of_mem hpad
  · exact digit_lt_of_mem hpad'

end FermiSdk.Lib.DigitText
