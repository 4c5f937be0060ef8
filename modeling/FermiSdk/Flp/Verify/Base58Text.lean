import FermiSdk.Flp.Smoke
import FermiSdk.Flp.Transport

/-!
# The base58 texts of the two FLP files

`bs58Decode` of the transport and `base58` of the smoke command are one change of base each, between
58 and 256, on the digits that the characters stand for (`bs58Decode_digitText`, `base58_eq`). They
undo each other, and decoding throws exactly on a foreign character (`base58_bs58Decode_inverse`).
-/

namespace FermiSdk.Flp

open FermiSdk.Lib FermiSdk.Smoke

/-! ## Digits as code units -/

/-- The code unit of a base58 digit. -/
def digitUnit (d : Nat) : UInt16 := codeUnit (Base58.digitChar d)

/-- The text of some base58 digits. -/
def digitText (ds : List Nat) : JsString := ds.map digitUnit

/-- A character of the base58 alphabet. -/
def InAlphabet (c : JsString) : Prop := ∃ a ∈ Base58.ALPHABET, c = JsString.ofChar a

theorem indexOf_digitUnit : ∀ d < 58, BASE58.indexOf [digitUnit d] = some d := by
  decide +kernel

theorem alphabet_getD : ∀ d < 58, alphabet.getD d 0 = digitUnit d := by
  decide +kernel

theorem not_high_digitUnit : ∀ d < 58, JsString.isHighSurrogate (digitUnit d) = false := by
  decide +kernel

theorem digitUnit_eq_one : ∀ d < 58, [digitUnit d] = JsString.ofChar '1' ↔ d = 0 := by
  decide +kernel

theorem ofChar_digitChar : ∀ d < 58, JsString.ofChar (Base58.digitChar d) = [digitUnit d] := by
  decide +kernel

theorem inAlphabet_digitUnit {d : Nat} (hd : d < 58) : InAlphabet [digitUnit d] := by
  refine ⟨Base58.digitChar d, ?_, (ofChar_digitChar d hd).symm⟩
  rw [Base58.digitChar_eq_getElem hd]
  exact List.getElem_mem hd

/-- The characters of the alphabet are the texts of the digits. -/
theorem InAlphabet.exists_digit {c : JsString} (h : InAlphabet c) :
    ∃ d < 58, c = [digitUnit d] := by
  obtain ⟨a, ha, rfl⟩ := h
  obtain ⟨d, hd, rfl⟩ := List.mem_iff_getElem.1 ha
  exact ⟨d, hd, by rw [← Base58.digitChar_eq_getElem hd, ofChar_digitChar d hd]⟩

/-- The alphabet of the decoder is that of the digits. -/
theorem BASE58_eq : BASE58 = digitText (List.range 58) := by
  decide +kernel

/-! ## Characters of a text -/

theorem flatten_codePoints : ∀ text : JsString, text.codePoints.flatten = text
  | [] => rfl
  | [_] => rfl
  | u :: v :: rest => by
    unfold JsString.codePoints
    split
    · rw [List.flatten_cons, flatten_codePoints rest]
      rfl
    · rw [List.flatten_cons, flatten_codePoints (v :: rest)]
      rfl

/-- A character is one code unit or a surrogate pair. -/
theorem eq_of_mem_codePoints : ∀ {text c : JsString}, c ∈ text.codePoints →
    (∃ u, c = [u]) ∨ ∃ u v, c = [u, v] ∧ JsString.isHighSurrogate u = true
  | [], _, h => nomatch h
  | [u], c, h => .inl ⟨u, List.mem_singleton.1 h⟩
  | u :: v :: rest, c, h => by
    unfold JsString.codePoints at h
    split at h
    · next hpair =>
      rcases List.mem_cons.1 h with rfl | h
      · exact .inr ⟨u, v, rfl, (Bool.and_eq_true_iff.1 hpair).1⟩
      · exact eq_of_mem_codePoints h
    · rcases List.mem_cons.1 h with rfl | h
      · exact .inl ⟨u, rfl⟩
      · exact eq_of_mem_codePoints h

theorem codePoints_of_not_high : ∀ {text : JsString},
    (∀ u ∈ text, JsString.isHighSurrogate u = false) → text.codePoints = text.map fun u => [u]
  | [], _ => rfl
  | [_], _ => rfl
  | u :: v :: rest, h => by
    unfold JsString.codePoints
    rw [h u List.mem_cons_self, Bool.false_and, if_neg Bool.false_ne_true,
      codePoints_of_not_high fun w hw => h w (List.mem_cons_of_mem _ hw)]
    rfl

theorem codePoints_digitText {ds : List Nat} (h : ∀ d ∈ ds, d < 58) :
    (digitText ds).codePoints = ds.map fun d => [digitUnit d] := by
  rw [codePoints_of_not_high, digitText, List.map_map]
  · rfl
  · intro u hu
    obtain ⟨d, hd, rfl⟩ := List.mem_map.1 hu
    exact not_high_digitUnit d (h d hd)

/-- A text over the alphabet is the text of some digits. -/
theorem exists_digitText {text : JsString} (h : ∀ c ∈ text.codePoints, InAlphabet c) :
    ∃ ds, (∀ d ∈ ds, d < 58) ∧ text = digitText ds := by
  suffices hflat : ∀ {cs : List JsString}, (∀ c ∈ cs, InAlphabet c) →
      ∃ ds, (∀ d ∈ ds, d < 58) ∧ cs.flatten = digitText ds by
    obtain ⟨ds, hds, heq⟩ := hflat h
    exact ⟨ds, hds, (flatten_codePoints text).symm.trans heq⟩
  intro cs hcs
  induction cs with
  | nil => exact ⟨[], by simp, rfl⟩
  | cons c cs ih =>
    obtain ⟨d, hd, rfl⟩ := (hcs c List.mem_cons_self).exists_digit
    obtain ⟨ds, hds, heq⟩ := ih fun c hc => hcs c (List.mem_cons_of_mem _ hc)
    refine ⟨d :: ds, ?_, ?_⟩
    · intro x hx
      rcases List.mem_cons.1 hx with rfl | hx
      · exact hd
      · exact hds x hx
    · rw [List.flatten_cons, heq]
      rfl

/-! ## The decoder -/

theorem bs58Step_digitUnit {d : Nat} (hd : d < 58) (n : Nat) :
    bs58Step n [digitUnit d] = .ok (n * 58 + d) := by
  rw [bs58Step, indexOf_digitUnit d hd]
  rfl

theorem foldlM_bs58Step {ds : List Nat} (h : ∀ d ∈ ds, d < 58) (n : Nat) :
    (ds.map fun d => [digitUnit d]).foldlM bs58Step n =
      .ok (ds.foldl (fun n d => n * 58 + d) n) := by
  induction ds generalizing n with
  | nil => rfl
  | cons d ds ih =>
    rw [List.map_cons, List.foldlM_cons, bs58Step_digitUnit (h d List.mem_cons_self),
      Throws.ok_bind, ih fun x hx => h x (List.mem_cons_of_mem _ hx), List.foldl_cons]

theorem length_takeWhile_ones {ds : List Nat} (h : ∀ d ∈ ds, d < 58) :
    ((ds.map fun d => [digitUnit d]).takeWhile fun c => c = JsString.ofChar '1').length =
      Numeral.zeros ds := by
  unfold Numeral.zeros
  induction ds with
  | nil => rfl
  | cons d ds ih =>
    have ih := ih fun x hx => h x (List.mem_cons_of_mem _ hx)
    have hone := digitUnit_eq_one d (h d List.mem_cons_self)
    by_cases hd : d = 0
    · rw [List.map_cons, List.takeWhile_cons_of_pos (by simpa using hone.2 hd),
        List.takeWhile_cons_of_pos (by simpa using hd), List.length_cons, List.length_cons, ih]
    · rw [List.map_cons, List.takeWhile_cons_of_neg (by simpa using fun h => hd (hone.1 h)),
        List.takeWhile_cons_of_neg (by simpa using hd)]
      rfl

/-- **The decoder changes the base of the digits from 58 to 256.** -/
theorem bs58Decode_digitText {ds : List Nat} (h : ∀ d ∈ ds, d < 58) :
    bs58Decode (digitText ds) = .ok ((Numeral.rebase 58 256 ds).map UInt8.ofNat) := by
  rw [bs58Decode, codePoints_digitText h, foldlM_bs58Step h, Throws.ok_bind]
  dsimp only
  rw [length_takeWhile_ones h, Numeral.rebase, List.map_append, List.map_replicate]
  rfl

theorem mem_of_indexOf {text rest : JsString} {u : UInt16} {i : Nat}
    (h : text.indexOf (u :: rest) = some i) : u ∈ text := by
  unfold JsString.indexOf at h
  have hprefix := List.find?_some h
  have hmem : u ∈ text.drop i :=
    (List.isPrefixOf_iff_prefix.1 hprefix).subset List.mem_cons_self
  exact List.mem_of_mem_drop hmem

theorem exists_digit_of_mem_BASE58 {u : UInt16} (h : u ∈ BASE58) : ∃ d < 58, u = digitUnit d := by
  rw [BASE58_eq] at h
  obtain ⟨d, hd, rfl⟩ := List.mem_map.1 h
  exact ⟨d, List.mem_range.1 hd, rfl⟩

/-- A character that the loop finds is one of the alphabet. -/
theorem inAlphabet_of_indexOf {text c : JsString} {digit : Nat} (hc : c ∈ text.codePoints)
    (h : BASE58.indexOf c = some digit) : InAlphabet c := by
  rcases eq_of_mem_codePoints hc with ⟨u, rfl⟩ | ⟨u, v, rfl, hhigh⟩
  · obtain ⟨d, hd, rfl⟩ := exists_digit_of_mem_BASE58 (mem_of_indexOf h)
    exact inAlphabet_digitUnit hd
  · obtain ⟨d, hd, rfl⟩ := exists_digit_of_mem_BASE58 (mem_of_indexOf h)
    rw [not_high_digitUnit d hd] at hhigh
    cases hhigh

theorem indexOf_of_foldlM {cs : List JsString} {n m : Nat} (h : cs.foldlM bs58Step n = .ok m) :
    ∀ c ∈ cs, ∃ digit, BASE58.indexOf c = some digit := by
  induction cs generalizing n with
  | nil => simp
  | cons c cs ih =>
    rw [List.foldlM_cons, Throws.bind_eq_ok] at h
    obtain ⟨k, hstep, hrest⟩ := h
    intro x hx
    rcases List.mem_cons.1 hx with rfl | hx
    · unfold bs58Step at hstep
      split at hstep
      · cases hstep
      · next digit hdigit => exact ⟨digit, hdigit⟩
    · exact ih hrest x hx

/-- The decoder has a result exactly on the texts over the alphabet. -/
theorem bs58Decode_ok_iff {text : JsString} :
    (∃ bytes, bs58Decode text = .ok bytes) ↔ ∀ c ∈ text.codePoints, InAlphabet c := by
  constructor
  · rintro ⟨bytes, h⟩ c hc
    rw [bs58Decode, Throws.bind_eq_ok] at h
    obtain ⟨n, hn, -⟩ := h
    obtain ⟨digit, hdigit⟩ := indexOf_of_foldlM hn c hc
    exact inAlphabet_of_indexOf hc hdigit
  · intro h
    obtain ⟨ds, hds, rfl⟩ := exists_digitText h
    exact ⟨_, bs58Decode_digitText hds⟩

/-! ## The encoder -/

theorem alphabet_map {ds : List Nat} (h : ∀ d ∈ ds, d < 58) :
    (ds.map fun d => alphabet.getD d 0) = digitText ds :=
  List.map_congr_left fun d hd => alphabet_getD d (h d hd)

theorem length_takeWhile_zeros (bytes : Bytes) :
    (bytes.takeWhile fun byte => byte = 0).length = Numeral.zeros (bytes.map UInt8.toNat) := by
  have hzero : (fun byte : UInt8 => decide (byte = 0)) = (· == 0) ∘ UInt8.toNat := by
    funext byte
    rw [Function.comp_apply, Bool.eq_iff_iff, decide_eq_true_iff, beq_iff_eq]
    exact UInt8.toNat_inj.symm
  rw [Numeral.zeros, List.takeWhile_map, List.length_map, hzero]

/-- **The encoder changes the base of the bytes from 256 to 58.** -/
theorem base58_eq {bytes : Bytes} (h : bytes ≠ []) :
    base58 bytes = .ok (digitText (Numeral.rebase 256 58 (bytes.map UInt8.toNat))) := by
  have hdigits : ∀ d ∈ Numeral.digits 58 (Numeral.value 256 (bytes.map UInt8.toNat)), d < 58 := by
    intro d hd
    exact Base58.lt_of_mem_rebase (List.mem_append_right _ hd)
  rw [base58, Throws.throwIf_of_not h, Throws.ok_bind]
  dsimp only
  rw [alphabet_map hdigits, length_takeWhile_zeros, Numeral.rebase, digitText, digitText,
    List.map_append, List.map_replicate]
  rfl

/-- web3.js writes the bytes with the same digits. -/
theorem ofString_encode (bytes : Bytes) :
    JsString.ofString (Base58.encode bytes) =
      digitText (Numeral.rebase 256 58 (bytes.map UInt8.toNat)) := by
  have hdigits : ∀ d ∈ Numeral.rebase 256 58 (bytes.map UInt8.toNat), d < 58 := fun d =>
    Base58.lt_of_mem_rebase
  rw [JsString.ofString, Base58.encode, String.toList_ofList, List.flatMap_map, digitText]
  generalize Numeral.rebase 256 58 (bytes.map UInt8.toNat) = ds at hdigits
  induction ds with
  | nil => rfl
  | cons d ds ih =>
    rw [List.flatMap_cons, ofChar_digitChar d (hdigits d List.mem_cons_self),
      ih fun x hx => hdigits x (List.mem_cons_of_mem _ hx)]
    rfl

/-! ## Inverses -/

/-- Decoding undoes encoding on the digits, also those of no bytes. -/
theorem bs58Decode_rebase (bytes : Bytes) :
    bs58Decode (digitText (Numeral.rebase 256 58 (bytes.map UInt8.toNat))) = .ok bytes := by
  rw [bs58Decode_digitText fun d => Base58.lt_of_mem_rebase,
    Numeral.rebase_rebase (by decide) (by decide) Base58.lt_of_mem_map_toNat,
    Base58.map_ofNat_toNat]

/-- **The data text of a compiled instruction is read back.** -/
theorem bs58Decode_ofString_encode (bytes : Bytes) :
    bs58Decode (JsString.ofString (Base58.encode bytes)) = .ok bytes := by
  rw [ofString_encode, bs58Decode_rebase]

theorem map_toNat_ofNat {l : List Nat} (h : ∀ d ∈ l, d < 256) :
    (l.map UInt8.ofNat).map UInt8.toNat = l := by
  rw [List.map_map]
  conv_rhs => rw [← List.map_id l]
  exact List.map_congr_left fun d hd => UInt8.toNat_ofNat_of_lt (h d hd)

/-- Encoding undoes decoding on a text with a digit. -/
theorem base58_of_digitText {ds : List Nat} (hds : ∀ d ∈ ds, d < 58) (hne : ds ≠ []) :
    base58 ((Numeral.rebase 58 256 ds).map UInt8.ofNat) = .ok (digitText ds) := by
  have hback := Numeral.rebase_rebase (by decide) (by decide : 1 < 256) hds
  have hrebase : Numeral.rebase 58 256 ds ≠ [] := by
    intro hnil
    rw [hnil] at hback
    exact hne hback.symm
  rw [base58_eq (by simpa using hrebase),
    map_toNat_ofNat fun d hd => Numeral.lt_of_mem_rebase (by decide) hd, hback]

/-- **The two base58 routines are inverse to each other**, and the decoder throws exactly on a
character outside the alphabet. -/
theorem base58_bs58Decode_inverse :
    (∀ bytes : Bytes, bytes ≠ [] →
      ∃ text, base58 bytes = .ok text ∧ bs58Decode text = .ok bytes) ∧
    (∀ text : JsString, text ≠ [] → (∀ c ∈ text.codePoints, InAlphabet c) →
      ∃ bytes, bs58Decode text = .ok bytes ∧ base58 bytes = .ok text) ∧
    ∀ text : JsString,
      (∃ e, bs58Decode text = .error e) ↔ ∃ c ∈ text.codePoints, ¬ InAlphabet c := by
  refine ⟨fun bytes hne => ?_, fun text hne hover => ?_, fun text => ?_⟩
  · exact ⟨_, base58_eq hne, bs58Decode_rebase bytes⟩
  · obtain ⟨ds, hds, rfl⟩ := exists_digitText hover
    have hne : ds ≠ [] := by simpa [digitText] using hne
    exact ⟨_, bs58Decode_digitText hds, base58_of_digitText hds hne⟩
  · apply Throws.throws_iff_of_ok_iff
    rw [bs58Decode_ok_iff]
    push Not
    rfl

/-- A text with leading zeros, and one with a character that is no base58 digit. -/
theorem base58_bs58Decode_inverse_zeros :
    (∃ text, base58 [0, 0, 255] = .ok text ∧ bs58Decode text = .ok [0, 0, 255]) ∧
    (∃ bytes, bs58Decode (JsString.ofString "115Q") = .ok bytes ∧
      base58 bytes = .ok (JsString.ofString "115Q")) ∧
    ∃ e, bs58Decode (JsString.ofString "1O") = .error e := by
  have hover : ∀ c ∈ (JsString.ofString "115Q").codePoints, InAlphabet c := by
    have htext : (JsString.ofString "115Q").codePoints =
        [0, 0, 4, 23].map fun d => [digitUnit d] := by decide +kernel
    rw [htext]
    intro c hc
    obtain ⟨d, hd, rfl⟩ := List.mem_map.1 hc
    have hsmall : ∀ d ∈ [0, 0, 4, 23], d < 58 := by decide
    exact inAlphabet_digitUnit (hsmall d hd)
  have hforeign : ∃ c ∈ (JsString.ofString "1O").codePoints, ¬ InAlphabet c := by
    have hno : ∀ d < 58, JsString.ofChar 'O' ≠ [digitUnit d] := by decide +kernel
    refine ⟨JsString.ofChar 'O', by decide +kernel, fun h => ?_⟩
    obtain ⟨d, hd, heq⟩ := h.exists_digit
    exact hno d hd heq
  exact ⟨base58_bs58Decode_inverse.1 _ (by decide),
    base58_bs58Decode_inverse.2.1 _ (by decide) hover,
    (base58_bs58Decode_inverse.2.2 _).2 hforeign⟩

end FermiSdk.Flp
