import Mathlib.Data.List.Basic
import Mathlib.Tactic.Common

/-!
# Percent-encoding

Bytes written into a URL, where the bytes outside a safe set are escaped as `%` and two hexadecimal
digits. What was encoded is decoded without loss, also before a tail (`decode_encode_append`), and an
encoded text has none of the separators that are not safe, so that it can be cut out of what it was
written into: a path into its segments, a form into its entries (`parseForm_joinForm`).
-/

namespace FermiSdk.Lib.Percent

/-- `%`. -/
def percent : UInt8 := 37

/-- The hexadecimal digit of a number below 16. -/
def hexDigit (n : Nat) : UInt8 := if n < 10 then UInt8.ofNat (48 + n) else UInt8.ofNat (55 + n)

/-- What a hexadecimal digit stands for. -/
def hexValue (b : UInt8) : Option Nat :=
  if 48 ≤ b ∧ b ≤ 57 then some (b.toNat - 48)
  else if 65 ≤ b ∧ b ≤ 70 then some (b.toNat - 55)
  else if 97 ≤ b ∧ b ≤ 102 then some (b.toNat - 87)
  else none

/-- A byte in hexadecimal. -/
def escape (b : UInt8) : List UInt8 := [percent, hexDigit (b.toNat / 16), hexDigit (b.toNat % 16)]

/-- Safe bytes stay as they are. -/
def encodeByte (safe : UInt8 → Bool) (b : UInt8) : List UInt8 := if safe b then [b] else escape b

/-- Every byte by itself. -/
def encode (safe : UInt8 → Bool) (bytes : List UInt8) : List UInt8 := bytes.flatMap (encodeByte safe)

/-- The byte of an escape, if the two bytes after the `%` are digits. -/
def unescape (high low : UInt8) : Option UInt8 := do
  pure (UInt8.ofNat (16 * (← hexValue high) + (← hexValue low)))

/-- What is no escape stays as it is. -/
def decode : List UInt8 → List UInt8
  | b :: high :: low :: rest =>
    match if b = percent then unescape high low else none with
    | some byte => byte :: decode rest
    | none => b :: decode (high :: low :: rest)
  | bytes => bytes

variable {safe : UInt8 → Bool} {b : UInt8} {bytes tail : List UInt8}

/-! ## One byte -/

theorem hexValue_hexDigit : ∀ n < 16, hexValue (hexDigit n) = some n := by
  decide

theorem unescape_hexDigits (b : UInt8) :
    unescape (hexDigit (b.toNat / 16)) (hexDigit (b.toNat % 16)) = some b := by
  have hb : b.toNat < 256 := UInt8.toNat_lt b
  have hhigh := hexValue_hexDigit (b.toNat / 16) (by omega)
  have hlow := hexValue_hexDigit (b.toNat % 16) (by omega)
  have hsum : 16 * (b.toNat / 16) + b.toNat % 16 = b.toNat := Nat.div_add_mod _ _
  rw [unescape, hhigh, hlow]
  show some (UInt8.ofNat (16 * (b.toNat / 16) + b.toNat % 16)) = some b
  rw [hsum, UInt8.ofNat_toNat]

theorem decode_escape_append : decode (escape b ++ tail) = b :: decode tail := by
  show decode (percent :: hexDigit (b.toNat / 16) :: hexDigit (b.toNat % 16) :: tail) = _
  rw [decode, if_pos rfl, unescape_hexDigits]

theorem decode_cons (h : b ≠ percent) : decode (b :: tail) = b :: decode tail := by
  match tail with
  | [] => rfl
  | [_] => rfl
  | high :: low :: rest => rw [decode, if_neg h]

/-- What has no percent sign is decoded to itself. -/
theorem decode_eq_self (h : percent ∉ bytes) : decode bytes = bytes := by
  induction bytes with
  | nil => rfl
  | cons b bytes ih =>
    rw [List.mem_cons, not_or] at h
    rw [decode_cons (Ne.symm h.1), ih h.2]

theorem decode_encodeByte_append (hpercent : safe percent = false) :
    decode (encodeByte safe b ++ tail) = b :: decode tail := by
  unfold encodeByte
  split
  · next hsafe =>
    have hne : b ≠ percent := by
      rintro rfl
      rw [hpercent] at hsafe
      cases hsafe
    exact decode_cons hne
  · exact decode_escape_append

/-! ## Texts -/

/-- **Decoding what was encoded.** -/
theorem decode_encode_append (hpercent : safe percent = false) :
    decode (encode safe bytes ++ tail) = bytes ++ decode tail := by
  induction bytes with
  | nil => rfl
  | cons b bytes ih =>
    rw [encode, List.flatMap_cons, List.append_assoc, decode_encodeByte_append hpercent]
    exact congrArg (b :: ·) ih

theorem decode_encode (hpercent : safe percent = false) : decode (encode safe bytes) = bytes := by
  have h := @decode_encode_append safe bytes [] hpercent
  rw [List.append_nil] at h
  rw [h]
  exact List.append_nil bytes

/-- The bytes of hexadecimal digits. -/
def isHexDigit (b : UInt8) : Bool := (48 ≤ b && b ≤ 57) || (65 ≤ b && b ≤ 70)

theorem isHexDigit_hexDigit : ∀ n < 16, isHexDigit (hexDigit n) = true := by
  decide

theorem mem_encode (h : b ∈ encode safe bytes) :
    (safe b = true ∧ b ∈ bytes) ∨ b = percent ∨ isHexDigit b = true := by
  obtain ⟨c, hc, hb⟩ := List.mem_flatMap.1 h
  unfold encodeByte at hb
  split at hb
  · next hsafe =>
    obtain rfl := List.mem_singleton.1 hb
    exact .inl ⟨hsafe, hc⟩
  · have hlt : c.toNat < 256 := UInt8.toNat_lt c
    rcases List.mem_cons.1 hb with rfl | hb
    · exact .inr (.inl rfl)
    · rcases List.mem_cons.1 hb with rfl | hb
      · exact .inr (.inr (isHexDigit_hexDigit _ (by omega)))
      · obtain rfl := List.mem_singleton.1 hb
        exact .inr (.inr (isHexDigit_hexDigit _ (by omega)))

/-- A separator does not occur in an encoded text. -/
theorem notMem_encode (hsafe : safe b = false) (hb : b ≠ percent) (hdigit : isHexDigit b = false) :
    b ∉ encode safe bytes := by
  intro h
  rcases mem_encode h with ⟨h, -⟩ | h | h
  · rw [hsafe] at h
    cases h
  · exact hb h
  · rw [hdigit] at h
    cases h

theorem encode_eq_self (h : ∀ b ∈ bytes, safe b = true) : encode safe bytes = bytes := by
  induction bytes with
  | nil => rfl
  | cons b bytes ih =>
    rw [encode, List.flatMap_cons, encodeByte, if_pos (h b List.mem_cons_self)]
    exact congrArg (b :: ·) (ih fun c hc => h c (List.mem_cons_of_mem _ hc))

/-! ## Forms -/

/-- The bytes that forms treat specially. -/
def space : UInt8 := 32
def plus : UInt8 := 43
def ampersand : UInt8 := 38
def equals : UInt8 := 61

/-- The bytes that a form leaves as they are: `*`, `-`, `.`, `_`, letters and digits. -/
def formSafe (b : UInt8) : Bool :=
  b = 42 || b = 45 || b = 46 || b = 95 || (48 ≤ b && b ≤ 57) || (65 ≤ b && b ≤ 90) ||
    (97 ≤ b && b ≤ 122)

/-- A name or a value of a form, with `+` for a space. -/
def encodeForm (bytes : List UInt8) : List UInt8 :=
  bytes.flatMap fun b => if b = space then [plus] else encodeByte formSafe b

/-- The inverse: a plus is a space. -/
def decodeForm (bytes : List UInt8) : List UInt8 :=
  decode (bytes.map fun b => if b = plus then space else b)

/-- The text of a form. -/
def serializeForm (entries : List (List UInt8 × List UInt8)) : List UInt8 :=
  List.intercalate [ampersand]
    (entries.map fun entry => encodeForm entry.1 ++ equals :: encodeForm entry.2)

/-- An entry of a form, cut at its first `=`. -/
def parseEntry (entry : List UInt8) : List UInt8 × List UInt8 :=
  (decodeForm (entry.takeWhile (· ≠ equals)), decodeForm ((entry.dropWhile (· ≠ equals)).drop 1))

/-- The entries of a form. -/
def parseForm (text : List UInt8) : List (List UInt8 × List UInt8) :=
  ((text.splitOn ampersand).filter (· ≠ [])).map parseEntry

/-- What replaces `+` leaves an encoded form, up to its spaces, as it is. -/
theorem map_plus_encodeByte :
    (encodeByte formSafe b).map (fun c => if c = plus then space else c) = encodeByte formSafe b := by
  have hmem : ∀ c ∈ encode formSafe [b], c ≠ plus := by
    rintro c hc rfl
    exact notMem_encode rfl (by decide) rfl hc
  rw [encode, List.flatMap_singleton] at hmem
  conv_rhs => rw [← List.map_id (encodeByte formSafe b)]
  exact List.map_congr_left fun c hc => if_neg (hmem c hc)

theorem decodeForm_encodeForm : decodeForm (encodeForm bytes) = bytes := by
  unfold decodeForm encodeForm
  induction bytes with
  | nil => rfl
  | cons b bytes ih =>
    rw [List.flatMap_cons, List.map_append]
    split
    · next hb =>
      subst hb
      exact (decode_cons (by decide)).trans (congrArg (space :: ·) ih)
    · rw [map_plus_encodeByte, decode_encodeByte_append rfl, ih]

theorem notMem_encodeForm (hsafe : formSafe b = false) (hb : b ≠ percent) (hplus : b ≠ plus)
    (hdigit : isHexDigit b = false) : b ∉ encodeForm bytes := by
  intro h
  obtain ⟨c, -, hc⟩ := List.mem_flatMap.1 h
  split at hc
  · exact hplus (List.mem_singleton.1 hc)
  · have hmem : b ∈ encode formSafe [c] := by rwa [encode, List.flatMap_singleton]
    exact notMem_encode hsafe hb hdigit hmem

/-- What writes the names and values of a form: what it writes is decoded, and has no separators. -/
structure FormEncoding (enc : List UInt8 → List UInt8) : Prop where
  decode : ∀ bytes, decodeForm (enc bytes) = bytes
  ampersand : ∀ bytes, ampersand ∉ enc bytes
  equals : ∀ bytes, equals ∉ enc bytes

theorem formEncoding_encodeForm : FormEncoding encodeForm where
  decode _ := decodeForm_encodeForm
  ampersand _ := notMem_encodeForm rfl (by decide) (by decide) rfl
  equals _ := notMem_encodeForm rfl (by decide) (by decide) rfl

/-- A form may also be written with escapes only. -/
theorem formEncoding_encode (hpercent : safe percent = false) (hplus : safe plus = false)
    (hampersand : safe Percent.ampersand = false) (hequals : safe Percent.equals = false) :
    FormEncoding (encode safe) where
  decode bytes := by
    have hmap : (encode safe bytes).map (fun b => if b = plus then space else b) =
        encode safe bytes := by
      conv_rhs => rw [← List.map_id (encode safe bytes)]
      refine List.map_congr_left fun b hb => if_neg ?_
      rintro rfl
      exact notMem_encode hplus (by decide) rfl hb
    rw [decodeForm, hmap, decode_encode hpercent]
  ampersand _ := notMem_encode hampersand (by decide) rfl
  equals _ := notMem_encode hequals (by decide) rfl

section

variable {enc : List UInt8 → List UInt8} (entries : List (List UInt8 × List UInt8))

/-- The text of a form whose names and values are written by an encoding. -/
def joinForm (enc : List UInt8 → List UInt8) (entries : List (List UInt8 × List UInt8)) :
    List UInt8 :=
  List.intercalate [ampersand] (entries.map fun entry => enc entry.1 ++ equals :: enc entry.2)

theorem notMem_joinForm (hb : ∀ bytes, b ∉ enc bytes) (hampersand : b ≠ ampersand)
    (hequals : b ≠ equals) : b ∉ joinForm enc entries := by
  have hentry (entry : List UInt8 × List UInt8) : b ∉ enc entry.1 ++ equals :: enc entry.2 := by
    intro h
    rcases List.mem_append.1 h with h | h
    · exact hb _ h
    · rcases List.mem_cons.1 h with h | h
      · exact hequals h
      · exact hb _ h
  unfold joinForm
  induction entries with
  | nil => exact List.not_mem_nil
  | cons entry entries ih =>
    cases entries with
    | nil =>
      rw [List.map_cons, List.map_nil, List.intercalate_singleton]
      exact hentry entry
    | cons next entries =>
      rw [List.map_cons, List.map_cons, List.intercalate_cons_cons, List.append_assoc]
      intro h
      rcases List.mem_append.1 h with h | h
      · exact hentry entry h
      · rcases List.mem_append.1 h with h | h
        · exact hampersand (List.mem_singleton.1 h)
        · exact ih h

theorem parseEntry_encoded (h : FormEncoding enc) {name value : List UInt8} :
    parseEntry (enc name ++ equals :: enc value) = (name, value) := by
  have hname : ∀ b ∈ enc name, (decide (b ≠ equals)) = true := by
    intro b hb
    rw [decide_eq_true_eq]
    rintro rfl
    exact h.equals name hb
  unfold parseEntry
  rw [List.takeWhile_append_of_pos hname, List.dropWhile_append_of_pos hname]
  simp [h.decode]

/-- **A form is read as it was written**, in whichever way. -/
theorem parseForm_joinForm (h : FormEncoding enc) : parseForm (joinForm enc entries) = entries := by
  by_cases hne : entries = []
  · subst hne
    rfl
  have hampersand : ∀ text ∈ entries.map fun entry => enc entry.1 ++ equals :: enc entry.2,
      ampersand ∉ text := by
    intro text htext hmem
    obtain ⟨entry, -, rfl⟩ := List.mem_map.1 htext
    rcases List.mem_append.1 hmem with hmem | hmem
    · exact h.ampersand _ hmem
    · rcases List.mem_cons.1 hmem with hmem | hmem
      · exact absurd hmem (by decide)
      · exact h.ampersand _ hmem
  have hfilter : ∀ text ∈ entries.map fun entry => enc entry.1 ++ equals :: enc entry.2,
      decide (text ≠ []) = true := by
    intro text htext
    obtain ⟨entry, -, rfl⟩ := List.mem_map.1 htext
    simp
  rw [parseForm, joinForm, List.splitOn_intercalate ampersand hampersand (by simpa using hne),
    List.filter_eq_self.2 hfilter, List.map_map]
  conv_rhs => rw [← List.map_id entries]
  exact List.map_congr_left fun entry _ => parseEntry_encoded h

end

theorem parseForm_serializeForm (entries : List (List UInt8 × List UInt8)) :
    parseForm (serializeForm entries) = entries :=
  parseForm_joinForm entries formEncoding_encodeForm

theorem notMem_serializeForm (entries : List (List UInt8 × List UInt8)) (hsafe : formSafe b = false)
    (hdigit : isHexDigit b = false) (hb : b ∉ [percent, plus, ampersand, equals]) :
    b ∉ serializeForm entries := by
  simp only [List.mem_cons, List.not_mem_nil, or_false, not_or] at hb
  obtain ⟨hpercent, hplus, hampersand, hequals⟩ := hb
  exact notMem_joinForm entries (fun _ => notMem_encodeForm hsafe hpercent hplus hdigit) hampersand
    hequals

end FermiSdk.Lib.Percent
