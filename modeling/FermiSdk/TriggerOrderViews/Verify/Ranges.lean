import FermiSdk.TriggerOrderViews.Verify.Strict

/-!
# When a view carries representable quantities

The patterns for decimal texts bound the number of digits and not the value, so a leg is accepted
with quantities that no u64 or i64 holds. A quantity that the keeper sends as a number is always
within its range. So a view is `Representable` exactly if the leg has no text of digits that, filled
up to 20 digits, comes after that of the largest value (`Oversized`).
-/

namespace FermiSdk.TriggerOrderViews

open FermiSdk.Lib

/-- A decimal text for an integer between two bounds. -/
def Denotes (lo hi : Int) (text : JsString) : Prop :=
  SIGNED_DECIMAL text = true ∧ lo ≤ decimalValue text ∧ decimalValue text ≤ hi

/-- Every quantity of a view is in the range of its type. -/
structure Representable (v : TriggerLegView) : Prop where
  client_order_id : Denotes 0 (2 ^ 64 - 1) v.client_order_id
  oco_group : Denotes 0 (2 ^ 64 - 1) v.oco_group
  expiry_ts : Denotes 0 (2 ^ 64 - 1) v.expiry_ts
  sequence : ∀ fire, v.last_fire = some fire → ∀ sequence, fire.sequence = some sequence →
    Denotes 0 (2 ^ 64 - 1) sequence
  trigger_price_lots : Denotes 0 (2 ^ 63 - 1) v.trigger_price_lots
  limit_price_lots : Denotes 0 (2 ^ 63 - 1) v.limit_price_lots
  max_base_lots : Denotes 0 (2 ^ 63 - 1) v.max_base_lots
  position_lots : ∀ armed, v.armed = some armed →
    Denotes (-2 ^ 63) (2 ^ 63 - 1) armed.position_lots

/-! ## Oversized texts -/

def U64_LIMIT : JsString := .ofString "18446744073709551615"

def I64_LIMIT : JsString := .ofString "9223372036854775807"

def NEGATIVE_I64_LIMIT : JsString := .ofString "9223372036854775808"

/-- A text of digits that comes after the limit, both filled up with zeros to 20 digits. -/
def After (limit text : JsString) : Prop := DigitText.pad 20 limit < DigitText.pad 20 text

instance (limit text : JsString) : Decidable (After limit text) := List.decidableLT _ _

/-- A field with an oversized text of digits. -/
def Oversized (limit : JsString) (value : Option JsonValue) : Prop :=
  ∃ text, value = some (.string text) ∧ UNSIGNED_DECIMAL text = true ∧ After limit text

/-- A field with an oversized text of digits that may have a sign. -/
def SignedOversized (value : Option JsonValue) : Prop :=
  ∃ text, value = some (.string text) ∧ SIGNED_DECIMAL text = true ∧
    After (if text.head? = some (codeUnit '-') then NEGATIVE_I64_LIMIT else I64_LIMIT)
      (unsignedPart text)

/-- The details of an armed leg that is oversized. What is not read of `armed` does not matter. -/
def OversizedArmed (armed : JsonRecord) : Prop :=
  (nonNegativeSafeInteger (armed.lookup "slot")).isSome = true ∧
    (nonNegativeSafeInteger (armed.lookup "ts_ms")).isSome = true ∧
    SignedOversized (armed.lookup "position_lots")

def OversizedLastFire (fire : JsonRecord) : Prop :=
  (nonNegativeSafeInteger (fire.lookup "attempt")).isSome = true ∧
    (nonNegativeSafeInteger (fire.lookup "ts_ms")).isSome = true ∧
    (reasonString (fire.lookup "outcome")).isSome = true ∧
    Oversized U64_LIMIT (fire.lookup "sequence")

/-- A leg with an oversized text of digits in a field that its view shows. -/
def OversizedLeg : JsonValue → Prop
  | .object raw =>
    (∃ field ∈ ["client_order_id", "oco_group", "expiry_ts"],
        Oversized U64_LIMIT (raw.lookup field)) ∨
      (∃ field ∈ ["trigger_price_lots", "limit_price_lots", "max_base_lots"],
        Oversized I64_LIMIT (raw.lookup field)) ∨
      (∃ armed, raw.lookup "armed" = some (.object armed) ∧ OversizedArmed armed) ∨
      ∃ fire, raw.lookup "last_fire" = some (.object fire) ∧ OversizedLastFire fire
  | _ => False

variable {value : Option JsonValue} {text limit : JsString}

/-- The order of texts decides what the value of the text is. -/
theorem after_iff (h : UNSIGNED_DECIMAL text = true) (hlimit : UNSIGNED_DECIMAL limit = true) :
    After limit text ↔ DigitText.value limit < DigitText.value text := by
  obtain ⟨-, hlength, hdigits⟩ := unsignedDecimal_iff.1 h
  obtain ⟨-, hlength', hdigits'⟩ := unsignedDecimal_iff.1 hlimit
  exact (DigitText.value_lt_iff_pad hlength' hlength hdigits' hdigits).symm

/-! ## Fields -/

theorem oversized_string (h : UNSIGNED_DECIMAL text = true) :
    Oversized limit (some (.string text)) ↔ After limit text := by
  constructor
  · rintro ⟨_, ⟨⟩, -, hafter⟩
    exact hafter
  · exact fun hafter => ⟨text, rfl, h, hafter⟩

/-- An unsigned field is in range exactly if it is not oversized. -/
theorem denotes_iff {hi : Int} (hlimit : UNSIGNED_DECIMAL limit = true)
    (hhi : (DigitText.value limit : Int) = hi) (hsafe : MAX_SAFE_INTEGER ≤ hi)
    (h : decimalString value false = some text) : Denotes 0 hi text ↔ ¬ Oversized limit value := by
  obtain ⟨hpattern, hvalue⟩ := decimalString_eq_some h
  have hdecimal := decimalValue_of_unsigned hpattern
  rw [Denotes, and_iff_right (signedDecimal_of_unsigned hpattern)]
  rcases hvalue with rfl | ⟨n, rfl, hn, hdenoted⟩
  · rw [oversized_string hpattern, after_iff hpattern hlimit]
    omega
  · rw [JsNumber.isSafeInteger_int] at hn
    have hnot : ¬ Oversized limit (some (.number (.int n))) := nofun
    simp only [hnot, not_false_eq_true, iff_true]
    omega

theorem denotes_u64_iff (h : decimalString value false = some text) :
    Denotes 0 (2 ^ 64 - 1) text ↔ ¬ Oversized U64_LIMIT value :=
  denotes_iff (by decide) (by decide) (by decide) h

theorem denotes_lots_iff (h : decimalString value false = some text) :
    Denotes 0 (2 ^ 63 - 1) text ↔ ¬ Oversized I64_LIMIT value :=
  denotes_iff (by decide) (by decide) (by decide) h

/-- A signed field is in range exactly if it is not oversized. -/
theorem denotes_i64_iff (h : decimalString value true = some text) :
    Denotes (-2 ^ 63) (2 ^ 63 - 1) text ↔ ¬ SignedOversized value := by
  obtain ⟨hpattern, hvalue⟩ := decimalString_eq_some h
  have hsigned : SIGNED_DECIMAL text = true := hpattern
  have hunsigned : UNSIGNED_DECIMAL (unsignedPart text) = true := hsigned
  rw [Denotes, and_iff_right hsigned]
  rcases hvalue with rfl | ⟨n, rfl, hn, hdenoted⟩
  · have hover : SignedOversized (some (.string text)) ↔
        After (if text.head? = some (codeUnit '-') then NEGATIVE_I64_LIMIT else I64_LIMIT)
          (unsignedPart text) := by
      constructor
      · rintro ⟨_, ⟨⟩, -, hafter⟩
        exact hafter
      · exact fun hafter => ⟨text, rfl, hsigned, hafter⟩
    rw [hover]
    have hpositive : DigitText.value I64_LIMIT = 2 ^ 63 - 1 := by decide
    have hnegative : DigitText.value NEGATIVE_I64_LIMIT = 2 ^ 63 := by decide
    unfold decimalValue
    split
    · rw [after_iff hunsigned (by decide), hnegative]
      omega
    · rw [after_iff hunsigned (by decide), hpositive]
      omega
  · rw [JsNumber.isSafeInteger_int] at hn
    unfold MAX_SAFE_INTEGER at hn
    have hnot : ¬ SignedOversized (some (.number (.int n))) := nofun
    simp only [hnot, not_false_eq_true, iff_true]
    omega

theorem denotes_sequence_iff {sequence : Option JsString} (h : sequenceField value = some sequence) :
    (∀ text, sequence = some text → Denotes 0 (2 ^ 64 - 1) text) ↔ ¬ Oversized U64_LIMIT value := by
  unfold sequenceField at h
  split at h
  · cases h
    exact iff_of_true nofun nofun
  · cases h
    exact iff_of_true nofun nofun
  · obtain ⟨text, htext, rfl⟩ := Option.map_eq_some_iff.1 h
    rw [← denotes_u64_iff htext]
    constructor
    · exact fun hall => hall text rfl
    · rintro hdenotes _ ⟨⟩
      exact hdenotes

/-! ## Details -/

theorem denotes_armed_iff (value : Option JsonValue) :
    (∀ armed, sanitizeArmed value = some armed →
      Denotes (-2 ^ 63) (2 ^ 63 - 1) armed.position_lots) ↔
    ¬ ∃ record, value = some (.object record) ∧ OversizedArmed record := by
  constructor
  · rintro hall ⟨record, rfl, hslot, hts, hover⟩
    obtain ⟨slot, hslot⟩ := Option.isSome_iff_exists.1 hslot
    obtain ⟨ts_ms, hts⟩ := Option.isSome_iff_exists.1 hts
    have hover' := hover
    obtain ⟨text, htext, hsigned, -⟩ := hover'
    have hlots : decimalString (record.lookup "position_lots") true = some text := by
      rw [htext]
      exact decimalString_string hsigned
    have harmed := hall ⟨slot, ts_ms, text⟩ (sanitizeArmed_object.2 ⟨hslot, hts, hlots⟩)
    exact (denotes_i64_iff hlots).1 harmed hover
  · intro hnot armed harmed
    obtain ⟨record, rfl, hreads⟩ := sanitizeArmed_eq_some harmed
    rw [denotes_i64_iff hreads.position_lots]
    intro hover
    exact hnot ⟨record, rfl, by simp [hreads.slot], by simp [hreads.ts_ms], hover⟩

theorem denotes_lastFire_iff (value : Option JsonValue) :
    (∀ fire, sanitizeLastFire value = some fire →
      ∀ sequence, fire.sequence = some sequence → Denotes 0 (2 ^ 64 - 1) sequence) ↔
    ¬ ∃ record, value = some (.object record) ∧ OversizedLastFire record := by
  constructor
  · rintro hall ⟨record, rfl, hattempt, hts, houtcome, hover⟩
    obtain ⟨attempt, hattempt⟩ := Option.isSome_iff_exists.1 hattempt
    obtain ⟨ts_ms, hts⟩ := Option.isSome_iff_exists.1 hts
    obtain ⟨outcome, houtcome⟩ := Option.isSome_iff_exists.1 houtcome
    have hover' := hover
    obtain ⟨text, htext, hunsigned, -⟩ := hover'
    have hsequence : sequenceField (record.lookup "sequence") = some (some text) := by
      rw [htext]
      refine @sequenceField_nullable (some text) ?_
      rintro _ ⟨⟩
      exact hunsigned
    have hfire := hall ⟨attempt, some text, ts_ms, outcome⟩
      (sanitizeLastFire_object.2 ⟨hattempt, hsequence, hts, houtcome⟩)
    exact (denotes_sequence_iff hsequence).1 hfire hover
  · intro hnot fire hfire
    obtain ⟨record, rfl, hreads⟩ := sanitizeLastFire_eq_some hfire
    rw [denotes_sequence_iff hreads.sequence]
    intro hover
    exact hnot ⟨record, rfl, by simp [hreads.attempt], by simp [hreads.ts_ms],
      by simp [hreads.outcome], hover⟩

/-! ## Main result -/

/-- **A view carries representable quantities exactly if no text of digits in the leg is oversized.** -/
theorem view_representable_iff {raw : JsonValue} {v : TriggerLegView}
    (h : sanitizeTriggerLegView raw = some v) : Representable v ↔ ¬ OversizedLeg raw := by
  obtain ⟨raw, rfl, hreads⟩ := sanitize_eq_some h
  have harmed := denotes_armed_iff (raw.lookup "armed")
  have hfire := denotes_lastFire_iff (raw.lookup "last_fire")
  rw [hreads.armed] at harmed
  rw [hreads.last_fire] at hfire
  constructor
  · rintro hrep (⟨field, hfield, hover⟩ | ⟨field, hfield, hover⟩ | hover | hover)
    · simp only [List.mem_cons, List.not_mem_nil, or_false] at hfield
      rcases hfield with rfl | rfl | rfl
      · exact (denotes_u64_iff hreads.client_order_id).1 hrep.client_order_id hover
      · exact (denotes_u64_iff hreads.oco_group).1 hrep.oco_group hover
      · exact (denotes_u64_iff hreads.expiry_ts).1 hrep.expiry_ts hover
    · simp only [List.mem_cons, List.not_mem_nil, or_false] at hfield
      rcases hfield with rfl | rfl | rfl
      · exact (denotes_lots_iff hreads.trigger_price_lots).1 hrep.trigger_price_lots hover
      · exact (denotes_lots_iff hreads.limit_price_lots).1 hrep.limit_price_lots hover
      · exact (denotes_lots_iff hreads.max_base_lots).1 hrep.max_base_lots hover
    · exact harmed.1 hrep.position_lots hover
    · exact hfire.1 hrep.sequence hover
  · intro hnot
    have hu64 (field : String) (hfield : field ∈ ["client_order_id", "oco_group", "expiry_ts"]) :
        ¬ Oversized U64_LIMIT (raw.lookup field) :=
      fun hover => hnot (.inl ⟨field, hfield, hover⟩)
    have hlots (field : String)
        (hfield : field ∈ ["trigger_price_lots", "limit_price_lots", "max_base_lots"]) :
        ¬ Oversized I64_LIMIT (raw.lookup field) :=
      fun hover => hnot (.inr (.inl ⟨field, hfield, hover⟩))
    exact {
      client_order_id := (denotes_u64_iff hreads.client_order_id).2 (hu64 _ (by simp))
      oco_group := (denotes_u64_iff hreads.oco_group).2 (hu64 _ (by simp))
      expiry_ts := (denotes_u64_iff hreads.expiry_ts).2 (hu64 _ (by simp))
      sequence := hfire.2 fun hover => hnot (.inr (.inr (.inr hover)))
      trigger_price_lots := (denotes_lots_iff hreads.trigger_price_lots).2 (hlots _ (by simp))
      limit_price_lots := (denotes_lots_iff hreads.limit_price_lots).2 (hlots _ (by simp))
      max_base_lots := (denotes_lots_iff hreads.max_base_lots).2 (hlots _ (by simp))
      position_lots := harmed.2 fun hover => hnot (.inr (.inr (.inl hover))) }

theorem view_representable_live : Representable liveView := by
  have hlive : sanitizeTriggerLegView (.object liveLeg) = some liveView := by decide +kernel
  refine (view_representable_iff hlive).2 ?_
  rintro (⟨field, hfield, text, htext, -, hafter⟩ | ⟨field, hfield, text, htext, -, hafter⟩ |
    ⟨record, hrecord, -, -, text, htext, -, hafter⟩ | ⟨record, hrecord, -⟩)
  · simp only [List.mem_cons, List.not_mem_nil, or_false] at hfield
    rcases hfield with rfl | rfl | rfl <;> cases htext
    exact absurd hafter (by decide)
  · simp only [List.mem_cons, List.not_mem_nil, or_false] at hfield
    rcases hfield with rfl | rfl | rfl <;> cases htext <;> exact absurd hafter (by decide)
  · cases hrecord
    cases htext
    exact absurd hafter (by decide)
  · cases hrecord

/-- A client order id of twenty nines. -/
def oversizedLeg : JsonRecord :=
  Json.modify "client_order_id" (fun _ => .string (.ofString "99999999999999999999")) liveLeg

theorem view_not_representable : ∃ v, sanitizeTriggerLegView (.object oversizedLeg) = some v ∧
    decimalValue v.client_order_id = 99999999999999999999 ∧ ¬ Representable v := by
  refine ⟨{ liveView with client_order_id := .ofString "99999999999999999999" },
    by decide +kernel, by decide +kernel, fun hrep => ?_⟩
  exact absurd hrep.client_order_id.2.2 (by decide +kernel)

end FermiSdk.TriggerOrderViews
