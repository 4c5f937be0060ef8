import FermiSdk.TriggerOrderViews.Verify.Redaction

/-!
# The strict view of a leg

A leg has a view exactly if each field of the view is read from the leg's field of that name
(`sanitize_object`). Each way of reading a field reads what it wrote back as it was
(`decimalString_string`, `nonNegativeSafeInteger_natural` and the like), so that a view is its own
view; it carries the field over, up to the spelling of numbers and the length of reasons; and it
looks at scalars only, so that the order of keys does not matter (`read_same`).
-/

namespace FermiSdk.TriggerOrderViews

open FermiSdk.Lib FermiSdk.Lib.Json

variable {value : Option JsonValue} {text : JsString}

/-! ## Decimal texts -/

/-- The integer that a decimal text denotes. -/
def decimalValue (text : JsString) : Int :=
  if text.head? = some (codeUnit '-') then -(DigitText.value (unsignedPart text) : Int)
  else DigitText.value (unsignedPart text)

/-- A digit is not a sign. -/
theorem head?_ne_minus (h : ∀ u ∈ text, DigitText.isDigit u = true) :
    text.head? ≠ some (codeUnit '-') := by
  intro hhead
  exact absurd (h _ (List.mem_of_head? hhead)) (by decide)

theorem unsignedPart_of_head? (h : text.head? ≠ some (codeUnit '-')) : unsignedPart text = text := by
  cases text with
  | nil => rfl
  | cons u text => exact if_neg fun heq => h (congrArg some heq)

theorem unsignedDecimal_iff : UNSIGNED_DECIMAL text = true ↔
    1 ≤ text.length ∧ text.length ≤ 20 ∧ ∀ u ∈ text, DigitText.isDigit u = true := by
  simp [UNSIGNED_DECIMAL, repeated, and_assoc]

/-- A text without a sign is a signed one. -/
theorem signedDecimal_of_unsigned (h : UNSIGNED_DECIMAL text = true) : SIGNED_DECIMAL text = true := by
  rw [SIGNED_DECIMAL, unsignedPart_of_head? (head?_ne_minus (unsignedDecimal_iff.1 h).2.2)]
  exact h

theorem decimalValue_of_unsigned (h : UNSIGNED_DECIMAL text = true) :
    decimalValue text = DigitText.value text := by
  have hhead := head?_ne_minus (unsignedDecimal_iff.1 h).2.2
  rw [decimalValue, if_neg hhead, unsignedPart_of_head? hhead]

theorem isDigit_ofNat {n : Nat} : ∀ u ∈ DigitText.ofNat n, DigitText.isDigit u = true :=
  fun _ => DigitText.isDigit_of_mem_ofNat

theorem decimalValue_ofInt (n : Int) : decimalValue (.ofInt n) = n := by
  unfold JsString.ofInt
  split
  · rw [decimalValue, if_pos List.head?_cons, unsignedPart, if_pos rfl, DigitText.value_ofNat]
    omega
  · have hhead := head?_ne_minus (isDigit_ofNat (n := n.natAbs))
    rw [decimalValue, if_neg hhead, unsignedPart_of_head? hhead, DigitText.value_ofNat]
    omega

/-- The text of a safe integer has few digits. -/
theorem unsignedDecimal_ofNat {n : Nat} (h : (n : Int) ≤ MAX_SAFE_INTEGER) :
    UNSIGNED_DECIMAL (DigitText.ofNat n) = true := by
  unfold MAX_SAFE_INTEGER at h
  rw [unsignedDecimal_iff]
  refine ⟨DigitText.length_ofNat_pos n, ?_, isDigit_ofNat⟩
  exact DigitText.length_ofNat_le (by decide) (by omega)

theorem signedDecimal_ofInt {n : Int} (h : (JsNumber.int n).isSafeInteger = true) :
    SIGNED_DECIMAL (.ofInt n) = true := by
  rw [JsNumber.isSafeInteger_int] at h
  have hsafe := unsignedDecimal_ofNat (n := n.natAbs) (by omega)
  unfold JsString.ofInt
  split
  · rw [SIGNED_DECIMAL, unsignedPart, if_pos rfl]
    exact hsafe
  · exact signedDecimal_of_unsigned hsafe

/-! ## Reading a field -/

/-- A field that is a decimal text, or a safe integer that the text denotes. -/
def IsDecimal (value : Option JsonValue) (text : JsString) : Prop :=
  value = some (.string text) ∨
    ∃ n : Int, value = some (.number (.int n)) ∧ (JsNumber.int n).isSafeInteger = true ∧
      decimalValue text = n

/-- A field that is a safe integer, or a text of digits for it. -/
def IsCount (value : Option JsonValue) (n : Nat) : Prop :=
  (n : Int) ≤ MAX_SAFE_INTEGER ∧ (value = some (.number (.int n)) ∨
    ∃ text, value = some (.string text) ∧ UNSIGNED_DECIMAL text = true ∧ DigitText.value text = n)

/-- A field that is a reason, cut to its length; or null or absent. -/
def IsReason (value : Option JsonValue) (reason : Option JsString) : Prop :=
  ((value = none ∨ value = some .null) ∧ reason = none) ∨
    ∃ text, value = some (.string text) ∧ reason = some (text.take MAX_REASON_CHARS)

/-- A sequence number; or null or absent. -/
def IsSequence (value : Option JsonValue) (sequence : Option JsString) : Prop :=
  ((value = none ∨ value = some .null) ∧ sequence = none) ∨
    ∃ text, IsDecimal value text ∧ sequence = some text

/-- The texts that a decimal field may have. -/
def decimalPattern (signed : Bool) : JsString → Bool :=
  if signed then SIGNED_DECIMAL else UNSIGNED_DECIMAL

theorem decimalPattern_ofInt {signed : Bool} {n : Int} (h : (JsNumber.int n).isSafeInteger = true)
    (hsign : signed = true ∨ 0 ≤ n) : decimalPattern signed (.ofInt n) = true := by
  cases signed with
  | true => exact signedDecimal_ofInt h
  | false =>
    have hnonneg : 0 ≤ n := hsign.resolve_left Bool.false_ne_true
    rw [JsNumber.isSafeInteger_int] at h
    rw [JsString.ofInt, if_neg (by omega)]
    exact unsignedDecimal_ofNat (by omega)

theorem decimalString_eq_some {signed : Bool} (h : decimalString value signed = some text) :
    decimalPattern signed text = true ∧ IsDecimal value text := by
  unfold decimalString at h
  split at h
  · next s =>
    obtain ⟨haccepted, heq⟩ := Option.ite_none_right_eq_some.1 h
    cases heq
    exact ⟨haccepted, .inl rfl⟩
  · next x =>
    simp only [Option.bind_eq_bind, Option.bind_eq_some_iff, JsNumber.toInt?_eq_some,
      Option.ite_none_right_eq_some, Option.some_inj, Bool.and_eq_true, Bool.or_eq_true,
      decide_eq_true_eq] at h
    obtain ⟨n, rfl, ⟨hsafe, hsign⟩, rfl⟩ := h
    exact ⟨decimalPattern_ofInt hsafe hsign, .inr ⟨n, rfl, hsafe, decimalValue_ofInt n⟩⟩
  · cases h

theorem decimalString_string {signed : Bool} (h : decimalPattern signed text = true) :
    decimalString (some (.string text)) signed = some text := if_pos h

theorem nonNegativeSafeInteger_natural {n : Nat} (h : (n : Int) ≤ MAX_SAFE_INTEGER) :
    nonNegativeSafeInteger (some (natural n)) = some n := by
  have hsafe : (JsNumber.int n).isSafeInteger = true := by
    rw [JsNumber.isSafeInteger_int]
    exact ⟨by unfold MAX_SAFE_INTEGER; omega, h⟩
  simp [nonNegativeSafeInteger, natural, JsNumber.toInt?, hsafe]

theorem nonNegativeSafeInteger_eq_some {n : Nat} (h : nonNegativeSafeInteger value = some n) :
    IsCount value n := by
  unfold nonNegativeSafeInteger at h
  split at h
  · next x =>
    simp only [Option.bind_eq_bind, Option.bind_eq_some_iff, JsNumber.toInt?_eq_some,
      Option.ite_none_right_eq_some, Option.some_inj, Bool.and_eq_true, decide_eq_true_eq] at h
    obtain ⟨m, rfl, ⟨hsafe, hnonneg⟩, rfl⟩ := h
    rw [JsNumber.isSafeInteger_int] at hsafe
    rw [IsCount, Int.toNat_of_nonneg hnonneg]
    exact ⟨hsafe.2, .inl rfl⟩
  · next text =>
    obtain ⟨haccepted, h⟩ := Option.ite_none_right_eq_some.1 h
    simp only [Option.bind_eq_bind, Option.bind_eq_some_iff, JsNumber.toInt?_eq_some,
      Option.ite_none_right_eq_some, Option.some_inj, isSafeInteger_numberOfDigits] at h
    obtain ⟨m, hm, hsafe, rfl⟩ := h
    rw [numberOfDigits_of_safe hsafe, JsNumber.int.injEq] at hm
    subst hm
    exact ⟨hsafe, .inr ⟨text, rfl, haccepted, rfl⟩⟩
  · cases h

theorem reasonString_eq_some {reason : Option JsString} (h : reasonString value = some reason) :
    (∀ text, reason = some text → text.length ≤ MAX_REASON_CHARS) ∧ IsReason value reason := by
  unfold reasonString at h
  split at h
  · cases h
    exact ⟨nofun, .inl ⟨.inl rfl, rfl⟩⟩
  · cases h
    exact ⟨nofun, .inl ⟨.inr rfl, rfl⟩⟩
  · next text =>
    have hcut : (if text.length > MAX_REASON_CHARS then text.take MAX_REASON_CHARS else text) =
        text.take MAX_REASON_CHARS := by
      split
      · rfl
      · rw [List.take_of_length_le (by omega)]
    rw [hcut] at h
    cases h
    refine ⟨?_, .inr ⟨text, rfl, rfl⟩⟩
    rintro _ ⟨⟩
    exact List.length_take_le _ _
  · cases h

theorem reasonString_nullable {reason : Option JsString}
    (h : ∀ text, reason = some text → text.length ≤ MAX_REASON_CHARS) :
    reasonString (some (nullableString reason)) = some reason := by
  cases reason with
  | none => rfl
  | some text =>
    rw [nullableString, reasonString, if_neg]
    have := h text rfl
    omega

theorem stringField_eq_some {accepted : JsString → Bool}
    (h : stringField accepted value = some text) :
    value = some (.string text) ∧ accepted text = true := by
  unfold stringField at h
  split at h
  · obtain ⟨haccepted, heq⟩ := Option.ite_none_right_eq_some.1 h
    cases heq
    exact ⟨rfl, haccepted⟩
  · cases h

theorem booleanField_eq_some {b : Bool} (h : booleanField value = some b) :
    value = some (.bool b) := by
  unfold booleanField at h
  split at h
  · cases h
    rfl
  · cases h

theorem literalField_eq_some {α : Type} {name : α → JsString} {members : List α} {member : α}
    (h : literalField name members value = some member) : value = some (.string (name member)) := by
  unfold literalField at h
  split at h
  · have hname := List.find?_some h
    rw [decide_eq_true_eq] at hname
    rw [hname]
  · cases h

theorem literalField_string {α : Type} {name : α → JsString} {members : List α} {member : α}
    (h : literalField name members value = some member) :
    literalField name members (some (.string (name member))) = some member := by
  have hvalue := literalField_eq_some h
  rw [hvalue] at h
  exact h

theorem sequenceField_eq_some {sequence : Option JsString}
    (h : sequenceField value = some sequence) :
    (∀ text, sequence = some text → UNSIGNED_DECIMAL text = true) ∧ IsSequence value sequence := by
  unfold sequenceField at h
  split at h
  · cases h
    exact ⟨nofun, .inl ⟨.inl rfl, rfl⟩⟩
  · cases h
    exact ⟨nofun, .inl ⟨.inr rfl, rfl⟩⟩
  · obtain ⟨text, htext, rfl⟩ := Option.map_eq_some_iff.1 h
    obtain ⟨hpattern, hdecimal⟩ := decimalString_eq_some htext
    refine ⟨?_, .inr ⟨text, hdecimal, rfl⟩⟩
    rintro _ ⟨⟩
    exact hpattern

theorem sequenceField_nullable {sequence : Option JsString}
    (h : ∀ text, sequence = some text → UNSIGNED_DECIMAL text = true) :
    sequenceField (some (nullableString sequence)) = some sequence := by
  cases sequence with
  | none => rfl
  | some text =>
    have hstring : decimalString (some (.string text)) false = some text :=
      decimalString_string (h text rfl)
    rw [nullableString, sequenceField, hstring]
    rfl
    all_goals nofun

/-! ## Details -/

/-- The fields of `armed` that its view is read from. -/
structure ReadsArmed (record : JsonRecord) (armed : TriggerLegArmed) : Prop where
  slot : nonNegativeSafeInteger (record.lookup "slot") = some armed.slot
  ts_ms : nonNegativeSafeInteger (record.lookup "ts_ms") = some armed.ts_ms
  position_lots : decimalString (record.lookup "position_lots") true = some armed.position_lots

structure ReadsLastFire (record : JsonRecord) (fire : TriggerLegLastFire) : Prop where
  attempt : nonNegativeSafeInteger (record.lookup "attempt") = some fire.attempt
  sequence : sequenceField (record.lookup "sequence") = some fire.sequence
  ts_ms : nonNegativeSafeInteger (record.lookup "ts_ms") = some fire.ts_ms
  outcome : reasonString (record.lookup "outcome") = some fire.outcome

theorem sanitizeArmed_object {record : JsonRecord} {armed : TriggerLegArmed} :
    sanitizeArmed (some (.object record)) = some armed ↔ ReadsArmed record armed := by
  simp only [sanitizeArmed, Option.bind_eq_bind, Option.bind_eq_some_iff, Option.pure_def,
    Option.some_inj]
  constructor
  · rintro ⟨slot, hslot, ts_ms, hts, lots, hlots, rfl⟩
    exact ⟨hslot, hts, hlots⟩
  · intro h
    exact ⟨_, h.slot, _, h.ts_ms, _, h.position_lots, rfl⟩

theorem sanitizeLastFire_object {record : JsonRecord} {fire : TriggerLegLastFire} :
    sanitizeLastFire (some (.object record)) = some fire ↔ ReadsLastFire record fire := by
  simp only [sanitizeLastFire, Option.bind_eq_bind, Option.bind_eq_some_iff, Option.pure_def,
    Option.some_inj]
  constructor
  · rintro ⟨attempt, hattempt, ts_ms, hts, sequence, hsequence, outcome, houtcome, rfl⟩
    exact ⟨hattempt, hsequence, hts, houtcome⟩
  · intro h
    exact ⟨_, h.attempt, _, h.ts_ms, _, h.sequence, _, h.outcome, rfl⟩

theorem sanitizeArmed_eq_some {armed : TriggerLegArmed} (h : sanitizeArmed value = some armed) :
    ∃ record, value = some (.object record) ∧ ReadsArmed record armed := by
  unfold sanitizeArmed at h
  split at h
  · next record => exact ⟨record, rfl, sanitizeArmed_object.1 h⟩
  · cases h

theorem sanitizeLastFire_eq_some {fire : TriggerLegLastFire}
    (h : sanitizeLastFire value = some fire) :
    ∃ record, value = some (.object record) ∧ ReadsLastFire record fire := by
  unfold sanitizeLastFire at h
  split at h
  · next record => exact ⟨record, rfl, sanitizeLastFire_object.1 h⟩
  · cases h

/-- A detail is read from its own fields. -/
theorem ReadsArmed.self {record : JsonRecord} {armed : TriggerLegArmed}
    (h : ReadsArmed record armed) : ReadsArmed armed.toRecord armed where
  slot := nonNegativeSafeInteger_natural (nonNegativeSafeInteger_eq_some h.slot).1
  ts_ms := nonNegativeSafeInteger_natural (nonNegativeSafeInteger_eq_some h.ts_ms).1
  position_lots := decimalString_string (decimalString_eq_some h.position_lots).1

theorem ReadsLastFire.self {record : JsonRecord} {fire : TriggerLegLastFire}
    (h : ReadsLastFire record fire) : ReadsLastFire fire.toRecord fire where
  attempt := nonNegativeSafeInteger_natural (nonNegativeSafeInteger_eq_some h.attempt).1
  sequence := sequenceField_nullable (sequenceField_eq_some h.sequence).1
  ts_ms := nonNegativeSafeInteger_natural (nonNegativeSafeInteger_eq_some h.ts_ms).1
  outcome := reasonString_nullable (reasonString_eq_some h.outcome).1

theorem sanitizeArmed_self (value : Option JsonValue) :
    sanitizeArmed (some (detail TriggerLegArmed.toRecord (sanitizeArmed value))) =
      sanitizeArmed value := by
  cases h : sanitizeArmed value with
  | none => rfl
  | some armed =>
    obtain ⟨record, -, hreads⟩ := sanitizeArmed_eq_some h
    exact sanitizeArmed_object.2 hreads.self

theorem sanitizeLastFire_self (value : Option JsonValue) :
    sanitizeLastFire (some (detail TriggerLegLastFire.toRecord (sanitizeLastFire value))) =
      sanitizeLastFire value := by
  cases h : sanitizeLastFire value with
  | none => rfl
  | some fire =>
    obtain ⟨record, -, hreads⟩ := sanitizeLastFire_eq_some h
    exact sanitizeLastFire_object.2 hreads.self

/-! ## Views -/

/-- The fields of a leg that its view is read from. -/
structure Reads (raw : JsonRecord) (v : TriggerLegView) : Prop where
  id : stringField isTriggerLegId (raw.lookup "id") = some v.id
  mango_account : stringField isBase58Pubkey (raw.lookup "mango_account") = some v.mango_account
  account_owner : stringField isBase58Pubkey (raw.lookup "account_owner") = some v.account_owner
  market_index : nonNegativeSafeInteger (raw.lookup "market_index") = some v.market_index
  market_index_le : v.market_index ≤ 0xffff
  client_order_id : decimalString (raw.lookup "client_order_id") false = some v.client_order_id
  kind : literalField TriggerLegKind.text [.stop_loss, .take_profit] (raw.lookup "kind") =
    some v.kind
  direction : literalField TriggerLegDirection.text [.at_or_below, .at_or_above]
    (raw.lookup "direction") = some v.direction
  side : literalField TriggerLegSide.text [.bid, .ask] (raw.lookup "side") = some v.side
  trigger_price_lots :
    decimalString (raw.lookup "trigger_price_lots") false = some v.trigger_price_lots
  limit_price_lots : decimalString (raw.lookup "limit_price_lots") false = some v.limit_price_lots
  max_base_lots : decimalString (raw.lookup "max_base_lots") false = some v.max_base_lots
  reduce_only : booleanField (raw.lookup "reduce_only") = some v.reduce_only
  oco_group : decimalString (raw.lookup "oco_group") false = some v.oco_group
  expiry_ts : decimalString (raw.lookup "expiry_ts") false = some v.expiry_ts
  state : stringField STATE_NAME (raw.lookup "state") = some v.state
  state_reason : reasonString (raw.lookup "state_reason") = some v.state_reason
  wait_reason : reasonString (raw.lookup "wait_reason") = some v.wait_reason
  resign_required : booleanField (raw.lookup "resign_required") = some v.resign_required
  created_ms : nonNegativeSafeInteger (raw.lookup "created_ms") = some v.created_ms
  updated_ms : nonNegativeSafeInteger (raw.lookup "updated_ms") = some v.updated_ms
  armed : sanitizeArmed (raw.lookup "armed") = v.armed
  last_fire : sanitizeLastFire (raw.lookup "last_fire") = v.last_fire

/-- **A leg has a view exactly if each field of the view is read from it.** -/
theorem sanitize_object {raw : JsonRecord} {v : TriggerLegView} :
    sanitizeTriggerLegView (.object raw) = some v ↔ Reads raw v := by
  constructor
  · intro h
    unfold sanitizeTriggerLegView at h
    obtain ⟨_, hmarket, h⟩ := Option.bind_eq_some_iff.1 h
    obtain ⟨_, hclient, h⟩ := Option.bind_eq_some_iff.1 h
    obtain ⟨_, htrigger, h⟩ := Option.bind_eq_some_iff.1 h
    obtain ⟨_, hlimit, h⟩ := Option.bind_eq_some_iff.1 h
    obtain ⟨_, hmax, h⟩ := Option.bind_eq_some_iff.1 h
    obtain ⟨_, hoco, h⟩ := Option.bind_eq_some_iff.1 h
    obtain ⟨_, hexpiry, h⟩ := Option.bind_eq_some_iff.1 h
    obtain ⟨_, hcreated, h⟩ := Option.bind_eq_some_iff.1 h
    obtain ⟨_, hupdated, h⟩ := Option.bind_eq_some_iff.1 h
    obtain ⟨_, hstateReason, h⟩ := Option.bind_eq_some_iff.1 h
    obtain ⟨_, hwaitReason, h⟩ := Option.bind_eq_some_iff.1 h
    obtain ⟨_, hid, h⟩ := Option.bind_eq_some_iff.1 h
    obtain ⟨_, hmango, h⟩ := Option.bind_eq_some_iff.1 h
    obtain ⟨_, howner, h⟩ := Option.bind_eq_some_iff.1 h
    obtain ⟨hle, h⟩ := Option.ite_none_left_eq_some.1 h
    obtain ⟨_, hkind, h⟩ := Option.bind_eq_some_iff.1 h
    obtain ⟨_, hdirection, h⟩ := Option.bind_eq_some_iff.1 h
    obtain ⟨_, hside, h⟩ := Option.bind_eq_some_iff.1 h
    obtain ⟨_, hreduce, h⟩ := Option.bind_eq_some_iff.1 h
    obtain ⟨_, hstate, h⟩ := Option.bind_eq_some_iff.1 h
    obtain ⟨_, hresign, h⟩ := Option.bind_eq_some_iff.1 h
    cases h
    exact {
      id := hid
      mango_account := hmango
      account_owner := howner
      market_index := hmarket
      market_index_le := Nat.le_of_not_lt hle
      client_order_id := hclient
      kind := hkind
      direction := hdirection
      side := hside
      trigger_price_lots := htrigger
      limit_price_lots := hlimit
      max_base_lots := hmax
      reduce_only := hreduce
      oco_group := hoco
      expiry_ts := hexpiry
      state := hstate
      state_reason := hstateReason
      wait_reason := hwaitReason
      resign_required := hresign
      created_ms := hcreated
      updated_ms := hupdated
      armed := rfl
      last_fire := rfl }
  · intro h
    rw [sanitizeTriggerLegView, h.market_index, h.client_order_id, h.trigger_price_lots, h.limit_price_lots,
      h.max_base_lots, h.oco_group, h.expiry_ts, h.created_ms, h.updated_ms, h.state_reason,
      h.wait_reason, h.id, h.mango_account, h.account_owner, h.kind, h.direction, h.side,
      h.reduce_only, h.state, h.resign_required, h.armed, h.last_fire]
    exact if_neg (Nat.not_lt_of_le h.market_index_le)

theorem sanitize_eq_some {raw : JsonValue} {v : TriggerLegView}
    (h : sanitizeTriggerLegView raw = some v) : ∃ record, raw = .object record ∧ Reads record v := by
  cases raw with
  | object record => exact ⟨record, rfl, sanitize_object.1 h⟩
  | _ => cases h

theorem stringField_string {accepted : JsString → Bool} (h : accepted text = true) :
    stringField accepted (some (.string text)) = some text := if_pos h

/-- A view is read from its own fields. -/
theorem Reads.self {raw : JsonRecord} {v : TriggerLegView} (h : Reads raw v) :
    Reads v.toRecord v where
  id := stringField_string (stringField_eq_some h.id).2
  mango_account := stringField_string (stringField_eq_some h.mango_account).2
  account_owner := stringField_string (stringField_eq_some h.account_owner).2
  market_index := nonNegativeSafeInteger_natural (nonNegativeSafeInteger_eq_some h.market_index).1
  market_index_le := h.market_index_le
  client_order_id := decimalString_string (decimalString_eq_some h.client_order_id).1
  kind := literalField_string h.kind
  direction := literalField_string h.direction
  side := literalField_string h.side
  trigger_price_lots := decimalString_string (decimalString_eq_some h.trigger_price_lots).1
  limit_price_lots := decimalString_string (decimalString_eq_some h.limit_price_lots).1
  max_base_lots := decimalString_string (decimalString_eq_some h.max_base_lots).1
  reduce_only := rfl
  oco_group := decimalString_string (decimalString_eq_some h.oco_group).1
  expiry_ts := decimalString_string (decimalString_eq_some h.expiry_ts).1
  state := stringField_string (stringField_eq_some h.state).2
  state_reason := reasonString_nullable (reasonString_eq_some h.state_reason).1
  wait_reason := reasonString_nullable (reasonString_eq_some h.wait_reason).1
  resign_required := rfl
  created_ms := nonNegativeSafeInteger_natural (nonNegativeSafeInteger_eq_some h.created_ms).1
  updated_ms := nonNegativeSafeInteger_natural (nonNegativeSafeInteger_eq_some h.updated_ms).1
  armed := by
    have hself := sanitizeArmed_self (raw.lookup "armed")
    rw [h.armed] at hself
    exact hself
  last_fire := by
    have hself := sanitizeLastFire_self (raw.lookup "last_fire")
    rw [h.last_fire] at hself
    exact hself

/-! ## What a view carries over -/

/-- The fields of a leg that its view shows, up to the spelling of numbers and the length of
reasons. -/
structure Carries (raw : JsonRecord) (v : TriggerLegView) : Prop where
  id : raw.lookup "id" = some (.string v.id)
  mango_account : raw.lookup "mango_account" = some (.string v.mango_account)
  account_owner : raw.lookup "account_owner" = some (.string v.account_owner)
  market_index : IsCount (raw.lookup "market_index") v.market_index
  client_order_id : IsDecimal (raw.lookup "client_order_id") v.client_order_id
  kind : raw.lookup "kind" = some (.string v.kind.text)
  direction : raw.lookup "direction" = some (.string v.direction.text)
  side : raw.lookup "side" = some (.string v.side.text)
  trigger_price_lots : IsDecimal (raw.lookup "trigger_price_lots") v.trigger_price_lots
  limit_price_lots : IsDecimal (raw.lookup "limit_price_lots") v.limit_price_lots
  max_base_lots : IsDecimal (raw.lookup "max_base_lots") v.max_base_lots
  reduce_only : raw.lookup "reduce_only" = some (.bool v.reduce_only)
  oco_group : IsDecimal (raw.lookup "oco_group") v.oco_group
  expiry_ts : IsDecimal (raw.lookup "expiry_ts") v.expiry_ts
  state : raw.lookup "state" = some (.string v.state)
  state_reason : IsReason (raw.lookup "state_reason") v.state_reason
  wait_reason : IsReason (raw.lookup "wait_reason") v.wait_reason
  resign_required : raw.lookup "resign_required" = some (.bool v.resign_required)
  created_ms : IsCount (raw.lookup "created_ms") v.created_ms
  updated_ms : IsCount (raw.lookup "updated_ms") v.updated_ms
  armed : ∀ armed, v.armed = some armed → ∃ record, raw.lookup "armed" = some (.object record) ∧
    IsCount (record.lookup "slot") armed.slot ∧ IsCount (record.lookup "ts_ms") armed.ts_ms ∧
      IsDecimal (record.lookup "position_lots") armed.position_lots
  last_fire : ∀ fire, v.last_fire = some fire →
    ∃ record, raw.lookup "last_fire" = some (.object record) ∧
      IsCount (record.lookup "attempt") fire.attempt ∧
      IsSequence (record.lookup "sequence") fire.sequence ∧
      IsCount (record.lookup "ts_ms") fire.ts_ms ∧ IsReason (record.lookup "outcome") fire.outcome

theorem Reads.carries {raw : JsonRecord} {v : TriggerLegView} (h : Reads raw v) :
    Carries raw v where
  id := (stringField_eq_some h.id).1
  mango_account := (stringField_eq_some h.mango_account).1
  account_owner := (stringField_eq_some h.account_owner).1
  market_index := nonNegativeSafeInteger_eq_some h.market_index
  client_order_id := (decimalString_eq_some h.client_order_id).2
  kind := literalField_eq_some h.kind
  direction := literalField_eq_some h.direction
  side := literalField_eq_some h.side
  trigger_price_lots := (decimalString_eq_some h.trigger_price_lots).2
  limit_price_lots := (decimalString_eq_some h.limit_price_lots).2
  max_base_lots := (decimalString_eq_some h.max_base_lots).2
  reduce_only := booleanField_eq_some h.reduce_only
  oco_group := (decimalString_eq_some h.oco_group).2
  expiry_ts := (decimalString_eq_some h.expiry_ts).2
  state := (stringField_eq_some h.state).1
  state_reason := (reasonString_eq_some h.state_reason).2
  wait_reason := (reasonString_eq_some h.wait_reason).2
  resign_required := booleanField_eq_some h.resign_required
  created_ms := nonNegativeSafeInteger_eq_some h.created_ms
  updated_ms := nonNegativeSafeInteger_eq_some h.updated_ms
  armed := by
    intro armed harmed
    obtain ⟨record, hrecord, hreads⟩ := sanitizeArmed_eq_some (h.armed.trans harmed)
    exact ⟨record, hrecord, nonNegativeSafeInteger_eq_some hreads.slot,
      nonNegativeSafeInteger_eq_some hreads.ts_ms,
      (decimalString_eq_some hreads.position_lots).2⟩
  last_fire := by
    intro fire hfire
    obtain ⟨record, hrecord, hreads⟩ := sanitizeLastFire_eq_some (h.last_fire.trans hfire)
    exact ⟨record, hrecord, nonNegativeSafeInteger_eq_some hreads.attempt,
      (sequenceField_eq_some hreads.sequence).2, nonNegativeSafeInteger_eq_some hreads.ts_ms,
      (reasonString_eq_some hreads.outcome).2⟩

/-! ## What a view depends on -/

section

variable {x y : Option JsonValue}

/-- A reader that treats all arrays and objects alike does not look at the order of keys. -/
theorem read_same {α : Type} (read : Option JsonValue → α)
    (hread : ∀ v, isJsonScalar v = false → read (some v) = read (some (.array [])))
    (h : Option.Rel Same x y) : read x = read y := by
  cases h with
  | none => rfl
  | @some v w hvw =>
    obtain ⟨hscalar, heq⟩ := scalar_same hvw
    cases hv : isJsonScalar v with
    | true => rw [heq hv]
    | false => rw [hread v hv, hread w (hscalar ▸ hv)]

theorem stringField_same (accepted : JsString → Bool) (h : Option.Rel Same x y) :
    stringField accepted x = stringField accepted y :=
  read_same (stringField accepted) (fun v hv => by cases v <;> cases hv <;> rfl) h

theorem booleanField_same (h : Option.Rel Same x y) : booleanField x = booleanField y :=
  read_same booleanField (fun v hv => by cases v <;> cases hv <;> rfl) h

theorem literalField_same {α : Type} (name : α → JsString) (members : List α)
    (h : Option.Rel Same x y) : literalField name members x = literalField name members y :=
  read_same (literalField name members) (fun v hv => by cases v <;> cases hv <;> rfl) h

theorem decimalString_same (signed : Bool) (h : Option.Rel Same x y) :
    decimalString x signed = decimalString y signed :=
  read_same (decimalString · signed) (fun v hv => by cases v <;> cases hv <;> rfl) h

theorem nonNegativeSafeInteger_same (h : Option.Rel Same x y) :
    nonNegativeSafeInteger x = nonNegativeSafeInteger y :=
  read_same nonNegativeSafeInteger (fun v hv => by cases v <;> cases hv <;> rfl) h

theorem reasonString_same (h : Option.Rel Same x y) : reasonString x = reasonString y :=
  read_same reasonString (fun v hv => by cases v <;> cases hv <;> rfl) h

theorem sequenceField_same (h : Option.Rel Same x y) : sequenceField x = sequenceField y :=
  read_same sequenceField (fun v hv => by cases v <;> cases hv <;> rfl) h

theorem sanitizeArmed_same (h : Option.Rel Same x y) : sanitizeArmed x = sanitizeArmed y := by
  cases h with
  | none => rfl
  | some hvw =>
    cases hvw with
    | object hkeys h =>
      have hfield := same_object_iff.1 (.object hkeys h)
      simp only [sanitizeArmed, nonNegativeSafeInteger_same (hfield _),
        decimalString_same true (hfield _)]
    | _ => rfl

theorem sanitizeLastFire_same (h : Option.Rel Same x y) :
    sanitizeLastFire x = sanitizeLastFire y := by
  cases h with
  | none => rfl
  | some hvw =>
    cases hvw with
    | object hkeys h =>
      have hfield := same_object_iff.1 (.object hkeys h)
      simp only [sanitizeLastFire, nonNegativeSafeInteger_same (hfield _),
        sequenceField_same (hfield _), reasonString_same (hfield _)]
    | _ => rfl

/-- The order of keys does not matter. -/
theorem sanitize_same {raw raw' : JsonValue} (h : Same raw raw') :
    sanitizeTriggerLegView raw = sanitizeTriggerLegView raw' := by
  cases h with
  | object hkeys h =>
    have hfield := same_object_iff.1 (.object hkeys h)
    simp only [sanitizeTriggerLegView, nonNegativeSafeInteger_same (hfield _),
      decimalString_same _ (hfield _), reasonString_same (hfield _), stringField_same _ (hfield _),
      literalField_same _ _ (hfield _), booleanField_same (hfield _), sanitizeArmed_same (hfield _),
      sanitizeLastFire_same (hfield _)]
  | _ => rfl

/-- The fields of `armed` are looked up among its own. -/
theorem sanitizeArmed_keepFields :
    sanitizeArmed (x.map (keepFields TRIGGER_LEG_ARMED_FIELDS)) = sanitizeArmed x := by
  cases x with
  | none => rfl
  | some v =>
    cases v with
    | object record =>
      simp only [Option.map_some, keepFields, sanitizeArmed, lookup_mapValues,
        TRIGGER_LEG_ARMED_FIELDS]
      simp
    | _ => rfl

theorem sanitizeLastFire_keepFields :
    sanitizeLastFire (x.map (keepFields TRIGGER_LEG_LAST_FIRE_FIELDS)) = sanitizeLastFire x := by
  cases x with
  | none => rfl
  | some v =>
    cases v with
    | object record =>
      simp only [Option.map_some, keepFields, sanitizeLastFire, lookup_mapValues,
        TRIGGER_LEG_LAST_FIRE_FIELDS]
      simp
    | _ => rfl

end

/-- The fields of a leg that a view is read from. -/
def keptRecord (record : JsonRecord) : JsonRecord :=
  modify "armed" (keepFields TRIGGER_LEG_ARMED_FIELDS)
    (modify "last_fire" (keepFields TRIGGER_LEG_LAST_FIRE_FIELDS)
      (mapValues (· ∈ TRIGGER_LEG_VIEW_FIELDS) id record))

theorem lookup_keptRecord {record : JsonRecord} {field : String}
    (hfield : field ∈ TRIGGER_LEG_VIEW_FIELDS) (harmed : field ≠ "armed")
    (hfire : field ≠ "last_fire") : (keptRecord record).lookup field = record.lookup field := by
  simp [keptRecord, hfield, harmed, hfire]

theorem lookup_keptRecord_armed {record : JsonRecord} : (keptRecord record).lookup "armed" =
    (record.lookup "armed").map (keepFields TRIGGER_LEG_ARMED_FIELDS) := by
  simp [keptRecord, TRIGGER_LEG_VIEW_FIELDS]

theorem lookup_keptRecord_lastFire {record : JsonRecord} : (keptRecord record).lookup "last_fire" =
    (record.lookup "last_fire").map (keepFields TRIGGER_LEG_LAST_FIRE_FIELDS) := by
  simp [keptRecord, TRIGGER_LEG_VIEW_FIELDS]
  rfl

/-- A view is read from the fields that it has. -/
theorem sanitize_keepLeg (raw : JsonValue) :
    sanitizeTriggerLegView (keepLeg raw) = sanitizeTriggerLegView raw := by
  cases raw with
  | object record =>
    have hkeep : keepLeg (.object record) = .object (keptRecord record) := rfl
    rw [hkeep]
    simp (disch := decide) only [sanitizeTriggerLegView, lookup_keptRecord,
      lookup_keptRecord_armed, lookup_keptRecord_lastFire, sanitizeArmed_keepFields,
      sanitizeLastFire_keepFields]
  | _ => rfl

/-! ## Main result -/

/-- **The strict sanitizer is a retraction onto views.** What it returns has exactly the fields of a
view and is its own view; it carries over the fields of the leg; and it depends on these alone, up to
the order of their keys. -/
theorem sanitizer_retracts :
    (∀ raw v, sanitizeTriggerLegView raw = some v →
      v.toRecord.map Prod.fst = TRIGGER_LEG_VIEW_FIELDS ∧
      (∀ armed, v.armed = some armed → armed.toRecord.map Prod.fst = TRIGGER_LEG_ARMED_FIELDS) ∧
      (∀ fire, v.last_fire = some fire →
        fire.toRecord.map Prod.fst = TRIGGER_LEG_LAST_FIRE_FIELDS) ∧
      sanitizeTriggerLegView v.toJson = some v ∧
      ∃ record, raw = .object record ∧ Carries record v) ∧
    (∀ raw raw', Same (keepLeg raw) (keepLeg raw') →
      sanitizeTriggerLegView raw = sanitizeTriggerLegView raw') := by
  refine ⟨fun raw v h => ?_, fun raw raw' h => ?_⟩
  · obtain ⟨record, hrecord, hreads⟩ := sanitize_eq_some h
    exact ⟨rfl, fun _ _ => rfl, fun _ _ => rfl, sanitize_object.2 hreads.self, record, hrecord,
      hreads.carries⟩
  · rw [← sanitize_keepLeg raw, sanitize_same h, sanitize_keepLeg]

/-- An armed leg, with numbers in both spellings and a field that no view has. -/
def liveLeg : JsonRecord := [
  ("id", .string (.ofString "leg-1")),
  ("mango_account", .string (.ofString "11111111111111111111111111111111")),
  ("account_owner", .string (.ofString "11111111111111111111111111111112")),
  ("market_index", .string (.ofString "007")),
  ("client_order_id", .number (.int 42)),
  ("kind", .string (.ofString "stop_loss")),
  ("direction", .string (.ofString "at_or_below")),
  ("side", .string (.ofString "ask")),
  ("trigger_price_lots", .string (.ofString "100")),
  ("limit_price_lots", .string (.ofString "99")),
  ("max_base_lots", .string (.ofString "5")),
  ("reduce_only", .bool true),
  ("oco_group", .number (.int 0)),
  ("expiry_ts", .string (.ofString "1700000000")),
  ("state", .string (.ofString "armed")),
  ("request", .null),
  ("resign_required", .bool false),
  ("created_ms", .number (.int 1)),
  ("updated_ms", .number (.int 2)),
  ("armed", .object [("slot", .number (.int 9)), ("ts_ms", .number (.int 3)),
    ("position_lots", .string (.ofString "-5"))])]

def liveView : TriggerLegView where
  id := .ofString "leg-1"
  mango_account := .ofString "11111111111111111111111111111111"
  account_owner := .ofString "11111111111111111111111111111112"
  market_index := 7
  client_order_id := .ofString "42"
  kind := .stop_loss
  direction := .at_or_below
  side := .ask
  trigger_price_lots := .ofString "100"
  limit_price_lots := .ofString "99"
  max_base_lots := .ofString "5"
  reduce_only := true
  oco_group := .ofString "0"
  expiry_ts := .ofString "1700000000"
  state := .ofString "armed"
  state_reason := none
  wait_reason := none
  resign_required := false
  created_ms := 1
  updated_ms := 2
  armed := some ⟨9, 3, .ofString "-5"⟩
  last_fire := none

theorem sanitizer_retracts_live : sanitizeTriggerLegView liveView.toJson = some liveView := by
  have hlive : sanitizeTriggerLegView (.object liveLeg) = some liveView := by decide +kernel
  exact (sanitizer_retracts.1 _ _ hlive).2.2.2.1

end FermiSdk.TriggerOrderViews
