import FermiSdk.TriggerOrderViews.Verify.Fixpoints
import FermiSdk.TriggerOrderViews.Verify.Strict

/-!
# The strict view of a lenient view

The lenient view keeps the scalars under the fields of a view (`lookup_view_plain`). Every field that
the strict view accepts is a scalar or absent, so a leg with a strict view has the same one after the
lenient view, but for its last fire: an array or an object under `sequence` or `outcome` makes the
strict view show no last fire, and the lenient view drops it.
-/

namespace FermiSdk.TriggerOrderViews

open FermiSdk.Lib FermiSdk.Lib.Json

variable {record : JsonRecord} {value : Option JsonValue}

theorem scalarEntry_snd (field : String) :
    (scalarEntry record field).map Prod.snd = (record.lookup field).filter isJsonScalar := by
  unfold scalarEntry
  cases record.lookup field with
  | none => rfl
  | some value => cases hscalar : isJsonScalar value <;> simp [Option.filter_some, hscalar]

theorem lookup_picked {fields : List String} {field : String} (hfield : field ∈ fields) :
    (fields.filterMap (scalarEntry record)).lookup field =
      (record.lookup field).filter isJsonScalar := by
  rw [lookup_scalars, if_pos hfield, scalarEntry_snd]

theorem lookup_view_plain {field : String} (hfield : field ∈ TRIGGER_LEG_VIEW_FIELDS)
    (harmed : field ≠ "armed") (hfire : field ≠ "last_fire") :
    (TRIGGER_LEG_VIEW_FIELDS.filterMap (viewEntry record)).lookup field =
      (record.lookup field).filter isJsonScalar := by
  rw [lookup_view, if_pos hfield, viewEntry, if_neg harmed, if_neg hfire, scalarEntry_snd]

theorem lookup_view_armed :
    (TRIGGER_LEG_VIEW_FIELDS.filterMap (viewEntry record)).lookup "armed" =
      (record.lookup "armed").map (pickScalars · TRIGGER_LEG_ARMED_FIELDS) := by
  rw [lookup_view, if_pos (by decide), viewEntry, if_pos rfl, Option.map_map]
  rfl

theorem lookup_view_lastFire :
    (TRIGGER_LEG_VIEW_FIELDS.filterMap (viewEntry record)).lookup "last_fire" =
      (record.lookup "last_fire").map (pickScalars · TRIGGER_LEG_LAST_FIRE_FIELDS) := by
  rw [lookup_view, if_pos (by decide), viewEntry, if_neg (by decide), if_pos rfl, Option.map_map]
  rfl

/-! ## Reading what was kept -/

/-- A reader of scalars reads a field that was kept. -/
theorem read_filter {α : Type} (read : Option JsonValue → Option α) {a : α}
    (hread : ∀ v, isJsonScalar v = false → read (some v) = none) (h : read value = some a) :
    read (value.filter isJsonScalar) = some a := by
  cases value with
  | none => exact h
  | some v =>
    cases hv : isJsonScalar v with
    | true => rwa [Option.filter_some_pos hv]
    | false =>
      rw [hread v hv] at h
      cases h

/-- A reader that needs its field reads nothing of a field that was dropped. -/
theorem read_filter_eq {α : Type} (read : Option JsonValue → Option α) (hnone : read none = none)
    (hread : ∀ v, isJsonScalar v = false → read (some v) = none) :
    read (value.filter isJsonScalar) = read value := by
  cases value with
  | none => rfl
  | some v =>
    cases hv : isJsonScalar v with
    | true => rw [Option.filter_some_pos hv]
    | false => rw [Option.filter_some_neg (by simp [hv]), hread v hv, hnone]

theorem nonNegativeSafeInteger_filter :
    nonNegativeSafeInteger (value.filter isJsonScalar) = nonNegativeSafeInteger value :=
  read_filter_eq nonNegativeSafeInteger rfl fun v hv => by cases v <;> cases hv <;> rfl

theorem decimalString_filter (signed : Bool) :
    decimalString (value.filter isJsonScalar) signed = decimalString value signed :=
  read_filter_eq (decimalString · signed) rfl fun v hv => by cases v <;> cases hv <;> rfl

theorem stringField_filter (accepted : JsString → Bool) :
    stringField accepted (value.filter isJsonScalar) = stringField accepted value :=
  read_filter_eq (stringField accepted) rfl fun v hv => by cases v <;> cases hv <;> rfl

theorem booleanField_filter : booleanField (value.filter isJsonScalar) = booleanField value :=
  read_filter_eq booleanField rfl fun v hv => by cases v <;> cases hv <;> rfl

theorem literalField_filter {α : Type} (name : α → JsString) (members : List α) :
    literalField name members (value.filter isJsonScalar) = literalField name members value :=
  read_filter_eq (literalField name members) rfl fun v hv => by cases v <;> cases hv <;> rfl

/-- A reason may be absent, so a reason that was dropped is read as none. -/
theorem reasonString_filter {reason : Option JsString} (h : reasonString value = some reason) :
    reasonString (value.filter isJsonScalar) = some reason :=
  read_filter reasonString (fun v hv => by cases v <;> cases hv <;> rfl) h

/-! ## Details -/

/-- The armed detail is read from what was kept of it. -/
theorem sanitizeArmed_picked :
    sanitizeArmed (value.map (pickScalars · TRIGGER_LEG_ARMED_FIELDS)) = sanitizeArmed value := by
  cases value with
  | none => rfl
  | some v =>
    cases v with
    | object fields =>
      simp (disch := decide) only [Option.map_some, pickScalars, sanitizeArmed, lookup_picked,
        nonNegativeSafeInteger_filter, decimalString_filter]
    | _ => rfl

/-- A field with an array or an object. -/
def Nested (value : Option JsonValue) : Prop := ∃ v, value = some v ∧ isJsonScalar v = false

/-- What is read of `last_fire` after the lenient view. -/
def lenientLastFire (value : Option JsonValue) : Option TriggerLegLastFire :=
  sanitizeLastFire (value.map (pickScalars · TRIGGER_LEG_LAST_FIRE_FIELDS))

/-- A last fire that the strict view hides because of an array or an object under `sequence` or
`outcome`, and that is well formed without it. -/
def HiddenLastFire (value : Option JsonValue) : Prop :=
  ∃ fire, value = some (.object fire) ∧
    (Nested (fire.lookup "sequence") ∨ Nested (fire.lookup "outcome")) ∧
    (lenientLastFire value).isSome = true

theorem filter_of_not_nested (h : ¬ Nested value) : value.filter isJsonScalar = value := by
  cases value with
  | none => rfl
  | some v =>
    cases hv : isJsonScalar v with
    | true => exact Option.filter_some_pos hv
    | false => exact absurd ⟨v, rfl, hv⟩ h

theorem sequenceField_nested (h : Nested value) : sequenceField value = none := by
  obtain ⟨v, rfl, hv⟩ := h
  cases v <;> cases hv <;> rfl

theorem reasonString_nested (h : Nested value) : reasonString value = none := by
  obtain ⟨v, rfl, hv⟩ := h
  cases v <;> cases hv <;> rfl

theorem sanitizeLastFire_nested {fire : JsonRecord}
    (h : Nested (fire.lookup "sequence") ∨ Nested (fire.lookup "outcome")) :
    sanitizeLastFire (some (.object fire)) = none := by
  rw [Option.eq_none_iff_forall_ne_some]
  intro view hview
  have hreads := sanitizeLastFire_object.1 hview
  rcases h with hsequence | houtcome
  · have hread := hreads.sequence
    rw [sequenceField_nested hsequence] at hread
    cases hread
  · have hread := hreads.outcome
    rw [reasonString_nested houtcome] at hread
    cases hread

/-- A detail shows a last fire without what is nested under `sequence` and `outcome`. -/
structure ShowsUnnested (fire : JsonRecord) (detail : TriggerLegLastFire) : Prop where
  attempt : nonNegativeSafeInteger (fire.lookup "attempt") = some detail.attempt
  ts_ms : nonNegativeSafeInteger (fire.lookup "ts_ms") = some detail.ts_ms
  sequence : sequenceField ((fire.lookup "sequence").filter isJsonScalar) = some detail.sequence
  outcome : reasonString ((fire.lookup "outcome").filter isJsonScalar) = some detail.outcome
  sequence_nested : Nested (fire.lookup "sequence") → detail.sequence = none
  outcome_nested : Nested (fire.lookup "outcome") → detail.outcome = none

theorem filter_of_nested (h : Nested value) : value.filter isJsonScalar = none := by
  obtain ⟨v, rfl, hv⟩ := h
  exact Option.filter_some_neg (by simp [hv])

/-- What is read after the lenient view has the scalars of the last fire, and none of the rest. -/
theorem showsUnnested_of_lenient {fire : JsonRecord} {detail : TriggerLegLastFire}
    (h : lenientLastFire (some (.object fire)) = some detail) : ShowsUnnested fire detail := by
  have hreads : ReadsLastFire (TRIGGER_LEG_LAST_FIRE_FIELDS.filterMap (scalarEntry fire)) detail :=
    sanitizeLastFire_object.1 h
  have hattempt := hreads.attempt
  have hts := hreads.ts_ms
  have hsequence := hreads.sequence
  have houtcome := hreads.outcome
  rw [lookup_picked (by decide)] at hattempt hts hsequence houtcome
  rw [nonNegativeSafeInteger_filter] at hattempt hts
  refine ⟨hattempt, hts, hsequence, houtcome, fun hnested => ?_, fun hnested => ?_⟩
  · rw [filter_of_nested hnested] at hsequence
    exact (Option.some.inj hsequence).symm
  · rw [filter_of_nested hnested] at houtcome
    exact (Option.some.inj houtcome).symm

/-- **The last fire is the same after the lenient view, unless the strict view hides it.** -/
theorem lenientLastFire_eq_iff :
    lenientLastFire value = sanitizeLastFire value ↔ ¬ HiddenLastFire value := by
  constructor
  · rintro heq ⟨fire, rfl, hnested, hsome⟩
    rw [heq, sanitizeLastFire_nested hnested] at hsome
    cases hsome
  · intro hnot
    cases value with
    | none => rfl
    | some v =>
      cases v with
      | object fire =>
        by_cases hnested : Nested (fire.lookup "sequence") ∨ Nested (fire.lookup "outcome")
        · rw [sanitizeLastFire_nested hnested, ← Option.not_isSome_iff_eq_none]
          exact fun hsome => hnot ⟨fire, rfl, hnested, hsome⟩
        · rw [not_or] at hnested
          simp (disch := decide) only [lenientLastFire, Option.map_some, pickScalars,
            sanitizeLastFire, lookup_picked, nonNegativeSafeInteger_filter,
            filter_of_not_nested hnested.1, filter_of_not_nested hnested.2]
      | _ => rfl

/-! ## Main result -/

/-- The lenient view of a leg with a strict view is read as that view, but for its last fire. -/
theorem Reads.lenient {v : TriggerLegView} (h : Reads record v) :
    Reads (TRIGGER_LEG_VIEW_FIELDS.filterMap (viewEntry record))
      { v with last_fire := lenientLastFire (record.lookup "last_fire") } := by
  constructor
  case market_index_le => exact h.market_index_le
  case armed =>
    rw [lookup_view_armed, sanitizeArmed_picked]
    exact h.armed
  case last_fire => rw [lookup_view_lastFire, lenientLastFire]
  case state_reason =>
    rw [lookup_view_plain (by decide) (by decide) (by decide)]
    exact reasonString_filter h.state_reason
  case wait_reason =>
    rw [lookup_view_plain (by decide) (by decide) (by decide)]
    exact reasonString_filter h.wait_reason
  all_goals
    simp (disch := decide) only [lookup_view_plain, stringField_filter, booleanField_filter,
      literalField_filter, decimalString_filter, nonNegativeSafeInteger_filter]
  case id => exact h.id
  case mango_account => exact h.mango_account
  case account_owner => exact h.account_owner
  case market_index => exact h.market_index
  case client_order_id => exact h.client_order_id
  case kind => exact h.kind
  case direction => exact h.direction
  case side => exact h.side
  case trigger_price_lots => exact h.trigger_price_lots
  case limit_price_lots => exact h.limit_price_lots
  case max_base_lots => exact h.max_base_lots
  case reduce_only => exact h.reduce_only
  case oco_group => exact h.oco_group
  case expiry_ts => exact h.expiry_ts
  case state => exact h.state
  case resign_required => exact h.resign_required
  case created_ms => exact h.created_ms
  case updated_ms => exact h.updated_ms

/-- Whether a leg's last fire is hidden by the strict view only. -/
def HidesLastFire : JsonValue → Prop
  | .object raw => HiddenLastFire (raw.lookup "last_fire")
  | _ => False

/-- **The lenient view does not change what the strict view shows**, but for a last fire with an
array or an object under `sequence` or `outcome`: the strict view of the leg shows none, and after
the lenient view the last fire is shown without them. -/
theorem lenient_view_agrees {raw : JsonValue} {v : TriggerLegView}
    (h : sanitizeTriggerLegView raw = some v) :
    ∃ view fire, whitelistTriggerLegView raw = some view ∧
      sanitizeTriggerLegView view = some { v with last_fire := fire } ∧
      (fire = v.last_fire ↔ ¬ HidesLastFire raw) ∧
      (HidesLastFire raw → v.last_fire = none ∧ ∃ record lastFire detail, raw = .object record ∧
        record.lookup "last_fire" = some (.object lastFire) ∧ fire = some detail ∧
        ShowsUnnested lastFire detail) := by
  obtain ⟨record, rfl, hreads⟩ := sanitize_eq_some h
  refine ⟨_, lenientLastFire (record.lookup "last_fire"), rfl, ?_, ?_, ?_⟩
  · exact sanitize_object.2 hreads.lenient
  · rw [← hreads.last_fire]
    exact lenientLastFire_eq_iff
  · rintro ⟨lastFire, hfire, hnested, hsome⟩
    obtain ⟨detail, hdetail⟩ := Option.isSome_iff_exists.1 hsome
    rw [← hreads.last_fire, hfire, sanitizeLastFire_nested hnested]
    rw [hfire] at hdetail
    exact ⟨rfl, record, lastFire, detail, rfl, hfire, hdetail, showsUnnested_of_lenient hdetail⟩

theorem lenient_view_agrees_live : ∃ view, whitelistTriggerLegView (.object liveLeg) = some view ∧
    sanitizeTriggerLegView view = some liveView := by
  have hlive : sanitizeTriggerLegView (.object liveLeg) = some liveView := by decide +kernel
  obtain ⟨view, fire, hview, hsanitized, hfire, -⟩ := lenient_view_agrees hlive
  have hshown : fire = liveView.last_fire := by
    refine hfire.2 ?_
    rintro ⟨record, hrecord, -⟩
    cases hrecord
  subst hshown
  exact ⟨view, hview, hsanitized⟩

/-- A leg whose last fire has an object for its sequence number. -/
def nestedLeg : JsonRecord :=
  liveLeg ++ [("last_fire", .object [
    ("attempt", .number (.int 1)), ("sequence", .object []), ("ts_ms", .number (.int 4))])]

theorem lenient_view_shows_last_fire :
    sanitizeTriggerLegView (.object nestedLeg) = some liveView ∧
      (whitelistTriggerLegView (.object nestedLeg)).bind sanitizeTriggerLegView =
        some { liveView with last_fire := some ⟨1, none, 4, none⟩ } ∧
      (whitelistTriggerLegView (.object nestedLeg)).bind sanitizeTriggerLegView ≠
        sanitizeTriggerLegView (.object nestedLeg) := by
  refine ⟨?_, ?_, ?_⟩ <;> decide +kernel

end FermiSdk.TriggerOrderViews
