import FermiSdk.JsString
import FermiSdk.Lib.Json

/-!
# Redacted views of trigger orders

`src/triggerOrderViews.ts`. The strict half is what the harness shows: `sanitizeTriggerLegView` builds
a view of a leg from checked fields, or refuses the leg. The lenient half is what the bridge forwards
of a keeper's response: `redactTriggerKeeperResponse` removes the forbidden keys everywhere and then
reduces the legs under `orders` and `order` to the fields of a view.

The fields of an object are listed as `Object.keys` lists them, and a field that is not there is
`undefined`, here `none`. An assignment to a property that the object has keeps its place, hence
`Json.modify`.
-/

namespace FermiSdk.TriggerOrderViews

open FermiSdk.Lib

/-- A value that `JSON.parse` returns. -/
abbrev JsonValue := Json JsNumber JsString

/-- The fields of an object, in their order. -/
abbrev JsonRecord := List (String × JsonValue)

/-- The fields that a leg may show, in the order in which a view lists them. -/
def TRIGGER_LEG_VIEW_FIELDS : List String := [
  "id", "mango_account", "account_owner", "market_index", "client_order_id", "kind", "direction",
  "side", "trigger_price_lots", "limit_price_lots", "max_base_lots", "reduce_only", "oco_group",
  "expiry_ts", "state", "state_reason", "wait_reason", "resign_required", "created_ms",
  "updated_ms", "armed", "last_fire"]

/-- The fields of the two details. -/
def TRIGGER_LEG_ARMED_FIELDS : List String := ["slot", "ts_ms", "position_lots"]

/-- The fields of the last attempt. -/
def TRIGGER_LEG_LAST_FIRE_FIELDS : List String := ["attempt", "sequence", "ts_ms", "outcome"]

/-- The keys of a stored leg that make it replayable. -/
def TRIGGER_FORBIDDEN_KEYS : List String :=
  ["payload_b64", "user_signature_b64", "remaining_accounts", "request"]

/-- A reason is cut to this length. -/
def MAX_REASON_CHARS : Nat := 200

/-- Anything deeper is replaced by null. -/
def MAX_REDACT_DEPTH : Nat := 12

/-! ## Patterns -/

/-- `/^[…]{lo,hi}$/` for a class of code units. -/
def repeated (inClass : UInt16 → Bool) (lo hi : Nat) (text : JsString) : Bool :=
  lo ≤ text.length && text.length ≤ hi && text.all inClass

/-- `lo-hi` in a class. -/
def between (lo hi : Char) (u : UInt16) : Bool := codeUnit lo ≤ u && u ≤ codeUnit hi

/-- `/^[0-9]{1,20}$/`. The digits are counted only, so more than a `u64` passes. -/
def UNSIGNED_DECIMAL : JsString → Bool := repeated DigitText.isDigit 1 20

/-- The text without the sign that it may start with. -/
def unsignedPart : JsString → JsString
  | [] => []
  | u :: text => if u = codeUnit '-' then text else u :: text

/-- `/^-?[0-9]{1,20}$/`. -/
def SIGNED_DECIMAL (text : JsString) : Bool := UNSIGNED_DECIMAL (unsignedPart text)

/-- 32 to 44 digits of base58. Whether they are a key is not checked. -/
def BASE58_PUBKEY : JsString → Bool :=
  repeated (fun u => between '1' '9' u || between 'A' 'H' u || between 'J' 'N' u ||
    between 'P' 'Z' u || between 'a' 'k' u || between 'm' 'z' u) 32 44

/-- The ids that a path can carry. -/
def LEG_ID : JsString → Bool :=
  repeated (fun u => between 'A' 'Z' u || between 'a' 'z' u || between '0' '9' u ||
    u ∈ JsString.ofString "_.:-") 1 128

/-- A name in snake case, without digits. -/
def STATE_NAME : JsString → Bool := repeated (fun u => between 'a' 'z' u || u = codeUnit '_') 1 48

/-! ## Fields of a view -/

/-- The texts that are accepted as keys. -/
def isBase58Pubkey (value : JsString) : Bool := BASE58_PUBKEY value

/-- Two ids would be read as steps of a path. -/
def isTriggerLegId (value : JsString) : Bool :=
  LEG_ID value && value ≠ .ofString "." && value ≠ .ofString ".."

/-- A string that is accepted. -/
def stringField (accepted : JsString → Bool) : Option JsonValue → Option JsString
  | some (.string value) => if accepted value then some value else none
  | _ => none

/-- Only a boolean counts: no text, no number. -/
def booleanField : Option JsonValue → Option Bool
  | some (.bool value) => some value
  | _ => none

/-- A member of a union of string literals. -/
def literalField {α : Type} (text : α → JsString) (members : List α) :
    Option JsonValue → Option α
  | some (.string value) => members.find? fun member => text member = value
  | _ => none

/-- A u64 or i64 as a decimal string. -/
def decimalString (value : Option JsonValue) (signed : Bool) : Option JsString :=
  match value with
  | some (.string text) =>
    if (if signed then SIGNED_DECIMAL else UNSIGNED_DECIMAL) text then some text else none
  | some (.number value) => do
    let n ← value.toInt?
    if value.isSafeInteger && (signed || 0 ≤ n) then some (.ofInt n) else none
  | _ => none

/-- A number, or its decimal digits. -/
def nonNegativeSafeInteger : Option JsonValue → Option Nat
  | some (.number value) => do
    let n ← value.toInt?
    if value.isSafeInteger && 0 ≤ n then some n.toNat else none
  | some (.string text) =>
    if UNSIGNED_DECIMAL text then do
      let parsed := numberOfDigits text
      let n ← parsed.toInt?
      if parsed.isSafeInteger then some n.toNat else none
    else none
  | _ => none

/-- A reason, null if there is none; or `none` (`undefined`) if it is not a string. -/
def reasonString : Option JsonValue → Option (Option JsString)
  | none => some none
  | some .null => some none
  | some (.string value) =>
    some (some (if value.length > MAX_REASON_CHARS then value.take MAX_REASON_CHARS else value))
  | _ => none

/-! ## Strict views -/

/-- The literals of three fields. -/
inductive TriggerLegKind where
  | stop_loss
  | take_profit
  deriving DecidableEq

/-- The literal of a member. -/
def TriggerLegKind.text : TriggerLegKind → JsString
  | .stop_loss => .ofString "stop_loss"
  | .take_profit => .ofString "take_profit"

/-- From which side the price has to come. -/
inductive TriggerLegDirection where
  | at_or_below
  | at_or_above
  deriving DecidableEq

/-- As for a kind. -/
def TriggerLegDirection.text : TriggerLegDirection → JsString
  | .at_or_below => .ofString "at_or_below"
  | .at_or_above => .ofString "at_or_above"

/-- The side of the order that is fired. -/
inductive TriggerLegSide where
  | bid
  | ask
  deriving DecidableEq

/-- As for a kind. -/
def TriggerLegSide.text : TriggerLegSide → JsString
  | .bid => .ofString "bid"
  | .ask => .ofString "ask"

/-- When a leg was armed, and with which position. -/
structure TriggerLegArmed where
  slot : Nat
  ts_ms : Nat
  position_lots : JsString
  deriving DecidableEq

/-- The last attempt. What was sent may not be known yet. -/
structure TriggerLegLastFire where
  attempt : Nat
  sequence : Option JsString
  ts_ms : Nat
  outcome : Option JsString
  deriving DecidableEq

/-- All that is shown of a leg. Integers of 64 bits stay texts. -/
structure TriggerLegView where
  id : JsString
  mango_account : JsString
  account_owner : JsString
  market_index : Nat
  client_order_id : JsString
  kind : TriggerLegKind
  direction : TriggerLegDirection
  side : TriggerLegSide
  trigger_price_lots : JsString
  limit_price_lots : JsString
  max_base_lots : JsString
  reduce_only : Bool
  oco_group : JsString
  expiry_ts : JsString
  state : JsString
  state_reason : Option JsString
  wait_reason : Option JsString
  resign_required : Bool
  created_ms : Nat
  updated_ms : Nat
  armed : Option TriggerLegArmed
  last_fire : Option TriggerLegLastFire
  deriving DecidableEq

/-- A malformed detail is shown as null; it does not refuse the leg. -/
def sanitizeArmed : Option JsonValue → Option TriggerLegArmed
  | some (.object value) => do
    let slot ← nonNegativeSafeInteger (value.lookup "slot")
    let ts_ms ← nonNegativeSafeInteger (value.lookup "ts_ms")
    let position_lots ← decimalString (value.lookup "position_lots") true
    pure { slot, ts_ms, position_lots }
  | _ => none

/-- `value.sequence`, which may be null or absent. -/
def sequenceField : Option JsonValue → Option (Option JsString)
  | none => some none
  | some .null => some none
  | value => (decimalString value false).map some

/-- The two optional fields must be well formed if they are there. -/
def sanitizeLastFire : Option JsonValue → Option TriggerLegLastFire
  | some (.object value) => do
    let attempt ← nonNegativeSafeInteger (value.lookup "attempt")
    let ts_ms ← nonNegativeSafeInteger (value.lookup "ts_ms")
    let sequence ← sequenceField (value.lookup "sequence")
    let outcome ← reasonString (value.lookup "outcome")
    pure { attempt, sequence, ts_ms, outcome }
  | _ => none

/-- The view of a leg, or null if the leg is malformed. -/
def sanitizeTriggerLegView : JsonValue → Option TriggerLegView
  | .object raw => do
    let market_index ← nonNegativeSafeInteger (raw.lookup "market_index")
    let client_order_id ← decimalString (raw.lookup "client_order_id") false
    let trigger_price_lots ← decimalString (raw.lookup "trigger_price_lots") false
    let limit_price_lots ← decimalString (raw.lookup "limit_price_lots") false
    let max_base_lots ← decimalString (raw.lookup "max_base_lots") false
    let oco_group ← decimalString (raw.lookup "oco_group") false
    let expiry_ts ← decimalString (raw.lookup "expiry_ts") false
    let created_ms ← nonNegativeSafeInteger (raw.lookup "created_ms")
    let updated_ms ← nonNegativeSafeInteger (raw.lookup "updated_ms")
    let state_reason ← reasonString (raw.lookup "state_reason")
    let wait_reason ← reasonString (raw.lookup "wait_reason")
    let id ← stringField isTriggerLegId (raw.lookup "id")
    let mango_account ← stringField isBase58Pubkey (raw.lookup "mango_account")
    let account_owner ← stringField isBase58Pubkey (raw.lookup "account_owner")
    if market_index > 0xffff then none
    else
      let kind ← literalField TriggerLegKind.text [.stop_loss, .take_profit] (raw.lookup "kind")
      let direction ← literalField TriggerLegDirection.text [.at_or_below, .at_or_above]
        (raw.lookup "direction")
      let side ← literalField TriggerLegSide.text [.bid, .ask] (raw.lookup "side")
      let reduce_only ← booleanField (raw.lookup "reduce_only")
      let state ← stringField STATE_NAME (raw.lookup "state")
      let resign_required ← booleanField (raw.lookup "resign_required")
      let armed := sanitizeArmed (raw.lookup "armed")
      let last_fire := sanitizeLastFire (raw.lookup "last_fire")
      pure {
        id, mango_account, account_owner, market_index, client_order_id, kind, direction, side,
        trigger_price_lots, limit_price_lots, max_base_lots, reduce_only, oco_group, expiry_ts, state,
        state_reason, wait_reason, resign_required, created_ms, updated_ms, armed, last_fire }
  | _ => none

/-! ## Views as JSON values -/

/-- A string or null. -/
def nullableString : Option JsString → JsonValue
  | some value => .string value
  | none => .null

/-- A safe integer as a JSON number. -/
def natural (n : Nat) : JsonValue := .number (.int n)

/-- The fields in the order of the literal. -/
def TriggerLegArmed.toRecord (armed : TriggerLegArmed) : JsonRecord := [
  ("slot", natural armed.slot), ("ts_ms", natural armed.ts_ms),
  ("position_lots", .string armed.position_lots)]

/-- What is not known is null. -/
def TriggerLegLastFire.toRecord (fire : TriggerLegLastFire) : JsonRecord := [
  ("attempt", natural fire.attempt), ("sequence", nullableString fire.sequence),
  ("ts_ms", natural fire.ts_ms), ("outcome", nullableString fire.outcome)]

/-- A detail or null. -/
def detail {α : Type} (toRecord : α → JsonRecord) : Option α → JsonValue
  | some value => .object (toRecord value)
  | none => .null

/-- The fields are those of `TRIGGER_LEG_VIEW_FIELDS`, in the same order. -/
def TriggerLegView.toRecord (view : TriggerLegView) : JsonRecord := [
  ("id", .string view.id),
  ("mango_account", .string view.mango_account),
  ("account_owner", .string view.account_owner),
  ("market_index", natural view.market_index),
  ("client_order_id", .string view.client_order_id),
  ("kind", .string view.kind.text),
  ("direction", .string view.direction.text),
  ("side", .string view.side.text),
  ("trigger_price_lots", .string view.trigger_price_lots),
  ("limit_price_lots", .string view.limit_price_lots),
  ("max_base_lots", .string view.max_base_lots),
  ("reduce_only", .bool view.reduce_only),
  ("oco_group", .string view.oco_group),
  ("expiry_ts", .string view.expiry_ts),
  ("state", .string view.state),
  ("state_reason", nullableString view.state_reason),
  ("wait_reason", nullableString view.wait_reason),
  ("resign_required", .bool view.resign_required),
  ("created_ms", natural view.created_ms),
  ("updated_ms", natural view.updated_ms),
  ("armed", detail TriggerLegArmed.toRecord view.armed),
  ("last_fire", detail TriggerLegLastFire.toRecord view.last_fire)]

/-- The view as it is sent on. -/
def TriggerLegView.toJson (view : TriggerLegView) : JsonValue := .object view.toRecord

/-! ## Lenient views -/

/-- Neither a list nor an object. -/
def isJsonScalar : JsonValue → Bool
  | .array _ => false
  | .object _ => false
  | _ => true

/-- The entry of a scalar field. -/
def scalarEntry (record : JsonRecord) (field : String) : Option (String × JsonValue) := do
  let value ← record.lookup field
  if isJsonScalar value then some (field, value) else none

/-- Of these fields, those that are scalars. -/
def pickScalars (value : JsonValue) (fields : List String) : JsonValue :=
  match value with
  | .object record => .object (fields.filterMap (scalarEntry record))
  | _ => .null

/-- The entry of a field of a leg view. -/
def viewEntry (record : JsonRecord) (field : String) : Option (String × JsonValue) :=
  if field = "armed" then
    (record.lookup field).map fun value => (field, pickScalars value TRIGGER_LEG_ARMED_FIELDS)
  else if field = "last_fire" then
    (record.lookup field).map fun value => (field, pickScalars value TRIGGER_LEG_LAST_FIRE_FIELDS)
  else scalarEntry record field

/-- The lenient view of a leg, or null. -/
def whitelistTriggerLegView : JsonValue → Option JsonValue
  | .object record => some (.object (TRIGGER_LEG_VIEW_FIELDS.filterMap (viewEntry record)))
  | _ => none

mutual

/-- A forbidden key is dropped with all that is under it. -/
def stripForbiddenKeys (depth : Nat) (value : JsonValue) : JsonValue :=
  if depth > MAX_REDACT_DEPTH then .null
  else match value with
    | .array items => .array (stripItems (depth + 1) items)
    | .object record => .object (stripRecord (depth + 1) record)
    | value => value

/-- The items of a list, one level deeper. -/
def stripItems (depth : Nat) : List JsonValue → List JsonValue
  | [] => []
  | item :: items => stripForbiddenKeys depth item :: stripItems depth items

/-- An assignment to `__proto__` makes no property. -/
def stripRecord (depth : Nat) : JsonRecord → JsonRecord
  | [] => []
  | (key, value) :: record =>
    if key ∈ TRIGGER_FORBIDDEN_KEYS ∨ key = "__proto__" then stripRecord depth record
    else (key, stripForbiddenKeys depth value) :: stripRecord depth record

end

/-- `stripped.orders`, assigned if it is an array. -/
def redactOrders : JsonValue → JsonValue
  | .array legs => .array (legs.filterMap whitelistTriggerLegView)
  | orders => orders

/-- `stripped.order`, assigned if it is not null. -/
def redactOrder : JsonValue → JsonValue
  | .null => .null
  | leg => (whitelistTriggerLegView leg).getD .null

/-- The keys are stripped first, so that no leg has one left. -/
def redactTriggerKeeperResponse (body : JsonValue) : JsonValue :=
  match stripForbiddenKeys 0 body with
  | .object record =>
    .object (Json.modify "order" redactOrder (Json.modify "orders" redactOrders record))
  | stripped => stripped

end FermiSdk.TriggerOrderViews
