import FermiSdk.Solana

/-!
# Integers and queue payloads

`src/intents.ts`, first part: the checked little-endian integers and the three execution-queue
payload encoders. A payload is a version, a variant, two bytes of flags and a body.

A `number` must be an integer in the range of its width, a `bigint` must be in range; each integer
encoder is followed by what its success means (`u8_eq_ok` and so on).
-/

namespace FermiSdk

open FermiSdk.Lib

/-- `Buffer.concat`. -/
def Buffer.concat (parts : List Bytes) : Bytes := parts.flatten

@[simp] theorem Buffer.concat_nil : Buffer.concat [] = [] := rfl

@[simp] theorem Buffer.concat_cons (part : Bytes) (parts : List Bytes) :
    Buffer.concat (part :: parts) = part ++ Buffer.concat parts := rfl

theorem Buffer.concat_append (a b : List Bytes) :
    Buffer.concat (a ++ b) = Buffer.concat a ++ Buffer.concat b := List.flatten_append

/-- `Buffer.from([a, b, …])`, which keeps the low byte of each number. -/
def Buffer.ofInts (numbers : List Int) : Bytes :=
  numbers.map fun n => UInt8.ofNat (n % 256).toNat

/-- `Buffer.from(text, 'utf-8')` of an ASCII text. -/
def Buffer.ofAscii (text : String) : Bytes := text.toList.map fun c => UInt8.ofNat c.toNat

namespace Intents

/-- The bounds of the widths. -/
def U16_MAX : Int := 0xffff
def U32_MAX : Int := 0xffffffff
def U64_MAX : Int := 2 ^ 64 - 1
def I64_MIN : Int := -2 ^ 63
def I64_MAX : Int := 2 ^ 63 - 1

/-! ## Integers -/

/-- A byte. Numbers must be integers, as everywhere below. -/
def u8 (value : JsNumber) : Throws Bytes := do
  throwIf (!value.isIntegerIn 0 0xff) s!"u8 out of range: {value}"
  pure (leBytes 1 (← value.toBigInt).toNat)

/-- Two bytes, little-endian. -/
def u16ToLe (value : JsNumber) : Throws Bytes := do
  throwIf (!value.isIntegerIn 0 U16_MAX) s!"u16 out of range: {value}"
  pure (leBytes 2 (← value.toBigInt).toNat)

/-- Four bytes. -/
def u32ToLe (value : JsNumber) : Throws Bytes := do
  throwIf (!value.isIntegerIn 0 U32_MAX) s!"u32 out of range: {value}"
  pure (leBytes 4 (← value.toBigInt).toNat)

/-- Eight bytes, also of a bigint. -/
def u64ToLe (value : BigNumberish) : Throws Bytes := do
  let n ← toBigInt value
  throwIf (n < 0 ∨ n > U64_MAX) s!"u64 out of range: {n}"
  pure (leBytes 8 n.toNat)

/-- The same in two's complement. -/
def i64ToLe (value : BigNumberish) : Throws Bytes := do
  let n ← toBigInt value
  throwIf (n < I64_MIN ∨ n > I64_MAX) s!"i64 out of range: {n}"
  pure (leBytes 8 (n % 256 ^ 8).toNat)

/-- A range check on a number, then its bytes. -/
theorem checkedBytes_eq_ok {w : Nat} {hi : Int} (hw : hi + 1 = 256 ^ w) {value : JsNumber}
    {e : String} {bs : Bytes} :
    (do throwIf (!value.isIntegerIn 0 hi) e
        pure (leBytes w (← value.toBigInt).toNat) : Throws Bytes) = .ok bs ↔
      ∃ n, value = .int n ∧ (Codec.uint w).Valid n ∧ bs = (Codec.uint w).encode n := by
  have hrange : ∀ n, (0 ≤ n ∧ n ≤ hi) ↔ (Codec.uint w).Valid n := fun n =>
    and_congr_right fun _ => by omega
  rw [JsNumber.checked_bind_eq_ok]
  exact exists_congr fun n => and_congr_right fun _ => and_congr (hrange n)
    (Throws.pure_eq_ok.trans eq_comm)

theorem u8_eq_ok {value : JsNumber} {bs : Bytes} :
    u8 value = .ok bs ↔
      ∃ n, value = .int n ∧ (Codec.uint 1).Valid n ∧ bs = (Codec.uint 1).encode n :=
  checkedBytes_eq_ok (by decide)

theorem u16ToLe_eq_ok {value : JsNumber} {bs : Bytes} :
    u16ToLe value = .ok bs ↔
      ∃ n, value = .int n ∧ (Codec.uint 2).Valid n ∧ bs = (Codec.uint 2).encode n :=
  checkedBytes_eq_ok (by decide)

theorem u32ToLe_eq_ok {value : JsNumber} {bs : Bytes} :
    u32ToLe value = .ok bs ↔
      ∃ n, value = .int n ∧ (Codec.uint 4).Valid n ∧ bs = (Codec.uint 4).encode n :=
  checkedBytes_eq_ok (by decide)

theorem valid_u64 {n : Int} : (Codec.uint 8).Valid n ↔ 0 ≤ n ∧ n ≤ U64_MAX := by
  simp only [U64_MAX, Codec.uint]
  omega

theorem valid_i64 {n : Int} : (Codec.sint 8).Valid n ↔ I64_MIN ≤ n ∧ n ≤ I64_MAX := by
  simp only [I64_MIN, I64_MAX, Codec.sint]
  omega

theorem u64ToLe_eq_ok {value : BigNumberish} {bs : Bytes} :
    u64ToLe value = .ok bs ↔
      ∃ n, toBigInt value = .ok n ∧ (Codec.uint 8).Valid n ∧ bs = (Codec.uint 8).encode n := by
  simp only [u64ToLe, Throws.bind_eq_ok, Throws.throwIf_eq_ok, exists_const, Throws.pure_eq_ok,
    not_or, not_lt, gt_iff_lt, valid_u64]
  exact exists_congr fun n => and_congr_right fun _ => and_congr_right fun _ => eq_comm

theorem i64ToLe_eq_ok {value : BigNumberish} {bs : Bytes} :
    i64ToLe value = .ok bs ↔
      ∃ n, toBigInt value = .ok n ∧ (Codec.sint 8).Valid n ∧ bs = (Codec.sint 8).encode n := by
  simp only [i64ToLe, Throws.bind_eq_ok, Throws.throwIf_eq_ok, exists_const, Throws.pure_eq_ok,
    not_or, not_lt, gt_iff_lt, valid_i64]
  exact exists_congr fun n => and_congr_right fun _ => and_congr_right fun _ => eq_comm

/-! ## Enumerations -/

/-- `QueueItemKind.CtmWrapped`. -/
def CtmWrapped : JsNumber := .int 0

/-- What an intent is for. -/
inductive UserIntentTargetKind where
  | PerpMarket
  | Token
  deriving DecidableEq

/-- The byte of a kind. -/
def UserIntentTargetKind.toNumber : UserIntentTargetKind → JsNumber
  | .PerpMarket => .int 0
  | .Token => .int 1

/-- The commands that the SDK sends. There is no variant 1. -/
inductive QueuePayloadVariant where
  | PerpPlaceOrderV2
  | PerpCancelOrderByClientOrderId
  | PerpCancelAllOrders
  deriving DecidableEq

/-- The byte of a variant. -/
def QueuePayloadVariant.toNumber : QueuePayloadVariant → Int
  | .PerpPlaceOrderV2 => 0
  | .PerpCancelOrderByClientOrderId => 2
  | .PerpCancelAllOrders => 3

/-- The side of an order. -/
inductive QueueSide where
  | bid
  | ask
  deriving DecidableEq

/-- How an order is matched and what happens to the rest of it. -/
inductive QueuePlaceOrderType where
  | limit
  | immediateOrCancel
  | postOnly
  | market
  | postOnlySlide
  deriving DecidableEq

/-- What happens when an order meets one of its owner's. -/
inductive QueueSelfTradeBehavior where
  | decrementTake
  | cancelProvide
  | abortTransaction
  deriving DecidableEq

/-- The bytes of the three enumerations, as the program has them. -/
def sideToU8 : QueueSide → Int
  | .bid => 0
  | .ask => 1

/-- The order of the constructors is that of the bytes. -/
def orderTypeToU8 : QueuePlaceOrderType → Int
  | .limit => 0
  | .immediateOrCancel => 1
  | .postOnly => 2
  | .market => 3
  | .postOnlySlide => 4

def selfTradeBehaviorToU8 : QueueSelfTradeBehavior → Int
  | .decrementTake => 0
  | .cancelProvide => 1
  | .abortTransaction => 2

/-! ## Payloads -/

/-- Version 1, no flags. -/
def encodeQueuePayloadV1 (variant : QueuePayloadVariant) (body : Bytes) : Throws Bytes := do
  pure (Buffer.concat [Buffer.ofInts [1, variant.toNumber], ← u16ToLe (.int 0), body])

/-- An order, in lots. -/
structure PerpPlaceOrderV2Fields where
  side : QueueSide
  priceLots : BigNumberish
  maxBaseLots : BigNumberish
  maxQuoteLots : BigNumberish
  clientOrderId : BigNumberish
  orderType : QueuePlaceOrderType
  selfTradeBehavior : QueueSelfTradeBehavior
  reduceOnly : Bool
  expiryTimestamp : BigNumberish
  limit : JsNumber

/-- The body has a fixed length. -/
def encodePerpPlaceOrderV2QueuePayload (fields : PerpPlaceOrderV2Fields) : Throws Bytes := do
  encodeQueuePayloadV1 .PerpPlaceOrderV2 (Buffer.concat [
    ← u8 (.int (sideToU8 fields.side)),
    ← i64ToLe fields.priceLots,
    ← i64ToLe fields.maxBaseLots,
    ← i64ToLe fields.maxQuoteLots,
    ← u64ToLe fields.clientOrderId,
    ← u8 (.int (orderTypeToU8 fields.orderType)),
    ← u8 (.int (selfTradeBehaviorToU8 fields.selfTradeBehavior)),
    ← u8 (.int (if fields.reduceOnly then 1 else 0)),
    ← u64ToLe fields.expiryTimestamp,
    ← u8 fields.limit])

/-- The id is the whole body. -/
def encodePerpCancelOrderByClientOrderIdQueuePayload (clientOrderId : BigNumberish) :
    Throws Bytes := do
  encodeQueuePayloadV1 .PerpCancelOrderByClientOrderId (← u64ToLe clientOrderId)

/-- At most `limit` orders are cancelled. -/
def encodePerpCancelAllOrdersQueuePayload (limit : JsNumber) : Throws Bytes := do
  encodeQueuePayloadV1 .PerpCancelAllOrders (← u8 limit)

end Intents

end FermiSdk
