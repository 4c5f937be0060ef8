import FermiSdk.Intents.Payload

/-!
# The queue payload format is lossless

`decodeQueuePayload` reads a payload as the reference documents it: version, variant and flags, then
the body of the variant in little-endian. Every payload an encoder returns decodes to the encoder's
variant and fields, and an encoder accepts exactly the fields in their wire range
(`payloads_lossless`).

The bodies are codecs (`placeOrder`), so that each round trip is the codec's own; what is left is
that an encoder's checks say that the fields denote a valid value (`encodePlaceOrder_eq_ok`).
-/

namespace FermiSdk

open FermiSdk.Lib

/-- The integer that a value stands for. -/
def BigNumberish.Denotes (value : BigNumberish) (n : Int) : Prop :=
  value = .bigint n ∨ value = .number (.int n)

theorem BigNumberish.denotes_of_toBigInt {value : BigNumberish} {n : Int}
    (h : toBigInt value = .ok n) : value.Denotes n := by
  cases value with
  | bigint m =>
    rw [toBigInt, Throws.pure_eq_ok] at h
    exact .inl (h ▸ rfl)
  | number x => exact .inr ((toBigInt_number_eq_ok.1 h).1 ▸ rfl)

namespace Intents

/-! ## The decoder -/

structure PlaceOrder where
  side : QueueSide
  priceLots : Int
  maxBaseLots : Int
  maxQuoteLots : Int
  clientOrderId : Int
  orderType : QueuePlaceOrderType
  selfTradeBehavior : QueueSelfTradeBehavior
  reduceOnly : Bool
  expiryTimestamp : Int
  limit : Int
  deriving DecidableEq

inductive QueuePayload where
  | placeOrder (order : PlaceOrder)
  | cancelByClientOrderId (clientOrderId : Int)
  | cancelAll (limit : Int)
  deriving DecidableEq

def side : Codec QueueSide :=
  .choice 1 sideToU8
    (fun | 0 => some .bid | 1 => some .ask | _ => none)
    (by intro a; cases a <;> decide)

def orderType : Codec QueuePlaceOrderType :=
  .choice 1 orderTypeToU8
    (fun | 0 => some .limit | 1 => some .immediateOrCancel | 2 => some .postOnly
         | 3 => some .market | 4 => some .postOnlySlide | _ => none)
    (by intro a; cases a <;> decide)

def selfTradeBehavior : Codec QueueSelfTradeBehavior :=
  .choice 1 selfTradeBehaviorToU8
    (fun | 0 => some .decrementTake | 1 => some .cancelProvide | 2 => some .abortTransaction
         | _ => none)
    (by intro a; cases a <;> decide)

def bool : Codec Bool :=
  .choice 1 (fun b => if b then 1 else 0)
    (fun | 0 => some false | 1 => some true | _ => none)
    (by intro a; cases a <;> decide)

/-- The body of a place-order payload. -/
def placeOrder : Codec PlaceOrder :=
  (side.pair <| (Codec.sint 8).pair <| (Codec.sint 8).pair <| (Codec.sint 8).pair <|
    (Codec.uint 8).pair <| orderType.pair <| selfTradeBehavior.pair <| bool.pair <|
    (Codec.uint 8).pair (Codec.uint 1)).imap
  (fun ⟨side, priceLots, maxBaseLots, maxQuoteLots, clientOrderId, orderType, selfTradeBehavior,
      reduceOnly, expiryTimestamp, limit⟩ =>
    { side, priceLots, maxBaseLots, maxQuoteLots, clientOrderId, orderType, selfTradeBehavior,
      reduceOnly, expiryTimestamp, limit })
  (fun o => ⟨o.side, o.priceLots, o.maxBaseLots, o.maxQuoteLots, o.clientOrderId, o.orderType,
    o.selfTradeBehavior, o.reduceOnly, o.expiryTimestamp, o.limit⟩)
  (fun _ => rfl)

/-- Version, variant and flags. -/
def header : Codec (Int × Int × Int) := (Codec.uint 1).pair ((Codec.uint 1).pair (Codec.uint 2))

def decodeQueuePayload (bytes : Bytes) : Option QueuePayload :=
  match header.decode bytes with
  | some ((1, 0, 0), body) => (placeOrder.decodeAll body).map .placeOrder
  | some ((1, 2, 0), body) => ((Codec.uint 8).decodeAll body).map .cancelByClientOrderId
  | some ((1, 3, 0), body) => ((Codec.uint 1).decodeAll body).map .cancelAll
  | _ => none

/-! ## Each encoder returns its codec's encoding -/

/-- A payload is its header and its body. -/
def payload (variant : QueuePayloadVariant) (body : Bytes) : Bytes :=
  header.encode (1, variant.toNumber, 0) ++ body

theorem encodeQueuePayloadV1_eq_ok {variant : QueuePayloadVariant} {body bs : Bytes} :
    encodeQueuePayloadV1 variant body = .ok bs ↔ bs = payload variant body := by
  have hflags : u16ToLe (.int 0) = .ok [0, 0] := rfl
  have hheader : header.encode (1, variant.toNumber, 0) =
      Buffer.ofInts [1, variant.toNumber] ++ [0, 0] := by
    cases variant <;> decide
  simp only [encodeQueuePayloadV1, payload, hflags, hheader, Throws.bind_eq_ok, Except.ok.injEq,
    exists_eq_left', Throws.pure_eq_ok, Buffer.concat_cons, Buffer.concat_nil, List.append_nil,
    List.append_assoc]
  exact eq_comm

theorem decode_header (variant : QueuePayloadVariant) (body : Bytes) :
    header.decode (payload variant body) = some ((1, variant.toNumber, 0), body) := by
  cases variant <;> exact header.decode_encode ⟨by decide, by decide, by decide⟩ body

/-- A caller's fields agree with an order, with its numbers compared by `R`. -/
structure PerpPlaceOrderV2Fields.Agree (R : BigNumberish → Int → Prop)
    (f : PerpPlaceOrderV2Fields) (o : PlaceOrder) : Prop where
  side : o.side = f.side
  priceLots : R f.priceLots o.priceLots
  maxBaseLots : R f.maxBaseLots o.maxBaseLots
  maxQuoteLots : R f.maxQuoteLots o.maxQuoteLots
  clientOrderId : R f.clientOrderId o.clientOrderId
  orderType : o.orderType = f.orderType
  selfTradeBehavior : o.selfTradeBehavior = f.selfTradeBehavior
  reduceOnly : o.reduceOnly = f.reduceOnly
  expiryTimestamp : R f.expiryTimestamp o.expiryTimestamp
  limit : f.limit = .int o.limit

theorem PerpPlaceOrderV2Fields.Agree.mono {R S : BigNumberish → Int → Prop}
    (hRS : ∀ v n, R v n → S v n) {f : PerpPlaceOrderV2Fields} {o : PlaceOrder}
    (h : f.Agree R o) : f.Agree S o where
  side := h.side
  priceLots := hRS _ _ h.priceLots
  maxBaseLots := hRS _ _ h.maxBaseLots
  maxQuoteLots := hRS _ _ h.maxQuoteLots
  clientOrderId := hRS _ _ h.clientOrderId
  orderType := h.orderType
  selfTradeBehavior := h.selfTradeBehavior
  reduceOnly := h.reduceOnly
  expiryTimestamp := hRS _ _ h.expiryTimestamp
  limit := h.limit

/-- The place-order encoder succeeds exactly on fields that convert to a valid order, and returns
that order's encoding. -/
theorem encodePlaceOrder_eq_ok {f : PerpPlaceOrderV2Fields} {bs : Bytes} :
    encodePerpPlaceOrderV2QueuePayload f = .ok bs ↔
      ∃ o, f.Agree (fun v n => toBigInt v = .ok n) o ∧ placeOrder.Valid o ∧
        bs = payload .PerpPlaceOrderV2 (placeOrder.encode o) := by
  simp only [encodePerpPlaceOrderV2QueuePayload, Throws.bind_eq_ok, u8_eq_ok, i64ToLe_eq_ok,
    u64ToLe_eq_ok, encodeQueuePayloadV1_eq_ok, JsNumber.int.injEq]
  have hside : ∀ a, (Codec.uint 1).Valid (sideToU8 a) := by intro a; cases a <;> decide
  have htype : ∀ a, (Codec.uint 1).Valid (orderTypeToU8 a) := by intro a; cases a <;> decide
  have hself : ∀ a, (Codec.uint 1).Valid (selfTradeBehaviorToU8 a) := by
    intro a; cases a <;> decide
  have hbool : ∀ b : Bool, (Codec.uint 1).Valid (if b then 1 else 0) := by decide
  constructor
  · rintro ⟨_, ⟨_, rfl, -, rfl⟩, _, ⟨price, hp, vp, rfl⟩, _, ⟨base, hb, vb, rfl⟩,
      _, ⟨quote, hq, vq, rfl⟩, _, ⟨id, hi, vi, rfl⟩, _, ⟨_, rfl, -, rfl⟩, _, ⟨_, rfl, -, rfl⟩,
      _, ⟨_, rfl, -, rfl⟩, _, ⟨expiry, he, ve, rfl⟩, _, ⟨limit, hl, vl, rfl⟩, rfl⟩
    refine ⟨⟨f.side, price, base, quote, id, f.orderType, f.selfTradeBehavior, f.reduceOnly,
      expiry, limit⟩, ⟨rfl, hp, hb, hq, hi, rfl, rfl, rfl, he, hl⟩,
      ⟨trivial, vp, vb, vq, vi, trivial, trivial, trivial, ve, vl⟩, ?_⟩
    simp only [Buffer.concat_cons, Buffer.concat_nil, List.append_nil]
    rfl
  · rintro ⟨o, h, ⟨-, vp, vb, vq, vi, -, -, -, ve, vl⟩, rfl⟩
    refine ⟨_, ⟨_, rfl, hside _, rfl⟩, _, ⟨_, h.priceLots, vp, rfl⟩, _, ⟨_, h.maxBaseLots, vb, rfl⟩,
      _, ⟨_, h.maxQuoteLots, vq, rfl⟩, _, ⟨_, h.clientOrderId, vi, rfl⟩, _, ⟨_, rfl, htype _, rfl⟩,
      _, ⟨_, rfl, hself _, rfl⟩, _, ⟨_, rfl, hbool _, rfl⟩, _, ⟨_, h.expiryTimestamp, ve, rfl⟩,
      _, ⟨_, h.limit, vl, rfl⟩, ?_⟩
    rw [← h.side, ← h.orderType, ← h.selfTradeBehavior, ← h.reduceOnly]
    simp only [Buffer.concat_cons, Buffer.concat_nil, List.append_nil]
    rfl

/-- A payload whose body is one integer. -/
theorem encodeInteger_eq_ok {variant : QueuePayloadVariant} {body : Throws Bytes} {c : Codec Int}
    {Reads : Int → Prop} {bs : Bytes}
    (hbody : ∀ {bytes}, body = .ok bytes ↔ ∃ n, Reads n ∧ c.Valid n ∧ bytes = c.encode n) :
    (body >>= encodeQueuePayloadV1 variant) = .ok bs ↔
      ∃ n, Reads n ∧ c.Valid n ∧ bs = payload variant (c.encode n) := by
  simp only [Throws.bind_eq_ok, hbody, encodeQueuePayloadV1_eq_ok]
  constructor
  · rintro ⟨_, ⟨n, hn, hv, rfl⟩, rfl⟩
    exact ⟨n, hn, hv, rfl⟩
  · rintro ⟨n, hn, hv, rfl⟩
    exact ⟨_, ⟨n, hn, hv, rfl⟩, rfl⟩

theorem encodeCancelByClientOrderId_eq_ok {clientOrderId : BigNumberish} {bs : Bytes} :
    encodePerpCancelOrderByClientOrderIdQueuePayload clientOrderId = .ok bs ↔
      ∃ n, toBigInt clientOrderId = .ok n ∧ (Codec.uint 8).Valid n ∧
        bs = payload .PerpCancelOrderByClientOrderId ((Codec.uint 8).encode n) :=
  encodeInteger_eq_ok u64ToLe_eq_ok

theorem encodeCancelAll_eq_ok {limit : JsNumber} {bs : Bytes} :
    encodePerpCancelAllOrdersQueuePayload limit = .ok bs ↔
      ∃ n, limit = .int n ∧ (Codec.uint 1).Valid n ∧
        bs = payload .PerpCancelAllOrders ((Codec.uint 1).encode n) :=
  encodeInteger_eq_ok u8_eq_ok

/-! ## Decoding -/

theorem decode_placeOrder {o : PlaceOrder} (h : placeOrder.Valid o) :
    decodeQueuePayload (payload .PerpPlaceOrderV2 (placeOrder.encode o)) =
      some (.placeOrder o) := by
  rw [decodeQueuePayload, decode_header]
  exact congrArg (Option.map _) (placeOrder.decodeAll_encode h)

theorem decode_cancelByClientOrderId {n : Int} (h : (Codec.uint 8).Valid n) :
    decodeQueuePayload (payload .PerpCancelOrderByClientOrderId ((Codec.uint 8).encode n)) =
      some (.cancelByClientOrderId n) := by
  rw [decodeQueuePayload, decode_header]
  exact congrArg (Option.map _) ((Codec.uint 8).decodeAll_encode h)

theorem decode_cancelAll {n : Int} (h : (Codec.uint 1).Valid n) :
    decodeQueuePayload (payload .PerpCancelAllOrders ((Codec.uint 1).encode n)) =
      some (.cancelAll n) := by
  rw [decodeQueuePayload, decode_header]
  exact congrArg (Option.map _) ((Codec.uint 1).decodeAll_encode h)

/-! ## What the encoders accept -/

/-- Every numeric field is an integer in its wire range, and a safe one when it is a `number`. -/
structure PerpPlaceOrderV2Fields.InRange (f : PerpPlaceOrderV2Fields) : Prop where
  priceLots : f.priceLots.Within I64_MIN I64_MAX
  maxBaseLots : f.maxBaseLots.Within I64_MIN I64_MAX
  maxQuoteLots : f.maxQuoteLots.Within I64_MIN I64_MAX
  clientOrderId : f.clientOrderId.Within 0 U64_MAX
  expiryTimestamp : f.expiryTimestamp.Within 0 U64_MAX
  limit : (BigNumberish.number f.limit).Within 0 0xff

theorem within_i64 {v : BigNumberish} :
    v.Within I64_MIN I64_MAX ↔ ∃ n, toBigInt v = .ok n ∧ (Codec.sint 8).Valid n := by
  simp only [BigNumberish.within_iff, valid_i64]

theorem within_u64 {v : BigNumberish} :
    v.Within 0 U64_MAX ↔ ∃ n, toBigInt v = .ok n ∧ (Codec.uint 8).Valid n := by
  simp only [BigNumberish.within_iff, valid_u64]

theorem within_u8 {x : JsNumber} :
    (BigNumberish.number x).Within 0 0xff ↔ ∃ n, x = .int n ∧ (Codec.uint 1).Valid n := by
  simp only [BigNumberish.Within, Codec.uint]
  refine exists_congr fun n => and_congr_right fun hx => ?_
  have hsafe : 0 ≤ n → n ≤ 0xff → x.isSafeInteger := by
    intro h0 h1
    subst hx
    rw [JsNumber.isSafeInteger_int, MAX_SAFE_INTEGER]
    omega
  constructor
  · intro h
    obtain ⟨-, h0, h1⟩ := h
    exact ⟨h0, by omega⟩
  · intro h
    obtain ⟨h0, h1⟩ := h
    exact ⟨hsafe h0 (by omega), h0, by omega⟩

theorem inRange_iff {f : PerpPlaceOrderV2Fields} :
    f.InRange ↔ ∃ o, f.Agree (fun v n => toBigInt v = .ok n) o ∧ placeOrder.Valid o := by
  constructor
  · rintro ⟨h1, h2, h3, h4, h5, h6⟩
    obtain ⟨price, hp, vp⟩ := within_i64.1 h1
    obtain ⟨base, hb, vb⟩ := within_i64.1 h2
    obtain ⟨quote, hq, vq⟩ := within_i64.1 h3
    obtain ⟨id, hi, vi⟩ := within_u64.1 h4
    obtain ⟨expiry, he, ve⟩ := within_u64.1 h5
    obtain ⟨limit, hl, vl⟩ := within_u8.1 h6
    exact ⟨⟨f.side, price, base, quote, id, f.orderType, f.selfTradeBehavior, f.reduceOnly,
      expiry, limit⟩, ⟨rfl, hp, hb, hq, hi, rfl, rfl, rfl, he, hl⟩,
      ⟨trivial, vp, vb, vq, vi, trivial, trivial, trivial, ve, vl⟩⟩
  · rintro ⟨o, h, ⟨-, vp, vb, vq, vi, -, -, -, ve, vl⟩⟩
    exact ⟨within_i64.2 ⟨_, h.priceLots, vp⟩, within_i64.2 ⟨_, h.maxBaseLots, vb⟩,
      within_i64.2 ⟨_, h.maxQuoteLots, vq⟩, within_u64.2 ⟨_, h.clientOrderId, vi⟩,
      within_u64.2 ⟨_, h.expiryTimestamp, ve⟩, within_u8.2 ⟨_, h.limit, vl⟩⟩

/-! ## The format is lossless -/

/-- **The payload format is lossless and never wraps.** `decodeQueuePayload` returns the variant and
the fields of every payload an encoder returns; and an encoder returns a payload exactly for numeric
fields that are integers in their wire range, safe ones when given as a `number`. -/
theorem payloads_lossless :
    (∀ f bs, encodePerpPlaceOrderV2QueuePayload f = .ok bs →
      ∃ o, f.Agree BigNumberish.Denotes o ∧ decodeQueuePayload bs = some (.placeOrder o)) ∧
    (∀ id bs, encodePerpCancelOrderByClientOrderIdQueuePayload id = .ok bs →
      ∃ n, id.Denotes n ∧ decodeQueuePayload bs = some (.cancelByClientOrderId n)) ∧
    (∀ limit bs, encodePerpCancelAllOrdersQueuePayload limit = .ok bs →
      ∃ n, limit = .int n ∧ decodeQueuePayload bs = some (.cancelAll n)) ∧
    (∀ f, (∃ bs, encodePerpPlaceOrderV2QueuePayload f = .ok bs) ↔ f.InRange) ∧
    (∀ id, (∃ bs, encodePerpCancelOrderByClientOrderIdQueuePayload id = .ok bs) ↔
      id.Within 0 U64_MAX) ∧
    (∀ limit, (∃ bs, encodePerpCancelAllOrdersQueuePayload limit = .ok bs) ↔
      (BigNumberish.number limit).Within 0 0xff) := by
  refine ⟨fun f bs h => ?_, fun id bs h => ?_, fun limit bs h => ?_, fun f => ?_, fun id => ?_,
    fun limit => ?_⟩
  · obtain ⟨o, ho, hv, rfl⟩ := encodePlaceOrder_eq_ok.1 h
    exact ⟨o, ho.mono fun _ _ => BigNumberish.denotes_of_toBigInt, decode_placeOrder hv⟩
  · obtain ⟨n, hn, hv, rfl⟩ := encodeCancelByClientOrderId_eq_ok.1 h
    exact ⟨n, BigNumberish.denotes_of_toBigInt hn, decode_cancelByClientOrderId hv⟩
  · obtain ⟨n, hn, hv, rfl⟩ := encodeCancelAll_eq_ok.1 h
    exact ⟨n, hn, decode_cancelAll hv⟩
  · rw [inRange_iff]
    exact ⟨fun ⟨_, h⟩ => (encodePlaceOrder_eq_ok.1 h).imp fun _ ⟨ho, hv, _⟩ => ⟨ho, hv⟩,
      fun ⟨o, ho, hv⟩ => ⟨_, encodePlaceOrder_eq_ok.2 ⟨o, ho, hv, rfl⟩⟩⟩
  · rw [within_u64]
    exact ⟨fun ⟨_, h⟩ => (encodeCancelByClientOrderId_eq_ok.1 h).imp fun _ ⟨hn, hv, _⟩ => ⟨hn, hv⟩,
      fun ⟨n, hn, hv⟩ => ⟨_, encodeCancelByClientOrderId_eq_ok.2 ⟨n, hn, hv, rfl⟩⟩⟩
  · rw [within_u8]
    exact ⟨fun ⟨_, h⟩ => (encodeCancelAll_eq_ok.1 h).imp fun _ ⟨hn, hv, _⟩ => ⟨hn, hv⟩,
      fun ⟨n, hn, hv⟩ => ⟨_, encodeCancelAll_eq_ok.2 ⟨n, hn, hv, rfl⟩⟩⟩

/-- A reduce-only ask at a negative price, of everything, as bytes and back. -/
theorem payloads_lossless_at_ask :
    ∃ o, PerpPlaceOrderV2Fields.Agree BigNumberish.Denotes
        ⟨.ask, .bigint (-5), .bigint I64_MAX, .number (.int 7), .number (.int 258),
          .immediateOrCancel, .decrementTake, true, .bigint U64_MAX, .int 10⟩ o ∧
      decodeQueuePayload
        [1, 0, 0, 0, 1, 251, 255, 255, 255, 255, 255, 255, 255, 255, 255, 255, 255, 255, 255, 255,
          127, 7, 0, 0, 0, 0, 0, 0, 0, 2, 1, 0, 0, 0, 0, 0, 0, 1, 0, 1, 255, 255, 255, 255, 255,
          255, 255, 255, 10] = some (.placeOrder o) :=
  payloads_lossless.1 _ _ rfl

end Intents

end FermiSdk
