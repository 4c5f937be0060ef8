import FermiSdk.Intents.Verify.Payload
import FermiSdk.TriggerOrders.Verify.Legs
import Mathlib

/-!
# Every leg the builder returns can be submitted

The keeper has only the request. `KeeperAccepts` is what `ctm_sequencer.proto` asks of it: the terms
read from the decimal texts hash to the client order id, which is not zero and is the one in the
payload, the payload is a reduce-only immediate-or-cancel order with the terms' expiry, and the
intent version is 3.

`triggerOrderRequest` reads the payload at fixed offsets; `placeOrder_layout` says what stands there.
-/

namespace FermiSdk.TriggerOrders

open FermiSdk.Lib FermiSdk.Intents

/-! ## What the keeper reads -/

/-- The terms that the wire form denotes. -/
def readTerms (wire : TriggerOrderTermsWire) : Option TriggerTerms := do
  let triggerPriceLots ← wire.trigger_price_lots.toInt?
  let ocoGroup ← wire.oco_group.toInt?
  let expiryTs ← wire.expiry_ts.toInt?
  let salt ← wire.salt.toInt?
  pure {
    kind := wire.kind, direction := wire.direction
    triggerPriceLots, ocoGroup, expiryTs, salt }

/-- The contract of a request with trigger terms. -/
structure KeeperAccepts (rt : Runtime) (req : SubmitIntentRequest) : Prop where
  intent_version : req.intent_version = some 3
  contract : ∃ group fermiAccount market wire terms order id,
    PublicKey.ofBase58 req.group = some group ∧
    PublicKey.ofBase58 req.mango_account = some fermiAccount ∧
    req.target_index = some market ∧
    req.trigger_order = some wire ∧ readTerms wire = some terms ∧
    decodeQueuePayload req.payload = some (.placeOrder order) ∧
    req.client_order_id.bind String.toInt? = some id ∧
    id ≠ 0 ∧
    triggerTermsCommitment rt group fermiAccount market terms = .ok id ∧
    order.clientOrderId = id ∧
    order.expiryTimestamp = terms.expiryTs ∧
    order.reduceOnly = true ∧ order.orderType = .immediateOrCancel
  version : ∀ wire ∈ req.trigger_order, wire.version = 1 ∧ wire.price_source = 0 ∧ wire.flags = 0

theorem readTerms_wireTerms (terms : TriggerTerms) : readTerms (wireTerms terms) = some terms := by
  simp only [readTerms, wireTerms, Int.toString_eq_repr, Int.toInt?_repr, Option.bind_eq_bind,
    Option.bind_some]
  rfl

/-! ## The offsets of the payload -/

/-- An integer is read back from where it stands. -/
theorem readBigUInt64LE_at {pre suf : Bytes} {offset : Nat} {n : Int}
    (hpre : pre.length = offset) (hn : (Codec.uint 8).Valid n) :
    readBigUInt64LE (pre ++ ((Codec.uint 8).encode n ++ suf)) offset = n := by
  have hlt : n.toNat < 256 ^ 8 := by
    have h := hn.2
    omega
  have hlen : ((Codec.uint 8).encode n).length = 8 := length_leBytes 8 _
  rw [readBigUInt64LE, ← hpre, List.drop_left, List.take_left' hlen]
  exact (congrArg Nat.cast (leNat_leBytes hlt)).trans (Int.toNat_of_nonneg hn.1)

/-- The fields of a place-order payload in front of the client order id. -/
def placeOrderHead (order : PlaceOrder) : Bytes :=
  header.encode (1, QueuePayloadVariant.PerpPlaceOrderV2.toNumber, 0) ++
    (side.encode order.side ++ ((Codec.sint 8).encode order.priceLots ++
      ((Codec.sint 8).encode order.maxBaseLots ++ (Codec.sint 8).encode order.maxQuoteLots)))

/-- The three bytes between the client order id and the expiry. -/
def placeOrderFlags (order : PlaceOrder) : Bytes :=
  orderType.encode order.orderType ++
    (selfTradeBehavior.encode order.selfTradeBehavior ++ bool.encode order.reduceOnly)

theorem length_placeOrderHead (order : PlaceOrder) : (placeOrderHead order).length = 29 := by
  simp [placeOrderHead, header, side, Codec.pair, Codec.choice, Codec.uint, Codec.sint]

theorem length_placeOrderFlags (order : PlaceOrder) : (placeOrderFlags order).length = 3 := by
  simp [placeOrderFlags, orderType, selfTradeBehavior, Intents.bool, Codec.choice, Codec.uint]

/-- A place-order payload, cut at the fields that a request compares. -/
theorem placeOrder_layout (order : PlaceOrder) :
    payload .PerpPlaceOrderV2 (placeOrder.encode order) =
      placeOrderHead order ++ ((Codec.uint 8).encode order.clientOrderId ++
        (placeOrderFlags order ++ ((Codec.uint 8).encode order.expiryTimestamp ++
          (Codec.uint 1).encode order.limit))) := by
  simp only [payload, placeOrder, placeOrderHead, placeOrderFlags, Codec.imap, Codec.pair,
    List.append_assoc]

section

variable {order : PlaceOrder}

theorem length_placeOrder_payload :
    (payload .PerpPlaceOrderV2 (placeOrder.encode order)).length = 49 := by
  simp [placeOrder_layout, length_placeOrderHead, length_placeOrderFlags, Codec.uint]

theorem read_clientOrderId (h : placeOrder.Valid order) :
    readBigUInt64LE (payload .PerpPlaceOrderV2 (placeOrder.encode order)) 29 =
      order.clientOrderId := by
  obtain ⟨-, -, -, -, hid, -⟩ := h
  rw [placeOrder_layout]
  exact readBigUInt64LE_at (length_placeOrderHead order) hid

theorem read_expiryTimestamp (h : placeOrder.Valid order) :
    readBigUInt64LE (payload .PerpPlaceOrderV2 (placeOrder.encode order)) 40 =
      order.expiryTimestamp := by
  obtain ⟨-, -, -, -, -, -, -, -, hexpiry, -⟩ := h
  rw [placeOrder_layout, ← List.append_assoc, ← List.append_assoc]
  refine readBigUInt64LE_at ?_ hexpiry
  simp [length_placeOrderHead, length_placeOrderFlags, Codec.uint]

/-- A byte among the three flags. -/
theorem read_flag {i : Nat} (hi : i < 3) :
    (payload .PerpPlaceOrderV2 (placeOrder.encode order))[37 + i]? =
      (placeOrderFlags order)[i]? := by
  have hhead : (placeOrderHead order ++ (Codec.uint 8).encode order.clientOrderId).length = 37 := by
    simp [length_placeOrderHead, Codec.uint]
  have hflags := length_placeOrderFlags order
  rw [placeOrder_layout, ← List.append_assoc, List.getElem?_append_right (by omega), hhead,
    Nat.add_sub_cancel_left, List.getElem?_append_left (by omega)]

theorem read_orderType :
    (payload .PerpPlaceOrderV2 (placeOrder.encode order))[37]? =
      some (UInt8.ofNat (orderTypeToU8 order.orderType).toNat) :=
  read_flag (i := 0) (by decide)

theorem read_reduceOnly :
    (payload .PerpPlaceOrderV2 (placeOrder.encode order))[39]? =
      some (if order.reduceOnly then 1 else 0) := by
  rw [read_flag (i := 2) (by decide)]
  cases h : order.reduceOnly <;> simp [placeOrderFlags, h, orderType, selfTradeBehavior,
    Intents.bool, Codec.choice, Codec.uint, leBytes]

end

/-! ## The request of a built leg -/

variable {rt : Runtime} {params : SlTpParams} {kind : TriggerKind} {triggerPriceLots : Int}
  {options : LegOptions} {limit : Int} {leg : SlTpLeg}

/-- The request of a leg as described, under a signature of its hash. -/
theorem LegSpec.request (h : LegSpec rt params kind triggerPriceLots options limit leg)
    {signature : Bytes} (fee : String) (hlen : signature.length = 64)
    (hsig : SignedHash rt leg.intentHash signature params.signer) :
    triggerOrderRequest rt leg signature fee = .ok (legRequest leg signature fee) := by
  obtain ⟨hvalid, hpayload⟩ := legPayload_eq h.payload
  obtain ⟨message, hmessage, hhash⟩ := h.intent
  have hcommitment := h.commitment
  have hexpiry : leg.terms.expiryTs = params.expiryTs := by rw [h.terms_eq]; rfl
  obtain rfl := h.params_eq
  have hbytes : leg.payload.length = 49 ∧ readBigUInt64LE leg.payload 29 = leg.clientOrderId ∧
      readBigUInt64LE leg.payload 40 = leg.terms.expiryTs ∧ leg.payload[37]? = some 1 ∧
      leg.payload[39]? = some 1 := by
    rw [hpayload, hexpiry]
    exact ⟨length_placeOrder_payload, read_clientOrderId hvalid, read_expiryTimestamp hvalid,
      read_orderType, read_reduceOnly⟩
  obtain ⟨h49, hid, hts, h37, h39⟩ := hbytes
  simp only [triggerOrderRequest, Throws.bind_eq_ok, Throws.throwIf_eq_ok, exists_const,
    Throws.pure_eq_ok, assertSignature_eq_ok, and_true]
  refine ⟨leg.clientOrderId, hcommitment, ?_, message, hmessage, ?_, hlen, hsig⟩
  · simp only [h49, hid, hts, h37, h39, ne_eq, not_true_eq_false, or_self, not_false_eq_true]
  · simp [hhash]

/-- That request satisfies the contract. -/
theorem LegSpec.keeperAccepts (h : LegSpec rt params kind triggerPriceLots options limit leg)
    (signature : Bytes) (fee : String) : KeeperAccepts rt (legRequest leg signature fee) := by
  obtain ⟨hvalid, hpayload⟩ := legPayload_eq h.payload
  have hexpiry : leg.terms.expiryTs = params.expiryTs := by rw [h.terms_eq]; rfl
  have hcommitment := h.commitment
  obtain rfl := h.params_eq
  refine {
    intent_version := rfl
    contract := ⟨leg.params.group, leg.params.fermiAccount, leg.params.marketIndex,
      wireTerms leg.terms, leg.terms, legOrder leg.params limit leg.clientOrderId,
      leg.clientOrderId, PublicKey.ofBase58_toBase58 _, PublicKey.ofBase58_toBase58 _, rfl, rfl,
      readTerms_wireTerms _, ?_, Int.toInt?_repr _, h.clientOrderId_ne_zero, hcommitment, rfl,
      hexpiry.symm, rfl, rfl⟩
    version := ?_ }
  · rw [legRequest, hpayload]
    exact decode_placeOrder hvalid
  · rintro _ ⟨⟩
    exact ⟨rfl, rfl, rfl⟩

/-- **Every leg the builder returns can be submitted**, whatever salt was passed or drawn: under any
64-byte signature of its intent hash, over the bytes or over their hexadecimal text, its request is
returned, and the request satisfies the keeper's contract. -/
theorem built_leg_accepted {draws : List UInt64} {signature : Bytes} (fee : String)
    (h : buildTriggerOrderLeg rt params kind triggerPriceLots options draws = .ok (some leg))
    (hlen : signature.length = 64)
    (hsig : SignedHash rt leg.intentHash signature params.signer) :
    ∃ req, triggerOrderRequest rt leg signature fee = .ok req ∧ KeeperAccepts rt req := by
  obtain ⟨bps, -, hspec⟩ := buildTriggerOrderLeg_spec h
  exact ⟨_, hspec.request fee hlen hsig, hspec.keeperAccepts signature fee⟩

set_option maxRecDepth 8000 in
/-- The recorded leg under the recorded signature. -/
theorem built_leg_accepted_recorded :
    ∃ req, triggerOrderRequest Recorded.runtime Recorded.leg Recorded.signature "AUTO" = .ok req ∧
      KeeperAccepts Recorded.runtime req :=
  @built_leg_accepted Recorded.runtime Recorded.params .StopLoss 95000
    ⟨some 1234605616436508552, some 723685415333072913, some 94500⟩ Recorded.leg []
    Recorded.signature "AUTO" rfl rfl (.inl rfl)

end FermiSdk.TriggerOrders
