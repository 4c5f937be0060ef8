import FermiSdk.Trading.Verify.Wire
import Mathlib.Data.Rat.Floor

/-!
# Quote caps

The `maxQuoteLots` of a payload against the `maxQuoteQuantity` it was made for. Two submissions
that differ only in their caps are compared: the tighter cap is the tighter order unless it is zero,
which the code takes for no cap at all (`noLooser_iff`).
-/

namespace FermiSdk

open FermiSdk.Lib FermiSdk.Intents

/-! ## The order of numbers -/

namespace JsNumber

/-- The value of a finite number. -/
def toRat : JsNumber → Rat
  | .int value => value
  | .frac value _ => value
  | _ => 0

/-- `x <= y`. -/
def le : JsNumber → JsNumber → Prop
  | .nan, _ => False
  | _, .nan => False
  | .infinity negative, y => negative = true ∨ y = .infinity false
  | _, .infinity negative => negative = false
  | x, y => x.toRat ≤ y.toRat

instance : LE JsNumber := ⟨le⟩

@[simp] theorem int_le_int {m n : Int} : JsNumber.int m ≤ .int n ↔ m ≤ n :=
  Int.cast_le (R := Rat)

/-- A number between zero and zero is zero. -/
theorem eq_zero_of_le {x : JsNumber} (h0 : .int 0 ≤ x) (h : x ≤ .int 0) : x = .int 0 := by
  cases x with
  | int value =>
    rw [int_le_int] at h0 h
    exact congrArg JsNumber.int (le_antisymm h h0)
  | frac value fractional =>
    have hlo : ((0 : Int) : Rat) ≤ value := h0
    have hhi : value ≤ ((0 : Int) : Rat) := h
    rw [le_antisymm hhi hlo] at fractional
    exact absurd rfl fractional
  | nan => exact h.elim
  | infinity negative =>
    have hpositive : negative = false := h0
    subst hpositive
    rcases h with h | h <;> cases h

theorem truthy_of_le {x y : JsNumber} (hle : y ≤ x) (hne : x ≠ .int 0) : x.truthy = true := by
  cases x with
  | int value =>
    have hvalue : value ≠ 0 := fun h => hne (congrArg JsNumber.int h)
    exact decide_eq_true hvalue
  | frac value fractional => rfl
  | nan => cases y <;> exact hle.elim
  | infinity negative => rfl

end JsNumber

/-- Larger amounts are not fewer lots, and no amount is a negative number of lots. -/
structure PerpMarket.QuoteConverts (market : PerpMarket) : Prop where
  monotone : ∀ {x y : JsNumber} {m n : Int}, .int 0 ≤ x → x ≤ y →
    market.uiQuoteToLots x = .ok m → market.uiQuoteToLots y = .ok n → m ≤ n
  nonneg : ∀ {x : JsNumber} {m : Int}, .int 0 ≤ x → market.uiQuoteToLots x = .ok m → 0 ≤ m

namespace Trading

/-! ## The cap of a payload -/

/-- The `maxQuoteLots` of a place-order payload. -/
def quoteCap (payload : Bytes) : Option Int :=
  match decodeQueuePayload payload with
  | some (.placeOrder order) => some order.maxQuoteLots
  | _ => none

/-- The first payload's cap is at most the second's. -/
def NoLooser (payload payload' : Bytes) : Prop :=
  ∃ cap cap', quoteCap payload = some cap ∧ quoteCap payload' = some cap' ∧ cap ≤ cap'

/-- The payload in the enqueue instruction. -/
def enqueuedPayload (ixs : DirectWithIntentIxs) : Option Bytes :=
  (enqueueData.decodeAll ixs.enqueueInstruction.data).map fun data => data.2.2.1

/-- The parameters with a cap. -/
def SubmitPerpOrderParams.capped (params : SubmitPerpOrderParams) (cap : JsNumber) :
    SubmitPerpOrderParams :=
  { params with maxQuoteQuantity := some cap }

/-- The payload carries what the cap comes to. -/
theorem quoteCap_placeOrderPayload {context : FermiV1Context} (params : SubmitPerpOrderParams)
    {clientOrderId : BigNumberish} {payload : Bytes} {market : PerpMarket}
    (hmarket : context.group.getPerpMarketByMarketIndex params.marketIndex = .ok market)
    (h : placeOrderPayload context params clientOrderId = .ok payload) :
    ∃ cap, maxQuoteLotsOf market params.maxQuoteQuantity = .ok cap ∧
      quoteCap payload = some cap ∧ cap ≤ I64_MAX := by
  simp only [placeOrderPayload, hmarket, Throws.bind_eq_ok, Except.ok.injEq, exists_eq_left',
    encodePlaceOrder_eq_ok] at h
  obtain ⟨_, -, _, -, cap, hcap, order, hagree, hvalid, rfl⟩ := h
  have hquote : cap = order.maxQuoteLots := Except.ok.inj hagree.maxQuoteLots
  subst hquote
  refine ⟨order.maxQuoteLots, hcap, ?_, ?_⟩
  · rw [quoteCap, decode_placeOrder hvalid]
  · exact (valid_i64.1 hvalid.2.2.2.1).2

/-- A cap that bounds nothing: zero, or one that the market turns into the number without a cap. -/
def NoCap (market : PerpMarket) (cap : JsNumber) : Prop :=
  cap = .int 0 ∨ market.uiQuoteToLots cap = .ok I64_MAX

theorem maxQuoteLotsOf_of_ne {market : PerpMarket} {q q' : JsNumber} (hle : q ≤ q')
    (hne : q' ≠ .int 0) : maxQuoteLotsOf market (some q') = market.uiQuoteToLots q' := by
  rw [maxQuoteLotsOf, if_pos (JsNumber.truthy_of_le hle hne)]

/-- What two caps come to is in order, unless the first is zero. -/
theorem cap_le_cap_iff {market : PerpMarket} (hconverts : market.QuoteConverts) {q q' : JsNumber}
    (h0 : .int 0 ≤ q) (hle : q ≤ q') {cap cap' : Int}
    (hcap : maxQuoteLotsOf market (some q) = .ok cap)
    (hcap' : maxQuoteLotsOf market (some q') = .ok cap') (hmax : cap' ≤ I64_MAX) :
    cap ≤ cap' ↔ q ≠ .int 0 ∨ NoCap market q' := by
  by_cases hq : q = .int 0
  · subst hq
    obtain rfl : I64_MAX = cap := Except.ok.inj hcap
    by_cases hq' : q' = .int 0
    · subst hq'
      obtain rfl : I64_MAX = cap' := Except.ok.inj hcap'
      exact iff_of_true le_rfl (.inr (.inl rfl))
    · rw [maxQuoteLotsOf_of_ne hle hq'] at hcap'
      rw [NoCap, hcap', Except.ok.injEq]
      constructor
      · intro h
        exact .inr (.inr (le_antisymm hmax h))
      · rintro (h | h | h)
        · exact absurd rfl h
        · exact absurd h hq'
        · exact h.ge
  · have hq' : q' ≠ .int 0 := fun h => hq (JsNumber.eq_zero_of_le h0 (h ▸ hle))
    rw [maxQuoteLotsOf_of_ne hle hq'] at hcap'
    rw [maxQuoteLotsOf_of_ne h0 hq] at hcap
    exact iff_of_true (hconverts.monotone h0 hle hcap hcap') (.inl hq)

/-- The same of two payloads that are encoded for the caps. -/
theorem noLooser_placeOrderPayload_iff {context : FermiV1Context} {params : SubmitPerpOrderParams}
    {market : PerpMarket} {q q' : JsNumber} {id id' : BigNumberish} {payload payload' : Bytes}
    (hmarket : context.group.getPerpMarketByMarketIndex params.marketIndex = .ok market)
    (hconverts : market.QuoteConverts) (h0 : .int 0 ≤ q) (hle : q ≤ q')
    (h : placeOrderPayload context (params.capped q) id = .ok payload)
    (h' : placeOrderPayload context (params.capped q') id' = .ok payload') :
    NoLooser payload payload' ↔ q ≠ .int 0 ∨ NoCap market q' := by
  obtain ⟨cap, hcap, hquote, -⟩ := quoteCap_placeOrderPayload (params.capped q) hmarket h
  obtain ⟨cap', hcap', hquote', hmax⟩ := quoteCap_placeOrderPayload (params.capped q') hmarket h'
  rw [← cap_le_cap_iff hconverts h0 hle hcap hcap' hmax]
  simp only [NoLooser, hquote, hquote', Option.some.injEq, exists_eq_left', existsAndEq, true_and]

/-! ## The two paths -/

section

variable {rt : Runtime} {context : FermiV1Context} {params : SubmitPerpOrderParams}

theorem placeOrderPayload_of_relayed {random : UInt64} {req : SubmitIntentRequest}
    (h : submitPerpOrderViaRelayer rt context params random = .ok req) :
    ∃ id, placeOrderPayload context params id = .ok req.payload := by
  simp only [submitPerpOrderViaRelayer, relayIntent, Throws.bind_eq_ok, Throws.pure_eq_ok] at h
  obtain ⟨_, -, payload, hpayload, _, -, _, -, rfl⟩ := h
  exact ⟨_, hpayload⟩

theorem enqueuedPayload_of_direct {params : EnqueueDirectWithIntentParams}
    {ixs : DirectWithIntentIxs}
    (h : buildExecutionQueueV5EnqueueDirectWithIntentIxs rt params = .ok ixs) :
    enqueuedPayload ixs = some params.payload := by
  simp only [buildExecutionQueueV5EnqueueDirectWithIntentIxs,
    buildExecutionQueueV5EnqueueDirectMarketIx, Throws.bind_eq_ok, Throws.throwIf_eq_ok,
    exists_const, Throws.pure_eq_ok] at h
  obtain ⟨-, _, -, -, _, -, _, -, _, ⟨data, hdata, rfl⟩, rfl⟩ := h
  obtain ⟨_, _, _, _, _, -, -, -, -, hvalid, rfl⟩ := enqueueDirectMarketData_eq_ok hdata
  rw [enqueuedPayload, enqueueData.decodeAll_encode hvalid]
  rfl

theorem placeOrderPayload_of_direct {nonce : Option BigNumberish} {random random' : UInt64}
    {ixs : DirectWithIntentIxs}
    (h : submitPerpOrderDirect rt context params nonce random random' = .ok ixs) :
    ∃ id payload, placeOrderPayload context params id = .ok payload ∧
      enqueuedPayload ixs = some payload := by
  simp only [submitPerpOrderDirect, submitPerpIntentDirect, Throws.bind_eq_ok,
    Throws.throwIf_eq_ok, exists_const] at h
  obtain ⟨payload, hpayload, -, -, _, -, _, -, _, -, _, -, _, -, h⟩ := h
  exact ⟨_, payload, hpayload, enqueuedPayload_of_direct h⟩

end

/-- `NoLooser` of the payloads in two enqueue instructions. -/
def EnqueuesNoLooser (ixs ixs' : DirectWithIntentIxs) : Prop :=
  ∃ payload payload', enqueuedPayload ixs = some payload ∧ enqueuedPayload ixs' = some payload' ∧
    NoLooser payload payload'

/-- **The tighter of two caps is no looser an order exactly if it is not zero**, or the other cap is
no cap either. Both paths take a zero for the absence of a cap. -/
theorem noLooser_iff {rt : Runtime} {context : FermiV1Context} {params : SubmitPerpOrderParams}
    {market : PerpMarket} {q q' : JsNumber}
    (hmarket : context.group.getPerpMarketByMarketIndex params.marketIndex = .ok market)
    (hconverts : market.QuoteConverts) (h0 : .int 0 ≤ q) (hle : q ≤ q') :
    (∀ random random' req req',
      submitPerpOrderViaRelayer rt context (params.capped q) random = .ok req →
      submitPerpOrderViaRelayer rt context (params.capped q') random' = .ok req' →
        (NoLooser req.payload req'.payload ↔ q ≠ .int 0 ∨ NoCap market q')) ∧
    (∀ nonce r₁ r₂ r₁' r₂' ixs ixs',
      submitPerpOrderDirect rt context (params.capped q) nonce r₁ r₂ = .ok ixs →
      submitPerpOrderDirect rt context (params.capped q') nonce r₁' r₂' = .ok ixs' →
        (EnqueuesNoLooser ixs ixs' ↔ q ≠ .int 0 ∨ NoCap market q')) := by
  constructor
  · intro random random' req req' h h'
    obtain ⟨id, hpayload⟩ := placeOrderPayload_of_relayed h
    obtain ⟨id', hpayload'⟩ := placeOrderPayload_of_relayed h'
    exact noLooser_placeOrderPayload_iff hmarket hconverts h0 hle hpayload hpayload'
  · intro nonce r₁ r₂ r₁' r₂' ixs ixs' h h'
    obtain ⟨id, payload, hpayload, hixs⟩ := placeOrderPayload_of_direct h
    obtain ⟨id', payload', hpayload', hixs'⟩ := placeOrderPayload_of_direct h'
    rw [← noLooser_placeOrderPayload_iff hmarket hconverts h0 hle hpayload hpayload']
    constructor
    · rintro ⟨_, _, hp, hp', hcaps⟩
      obtain rfl := Option.some.inj (hixs.symm.trans hp)
      obtain rfl := Option.some.inj (hixs'.symm.trans hp')
      exact hcaps
    · exact fun hcaps => ⟨payload, payload', hixs, hixs', hcaps⟩

/-! ## Recorded caps

A bid of 10 lots at 10000 on market 2 with the keys of the recorded cancellation, three times: with
caps of two and five, and with a cap of zero. -/

namespace RecordedCaps

open RecordedCancel
open TriggerOrders.Recorded (group fermiAccount signer)

/-- What is hashed and signed for an order with a cap. -/
structure CappedOrder where
  cap : Int
  payloadHash : Digest
  intentHash : Digest
  signature : Bytes

/-- Two lots. -/
def capTwo : CappedOrder where
  cap := 2
  payloadHash := ⟨[55, 135, 82, 65, 115, 135, 230, 168, 73, 29, 179, 67, 214, 255, 10, 238, 202, 64,
    104, 41, 7, 25, 17, 130, 250, 209, 170, 129, 145, 220, 133, 77], rfl⟩
  intentHash := ⟨[167, 242, 34, 10, 60, 158, 255, 149, 234, 213, 118, 203, 216, 208, 168, 75, 136,
    45, 120, 131, 77, 235, 31, 133, 204, 9, 11, 210, 104, 61, 181, 152], rfl⟩
  signature := [228, 59, 167, 88, 93, 45, 17, 177, 130, 184, 236, 224, 58, 243, 11, 50, 97, 2, 28,
    250, 142, 164, 80, 20, 108, 75, 87, 217, 43, 0, 217, 137, 129, 212, 78, 185, 35, 231, 66, 122,
    85, 244, 37, 26, 174, 79, 42, 95, 195, 65, 162, 140, 65, 33, 186, 200, 193, 62, 24, 134, 3, 190,
    182, 3]

/-- Five lots. -/
def capFive : CappedOrder where
  cap := 5
  payloadHash := ⟨[252, 130, 22, 13, 61, 229, 1, 135, 233, 68, 187, 14, 148, 2, 205, 201, 125, 201,
    186, 246, 158, 7, 159, 162, 124, 136, 26, 207, 42, 36, 62, 174], rfl⟩
  intentHash := ⟨[172, 176, 245, 194, 184, 250, 93, 24, 31, 101, 223, 254, 6, 157, 197, 20, 62, 8,
    142, 48, 98, 215, 249, 50, 232, 180, 197, 62, 149, 171, 153, 106], rfl⟩
  signature := [61, 38, 59, 74, 177, 119, 152, 195, 5, 49, 20, 166, 192, 179, 139, 95, 115, 219,
    165, 198, 68, 94, 248, 105, 214, 42, 69, 50, 82, 99, 16, 180, 253, 52, 143, 38, 94, 215, 73,
    192, 91, 148, 204, 19, 27, 155, 62, 45, 234, 144, 4, 88, 179, 183, 64, 27, 17, 40, 156, 10, 166,
    242, 72, 14]

/-- As many lots as fit. -/
def noCap : CappedOrder where
  cap := I64_MAX
  payloadHash := ⟨[155, 176, 15, 9, 186, 16, 213, 42, 45, 199, 188, 113, 138, 253, 73, 115, 87, 95,
    21, 238, 139, 39, 17, 75, 110, 93, 202, 134, 55, 92, 100, 180], rfl⟩
  intentHash := ⟨[186, 191, 64, 204, 100, 159, 52, 111, 69, 136, 8, 201, 28, 87, 239, 12, 73, 114,
    84, 245, 200, 23, 66, 28, 167, 113, 110, 154, 13, 33, 60, 232], rfl⟩
  signature := [234, 95, 241, 72, 118, 159, 144, 91, 73, 109, 146, 97, 191, 161, 21, 190, 11, 105,
    129, 162, 44, 1, 1, 105, 142, 231, 1, 183, 189, 137, 76, 31, 9, 214, 214, 62, 59, 171, 135, 217,
    160, 134, 107, 188, 206, 22, 115, 101, 46, 123, 102, 16, 120, 197, 61, 32, 76, 147, 105, 206, 9,
    133, 52, 12]

def payload (order : CappedOrder) : Bytes :=
  [1, 0, 0, 0, 0] ++ leBytes 8 10000 ++ leBytes 8 10 ++ leBytes 8 order.cap.toNat ++
    leBytes 8 77 ++ [4, 0, 0] ++ leBytes 8 0 ++ [10]

def intentBytes (order : CappedOrder) : Bytes :=
  Buffer.ofAscii "mango-v5-user-intent-v2" ++ group.bytes ++ fermiAccount.bytes ++ signer.bytes ++
    [0, 0, 2, 0] ++ order.payloadHash.bytes ++ accountsHash.bytes ++ List.replicate 16 0 ++
    leBytes 8 77

def runtime : Runtime :=
  .ofTables
    ((executionQueueAccountsPreimage effectiveAccounts, accountsHash) ::
      [capTwo, capFive, noCap].flatMap fun order =>
        [(payload order, order.payloadHash), (intentBytes order, order.intentHash)])
    ([capTwo, capFive, noCap].map fun order =>
      (order.intentHash.bytes, secretKey, signer, order.signature))
    [([Buffer.ofAscii "execution-queue-v5", group.bytes, [2, 0]], executionQueue)]

/-- A market whose quote lots are whole units of quote. -/
def market : PerpMarket :=
  { perpMarket with
    uiPriceToLots := fun _ => pure 10000
    uiBaseToLots := fun _ => pure 10
    uiQuoteToLots := fun
      | .int value => pure value
      | .frac value _ => pure ⌊value⌋
      | _ => throw "not a number of lots" }

def context : FermiV1Context :=
  { RecordedCancel.context with
    group := { RecordedCancel.context.group with
      getPerpMarketByMarketIndex := fun _ => pure market } }

def order : SubmitPerpOrderParams where
  marketIndex := .int 2
  side := .bid
  price := .int 100
  quantity := .int 1
  maxQuoteQuantity := none
  clientOrderId := some (.bigint 77)
  intentClientOrderId := none
  orderType := none
  selfTradeBehavior := none
  reduceOnly := none
  expiryTimestamp := none
  limit := none
  minExecuteSlot := none
  expiresAtSlot := none
  baseFee := none
  maxFeeLamports := some "AUTO"

def request (order : CappedOrder) : SubmitIntentRequest :=
  { RecordedCancel.request with
    payload := payload order
    user_signature := order.signature }

theorem lots_eq {x : JsNumber} {m : Int} (h : market.uiQuoteToLots x = .ok m) :
    m = ⌊x.toRat⌋ := by
  cases x with
  | int value =>
    rw [JsNumber.toRat, Int.floor_intCast]
    exact (Except.ok.inj h).symm
  | frac value _ => exact (Except.ok.inj h).symm
  | nan => cases h
  | infinity negative => cases h

/-- Numbers that have lots are ordered as their values are. -/
theorem toRat_le {x y : JsNumber} {m n : Int} (h : market.uiQuoteToLots x = .ok m)
    (h' : market.uiQuoteToLots y = .ok n) (hle : x ≤ y) : x.toRat ≤ y.toRat := by
  cases x with
  | nan => cases h
  | infinity negative => cases h
  | int value => cases y <;> first | exact hle | cases h'
  | frac value _ => cases y <;> first | exact hle | cases h'

theorem quoteConverts_market : market.QuoteConverts where
  monotone {x y m n} _ hle h h' := by
    rw [lots_eq h, lots_eq h']
    exact Int.floor_le_floor (toRat_le h h' hle)
  nonneg {x m} h0 h := by
    have hzero : market.uiQuoteToLots (.int 0) = .ok 0 := rfl
    rw [lots_eq h]
    exact Int.floor_nonneg.2 (by simpa [JsNumber.toRat] using toRat_le hzero h h0)

set_option maxRecDepth 8000 in
theorem placed_two :
    submitPerpOrderViaRelayer runtime context (order.capped (.int 2)) 0 = .ok (request capTwo) :=
  rfl

set_option maxRecDepth 8000 in
theorem placed_five :
    submitPerpOrderViaRelayer runtime context (order.capped (.int 5)) 0 = .ok (request capFive) :=
  rfl

set_option maxRecDepth 8000 in
theorem placed_zero :
    submitPerpOrderViaRelayer runtime context (order.capped (.int 0)) 0 = .ok (request noCap) :=
  rfl

end RecordedCaps

open RecordedCaps in
/-- The cap of two is no looser than the cap of five. -/
theorem noLooser_iff_two_five : NoLooser (request capTwo).payload (request capFive).payload := by
  have hmarket : context.group.getPerpMarketByMarketIndex order.marketIndex = .ok market := rfl
  have hcaps := (noLooser_iff hmarket quoteConverts_market (by simp) (by simp)).1 _ _ _ _
    placed_two placed_five
  exact hcaps.2 (.inl (by decide))

open RecordedCaps in
/-- **A cap of zero is the loosest order**: it is encoded as no cap, above the cap of five. -/
theorem zero_cap_is_no_cap :
    market.QuoteConverts ∧ JsNumber.int 0 ≤ .int 0 ∧ JsNumber.int 0 ≤ .int 5 ∧
    submitPerpOrderViaRelayer runtime context (order.capped (.int 0)) 0 = .ok (request noCap) ∧
    submitPerpOrderViaRelayer runtime context (order.capped (.int 5)) 0 = .ok (request capFive) ∧
    quoteCap (request noCap).payload = some I64_MAX ∧
    quoteCap (request capFive).payload = some 5 ∧
    ¬ NoLooser (request noCap).payload (request capFive).payload := by
  have hnone : quoteCap (request noCap).payload = some I64_MAX := by decide +kernel
  have hfive : quoteCap (request capFive).payload = some 5 := by decide +kernel
  refine ⟨quoteConverts_market, by simp, by simp, placed_zero, placed_five, hnone, hfive, ?_⟩
  rintro ⟨cap, cap', hcap, hcap', hle⟩
  obtain rfl := Option.some.inj (hnone.symm.trans hcap)
  obtain rfl := Option.some.inj (hfive.symm.trans hcap')
  exact absurd hle (by decide)

end Trading

end FermiSdk
