import FermiSdk.Context
import FermiSdk.RelayerClient

/-!
# Perp orders

`src/trading.ts`: placing and cancelling orders, through the relayer and directly. A relayed
function returns the request it submits, a direct one the instructions it sends. A function draws at
most one random number, which is its last argument.
-/

namespace FermiSdk.Trading

open FermiSdk.Lib FermiSdk.Intents

/-- An order in units of the market. What is left out has a default in the functions below. -/
structure SubmitPerpOrderParams where
  marketIndex : JsNumber
  side : QueueSide
  price : JsNumber
  quantity : JsNumber
  maxQuoteQuantity : Option JsNumber
  clientOrderId : Option BigNumberish
  intentClientOrderId : Option BigNumberish
  orderType : Option QueuePlaceOrderType
  selfTradeBehavior : Option QueueSelfTradeBehavior
  reduceOnly : Option Bool
  expiryTimestamp : Option JsNumber
  limit : Option JsNumber
  minExecuteSlot : Option Int
  expiresAtSlot : Option Int
  baseFee : Option String
  maxFeeLamports : Option String

/-- The order to cancel, by the id that its owner gave it. -/
structure SubmitPerpCancelByClientIdParams where
  marketIndex : JsNumber
  clientOrderId : BigNumberish
  intentClientOrderId : Option BigNumberish
  minExecuteSlot : Option Int
  expiresAtSlot : Option Int
  baseFee : Option String
  maxFeeLamports : Option String

/-- All orders of a market, up to a limit. -/
structure SubmitPerpCancelAllParams where
  marketIndex : JsNumber
  limit : Option JsNumber
  intentClientOrderId : Option BigNumberish
  minExecuteSlot : Option Int
  expiresAtSlot : Option Int
  baseFee : Option String
  maxFeeLamports : Option String

/-- The decimal text of a checked `u64`. -/
def u64String (value : BigNumberish) : Throws String := do
  let parsed ← toBigInt value
  throwIf (parsed < 0 ∨ parsed > U64_MAX) s!"u64 out of range: {parsed}"
  pure (toString parsed)

/-- A library without the method for sides may have one that rounds up, which is for asks. -/
def uiPriceToLotsForSide (perpMarket : PerpMarket) (price : JsNumber) (side : QueueSide) :
    Throws Int :=
  match perpMarket.uiPriceToLotsForSide, side, perpMarket.uiPriceToLotsRoundUp with
  | some forSide, side, _ => forSide price side
  | none, .ask, some roundUp => roundUp price
  | none, _, _ => perpMarket.uiPriceToLots price

section

variable (rt : Runtime)

/-- The queue that the relayer submits to. -/
def executionQueueForMarket (context : FermiV1Context) (marketIndex : JsNumber) :
    Throws PublicKey :=
  findExecutionQueueV5Pda rt context.programId context.group.publicKey marketIndex

/-! ## Signing and sending -/

/-- What an intent signs, beside the accounts. -/
structure PerpIntentAuthParams where
  context : FermiV1Context
  marketIndex : JsNumber
  payload : Bytes
  executionQueue : PublicKey
  minExecuteSlot : Option Int
  expiresAtSlot : Option Int
  clientOrderId : BigNumberish

/-- A signed intent, with the accounts that it was signed for. -/
structure PerpIntentAuth where
  remainingAccounts : List AccountMeta
  userIntentMessage : Digest
  userSignature : Bytes

/-- A relayed intent signs the canonical accounts as the transaction will have them. -/
def buildPerpIntentAuth (params : PerpIntentAuthParams) : Throws PerpIntentAuth := do
  let remainingAccounts ←
    Context.buildCanonicalPerpRemainingAccounts params.context params.marketIndex
  let accountsHash := hashExecutionQueueAccountsForCtmEnqueue rt params.context.group.publicKey
    params.executionQueue remainingAccounts
  let message ← buildPerpUserIntentMessageV3 rt {
    group := params.context.group.publicKey
    fermiAccount := params.context.fermiAccount.publicKey
    userOwner := params.context.user.publicKey
    marketIndex := params.marketIndex
    payload := params.payload
    accountsHash := accountsHash.bytes
    minExecuteSlot := some (.bigint (params.minExecuteSlot.getD 0))
    expiresAtSlot := some (.bigint (params.expiresAtSlot.getD 0))
    clientOrderId := params.clientOrderId
    kind := none }
  let userSignature ←
    signIntentMessage rt params.context.user.secretKey message.userIntentMessage.bytes
  pure { remainingAccounts, userIntentMessage := message.userIntentMessage, userSignature }

/-- The end that the three relayed functions share: sign the intent, then build the request. -/
def relayIntent (auth : PerpIntentAuthParams) (baseFee maxFeeLamports : Option String) :
    Throws SubmitIntentRequest := do
  let signed ← buildPerpIntentAuth rt auth
  pure {
    group := auth.context.group.publicKey.toBase58
    execution_queue := auth.executionQueue.toBase58
    market := toString auth.marketIndex
    payload := auth.payload
    remaining_accounts := signed.remainingAccounts.map toRelayerAccountMeta
    min_execute_slot := some (toString (auth.minExecuteSlot.getD 0))
    expires_at_slot := some (toString (auth.expiresAtSlot.getD 0))
    user_owner := auth.context.user.publicKey.toBase58
    mango_account := auth.context.fermiAccount.publicKey.toBase58
    user_signature := signed.userSignature
    base_fee := baseFee
    max_fee_lamports := maxFeeLamports <|> baseFee
    intent_version := some 2
    target_kind := some UserIntentTargetKind.PerpMarket.toNumber
    target_index := some auth.marketIndex
    client_order_id := some (← u64String auth.clientOrderId)
    trigger_order := none }

/-- A direct submission. The order id is in the payload. -/
structure PerpIntentDirectParams where
  context : FermiV1Context
  marketIndex : JsNumber
  payload : Bytes
  minExecuteSlot : Option Int
  expiresAtSlot : Option Int
  nonce : Option BigNumberish

/-- `params.expiresAtSlot ?? BigInt((await getSlot('confirmed')) + 20)`. -/
def directExpiry (context : FermiV1Context) : Option Int → Throws Int
  | some expiresAtSlot => pure expiresAtSlot
  | none => do pure ((← context.getSlot) + 20)

/-- Refuses what only the relayer can do. The random number is the nonce, unless one is given. -/
def submitPerpIntentDirect (params : PerpIntentDirectParams) (random : UInt64) :
    Throws DirectWithIntentIxs := do
  throwIf (params.context.directPoolsInitialized = some false)
    "direct pools are not initialized for this deployment; use the relayer"
  throwIf (params.minExecuteSlot.getD 0 ≠ 0)
    "v5 direct enqueue does not support minExecuteSlot; use expiresAtSlot only"
  let remainingAccounts ←
    Context.buildCanonicalPerpRemainingAccounts params.context params.marketIndex
  let programId := params.context.programId
  let group := params.context.group.publicKey
  buildExecutionQueueV5EnqueueDirectWithIntentIxs rt {
    programId, group
    authorityState := ← findExecutionQueueAuthorityStatePda rt programId group
    queue := ← findExecutionQueueV5Pda rt programId group params.marketIndex
    directPool := ← findExecutionQueueV5DirectPda rt programId group params.marketIndex
    marketIndex := params.marketIndex
    remainingAccounts
    payload := params.payload
    kind := none
    expiresAtSlot := some (.bigint (← directExpiry params.context params.expiresAtSlot))
    nonce := params.nonce.getD (.bigint random.toNat)
    userOwner := params.context.user.publicKey
    fermiAccount := params.context.fermiAccount.publicKey
    userSigner := .keypair params.context.user.secretKey none }

/-! ## Placing an order -/

/-- `params.maxQuoteQuantity ? BigInt(…) : BigInt(I64_MAX_BN.toString())`. -/
def maxQuoteLotsOf (perpMarket : PerpMarket) : Option JsNumber → Throws Int
  | none => pure I64_MAX
  | some quantity => if quantity.truthy then perpMarket.uiQuoteToLots quantity else pure I64_MAX

/-- The payload both place functions encode. -/
def placeOrderPayload (context : FermiV1Context) (params : SubmitPerpOrderParams)
    (clientOrderId : BigNumberish) : Throws Bytes := do
  let perpMarket ← context.group.getPerpMarketByMarketIndex params.marketIndex
  encodePerpPlaceOrderV2QueuePayload {
    side := params.side
    priceLots := .bigint (← uiPriceToLotsForSide perpMarket params.price params.side)
    maxBaseLots := .bigint (← perpMarket.uiBaseToLots params.quantity)
    maxQuoteLots := .bigint (← maxQuoteLotsOf perpMarket params.maxQuoteQuantity)
    clientOrderId := clientOrderId
    orderType := params.orderType.getD .postOnlySlide
    selfTradeBehavior := params.selfTradeBehavior.getD .decrementTake
    reduceOnly := params.reduceOnly.getD false
    expiryTimestamp := .number (params.expiryTimestamp.getD (.int 0))
    limit := params.limit.getD (.int 10) }

/-- The intent has the id of the order, unless it is given one of its own. -/
def submitPerpOrderViaRelayer (context : FermiV1Context) (params : SubmitPerpOrderParams)
    (random : UInt64) : Throws SubmitIntentRequest := do
  let clientOrderId := params.clientOrderId.getD (.bigint random.toNat)
  let intentClientOrderId := params.intentClientOrderId.getD clientOrderId
  let executionQueue ← executionQueueForMarket rt context params.marketIndex
  let payload ← placeOrderPayload context params clientOrderId
  relayIntent rt {
    context, marketIndex := params.marketIndex, payload, executionQueue
    minExecuteSlot := params.minExecuteSlot
    expiresAtSlot := params.expiresAtSlot
    clientOrderId := intentClientOrderId } params.baseFee params.maxFeeLamports

/-- Two random numbers: one for the order id, one for the nonce. -/
def submitPerpOrderDirect (context : FermiV1Context) (params : SubmitPerpOrderParams)
    (nonce : Option BigNumberish) (random random' : UInt64) : Throws DirectWithIntentIxs := do
  let clientOrderId := params.clientOrderId.getD (.bigint random.toNat)
  let payload ← placeOrderPayload context params clientOrderId
  submitPerpIntentDirect rt {
    context, marketIndex := params.marketIndex, payload
    minExecuteSlot := params.minExecuteSlot
    expiresAtSlot := params.expiresAtSlot
    nonce } random'

/-! ## Cancelling -/

/-- The id of the intent is not that of the order here. -/
def cancelPerpOrderByClientIdViaRelayer (context : FermiV1Context)
    (params : SubmitPerpCancelByClientIdParams) (random : UInt64) :
    Throws SubmitIntentRequest := do
  let intentClientOrderId := params.intentClientOrderId.getD (.bigint random.toNat)
  let executionQueue ← executionQueueForMarket rt context params.marketIndex
  let payload ← encodePerpCancelOrderByClientOrderIdQueuePayload params.clientOrderId
  relayIntent rt {
    context, marketIndex := params.marketIndex, payload, executionQueue
    minExecuteSlot := params.minExecuteSlot
    expiresAtSlot := params.expiresAtSlot
    clientOrderId := intentClientOrderId } params.baseFee params.maxFeeLamports

/-- The same payload without a relayer. -/
def cancelPerpOrderByClientIdDirect (context : FermiV1Context)
    (params : SubmitPerpCancelByClientIdParams) (nonce : Option BigNumberish) (random : UInt64) :
    Throws DirectWithIntentIxs := do
  let payload ← encodePerpCancelOrderByClientOrderIdQueuePayload params.clientOrderId
  submitPerpIntentDirect rt {
    context, marketIndex := params.marketIndex, payload
    minExecuteSlot := params.minExecuteSlot
    expiresAtSlot := params.expiresAtSlot
    nonce } random

/-- Without a limit, as many orders as a byte can count. -/
def cancelAllPerpOrdersViaRelayer (context : FermiV1Context) (params : SubmitPerpCancelAllParams)
    (random : UInt64) : Throws SubmitIntentRequest := do
  let intentClientOrderId := params.intentClientOrderId.getD (.bigint random.toNat)
  let executionQueue ← executionQueueForMarket rt context params.marketIndex
  let payload ← encodePerpCancelAllOrdersQueuePayload (params.limit.getD (.int 255))
  relayIntent rt {
    context, marketIndex := params.marketIndex, payload, executionQueue
    minExecuteSlot := params.minExecuteSlot
    expiresAtSlot := params.expiresAtSlot
    clientOrderId := intentClientOrderId } params.baseFee params.maxFeeLamports

/-- The same payload without a relayer. -/
def cancelAllPerpOrdersDirect (context : FermiV1Context) (params : SubmitPerpCancelAllParams)
    (nonce : Option BigNumberish) (random : UInt64) : Throws DirectWithIntentIxs := do
  let payload ← encodePerpCancelAllOrdersQueuePayload (params.limit.getD (.int 255))
  submitPerpIntentDirect rt {
    context, marketIndex := params.marketIndex, payload
    minExecuteSlot := params.minExecuteSlot
    expiresAtSlot := params.expiresAtSlot
    nonce } random

end

end FermiSdk.Trading
