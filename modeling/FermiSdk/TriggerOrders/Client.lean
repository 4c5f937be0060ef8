import FermiSdk.Context
import FermiSdk.Gateway
import FermiSdk.Lib.Base64
import FermiSdk.TriggerOrders

/-!
# The trigger client

`src/triggerOrders.ts`: preparing the legs of a bracket for a context, signing legs and cancellations,
and the requests of `FermiV1TriggerClient`, each up to the call of `fetch`.
-/

namespace FermiSdk.TriggerOrders

open FermiSdk.Lib FermiSdk.Lib.Percent FermiSdk.Lib.Url FermiSdk.Intents FermiSdk.Gateway

section

variable (rt : Runtime)

/-! ## Preparing legs -/

/-- `SlTpParams` without what comes from a context. -/
structure ContextSlTpParams where
  marketIndex : JsNumber
  position : Position
  size : Size
  stopLossPriceLots : Option Int
  takeProfitPriceLots : Option Int
  slippageBps : JsNumber
  expiryTs : Int
  oraclePriceLots : Option Int

/-- The legs name the canonical accounts of the market. -/
def prepareSlTpOrders (context : FermiV1Context) (params : ContextSlTpParams)
    (draws : BracketDraws) : Throws (Option (List SlTpLeg)) := do
  let executionQueue ← findExecutionQueueV5Pda rt context.programId context.group.publicKey
    params.marketIndex
  let remainingAccounts ← Context.buildCanonicalPerpRemainingAccounts context params.marketIndex
  buildSlTpLegs rt {
    group := context.group.publicKey
    fermiAccount := context.fermiAccount.publicKey
    signer := context.user.publicKey
    executionQueue, remainingAccounts
    marketIndex := params.marketIndex
    position := params.position
    size := params.size
    stopLossPriceLots := params.stopLossPriceLots
    takeProfitPriceLots := params.takeProfitPriceLots
    slippageBps := params.slippageBps
    expiryTs := params.expiryTs
    oraclePriceLots := params.oraclePriceLots } draws

/-! ## Signing -/

/-- The public key of `nacl.sign.keyPair.fromSecretKey(secretKey)`. -/
def publicKeyOf (secretKey : Bytes) : Throws PublicKey :=
  if h : secretKey.length = 64 then pure ⟨secretKey.drop 32, by rw [List.length_drop, h]⟩
  else throw "bad secret key size"

/-- Only the signer of the leg signs it. -/
def signTriggerOrderLeg (leg : SlTpLeg) (secretKey : Bytes) : Throws Bytes := do
  throwIf ((← publicKeyOf secretKey) ≠ leg.params.signer) "trigger signer does not match the leg"
  pure (rt.sign leg.intentHash secretKey)

/-- The same for a cancellation. -/
def signTriggerCancel (params : TriggerCancelParams) (secretKey : Bytes) : Throws Bytes := do
  throwIf ((← publicKeyOf secretKey) ≠ params.signer) "cancel signer does not match"
  pure (rt.sign (← triggerCancelMessageHash rt params).bytes secretKey)

/-! ## Bodies -/

/-- The fields of an account in a body. -/
def accountJson (account : RelayerAccountMeta) : RequestJson := .object [
  ("pubkey", .string account.pubkey),
  ("is_signer", .bool account.is_signer),
  ("is_writable", .bool account.is_writable)]

/-- The terms in a body. -/
def termsJson (terms : TriggerOrderTermsWire) : RequestJson := .object [
  ("version", .number (.int terms.version)),
  ("kind", .number terms.kind),
  ("direction", .number terms.direction),
  ("trigger_price_lots", .string terms.trigger_price_lots),
  ("oco_group", .string terms.oco_group),
  ("expiry_ts", .string terms.expiry_ts),
  ("salt", .string terms.salt),
  ("price_source", .number (.int terms.price_source)),
  ("flags", .number (.int terms.flags))]

/-- `{ ...request, payload_b64, user_signature_b64 }`, where `request` is without the two fields that
these stand for. -/
def submitFields (request : SubmitIntentRequest) : List (String × RequestJson) := [
  ("group", .string request.group),
  ("execution_queue", .string request.execution_queue),
  ("market", .string request.market),
  ("remaining_accounts", .array (request.remaining_accounts.map accountJson))] ++
  jsonField "min_execute_slot" (request.min_execute_slot.map .string) ++
  jsonField "expires_at_slot" (request.expires_at_slot.map .string) ++ [
  ("user_owner", .string request.user_owner),
  ("mango_account", .string request.mango_account)] ++
  jsonField "intent_version" (request.intent_version.map fun version => .number (.int version)) ++
  jsonField "target_kind" (request.target_kind.map .number) ++
  jsonField "target_index" (request.target_index.map .number) ++
  jsonField "client_order_id" (request.client_order_id.map .string) ++
  jsonField "trigger_order" (request.trigger_order.map termsJson) ++
  jsonField "max_fee_lamports" (request.max_fee_lamports.map .string) ++
  jsonField "base_fee" (request.base_fee.map .string) ++ [
  ("payload_b64", .string (Base64.encode request.payload)),
  ("user_signature_b64", .string (Base64.encode request.user_signature))]

/-- The body has passed every check of the request. -/
def triggerOrderSubmitBody (leg : SlTpLeg) (signature : Bytes) (maxFeeLamports : String) :
    Throws RequestJson := do
  pure (.object (submitFields (← triggerOrderRequest rt leg signature maxFeeLamports)))

/-- `submitTriggerOrderViaRelayer`, up to the call of the relayer. -/
def submitTriggerOrderViaRelayer (leg : SlTpLeg) (signature : Bytes) (maxFeeLamports : String) :
    Throws SubmitIntentRequest := do
  submitIntent (← triggerOrderRequest rt leg signature maxFeeLamports)

/-- The scope as a body has it. -/
def TriggerCancelScope.text : TriggerCancelScope → String
  | .ids => "ids"
  | .oco_group => "oco_group"
  | .all => "all"

/-- The body of a cancel as JSON, where what is not given is `null`. -/
def cancelJson (body : CancelBody) : RequestJson := .object [
  ("mango_account", .string body.mango_account),
  ("signer", .string body.signer),
  ("issued_at_ms", .string body.issued_at_ms),
  ("scope", .string body.scope.text),
  ("client_order_ids", .array (body.client_order_ids.map .string)),
  ("oco_group", (body.oco_group.map .string).getD .null),
  ("market_index", (body.market_index.map .number).getD .null),
  ("signature_b64", .string (Base64.encode body.signature_b64))]

/-! ## The client -/

/-- All fields are optional, but an account or an owner must be among them. -/
structure TriggerOrderListQuery where
  fermiAccount : Option PublicKey
  accountOwner : Option PublicKey
  activeOnly : Option Bool
  marketIndex : Option JsNumber
  clientOrderId : Option Int
  ocoGroup : Option Int
  limit : Option JsNumber

/-- An entry of a query, whose text is made by a check of the value. -/
def checkedText {α : Type} (value : Option α) (check : α → Throws String) :
    Throws (Option String) :=
  match value with
  | none => pure none
  | some value => do pure (some (← check value))

/-- The entries of a query for trigger orders. -/
def TriggerOrderListQuery.entries (query : TriggerOrderListQuery) :
    Throws (List (String × Option String)) := do
  throwIf (query.fermiAccount = none ∧ query.accountOwner = none)
    "fermiAccount or accountOwner is required"
  let indexText ← checkedText query.marketIndex fun index => do
    TriggerOrders.marketIndex index
    pure (toString index)
  let clientOrderId ← checkedText query.clientOrderId fun id => do
    pure (toString (← integer id U64_MAX "clientOrderId" 0))
  let ocoGroup ← checkedText query.ocoGroup fun group => do
    pure (toString (← integer group U64_MAX "ocoGroup" 0))
  let limit ← checkedText query.limit fun limit => do
    throwIf (!limit.isIntegerIn 1 1000) "limit must be 1 to 1000"
    pure (toString limit)
  pure [
    ("mango_account", query.fermiAccount.map PublicKey.toBase58),
    ("account_owner", query.accountOwner.map PublicKey.toBase58),
    ("active", query.activeOnly.map toString),
    ("market_index", indexText),
    ("client_order_id", clientOrderId),
    ("oco_group", ocoGroup),
    ("limit", limit)]

namespace FermiV1TriggerClient

variable (client : FermiV1StateClient)

/-- The gateway passes the body on to the relayer. -/
def submitTriggerOrder (leg : SlTpLeg) (signature : Bytes) (maxFeeLamports : String) :
    Throws Fetch := do
  let body ← triggerOrderSubmitBody rt leg signature maxFeeLamports
  pure (client.request .POST (utf8 "/relay/submit-intent") (some body))

/-- The query is never empty, hence the question mark. -/
def getTriggerOrders (query : TriggerOrderListQuery) : Throws Fetch := do
  let qs := searchParams (presentEntries (← query.entries))
  pure (client.request .GET (utf8 "/trigger-orders?" ++ qs) none)

/-- `/^[A-Za-z0-9_.:-]{1,128}$/`. -/
def ORDER_ID (id : String) : Bool :=
  1 ≤ id.toList.length && id.toList.length ≤ 128 && id.toList.all fun c =>
    ('A' ≤ c && c ≤ 'Z') || ('a' ≤ c && c ≤ 'z') || ('0' ≤ c && c ≤ '9') ||
      c ∈ ['_', '.', ':', '-']

/-- The id is checked, and encoded nonetheless. -/
def getTriggerOrder (id : String) : Throws Fetch := do
  throwIf (!ORDER_ID id ∨ id = "." ∨ id = "..") "invalid trigger order id"
  pure (client.request .GET (utf8 "/trigger-orders/" ++ encodeURIComponent id) none)

/-- The signature is checked before anything is sent. -/
def cancelTriggerOrders (params : TriggerCancelParams) (signature : Bytes) : Throws Fetch := do
  let body ← TriggerOrders.cancelTriggerOrders rt params signature
  pure (client.request .POST (utf8 "/trigger-orders/cancel") (some (cancelJson body)))

/-- `TriggerCancelParams` without what comes from a context. -/
structure ContextCancelParams where
  issuedAtMs : Option Int
  scope : TriggerCancelScope
  clientOrderIds : Option (List Int)
  ocoGroup : Option Int
  marketIndex : Option JsNumber

/-- The parameters of a cancellation at the time `now`. -/
def cancelParams (context : FermiV1Context) (params : ContextCancelParams) (now : Int) :
    TriggerCancelParams where
  group := context.group.publicKey
  fermiAccount := context.fermiAccount.publicKey
  signer := context.user.publicKey
  issuedAtMs := params.issuedAtMs.getD now
  scope := params.scope
  clientOrderIds := params.clientOrderIds
  ocoGroup := params.ocoGroup
  marketIndex := params.marketIndex

/-- Signed with the key of the context. -/
def cancelForContext (context : FermiV1Context) (params : ContextCancelParams) (now : Int) :
    Throws Fetch := do
  let request := cancelParams context params now
  cancelTriggerOrders rt client request (← signTriggerCancel rt request context.user.secretKey)

end FermiV1TriggerClient

end

end FermiSdk.TriggerOrders
