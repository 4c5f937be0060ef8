import FermiSdk.Intents.Messages
import FermiSdk.RelayerClient

/-!
# Trigger orders

`src/triggerOrders.ts`: the stop-loss and take-profit legs, their requests, and signed cancellations.

A leg's terms are hashed into a 64-bit commitment, which is the leg's client order id; the payload
and the intent message carry that id. A request is built from a leg and a signature only after
everything has been recomputed and compared. The builder draws salts until the commitment is not
zero; the numbers drawn are an argument, and a builder that needs more of them than it is given does
not return (`none`).
-/

namespace FermiSdk.TriggerOrders

open FermiSdk.Lib FermiSdk.Intents

/-- `TriggerKind`, a numeric enumeration: other numbers reach the checks of the code. -/
abbrev TriggerKind := JsNumber

/-- The members, by their numbers. -/
def TriggerKind.StopLoss : TriggerKind := .int 0
def TriggerKind.TakeProfit : TriggerKind := .int 1

/-- `TriggerDirection`, a numeric enumeration. -/
abbrev TriggerDirection := JsNumber

/-- Fires once the price is at the trigger or above. -/
def TriggerDirection.AtOrAbove : TriggerDirection := .int 0
def TriggerDirection.AtOrBelow : TriggerDirection := .int 1

/-! ## Checked values -/

/-- Only bigints come here, of which the error reminds the caller. -/
def integer (value max : Int) (label : String) (min : Int) : Throws Int := do
  throwIf (value < min ∨ value > max) s!"{label} is out of range; use bigint"
  pure value

/-- The largest index stands for no market. -/
def marketIndex (value : JsNumber) : Throws Unit :=
  throwIf (!value.isIntegerIn 0 (0xffff - 1)) "marketIndex must be 0 to 65534"

/-- Eight bytes, little-endian. -/
def u64 (value : Int) : Throws Bytes := do
  pure (leBytes 8 (← integer value U64_MAX "u64" 0).toNat)

/-- `writeUInt16LE`, which drops a fraction and writes NaN as 0. -/
def u16 : JsNumber → Throws Bytes
  | .int n => do
    throwIf (n < 0 ∨ n > 0xffff) s!"The value of value is out of range. Received {n}"
    pure (leBytes 2 n.toNat)
  | .frac q _ => do
    throwIf (q < 0 ∨ q > 0xffff) s!"The value of value is out of range. Received {q}"
    pure (leBytes 2 q.floor.toNat)
  | .nan => pure (leBytes 2 0)
  | .infinity _ => throw "The value of value is out of range. Received Infinity"

@[simp] theorem integer_eq_ok {value max min n : Int} {label : String} :
    integer value max label min = .ok n ↔ (min ≤ value ∧ value ≤ max) ∧ value = n := by
  simp [integer]

theorem marketIndex_eq_ok {value : JsNumber} {u : Unit} :
    marketIndex value = .ok u ↔ ∃ n, value = .int n ∧ 0 ≤ n ∧ n < 0xffff := by
  simp only [marketIndex, Throws.throwIf_eq_ok, Bool.not_eq_true', Bool.not_eq_false,
    JsNumber.isIntegerIn_iff]
  exact exists_congr fun n => and_congr_right fun _ => by omega

theorem u64_eq_ok {value : Int} {bs : Bytes} :
    u64 value = .ok bs ↔ (Codec.uint 8).Valid value ∧ bs = (Codec.uint 8).encode value := by
  simp only [u64, Throws.bind_eq_ok, integer_eq_ok, Throws.pure_eq_ok, valid_u64]
  constructor
  · rintro ⟨_, ⟨h, rfl⟩, rfl⟩
    exact ⟨h, rfl⟩
  · rintro ⟨h, rfl⟩
    exact ⟨_, ⟨h, rfl⟩, rfl⟩

theorem u16_int_eq_ok {n : Int} {bs : Bytes} :
    u16 (.int n) = .ok bs ↔ (Codec.uint 2).Valid n ∧ bs = (Codec.uint 2).encode n := by
  simp only [u16, Throws.bind_eq_ok, Throws.throwIf_eq_ok, exists_const, Throws.pure_eq_ok,
    Codec.uint]
  constructor
  · rintro ⟨h, rfl⟩
    exact ⟨by omega, rfl⟩
  · rintro ⟨h, rfl⟩
    exact ⟨by omega, rfl⟩

/-! ## Terms -/

/-- What the keeper is bound to beside the payload. -/
@[ext] structure TriggerTerms where
  kind : TriggerKind
  direction : TriggerDirection
  triggerPriceLots : Int
  ocoGroup : Int
  expiryTs : Int
  salt : Int
  deriving DecidableEq

/-- Exact keeper terms encoding. The signature binds its first eight hash bytes. -/
def triggerTermsBytes (group fermiAccount : PublicKey) (index : JsNumber) (terms : TriggerTerms) :
    Throws Bytes := do
  marketIndex index
  throwIf (terms.kind ∉ [TriggerKind.StopLoss, TriggerKind.TakeProfit] ∨
      terms.direction ∉ [TriggerDirection.AtOrAbove, TriggerDirection.AtOrBelow])
    "invalid trigger kind or direction"
  let price := leBytes 8
    ((← integer terms.triggerPriceLots I64_MAX "triggerPriceLots" 1) % 256 ^ 8).toNat
  let _ ← integer terms.expiryTs U64_MAX "expiryTs" 1
  pure (Buffer.concat [
    Buffer.ofAscii "fermi-trigger-terms-v1",
    group.bytes,
    fermiAccount.bytes,
    ← u16 index,
    Buffer.ofInts [1, ← terms.kind.toBigInt, ← terms.direction.toBigInt, 0, 0],
    price,
    ← u64 terms.ocoGroup,
    ← u64 terms.expiryTs,
    ← u64 terms.salt])

/-- `readBigUInt64LE(offset)`. -/
def readBigUInt64LE (bytes : Bytes) (offset : Nat) : Int := leNat ((bytes.drop offset).take 8)

/-- The first eight bytes of the hash, as the id that the payload carries. -/
def triggerTermsCommitment (rt : Runtime) (group account : PublicKey) (index : JsNumber)
    (terms : TriggerTerms) : Throws Int := do
  pure (readBigUInt64LE (rt.sha256 (← triggerTermsBytes group account index terms)).bytes 0)

/-- A trigger that is met now would fire at once. -/
def triggerAlreadyMet (direction : TriggerDirection) (trigger oracle : Int) : Bool :=
  if direction = TriggerDirection.AtOrBelow then oracle ≤ trigger else oracle ≥ trigger

/-! ## Legs -/

/-- Which way the position is that the legs close. -/
inductive Position where
  | long
  | short
  deriving DecidableEq

/-- `bigint | 'all'`. -/
inductive Size where
  | lots (size : Int)
  | all
  deriving DecidableEq

/-- A bracket, with the accounts that its intents name. -/
structure SlTpParams where
  group : PublicKey
  executionQueue : PublicKey
  marketIndex : JsNumber
  fermiAccount : PublicKey
  signer : PublicKey
  remainingAccounts : List AccountMeta
  position : Position
  size : Size
  stopLossPriceLots : Option Int
  takeProfitPriceLots : Option Int
  slippageBps : JsNumber
  expiryTs : Int
  oraclePriceLots : Option Int

/-- One leg, with all that is checked again when it is submitted. -/
structure SlTpLeg where
  kind : TriggerKind
  terms : TriggerTerms
  clientOrderId : Int
  payload : Bytes
  intentHash : Bytes
  params : SlTpParams

/-- What a caller may fix. The rest is drawn or computed. -/
structure LegOptions where
  ocoGroup : Option Int
  salt : Option Int
  limitPriceLots : Option Int

section

variable (rt : Runtime)

/-- The loop that draws another salt while the commitment is zero. -/
def resampleSalt (params : SlTpParams) (terms : TriggerTerms) (clientOrderId : Int) :
    List UInt64 → Throws (Option (TriggerTerms × Int))
  | [] => pure (if clientOrderId = 0 then none else some (terms, clientOrderId))
  | draw :: draws =>
    if clientOrderId = 0 then do
      let terms := { terms with salt := draw.toNat }
      let clientOrderId ← triggerTermsCommitment rt params.group params.fermiAccount
        params.marketIndex terms
      resampleSalt params terms clientOrderId draws
    else pure (some (terms, clientOrderId))

/-- The message a leg's intent signs: version 3, without slots. -/
def legIntentParams (params : SlTpParams) (payload : Bytes) (clientOrderId : Int) :
    PerpUserIntentMessageV3Params where
  group := params.group
  fermiAccount := params.fermiAccount
  userOwner := params.signer
  marketIndex := params.marketIndex
  payload := payload
  accountsHash := (hashExecutionQueueAccountsForCtmEnqueue rt params.group params.executionQueue
    params.remainingAccounts).bytes
  minExecuteSlot := some (.bigint 0)
  expiresAtSlot := some (.bigint 0)
  clientOrderId := .bigint clientOrderId
  kind := none

/-- The limit price of a leg without an explicit one: the trigger price less or more the slippage,
rounded away from the trader. -/
def slippageLimit (ask : Bool) (triggerPriceLots bps : Int) : Int :=
  if ask then (triggerPriceLots * (10000 - bps)).tdiv 10000
  else (triggerPriceLots * (10000 + bps) + 9999).tdiv 10000

/-- All of the position, or a positive number of lots. -/
def checkSize : Size → Throws Unit
  | .all => pure ()
  | .lots size => do
    let _ ← integer size I64_MAX "size" 1

/-- Without a price there is no check. -/
def checkOracle (direction : TriggerDirection) (triggerPriceLots : Int) :
    Option Int → Throws Unit
  | none => pure ()
  | some oraclePriceLots => do
    let _ ← integer oraclePriceLots I64_MAX "oraclePriceLots" 1
    throwIf (triggerAlreadyMet direction triggerPriceLots oraclePriceLots)
      "trigger is already met by the oracle price"

/-- Build one bounded reduce-only IOC leg. This function does not sign or submit it. -/
def buildTriggerOrderLeg (params : SlTpParams) (kind : TriggerKind) (triggerPriceLots : Int)
    (options : LegOptions) (draws : List UInt64) : Throws (Option SlTpLeg) := do
  marketIndex params.marketIndex
  checkSize params.size
  throwIf (!params.slippageBps.isIntegerIn 0 9999) "slippageBps must be an integer from 0 to 9999"
  let _ ← integer triggerPriceLots I64_MAX "triggerPriceLots" 1
  let ask := decide (params.position = .long)
  let direction :=
    if ask = decide (kind = TriggerKind.StopLoss) then TriggerDirection.AtOrBelow
    else TriggerDirection.AtOrAbove
  checkOracle direction triggerPriceLots params.oraclePriceLots
  let bps ← params.slippageBps.toBigInt
  let limit := options.limitPriceLots.getD (slippageLimit ask triggerPriceLots bps)
  let _ ← integer limit I64_MAX "limitPriceLots" 1
  throwIf (if ask then limit > triggerPriceLots else limit < triggerPriceLots)
    "IOC limit is not marketable at the trigger"
  match options.salt.map (fun salt => (salt, draws)) <|>
      draws.head?.map (fun draw => ((draw.toNat : Int), draws.tail)) with
  | none => pure none
  | some (salt, draws) =>
    let terms : TriggerTerms := {
      kind, direction, triggerPriceLots, ocoGroup := options.ocoGroup.getD 0
      expiryTs := params.expiryTs, salt }
    let clientOrderId ← triggerTermsCommitment rt params.group params.fermiAccount
      params.marketIndex terms
    match ← resampleSalt rt params terms clientOrderId draws with
    | none => pure none
    | some (terms, clientOrderId) =>
      let payload ← encodePerpPlaceOrderV2QueuePayload {
        side := if ask then .ask else .bid
        priceLots := .bigint limit
        maxBaseLots := .bigint (match params.size with | .all => I64_MAX | .lots size => size)
        maxQuoteLots := .bigint I64_MAX
        clientOrderId := .bigint clientOrderId
        orderType := .immediateOrCancel
        selfTradeBehavior := .decrementTake
        reduceOnly := true
        expiryTimestamp :=
          .number (.int (← integer params.expiryTs MAX_SAFE_INTEGER "expiryTs" 1))
        limit := .int 10 }
      let message ← buildPerpUserIntentMessageV3 rt (legIntentParams rt params payload clientOrderId)
      pure (some {
        kind, terms, clientOrderId, payload
        intentHash := message.userIntentMessage.bytes, params })

/-- The numbers drawn for a bracket: for its group, and for the salts of each leg. -/
structure BracketDraws where
  ocoGroup : UInt64
  stopLoss : List UInt64
  takeProfit : List UInt64

/-- The legs of a bracket in order, each with its price and the numbers drawn for it. -/
def wantedLegs (params : SlTpParams) (draws : BracketDraws) :
    List (TriggerKind × Int × List UInt64) :=
  (params.stopLossPriceLots.map fun price => (.StopLoss, price, draws.stopLoss)).toList ++
    (params.takeProfitPriceLots.map fun price => (.TakeProfit, price, draws.takeProfit)).toList

/-- `wanted.map`: no leg is built after one that does not return. -/
def buildWanted (params : SlTpParams) (ocoGroup : Int) :
    List (TriggerKind × Int × List UInt64) → Throws (Option (List SlTpLeg))
  | [] => pure (some [])
  | (kind, price, draws) :: wanted => do
    match ← buildTriggerOrderLeg rt params kind price ⟨some ocoGroup, none, none⟩ draws with
    | none => pure none
    | some leg => do
      let legs ← buildWanted params ocoGroup wanted
      pure (legs.map (leg :: ·))

/-- SL and TP share one OCO group. A single leg is independent. -/
def buildSlTpLegs (params : SlTpParams) (draws : BracketDraws) :
    Throws (Option (List SlTpLeg)) := do
  let wanted := wantedLegs params draws
  throwIf (wanted = []) "set stopLossPriceLots or takeProfitPriceLots"
  let ocoGroup : Int :=
    if wanted.length > 1 then if draws.ocoGroup = 0 then 1 else draws.ocoGroup.toNat else 0
  buildWanted rt params ocoGroup wanted

/-! ## Requests -/

/-- `hash.toString('hex')`, as bytes. -/
def hexText (hash : Bytes) : Bytes :=
  hash.flatMap fun b => [hexDigit (b / 16), hexDigit (b % 16)]
where
  hexDigit (d : UInt8) : UInt8 := if d < 10 then 48 + d else 87 + d

/-- The signature is of the hash or of its hexadecimal text. -/
def assertSignature (hash signature : Bytes) (signer : PublicKey) : Throws Unit :=
  throwIf (signature.length ≠ 64 ∨
      !(rt.verify hash signature signer || rt.verify (hexText hash) signature signer))
    "invalid trigger signature"

/-- The terms as they are sent, with texts for the large integers. -/
def wireTerms (terms : TriggerTerms) : TriggerOrderTermsWire where
  version := 1
  kind := terms.kind
  direction := terms.direction
  trigger_price_lots := toString terms.triggerPriceLots
  oco_group := toString terms.ocoGroup
  expiry_ts := toString terms.expiryTs
  salt := toString terms.salt
  price_source := 0
  flags := 0

/-- The request of a leg that has passed every check. -/
def legRequest (leg : SlTpLeg) (signature : Bytes) (maxFeeLamports : String) :
    SubmitIntentRequest where
  group := leg.params.group.toBase58
  execution_queue := leg.params.executionQueue.toBase58
  market := toString leg.params.marketIndex
  payload := leg.payload
  remaining_accounts := leg.params.remainingAccounts.map toRelayerAccountMeta
  min_execute_slot := some "0"
  expires_at_slot := some "0"
  user_owner := leg.params.signer.toBase58
  mango_account := leg.params.fermiAccount.toBase58
  user_signature := signature
  base_fee := none
  max_fee_lamports := some maxFeeLamports
  intent_version := some 3
  target_kind := some (.int 0)
  target_index := some leg.params.marketIndex
  client_order_id := some (toString leg.clientOrderId)
  trigger_order := some (wireTerms leg.terms)

/-- Everything is computed again from the leg, so that no field was changed after it was built. -/
def triggerOrderRequest (leg : SlTpLeg) (signature : Bytes) (maxFeeLamports : String) :
    Throws SubmitIntentRequest := do
  let p := leg.params
  let commitment ← triggerTermsCommitment rt p.group p.fermiAccount p.marketIndex leg.terms
  throwIf (commitment ≠ leg.clientOrderId ∨ leg.payload.length ≠ 49 ∨
      readBigUInt64LE leg.payload 29 ≠ commitment ∨
      readBigUInt64LE leg.payload 40 ≠ leg.terms.expiryTs ∨
      leg.payload[37]? ≠ some 1 ∨ leg.payload[39]? ≠ some 1)
    "trigger terms or payload changed; rebuild and sign the leg again"
  let message ← buildPerpUserIntentMessageV3 rt
    (legIntentParams rt p leg.payload leg.clientOrderId)
  throwIf (message.userIntentMessage.bytes ≠ leg.intentHash)
    "trigger accounts or payload changed; rebuild and sign the leg again"
  assertSignature rt leg.intentHash signature p.signer
  pure (legRequest leg signature maxFeeLamports)

/-! ## Cancellations -/

/-- What is cancelled: some orders, a bracket, or all. -/
inductive TriggerCancelScope where
  | ids
  | oco_group
  | all
  deriving DecidableEq

/-- The byte of a scope. -/
def TriggerCancelScope.toNumber : TriggerCancelScope → Int
  | .ids => 0
  | .oco_group => 1
  | .all => 2

/-- A cancellation before it is signed. -/
structure TriggerCancelParams where
  group : PublicKey
  fermiAccount : PublicKey
  signer : PublicKey
  issuedAtMs : Int
  scope : TriggerCancelScope
  clientOrderIds : Option (List Int)
  ocoGroup : Option Int
  marketIndex : Option JsNumber

/-- A market is optional. -/
def checkMarketIndex : Option JsNumber → Throws Unit
  | none => pure ()
  | some index => marketIndex index

/-- The bytes hashed by `triggerCancelMessageHash`. -/
def triggerCancelPreimage (params : TriggerCancelParams) : Throws Bytes := do
  let ids := params.clientOrderIds.getD []
  throwIf (ids.length > 0xffff ∨ (params.scope = .ids ∧ ids = []))
    "ids scope needs 1 to 65535 clientOrderIds"
  throwIf (params.scope = .oco_group ∧ params.ocoGroup.getD 0 = 0)
    "oco_group scope needs a non-zero ocoGroup"
  checkMarketIndex params.marketIndex
  pure (Buffer.concat ([
    Buffer.ofAscii "fermi-trigger-cancel-v1",
    params.group.bytes,
    params.fermiAccount.bytes,
    params.signer.bytes,
    ← u64 params.issuedAtMs,
    Buffer.ofInts [params.scope.toNumber],
    ← u16 (params.marketIndex.getD (.int 0xffff)),
    ← u64 (params.ocoGroup.getD 0),
    ← u16 (.int ids.length)] ++
    (← ids.mapM u64)))

/-- What the owner signs for a cancellation. -/
def triggerCancelMessageHash (params : TriggerCancelParams) : Throws Digest := do
  pure (rt.sha256 (← triggerCancelPreimage params))

/-- The body of the cancel request. -/
structure CancelBody where
  mango_account : String
  signer : String
  issued_at_ms : String
  scope : TriggerCancelScope
  client_order_ids : List String
  oco_group : Option String
  market_index : Option JsNumber
  signature_b64 : Bytes

/-- What `cancelTriggerOrders` posts to `/trigger-orders/cancel`. The signature's base64 text is
kept as the bytes it stands for. -/
def cancelTriggerOrders (params : TriggerCancelParams) (signature : Bytes) : Throws CancelBody := do
  assertSignature rt (← triggerCancelMessageHash rt params).bytes signature params.signer
  pure {
    mango_account := params.fermiAccount.toBase58
    signer := params.signer.toBase58
    issued_at_ms := toString params.issuedAtMs
    scope := params.scope
    client_order_ids := (params.clientOrderIds.getD []).map toString
    oco_group := params.ocoGroup.map toString
    market_index := params.marketIndex
    signature_b64 := signature }

end

end FermiSdk.TriggerOrders
