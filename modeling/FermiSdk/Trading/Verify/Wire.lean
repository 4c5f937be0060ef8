import FermiSdk.Intents.Verify.Accounts
import FermiSdk.Intents.Verify.Preimages
import FermiSdk.TriggerOrders.Verify.Binding
import FermiSdk.Trading
import Mathlib

/-!
# What is signed is what is sent

A verifier that has only the wire form rebuilds the signed message: from the fields of a relayed
request (`relayedMessage`), from the data and keys of an enqueue instruction (`directMessage`), and
from the body of a cancellation (`cancelDigest`). It reads keys from base58 and integers from
decimals, and hashes the documented encoding. On every submission that is reached it arrives at the
message that was signed (`signed_is_sent`).
-/

namespace FermiSdk

open FermiSdk.Lib FermiSdk.Intents

section

variable (rt : Runtime)

/-- The hash of an account list, as documented. -/
def accountsDigest (accounts : List AccountMeta) : Digest :=
  rt.sha256 (accounts.flatMap accountMeta.encode)

theorem hashExecutionQueueAccounts_eq (accounts : List AccountMeta) :
    hashExecutionQueueAccounts rt accounts = accountsDigest rt accounts := by
  rw [hashExecutionQueueAccounts, executionQueueAccountsPreimage, funext accountBytes_eq]
  rfl

/-! ## Relayed requests -/

/-- The message that a relayed request should be signed over. -/
def relayedMessage (req : SubmitIntentRequest) : Option Digest := do
  let group ← PublicKey.ofBase58 req.group
  let fermiAccount ← PublicKey.ofBase58 req.mango_account
  let userOwner ← PublicKey.ofBase58 req.user_owner
  let marketIndex ← req.target_index.bind JsNumber.toInt?
  let accounts ← req.effectiveAccounts
  let minExecuteSlot ← req.min_execute_slot.bind String.toInt?
  let expiresAtSlot ← req.expires_at_slot.bind String.toInt?
  let clientOrderId ← req.client_order_id.bind String.toInt?
  pure (rt.sha256 (SignedMessage.userIntentV3 {
    target := { group, fermiAccount, userOwner, kind := 0, targetKind := 0, marketIndex }
    payloadHash := (rt.sha256 req.payload).bytes
    accountsHash := (accountsDigest rt accounts).bytes
    minExecuteSlot, expiresAtSlot, clientOrderId }).encode)

variable {rt}

/-- What the reader rebuilds from a request with given contents. -/
theorem relayedMessage_of_wire {req : SubmitIntentRequest} {group queue account owner : PublicKey}
    {accounts : List AccountMeta} {market minSlot expires id : Int}
    (hgroup : req.group = group.toBase58) (hqueue : req.execution_queue = queue.toBase58)
    (haccount : req.mango_account = account.toBase58) (howner : req.user_owner = owner.toBase58)
    (haccounts : req.remaining_accounts = accounts.map toRelayerAccountMeta)
    (hmarket : req.target_index = some (.int market))
    (hmin : req.min_execute_slot = some (toString minSlot))
    (hexp : req.expires_at_slot = some (toString expires))
    (hid : req.client_order_id = some (toString id)) :
    relayedMessage rt req = some (rt.sha256 (SignedMessage.userIntentV3 {
      target := ⟨group, account, owner, 0, 0, market⟩
      payloadHash := (rt.sha256 req.payload).bytes
      accountsHash := (hashExecutionQueueAccountsForCtmEnqueue rt group queue accounts).bytes
      minExecuteSlot := minSlot
      expiresAtSlot := expires
      clientOrderId := id }).encode) := by
  have heff := effectiveAccounts_of_wire hgroup hqueue haccounts
  simp only [relayedMessage, hgroup, haccount, howner, hmarket, heff, hmin, hexp, hid,
    PublicKey.ofBase58_toBase58, Option.bind_some, Option.bind_eq_bind, JsNumber.toInt?,
    Int.toString_eq_repr, Int.toInt?_repr, hashExecutionQueueAccountsForCtmEnqueue,
    hashExecutionQueueAccounts_eq]
  rfl

theorem u64String_eq_ok {value : BigNumberish} {text : String}
    (h : Trading.u64String value = .ok text) : ∃ n, toBigInt value = .ok n ∧ text = toString n := by
  simp only [Trading.u64String, Throws.bind_eq_ok, Throws.throwIf_eq_ok, exists_const,
    Throws.pure_eq_ok] at h
  obtain ⟨n, hn, -, rfl⟩ := h
  exact ⟨n, hn, rfl⟩

/-- A relayed request is signed over the message its reader rebuilds. -/
theorem relayIntent_signed {auth : Trading.PerpIntentAuthParams} {baseFee maxFee : Option String}
    {req : SubmitIntentRequest} (h : Trading.relayIntent rt auth baseFee maxFee = .ok req) :
    ∃ m, relayedMessage rt req = some m ∧
      req.user_signature = rt.sign m.bytes auth.context.user.secretKey := by
  simp only [Trading.relayIntent, Trading.buildPerpIntentAuth, buildPerpUserIntentMessageV3,
    signIntentMessage, Throws.bind_eq_ok, Throws.throwIf_eq_ok, exists_const,
    Throws.pure_eq_ok] at h
  obtain ⟨_, ⟨accounts, -, _, ⟨bs, hbs, rfl⟩, _, ⟨-, rfl⟩, rfl⟩, text, htext, rfl⟩ := h
  obtain ⟨id, hid, rfl⟩ := u64String_eq_ok htext
  obtain ⟨m, hm, -, rfl⟩ := perpUserIntentPreimageV3_message hbs
  simp only [UserIntentV3.of, IntentTarget.of, Throws.bind_eq_ok, Throws.pure_eq_ok,
    JsNumber.toBigInt_eq_ok, Option.getD_some, Option.getD_none, JsNumber.int.injEq,
    toBigInt_bigint, hid, Except.ok.injEq, exists_eq_left'] at hm
  obtain ⟨_, ⟨market, hmarket, rfl⟩, rfl⟩ := hm
  exact ⟨_, relayedMessage_of_wire rfl rfl rfl rfl rfl (congrArg some hmarket) rfl rfl rfl, rfl⟩

/-! ## Enqueue instructions -/

/-- The data of an enqueue instruction: discriminator, market, payload, kind, expiry, nonce. -/
def enqueueData : Codec (Bytes × Int × Bytes × Int × Int × Int) :=
  (Codec.raw 8).pair <| (Codec.uint 2).pair <| (Codec.blob 4).pair <| (Codec.uint 1).pair <|
    (Codec.uint 8).pair <| Codec.uint 8

/-- The message that an enqueue instruction should be signed over, for a known owner and account. -/
def directMessage (rt : Runtime) (ix : TransactionInstruction) (userOwner fermiAccount : PublicKey) :
    Option Digest :=
  match ix.keys with
  | group :: _ :: queue :: _ :: _ :: remaining => do
    let (_, marketIndex, payload, kind, expiresAtSlot, nonce) ← enqueueData.decodeAll ix.data
    let accounts := accountsForV5DirectEnqueue group.pubkey queue.pubkey remaining userOwner
    pure (rt.sha256 (SignedMessage.directIntent {
      target := {
        group := group.pubkey, fermiAccount, userOwner, kind, targetKind := 0, marketIndex }
      payloadHash := (rt.sha256 payload).bytes
      accountsHash := (accountsDigest rt accounts).bytes
      expiresAtSlot, nonce }).encode)
  | _ => none

theorem enqueueDirectMarketData_eq_ok {params : EnqueueDirectMarketParams} {data : Bytes}
    (h : enqueueDirectMarketData rt params = .ok data) :
    ∃ disc market kind expires nonce,
      params.marketIndex = .int market ∧ params.args.kind = .int kind ∧
      toBigInt params.args.expiresAtSlot = .ok expires ∧ toBigInt params.args.nonce = .ok nonce ∧
      enqueueData.Valid (disc, market, params.args.payload, kind, expires, nonce) ∧
      data = enqueueData.encode (disc, market, params.args.payload, kind, expires, nonce) := by
  simp only [enqueueDirectMarketData, Throws.bind_eq_ok, Throws.pure_eq_ok, u16ToLe_eq_ok,
    u32ToLe_eq_ok, u8_eq_ok, u64ToLe_eq_ok, JsNumber.int.injEq] at h
  obtain ⟨_, ⟨market, hm, vm, rfl⟩, _, ⟨_, rfl, vlen, rfl⟩, _, ⟨kind, hk, vk, rfl⟩,
    _, ⟨expires, he, ve, rfl⟩, _, ⟨nonce, hn, vn, rfl⟩, rfl⟩ := h
  have hdisc : (anchorInstructionDiscriminator rt
      "execution_queue_v5_enqueue_direct_market").length = 8 := by
    rw [anchorInstructionDiscriminator, List.length_take, (rt.sha256 _).size]
    rfl
  refine ⟨_, market, kind, expires, nonce, hm, hk, he, hn, ⟨hdisc, vm, vlen.2, vk, ve, vn⟩, ?_⟩
  simp only [Buffer.concat_cons, Buffer.concat_nil, List.append_nil]
  rfl

/-- An enqueue instruction carries everything its message was built from. -/
theorem directIntent_signed {params : EnqueueDirectWithIntentParams} {ixs : DirectWithIntentIxs}
    (h : buildExecutionQueueV5EnqueueDirectWithIntentIxs rt params = .ok ixs) :
    directMessage rt ixs.enqueueInstruction params.userOwner params.fermiAccount =
        some ixs.directIntentMessage ∧
      buildIntentEd25519Instruction rt ixs.directIntentMessage.bytes params.userSigner =
        .ok ixs.userIntentPreInstruction := by
  simp only [buildExecutionQueueV5EnqueueDirectWithIntentIxs,
    buildExecutionQueueV5DirectIntentMessage, buildExecutionQueueV5EnqueueDirectMarketIx,
    Throws.bind_eq_ok, Throws.throwIf_eq_ok, exists_const, Throws.pure_eq_ok, not_not] at h
  obtain ⟨hkind, expires, -, -, _, ⟨bs, hbs, rfl⟩, pre, hpre, _, ⟨data, hdata, rfl⟩, rfl⟩ := h
  refine ⟨?_, hpre⟩
  obtain ⟨m, hm, -, rfl⟩ := directIntentPreimage_message hbs
  obtain ⟨disc, market, kind, expires', nonce, hmarket, hk, he, hn, hv, rfl⟩ :=
    enqueueDirectMarketData_eq_ok hdata
  simp only at hmarket hk he hn hv
  simp only [DirectIntent.of, IntentTarget.of, Throws.bind_eq_ok, Throws.pure_eq_ok,
    JsNumber.toBigInt_eq_ok, hmarket, hk, he, hn, JsNumber.int.injEq, Except.ok.injEq,
    exists_eq_left'] at hm
  subst hm
  simp only [directMessage, List.cons_append, List.nil_append, enqueueData.decodeAll_encode hv,
    Option.bind_eq_bind, Option.bind_some, hashExecutionQueueAccountsForV5DirectEnqueue,
    hashExecutionQueueAccounts_eq, hashExecutionQueuePayload]
  rfl

/-! ## Cancellations -/

/-- The message that a cancellation should be signed over, for a known group. No market is 0xffff
and no group of orders is 0. -/
def cancelDigest (rt : Runtime) (group : PublicKey) (body : TriggerOrders.CancelBody) :
    Option Digest := do
  let fermiAccount ← PublicKey.ofBase58 body.mango_account
  let signer ← PublicKey.ofBase58 body.signer
  let issuedAtMs ← body.issued_at_ms.toInt?
  let marketIndex ← (body.market_index.getD (.int 0xffff)).toInt?
  let ocoGroup ← (body.oco_group.getD "0").toInt?
  let clientOrderIds ← body.client_order_ids.mapM String.toInt?
  pure (rt.sha256 (SignedMessage.triggerCancel {
    group, fermiAccount, signer, issuedAtMs, scope := body.scope.toNumber, marketIndex, ocoGroup
    clientOrderIds }).encode)

/-- Integers are read back from a list of their texts. -/
theorem mapM_toInt? (l : List Int) : (l.map toString).mapM String.toInt? = some l := by
  induction l with
  | nil => rfl
  | cons n l ih =>
    rw [List.map_cons, List.mapM_cons, Int.toString_eq_repr, Int.toInt?_repr, ih]
    rfl

theorem getD_map_toString (n : Option Int) :
    ((n.map toString).getD "0").toInt? = some (n.getD 0) := by
  cases n with
  | none => exact Int.toInt?_repr 0
  | some n => exact Int.toInt?_repr n

theorem cancel_signed {params : TriggerOrders.TriggerCancelParams} {signature : Bytes}
    {body : TriggerOrders.CancelBody}
    (h : TriggerOrders.cancelTriggerOrders rt params signature = .ok body) :
    ∃ m, TriggerOrders.triggerCancelMessageHash rt params = .ok m ∧
      cancelDigest rt params.group body = some m ∧
      TriggerOrders.SignedHash rt m.bytes body.signature_b64 params.signer := by
  simp only [TriggerOrders.cancelTriggerOrders, Throws.bind_eq_ok, Throws.pure_eq_ok,
    TriggerOrders.assertSignature_eq_ok, exists_const] at h
  obtain ⟨m, hm, ⟨-, hsigned⟩, rfl⟩ := h
  refine ⟨m, hm, ?_, hsigned⟩
  simp only [TriggerOrders.triggerCancelMessageHash, Throws.bind_eq_ok, Throws.pure_eq_ok] at hm
  obtain ⟨bs, hbs, rfl⟩ := hm
  obtain ⟨c, hc, -, rfl⟩ := triggerCancelPreimage_message hbs
  simp only [CancelMessage.of, Throws.bind_eq_ok, Throws.pure_eq_ok,
    JsNumber.toBigInt_eq_ok] at hc
  obtain ⟨market, hmarket, rfl⟩ := hc
  simp only [cancelDigest, PublicKey.ofBase58_toBase58, hmarket, JsNumber.toInt?, getD_map_toString,
    mapM_toInt?, Int.toString_eq_repr, Int.toInt?_repr, Option.bind_eq_bind, Option.bind_some]
  rfl

end

/-- **What is signed is what is sent.** Whenever a submission is reached, a reader of its wire form
rebuilds the message that was signed: for the three relayed functions from the request, for a direct
enqueue from the instruction (with the owner and account known), and for a cancellation of trigger
orders from the body (with the group known). -/
theorem signed_is_sent (rt : Runtime) :
    (∀ context params random req,
      Trading.submitPerpOrderViaRelayer rt context params random = .ok req →
        ∃ m, relayedMessage rt req = some m ∧
          req.user_signature = rt.sign m.bytes context.user.secretKey) ∧
    (∀ context params random req,
      Trading.cancelPerpOrderByClientIdViaRelayer rt context params random = .ok req →
        ∃ m, relayedMessage rt req = some m ∧
          req.user_signature = rt.sign m.bytes context.user.secretKey) ∧
    (∀ context params random req,
      Trading.cancelAllPerpOrdersViaRelayer rt context params random = .ok req →
        ∃ m, relayedMessage rt req = some m ∧
          req.user_signature = rt.sign m.bytes context.user.secretKey) ∧
    (∀ params ixs, buildExecutionQueueV5EnqueueDirectWithIntentIxs rt params = .ok ixs →
      directMessage rt ixs.enqueueInstruction params.userOwner params.fermiAccount =
          some ixs.directIntentMessage ∧
        buildIntentEd25519Instruction rt ixs.directIntentMessage.bytes params.userSigner =
          .ok ixs.userIntentPreInstruction) ∧
    (∀ params signature body, TriggerOrders.cancelTriggerOrders rt params signature = .ok body →
      ∃ m, TriggerOrders.triggerCancelMessageHash rt params = .ok m ∧
        cancelDigest rt params.group body = some m ∧
        TriggerOrders.SignedHash rt m.bytes body.signature_b64 params.signer) := by
  refine ⟨fun context params random req h => ?_, fun context params random req h => ?_,
    fun context params random req h => ?_, fun _ _ => directIntent_signed,
    fun _ _ _ => cancel_signed⟩
  · simp only [Trading.submitPerpOrderViaRelayer, Throws.bind_eq_ok] at h
    obtain ⟨_, -, _, -, h⟩ := h
    exact relayIntent_signed h
  · simp only [Trading.cancelPerpOrderByClientIdViaRelayer, Throws.bind_eq_ok] at h
    obtain ⟨_, -, _, -, h⟩ := h
    exact relayIntent_signed h
  · simp only [Trading.cancelAllPerpOrdersViaRelayer, Throws.bind_eq_ok] at h
    obtain ⟨_, -, _, -, h⟩ := h
    exact relayIntent_signed h

/-! ## A recorded cancellation

Cancelling all orders on market 2 with the keys of the recorded leg: one token position, one market,
no open orders. -/

namespace RecordedCancel

open TriggerOrders.Recorded (group fermiAccount signer market)

def filled (b : UInt8) : PublicKey := ⟨List.replicate 32 b, List.length_replicate⟩

def executionQueue : PublicKey :=
  ⟨[252, 218, 130, 180, 243, 91, 81, 34, 73, 210, 152, 170, 47, 205, 225, 18, 208, 97, 145, 255,
    97, 97, 128, 211, 191, 199, 73, 231, 212, 114, 16, 243], rfl⟩

def payloadHash : PublicKey :=
  ⟨[133, 200, 161, 138, 234, 83, 49, 155, 48, 38, 0, 70, 124, 49, 78, 17, 232, 155, 130, 151,
    206, 56, 227, 217, 249, 199, 126, 165, 99, 126, 17, 85], rfl⟩

def accountsHash : PublicKey :=
  ⟨[113, 135, 19, 21, 64, 93, 27, 72, 53, 60, 251, 105, 24, 187, 124, 169, 195, 31, 95, 30, 173,
    246, 163, 223, 2, 120, 158, 168, 15, 189, 219, 143], rfl⟩

def intentHash : PublicKey :=
  ⟨[35, 227, 232, 142, 75, 112, 235, 101, 42, 137, 152, 122, 176, 209, 73, 20, 240, 104, 66, 10,
    72, 217, 169, 178, 100, 210, 87, 245, 40, 202, 68, 79], rfl⟩

def signature : Bytes :=
  [94, 105, 31, 159, 108, 224, 129, 67, 109, 35, 88, 116, 211, 57, 254, 181, 14, 192, 185, 252,
    155, 51, 252, 192, 175, 121, 138, 110, 8, 107, 237, 192, 218, 134, 196, 80, 172, 55, 129,
    195, 39, 151, 11, 72, 73, 8, 126, 186, 172, 86, 22, 58, 133, 177, 134, 147, 59, 107, 79, 57,
    8, 105, 42, 0]

def secretKey : Bytes := List.replicate 32 7 ++ signer.bytes

def programId : PublicKey :=
  ⟨[3, 177, 172, 12, 147, 93, 178, 110, 255, 13, 190, 132, 114, 0, 122, 92, 40, 179, 234, 32,
    137, 108, 78, 148, 24, 164, 131, 130, 166, 156, 218, 139], rfl⟩

def perpMarket : PerpMarket where
  perpMarketIndex := 2
  publicKey := market
  bids := filled 1
  asks := filled 2
  eventQueue := filled 3
  oracle := filled 4
  uiPriceToLots _ := pure 0
  uiPriceToLotsForSide := none
  uiPriceToLotsRoundUp := none
  uiBaseToLots _ := pure 0
  uiQuoteToLots _ := pure 0

def context : FermiV1Context where
  programId := programId
  group := {
    publicKey := group
    getPerpMarketByMarketIndex := fun _ => pure perpMarket
    settlementTokenIndex := pure 0
    mintInfosMapByTokenIndex := fun _ => some ⟨0, filled 6, filled 5⟩
    perpMarkets := [perpMarket] }
  fermiAccount := ⟨fermiAccount, [0, 65535], [], none⟩
  user := ⟨signer, secretKey⟩
  fallbackOracleContexts := pure fun _ => none
  directPoolsInitialized := none
  getSlot := pure 0

def params : Trading.SubmitPerpCancelAllParams where
  marketIndex := .int 2
  limit := none
  intentClientOrderId := some (.number (.int 77))
  minExecuteSlot := none
  expiresAtSlot := none
  baseFee := none
  maxFeeLamports := some "AUTO"

def accounts : List AccountMeta := [
  ⟨group, false, false⟩, ⟨fermiAccount, false, true⟩, ⟨signer, false, false⟩,
  ⟨market, false, true⟩, ⟨filled 1, false, true⟩, ⟨filled 2, false, true⟩,
  ⟨filled 3, false, true⟩, ⟨filled 4, false, false⟩, ⟨filled 5, false, false⟩,
  ⟨filled 6, false, false⟩, ⟨market, false, false⟩, ⟨filled 4, false, false⟩]

/-- The list as it is hashed: the group and every entry of the market writable. -/
def effectiveAccounts : List AccountMeta := [
  ⟨group, false, true⟩, ⟨fermiAccount, false, true⟩, ⟨signer, false, false⟩,
  ⟨market, false, true⟩, ⟨filled 1, false, true⟩, ⟨filled 2, false, true⟩,
  ⟨filled 3, false, true⟩, ⟨filled 4, false, false⟩, ⟨filled 5, false, false⟩,
  ⟨filled 6, false, false⟩, ⟨market, false, true⟩, ⟨filled 4, false, false⟩]

def intentBytes : Bytes :=
  Buffer.ofAscii "mango-v5-user-intent-v2" ++ group.bytes ++ fermiAccount.bytes ++ signer.bytes ++
    [0, 0, 2, 0] ++ payloadHash.bytes ++ accountsHash.bytes ++ List.replicate 16 0 ++ leBytes 8 77

/-- SHA-256, Ed25519 and the queue's address on the recorded data. -/
def runtime : Runtime :=
  .ofTables
    [([1, 3, 0, 0, 255], payloadHash),
      (executionQueueAccountsPreimage effectiveAccounts, accountsHash), (intentBytes, intentHash)]
    [(intentHash.bytes, secretKey, signer, signature)]
    [([Buffer.ofAscii "execution-queue-v5", group.bytes, [2, 0]], executionQueue)]

def request : SubmitIntentRequest where
  group := group.toBase58
  execution_queue := executionQueue.toBase58
  market := "2"
  payload := [1, 3, 0, 0, 255]
  remaining_accounts := accounts.map toRelayerAccountMeta
  min_execute_slot := some "0"
  expires_at_slot := some "0"
  user_owner := signer.toBase58
  mango_account := fermiAccount.toBase58
  user_signature := signature
  base_fee := none
  max_fee_lamports := some "AUTO"
  intent_version := some 2
  target_kind := some (.int 0)
  target_index := some (.int 2)
  client_order_id := some "77"
  trigger_order := none

end RecordedCancel

set_option maxRecDepth 8000 in
open RecordedCancel in
theorem signed_is_sent_recorded :
    ∃ m, relayedMessage runtime request = some m ∧
      request.user_signature = runtime.sign m.bytes context.user.secretKey :=
  (signed_is_sent runtime).2.2.1 context params 0 request rfl

end FermiSdk
