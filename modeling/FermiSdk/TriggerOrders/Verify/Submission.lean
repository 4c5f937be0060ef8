import FermiSdk.Gateway.Verify.Routes
import FermiSdk.Trading.Verify.Wire
import FermiSdk.TriggerOrders.Client
import FermiSdk.TriggerOrders.Verify.Contract

/-!
# A bracket reaches the keeper

The relayer takes the request of a leg as a message, the gateway takes it as JSON with its bytes in
base64. What the gateway reads of the body is the message that the relayer would get
(`readSubmitBody_submitFields`). So every leg that is prepared for a context can be signed with the
context's key, and reaches the keeper in the same form on both ways (`bracket_submitted`).
-/

namespace FermiSdk.TriggerOrders

open FermiSdk.Lib FermiSdk.Lib.Url FermiSdk.Intents FermiSdk.Gateway

/-! ## Reading a body -/

def readText : RequestJson → Option String
  | .string text => some text
  | _ => none

def readBool : RequestJson → Option Bool
  | .bool value => some value
  | _ => none

def readNumber : RequestJson → Option JsNumber
  | .number value => some value
  | _ => none

def readInt (json : RequestJson) : Option Int := (readNumber json).bind JsNumber.toInt?

def readBytes (json : RequestJson) : Option Bytes := (readText json).bind Base64.decode

def readArray {α : Type} (read : RequestJson → Option α) : RequestJson → Option (List α)
  | .array items => items.mapM read
  | _ => none

def readObject {α : Type} (read : List (String × RequestJson) → Option α) :
    RequestJson → Option α
  | .object fields => read fields
  | _ => none

/-- What may be left out. -/
def readOptional {α β : Type} (read : β → Option α) : Option β → Option (Option α)
  | none => some none
  | some value => (read value).map some

section

variable {α : Type} (fields : List (String × RequestJson)) (key : String)
  (read : RequestJson → Option α)

/-- A field that has to be there. -/
def required : Option α := (fields.lookup key).bind read

/-- A field that may be left out. -/
def optional : Option (Option α) := readOptional read (fields.lookup key)

end

def readAccount : RequestJson → Option RelayerAccountMeta := readObject fun fields => do
  pure {
    pubkey := ← required fields "pubkey" readText
    is_signer := ← required fields "is_signer" readBool
    is_writable := ← required fields "is_writable" readBool }

def readTermsWire : RequestJson → Option TriggerOrderTermsWire := readObject fun fields => do
  pure {
    version := ← required fields "version" readInt
    kind := ← required fields "kind" readNumber
    direction := ← required fields "direction" readNumber
    trigger_price_lots := ← required fields "trigger_price_lots" readText
    oco_group := ← required fields "oco_group" readText
    expiry_ts := ← required fields "expiry_ts" readText
    salt := ← required fields "salt" readText
    price_source := ← required fields "price_source" readInt
    flags := ← required fields "flags" readInt }

/-- The request that the body of a submit stands for. -/
def readSubmitBody : RequestJson → Option SubmitIntentRequest := readObject fun fields => do
  pure {
    group := ← required fields "group" readText
    execution_queue := ← required fields "execution_queue" readText
    market := ← required fields "market" readText
    payload := ← required fields "payload_b64" readBytes
    remaining_accounts := ← required fields "remaining_accounts" (readArray readAccount)
    min_execute_slot := ← optional fields "min_execute_slot" readText
    expires_at_slot := ← optional fields "expires_at_slot" readText
    user_owner := ← required fields "user_owner" readText
    mango_account := ← required fields "mango_account" readText
    user_signature := ← required fields "user_signature_b64" readBytes
    base_fee := ← optional fields "base_fee" readText
    max_fee_lamports := ← optional fields "max_fee_lamports" readText
    intent_version := ← optional fields "intent_version" readInt
    target_kind := ← optional fields "target_kind" readNumber
    target_index := ← optional fields "target_index" readNumber
    client_order_id := ← optional fields "client_order_id" readText
    trigger_order := ← optional fields "trigger_order" readTermsWire }

theorem lookup_entry {name key : String} {value : RequestJson}
    {fields : List (String × RequestJson)} :
    ((name, value) :: fields).lookup key = if key = name then some value else fields.lookup key := by
  by_cases h : key = name
  · subst h
    simp
  · simp [List.lookup_cons, beq_false_of_ne h, h]

@[simp] theorem lookup_jsonField {name key : String} {value : Option RequestJson} :
    (jsonField name value).lookup key = if key = name then value else none := by
  cases value with
  | none => simp [jsonField]
  | some value =>
    by_cases h : key = name
    · subst h
      simp [jsonField]
    · simp [jsonField, h, List.lookup_cons, beq_false_of_ne h]

theorem readAccount_accountJson (account : RelayerAccountMeta) :
    readAccount (accountJson account) = some account := rfl

theorem readTermsWire_termsJson (terms : TriggerOrderTermsWire) :
    readTermsWire (termsJson terms) = some terms := rfl

/-- An array of what the inverse of a reader writes is read. -/
theorem readArray_map {α : Type} {read : RequestJson → Option α} {write : α → RequestJson}
    (h : ∀ a, read (write a) = some a) (as : List α) :
    readArray read (.array (as.map write)) = some as := by
  show (as.map write).mapM read = some as
  induction as with
  | nil => rfl
  | cons a as ih =>
    rw [List.map_cons, List.mapM_cons, h, ih]
    rfl

theorem readBytes_encode (bytes : Bytes) :
    readBytes (.string (Base64.encode bytes)) = some bytes :=
  Base64.decode_encode bytes

/-- What is written by the inverse of a reader, or left out, is read. -/
theorem readOptional_map {α β : Type} {read : β → Option α} {write : α → β}
    (h : ∀ a, read (write a) = some a) (value : Option α) :
    readOptional read (value.map write) = some value := by
  cases value with
  | none => rfl
  | some a => exact congrArg (Option.map some) (h a)

/-- **The gateway reads the message that the relayer would get.** -/
theorem readSubmitBody_submitFields (request : SubmitIntentRequest) :
    readSubmitBody (.object (submitFields request)) = some request := by
  have htext := @readOptional_map _ _ readText .string fun _ => rfl
  have hnumber := @readOptional_map _ _ readNumber .number fun _ => rfl
  have hint := @readOptional_map _ _ readInt (fun n => .number (.int n)) fun _ => rfl
  have hterms := @readOptional_map _ _ readTermsWire termsJson readTermsWire_termsJson
  simp [readSubmitBody, readObject, required, optional, submitFields, lookup_entry,
    List.lookup_append, htext, hnumber, hint, hterms, readBytes_encode,
    readArray_map readAccount_accountJson, readText]

/-! ## Legs of a context -/

/-- A key pair of the runtime, which signs what it verifies. -/
structure Signs (rt : Runtime) (keypair : Keypair) : Prop where
  publicKey : publicKeyOf keypair.secretKey = .ok keypair.publicKey
  length : ∀ message, (rt.sign message keypair.secretKey).length = 64
  verify : ∀ message, rt.verify message (rt.sign message keypair.secretKey) keypair.publicKey

/-- The legs of a context are the context's. -/
structure OfContext (context : FermiV1Context) (params : SlTpParams) : Prop where
  group : params.group = context.group.publicKey
  fermiAccount : params.fermiAccount = context.fermiAccount.publicKey
  signer : params.signer = context.user.publicKey
  accounts : Context.buildCanonicalPerpRemainingAccounts context params.marketIndex =
    .ok params.remainingAccounts

section

variable {rt : Runtime} {context : FermiV1Context} {params : ContextSlTpParams}
  {draws : BracketDraws} {legs : List SlTpLeg} {mount : Mount} {gatewayUrl apiKey : String}
  {client : FermiV1StateClient}

/-- Every leg of a bracket is as the builder of one leg describes it. -/
theorem legSpec_of_buildWanted {params : SlTpParams} {ocoGroup : Int}
    {wanted : List (TriggerKind × Int × List UInt64)}
    (h : buildWanted rt params ocoGroup wanted = .ok (some legs)) :
    ∀ leg ∈ legs, ∃ kind price options limit, LegSpec rt params kind price options limit leg := by
  induction wanted generalizing legs with
  | nil =>
    cases h
    exact fun leg hleg => absurd hleg List.not_mem_nil
  | cons first wanted ih =>
    obtain ⟨kind, price, ds⟩ := first
    simp only [buildWanted, Throws.bind_eq_ok] at h
    obtain ⟨built, hbuilt, h⟩ := h
    cases built with
    | none => cases Throws.pure_eq_ok.1 h
    | some leg =>
      simp only [Throws.bind_eq_ok, Throws.pure_eq_ok, Option.map_eq_some_iff] at h
      obtain ⟨_, hrest, rest, rfl, rfl⟩ := h
      intro leg' hleg'
      rcases List.mem_cons.1 hleg' with rfl | hleg'
      · obtain ⟨bps, -, hspec⟩ := buildTriggerOrderLeg_spec hbuilt
        exact ⟨_, _, _, _, hspec⟩
      · exact ih hrest leg' hleg'

/-- A leg that was prepared is described, for the context it was prepared for. -/
theorem legSpec_of_prepared (h : prepareSlTpOrders rt context params draws = .ok (some legs)) :
    ∃ params', OfContext context params' ∧ ∀ leg ∈ legs, ∃ kind price options limit,
      LegSpec rt params' kind price options limit leg := by
  simp only [prepareSlTpOrders, Throws.bind_eq_ok] at h
  obtain ⟨executionQueue, -, accounts, haccounts, h⟩ := h
  simp only [buildSlTpLegs, Throws.bind_eq_ok, Throws.throwIf_eq_ok, exists_const] at h
  exact ⟨_, ⟨rfl, rfl, rfl, haccounts⟩, legSpec_of_buildWanted h.2⟩

/-- A client of a mounted gateway, and its key. -/
theorem client_of_create (hmount : Mounted mount gatewayUrl)
    (h : FermiV1StateClient.create gatewayUrl (some apiKey) = .ok client) :
    client = ⟨mount.url, apiKey⟩ := by
  rw [create_eq hmount, requireApiKey] at h
  cases hkey : UUID_RE apiKey with
  | false =>
    rw [Option.filter_some, if_neg (by rw [hkey]; exact Bool.false_ne_true)] at h
    cases h
  | true =>
    rw [Option.filter_some, if_pos hkey] at h
    cases h
    rfl

/-- **Every leg that is prepared for a context can be submitted with the context's key**, over either
way, and reaches the keeper in the same form. -/
theorem bracket_submitted (huser : Signs rt context.user) (hmount : Mounted mount gatewayUrl)
    (hclient : FermiV1StateClient.create gatewayUrl (some apiKey) = .ok client)
    (hlegs : prepareSlTpOrders rt context params draws = .ok (some legs)) (fee : String) :
    ∀ leg ∈ legs, ∃ signature request body fetch,
      signTriggerOrderLeg rt leg context.user.secretKey = .ok signature ∧
      submitTriggerOrderViaRelayer rt leg signature fee = .ok request ∧
      FermiV1TriggerClient.submitTriggerOrder rt client leg signature fee = .ok fetch ∧
      (posting ["relay", "submit-intent"] body).Sent mount apiKey fetch ∧
      readSubmitBody body = some request ∧ KeeperAccepts rt request ∧
      request.group = context.group.publicKey.toBase58 ∧
      request.mango_account = context.fermiAccount.publicKey.toBase58 ∧
      request.user_owner = context.user.publicKey.toBase58 := by
  obtain ⟨params', hcontext, hspecs⟩ := legSpec_of_prepared hlegs
  obtain rfl := client_of_create hmount hclient
  intro leg hleg
  obtain ⟨kind, price, options, limit, hspec⟩ := hspecs leg hleg
  have hparams : leg.params = params' := hspec.params_eq
  have hsigner : leg.params.signer = context.user.publicKey := by rw [hparams, hcontext.signer]
  let signature := rt.sign leg.intentHash context.user.secretKey
  have hsigned : signTriggerOrderLeg rt leg context.user.secretKey = .ok signature := by
    simp only [signTriggerOrderLeg, huser.publicKey, Throws.ok_bind, hsigner]
    rw [Throws.throwIf_of_not (fun h => h rfl)]
    rfl
  have hverify : SignedHash rt leg.intentHash signature params'.signer := by
    rw [hcontext.signer]
    exact .inl (huser.verify leg.intentHash)
  have hrequest := hspec.request fee (huser.length leg.intentHash) hverify
  let request := legRequest leg signature fee
  let body : RequestJson := .object (submitFields request)
  refine ⟨signature, request, body, FermiV1StateClient.request ⟨mount.url, apiKey⟩ .POST
    (utf8 "/relay/submit-intent") (some body), hsigned, ?relayer, ?client, ?sent,
    readSubmitBody_submitFields request, hspec.keeperAccepts signature fee, ?group, ?account, ?user⟩
  case relayer =>
    rw [submitTriggerOrderViaRelayer, hrequest]
    rfl
  case client =>
    rw [FermiV1TriggerClient.submitTriggerOrder, triggerOrderSubmitBody, hrequest]
    rfl
  case sent => exact @sent_request mount apiKey (posting ["relay", "submit-intent"] body) _ rfl
  case group => exact congrArg PublicKey.toBase58 (by rw [hparams, hcontext.group])
  case account => exact congrArg PublicKey.toBase58 (by rw [hparams, hcontext.fermiAccount])
  case user => exact congrArg PublicKey.toBase58 hsigner

end

/-! ## A recorded submission

A stop-loss leg of the recorded account and two cancellations, signed by the key with seed `7, 7, …`. -/

namespace RecordedSubmission

open RecordedCancel (context executionQueue accounts effectiveAccounts accountsHash)

def params : ContextSlTpParams where
  marketIndex := .int 2
  position := .long
  size := .all
  stopLossPriceLots := some 95000
  takeProfitPriceLots := none
  slippageBps := .int 0
  expiryTs := 1790000000
  oraclePriceLots := some 100000

def draws : BracketDraws where
  ocoGroup := 1
  stopLoss := [723685415333072913]
  takeProfit := []

def termsHash : Digest :=
  ⟨[213, 17, 61, 216, 220, 219, 151, 210, 153, 73, 133, 25, 185, 157, 103, 173, 124, 145, 141, 9, 145,
    138, 117, 97, 81, 2, 192, 196, 178, 29, 127, 76], rfl⟩

def payloadHash : Digest :=
  ⟨[22, 17, 91, 50, 6, 115, 44, 74, 237, 31, 115, 44, 76, 181, 56, 157, 230, 52, 127, 231, 109, 171,
    225, 12, 116, 54, 110, 192, 50, 169, 58, 149], rfl⟩

def intentHash : Digest :=
  ⟨[177, 150, 41, 198, 115, 242, 180, 244, 242, 213, 50, 105, 43, 145, 125, 223, 129, 238, 118, 226,
    250, 168, 97, 1, 191, 130, 29, 41, 39, 230, 174, 34], rfl⟩

def cancelHash : Digest :=
  ⟨[12, 164, 95, 235, 133, 5, 134, 20, 87, 36, 101, 231, 2, 231, 41, 39, 148, 135, 34, 77, 110, 53,
    149, 185, 212, 104, 137, 116, 58, 192, 92, 156], rfl⟩

def signature : Bytes :=
  [36, 161, 69, 225, 54, 24, 219, 210, 126, 46, 32, 72, 236, 187, 191, 231, 96, 135, 26, 89, 255, 243,
    41, 8, 9, 127, 228, 198, 237, 24, 182, 75, 1, 7, 185, 249, 220, 130, 81, 5, 10, 60, 26, 29, 60,
    106, 239, 211, 140, 8, 107, 54, 182, 138, 29, 110, 57, 109, 209, 225, 118, 43, 110, 15]

def cancelSignature : Bytes :=
  [127, 8, 63, 223, 89, 250, 236, 235, 15, 118, 65, 136, 238, 168, 12, 251, 20, 186, 65, 236, 105, 102,
    231, 246, 77, 95, 134, 105, 98, 5, 176, 84, 166, 70, 102, 185, 132, 126, 1, 157, 174, 68, 34, 195,
    5, 171, 162, 4, 164, 213, 198, 117, 161, 150, 140, 125, 119, 130, 193, 241, 197, 166, 176, 0]

def payload : Bytes :=
  [1, 0, 0, 0, 1] ++ leBytes 8 95000 ++ leBytes 8 (2 ^ 63 - 1) ++ leBytes 8 (2 ^ 63 - 1) ++
    leBytes 8 15174839211015344597 ++ [1, 0, 1] ++ leBytes 8 1790000000 ++ [10]

def termsBytes : Bytes :=
  Buffer.ofAscii "fermi-trigger-terms-v1" ++ Recorded.group.bytes ++ Recorded.fermiAccount.bytes ++
    [2, 0, 1, 0, 1, 0, 0] ++ leBytes 8 95000 ++ leBytes 8 0 ++ leBytes 8 1790000000 ++
    leBytes 8 723685415333072913

def intentBytes : Bytes :=
  Buffer.ofAscii "mango-v5-user-intent-v2" ++ Recorded.group.bytes ++ Recorded.fermiAccount.bytes ++
    Recorded.signer.bytes ++ [0, 0, 2, 0] ++ payloadHash.bytes ++ accountsHash.bytes ++
    List.replicate 16 0 ++ leBytes 8 15174839211015344597

def cancelBytes : Bytes :=
  Buffer.ofAscii "fermi-trigger-cancel-v1" ++ Recorded.group.bytes ++ Recorded.fermiAccount.bytes ++
    Recorded.signer.bytes ++ leBytes 8 1790000000000 ++ [0, 2, 0] ++ leBytes 8 0 ++ [2, 0] ++
    leBytes 8 15174839211015344597 ++ leBytes 8 7

/-- The signature of a message by the key, recorded for two messages. -/
def sign (message : Bytes) : Bytes :=
  if message = intentHash.bytes then signature
  else if message = cancelHash.bytes then cancelSignature
  else List.replicate 64 0

/-- SHA-256, the address of the queue, and the one key. -/
def runtime : Runtime :=
  { Runtime.ofTables
      [(termsBytes, termsHash), (payload, payloadHash),
        (executionQueueAccountsPreimage effectiveAccounts, accountsHash), (intentBytes, intentHash),
        (cancelBytes, cancelHash)] []
      [([Buffer.ofAscii "execution-queue-v5", Recorded.group.bytes, [2, 0]], executionQueue)] with
    sign := fun message _ => sign message
    verify := fun message signature key => key = Recorded.signer ∧ signature = sign message }

theorem signs : Signs runtime context.user where
  publicKey := rfl
  length message := by
    show (sign message).length = 64
    unfold sign
    split
    · rfl
    · split
      · rfl
      · exact List.length_replicate
  verify message := decide_eq_true ⟨rfl, rfl⟩

def leg : SlTpLeg where
  kind := .StopLoss
  terms := ⟨.StopLoss, .AtOrBelow, 95000, 0, 1790000000, 723685415333072913⟩
  clientOrderId := 15174839211015344597
  payload := payload
  intentHash := intentHash.bytes
  params := {
    group := Recorded.group
    executionQueue := executionQueue
    marketIndex := .int 2
    fermiAccount := Recorded.fermiAccount
    signer := Recorded.signer
    remainingAccounts := accounts
    position := .long
    size := .all
    stopLossPriceLots := some 95000
    takeProfitPriceLots := none
    slippageBps := .int 0
    expiryTs := 1790000000
    oraclePriceLots := some 100000 }

set_option maxRecDepth 8000 in
theorem prepared : prepareSlTpOrders runtime context params draws = .ok (some [leg]) := rfl

def client : FermiV1StateClient := ⟨RecordedCall.production.url, RecordedCall.apiKey⟩

theorem created :
    FermiV1StateClient.create RecordedCall.gatewayUrl (some RecordedCall.apiKey) = .ok client := rfl

end RecordedSubmission

open RecordedSubmission in
open RecordedCancel (context) in
/-- The recorded leg is submitted and accepted. -/
theorem bracket_submitted_recorded :
    ∃ signature request body fetch,
      signTriggerOrderLeg runtime leg context.user.secretKey = .ok signature ∧
      submitTriggerOrderViaRelayer runtime leg signature "AUTO" = .ok request ∧
      FermiV1TriggerClient.submitTriggerOrder runtime client leg signature "AUTO" = .ok fetch ∧
      (posting ["relay", "submit-intent"] body).Sent RecordedCall.production RecordedCall.apiKey
        fetch ∧
      readSubmitBody body = some request ∧ KeeperAccepts runtime request ∧
      request.group = context.group.publicKey.toBase58 ∧
      request.mango_account = context.fermiAccount.publicKey.toBase58 ∧
      request.user_owner = context.user.publicKey.toBase58 :=
  bracket_submitted signs RecordedCall.mounted created prepared "AUTO" leg (List.mem_singleton_self leg)

end FermiSdk.TriggerOrders
