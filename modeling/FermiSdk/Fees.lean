import FermiSdk.Lib.Json
import FermiSdk.Solana
import FermiSdk.Streams

/-!
# Fee deposits

`src/fees.ts`: the instructions of a deposit, the fee client, and `depositFeeCredit`, which pays a
deposit on chain and reports it to the relayer.

A deposit is a program over the `World`: the requests that were sent, and for the statements about
it, the transfer that was confirmed and whether the relayer accepted the report. What the calls come
to is the `Network`: each may fail, the transfer and the report also after they took effect.

JSON is what a request is sent as and what `json()` of a response returns; of a status the model has
the deposit address, which is all that is read of it.
-/

namespace FermiSdk.Fees

open FermiSdk.Lib
open FermiSdk.Streams (RateLimitInfo)

/-- `MemoSq4gqABAXKb96qnH8TysNcWxMyWCqXgDLGmfcHr`. -/
def MEMO_PROGRAM_ID : PublicKey :=
  ⟨[5, 74, 83, 90, 153, 41, 33, 6, 77, 36, 232, 113, 96, 218, 56, 124,
    124, 53, 181, 221, 188, 146, 187, 129, 228, 31, 168, 64, 65, 5, 68, 141], rfl⟩

/-- `PublicKey | string`. -/
inductive KeyLike where
  | key (value : PublicKey)
  | text (value : String)
  deriving DecidableEq

namespace KeyLike

/-- Whether a key or text counts as true in a condition. -/
def truthy : KeyLike → Bool
  | .key _ => true
  | .text value => value ≠ ""

/-- `typeof value === 'string' ? new PublicKey(value) : value`. -/
def toPublicKey : KeyLike → Throws PublicKey
  | .key value => pure value
  | .text value =>
    match PublicKey.ofBase58 value with
    | some pubkey => pure pubkey
    | none => throw "Invalid public key input"

end KeyLike

/-- A text is not checked to be a key. -/
def pubkeyStr : KeyLike → String
  | .key value => value.toBase58
  | .text value => value

/-! ## Amounts -/

/-- `Number(value)` of a bigint: the nearest double, or an infinity if there is none. -/
def numberOfBigInt (value : Int) : JsNumber :=
  let magnitude := nearestDouble value.natAbs
  if 2 ^ 1024 ≤ magnitude then .infinity (value < 0) else .int (value.sign * magnitude)

/-- `typeof value === 'bigint' ? Number(value) : value`. -/
def toNumber : BigNumberish → JsNumber
  | .bigint value => numberOfBigInt value
  | .number value => value

/-- `Number.isFinite(x) && !(x <= 0)`. -/
def isFinitePositive : JsNumber → Bool
  | .int value => 0 < value
  | .frac value _ => 0 < value
  | _ => false

/-! ## Instructions -/

/-- The memo says whom the deposit is for. The relayer reads it with the transfer. -/
def buildFeeDepositMemo (userOwner fermiAccount : KeyLike) : String :=
  s!"fee_credit:v1:{pubkeyStr userOwner}:{pubkeyStr fermiAccount}"

/-- `Buffer.from(text, 'utf-8')`. -/
def ofUtf8 (text : String) : Bytes := text.toList.flatMap String.utf8EncodeChar

/-- A memo needs no account. -/
def memoInstruction (memo : String) : TransactionInstruction where
  programId := MEMO_PROGRAM_ID
  keys := []
  data := ofUtf8 memo

/-- `SystemProgram.transfer` of web3.js. -/
abbrev Transfer :=
  (fromPubkey toPubkey : PublicKey) → (lamports : JsNumber) → Throws TransactionInstruction

/-- The payer need not be the owner whose account is credited. -/
structure BuildFeeDepositInstructionsInput where
  payer : PublicKey
  userOwner : KeyLike
  fermiAccount : KeyLike
  depositAddress : KeyLike
  lamports : BigNumberish

/-- The relayer is told which of the instructions is the transfer. -/
structure FeeDepositInstructions where
  instructions : List TransactionInstruction
  memo : String
  transferInstructionIndex : Nat
  deriving DecidableEq

/-- The memo first, then the transfer. -/
def buildFeeDepositInstructions (transfer : Transfer) (input : BuildFeeDepositInstructionsInput) :
    Throws FeeDepositInstructions := do
  let lamports := toNumber input.lamports
  throwIf (!isFinitePositive lamports)
    s!"fee deposit lamports must be a positive number (got {lamports})"
  let depositAddress ← input.depositAddress.toPublicKey
  let memo := buildFeeDepositMemo input.userOwner input.fermiAccount
  let payment ← transfer input.payer depositAddress lamports
  pure { instructions := [memoInstruction memo, payment], memo, transferInstructionIndex := 1 }

/-! ## Calls -/

/-- What a promise of the platform or of web3.js rejects with, by the texts that it carries (its
message, its properties, its cause). -/
structure Rejection where
  texts : List String
  deriving DecidableEq

/-- What the caller of the SDK catches. -/
inductive Thrown where
  | error (message : String)
  | rateLimited (message : String) (info : RateLimitInfo) (body : String)
  | rejected (rejection : Rejection)

/-- The texts that a caught value carries. -/
def Thrown.texts : Thrown → List String
  | .error message => [message]
  | .rateLimited message _ body => [message, body]
  | .rejected rejection => rejection.texts

/-- What the fee client reads of a response; its status is an `unsigned short`. -/
structure Response (α : Type) where
  status : UInt16
  rateLimit : RateLimitInfo
  text : Except Rejection String
  json : Except Rejection α

/-- `ok` of a response. -/
def Response.ok {α : Type} (response : Response α) : Bool :=
  200 ≤ response.status && response.status ≤ 299

/-- `await` of a promise. -/
def await {α : Type} (promise : Except Rejection α) : Except Thrown α :=
  promise.mapError .rejected

/-- A refusal for the rate is thrown as an error of its own, with the body. -/
def checkRateLimit {α : Type} (response : Response α) (label : String) : Except Thrown Unit :=
  if response.status ≠ 429 then pure ()
  else do
    let body ← await response.text
    throw (.rateLimited s!"gateway rate limit hit on {label}" response.rateLimit body)

/-- What both methods of the client make of a call of `fetch`. -/
def readReply {α : Type} (label what : String) (fetched : Except Rejection (Response α)) :
    Except Thrown α := do
  let response ← await fetched
  checkRateLimit response label
  if response.ok then await response.json
  else do
    let text ← await response.text
    throw (.error s!"{what} failed: HTTP {response.status} {text}")

/-- A transaction signature: 64 bytes, shown in base58. -/
structure TransactionSignature where
  bytes : Bytes
  size : bytes.length = 64
  deriving DecidableEq

/-- The text under which a signature is reported. -/
def TransactionSignature.text (signature : TransactionSignature) : String :=
  Base58.encode signature.bytes

/-- What is read of a status. -/
structure FeeStatus where
  /-- `deposit.deposit_address`. -/
  deposit_address : String

/-- A fee deposit report's answer, `FeeDepositReportResponse`. -/
abbrev ReportReply := Json JsNumber String

/-- What `sendAndConfirmTransaction` comes to. It returns the signature of a confirmed transaction;
when it rejects, the transaction may be confirmed nonetheless. -/
inductive Sent where
  | returned (signature : TransactionSignature)
  | rejected (rejection : Rejection) (confirmed : Option TransactionSignature)

/-- What the calls of a deposit come to. -/
structure Network where
  status : Except Rejection (Response FeeStatus)
  sent : Sent
  report : Except Rejection (Response ReportReply)
  /-- Whether the relayer accepts the report, whatever becomes of its answer. -/
  accepts : Bool
  /-- `Date.now()` at the report. -/
  now : Int

/-! ## Requests -/

/-- A `GET`, with the parameters of its query in order. -/
structure StatusRequest where
  url : String
  params : List (String × String)
  headers : List (String × String)
  deriving DecidableEq

/-- `number | string`, or the bigint that `reportDeposit` also takes. -/
inductive ReportAmount where
  | number (value : JsNumber)
  | text (value : String)
  | bigint (value : Int)
  deriving DecidableEq

/-- `FeeDepositReportRequest`. -/
structure FeeDepositReport where
  source_chain : String
  source_tx_signature : String
  instruction_index : Nat
  user_owner : String
  mango_account : String
  amount_lamports : ReportAmount
  deposit_address : String
  memo : String
  observed_at_ms : Option Int
  deriving DecidableEq

/-- A `POST` with its JSON body. -/
structure ReportRequest where
  url : String
  headers : List (String × String)
  body : FeeDepositReport
  deriving DecidableEq

/-- What a deposit leaves behind. -/
structure World where
  statusRequests : List StatusRequest
  /-- The instructions and signers of the transactions that were sent. -/
  transactions : List (List TransactionInstruction × List Keypair)
  reports : List ReportRequest
  /-- The transfer that was confirmed. -/
  confirmed : Option TransactionSignature
  /-- Whether the relayer accepted the report. -/
  accepted : Bool

/-- Before the deposit. -/
def World.before : World where
  statusRequests := []
  transactions := []
  reports := []
  confirmed := none
  accepted := false

/-- A function of the SDK that calls the network. What it did before it threw is done. -/
abbrev Calls := ExceptT Thrown (StateM World)

/-- A computation without calls. -/
def settled {α : Type} (result : Except Thrown α) : Calls α := ExceptT.mk (pure result)

/-! ## The fee client -/

/-- A client of one relayer. The constructor has checked the key. -/
structure FermiV1FeeClient where
  baseUrl : String
  apiKey : String

/-- The owner and the account are required. -/
structure FeeStatusQuery where
  userOwner : KeyLike
  fermiAccount : KeyLike
  market : Option JsNumber
  group : Option KeyLike
  executionQueue : Option KeyLike

/-- A parameter that is left out when its value does not count as true. -/
def optionalParam (name : String) (value : Option KeyLike) : List (String × String) :=
  match value with
  | some key => if key.truthy then [(name, pubkeyStr key)] else []
  | none => []

/-- The account is still named `mango_account`. -/
def FeeStatusQuery.params (query : FeeStatusQuery) : List (String × String) :=
  [("user_owner", pubkeyStr query.userOwner), ("mango_account", pubkeyStr query.fermiAccount)] ++
    (query.market.map fun market => ("market", toString market)).toList ++
    optionalParam "group" query.group ++ optionalParam "execution_queue" query.executionQueue

namespace FermiV1FeeClient

variable (net : Network) (client : FermiV1FeeClient)

/-- A path without a slash gets one. -/
def url (path : String) : String :=
  client.baseUrl ++ if path.startsWith "/" then path else "/" ++ path

/-- The request is recorded before its outcome is known. -/
def getStatus (query : FeeStatusQuery) : Calls FeeStatus := do
  modify fun world => { world with
    statusRequests := world.statusRequests ++ [{
      url := client.url "/relayer/fees/status"
      params := query.params
      headers := [("x-api-key", client.apiKey)] }] }
  settled (readReply "GET /relayer/fees/status" "relayer/fees/status" net.status)

/-- `amount_lamports` as it is sent. -/
def amountOnWire : ReportAmount → ReportAmount
  | .bigint value => .text (toString value)
  | amount => amount

/-- The relayer may accept a report whose answer is lost. -/
def reportDeposit (request : FeeDepositReport) (adminToken : Option String) :
    Calls ReportReply := do
  let authorization := (adminToken.filter (· ≠ "")).map fun token => ("Authorization", token)
  modify fun world => { world with
    reports := world.reports ++ [{
      url := client.url "/relayer/fees-deposited"
      headers := [("Content-Type", "application/json"), ("x-api-key", client.apiKey)] ++
        authorization.toList
      body := { request with amount_lamports := amountOnWire request.amount_lamports } }]
    accepted := net.accepts }
  settled (readReply "POST /relayer/fees-deposited" "relayer/fees-deposited" net.report)

end FermiV1FeeClient

/-! ## The deposit -/

/-- The payer signs; the owner only has to be named. -/
structure DepositFeeCreditInput where
  payer : Keypair
  userOwner : KeyLike
  fermiAccount : KeyLike
  lamports : BigNumberish
  depositAddress : Option KeyLike
  feeClient : FermiV1FeeClient
  sourceChain : Option String
  adminToken : Option String
  additionalSigners : Option (List Keypair)

/-- The transaction is recorded with those who sign it. -/
def sendAndConfirmTransaction (net : Network) (instructions : List TransactionInstruction)
    (signers : List Keypair) : Calls TransactionSignature := do
  modify fun world => { world with
    transactions := world.transactions ++ [(instructions, signers)]
    confirmed := match net.sent with
      | .returned signature => some signature
      | .rejected _ confirmed => confirmed }
  match net.sent with
  | .returned signature => pure signature
  | .rejected rejection _ => throw (.rejected rejection)

/-- The address of the input, or that of the relayer's status. -/
def depositAddressOf (net : Network) (input : DepositFeeCreditInput) : Calls KeyLike :=
  match input.depositAddress.filter KeyLike.truthy with
  | some depositAddress => pure depositAddress
  | none => do
    let status ← input.feeClient.getStatus net {
      userOwner := input.userOwner
      fermiAccount := input.fermiAccount
      market := none
      group := none
      executionQueue := none }
    pure (.text status.deposit_address)

/-- What `depositFeeCredit` passes to the builder. -/
def DepositFeeCreditInput.toBuild (input : DepositFeeCreditInput) (depositAddress : KeyLike) :
    BuildFeeDepositInstructionsInput where
  payer := input.payer.publicKey
  userOwner := input.userOwner
  fermiAccount := input.fermiAccount
  depositAddress := depositAddress
  lamports := input.lamports

/-- Nothing is kept between the transfer and the report: if the report throws, the signature is
lost. -/
def depositFeeCredit (transfer : Transfer) (net : Network) (input : DepositFeeCreditInput) :
    Calls ReportReply := do
  let depositAddress ← depositAddressOf net input
  let built ← settled ((buildFeeDepositInstructions transfer (input.toBuild depositAddress)).mapError
    .error)
  let signers := input.payer :: input.additionalSigners.getD []
  let signature ← sendAndConfirmTransaction net built.instructions signers
  input.feeClient.reportDeposit net {
    source_chain := input.sourceChain.getD "solana-devnet"
    source_tx_signature := signature.text
    instruction_index := built.transferInstructionIndex
    user_owner := pubkeyStr input.userOwner
    mango_account := pubkeyStr input.fermiAccount
    amount_lamports := .number (toNumber input.lamports)
    deposit_address := pubkeyStr depositAddress
    memo := built.memo
    observed_at_ms := some net.now } input.adminToken

end FermiSdk.Fees
