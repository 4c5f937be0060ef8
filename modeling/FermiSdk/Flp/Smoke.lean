import FermiSdk.Flp.Client
import FermiSdk.JsString
import FermiSdk.Lib.Prog

/-!
# The mainnet smoke journal

`src/flp/mainnetSmoke.ts` and the command line of `src/bin/flp-mainnet-smoke.ts`. The receipt is a
journal of transactions: an invocation reads it, reconciles it with the chain, and may append and
send one more transaction.

An invocation is a program over the `World`: the receipt file, and, for the statements about it, the
transactions that were sent. What the files, the chain and the network do is part of the
`Invocation`. Each effect may stop the program, after which nothing of the process is left but the
file; a crash is a stop, at an effect or, between two effects, at the next one. The lock makes
invocations follow one another.

Of receipts and records the model has what the functions here read. Amounts are non-negative
integers; in events, `publicJson` has turned integers and keys into text.
-/

namespace FermiSdk.Smoke

open FermiSdk.Lib

/-- `MAINNET_SMOKE.vault`. -/
def MAINNET_SMOKE_VAULT : String := "8aHdjxJzec6CfBngSFZYQvqZsBtXWXG6j1C3rW799pbP"

/-- What the command can be asked for. Three of the actions send a transaction. -/
inductive SmokeAction where
  | preflight
  | status
  | deposit
  | requestWithdraw
  | claim
  deriving DecidableEq

/-- The states of a record: before it is signed, signed, of unknown outcome, and settled or failed.
-/
inductive SmokeStatus where
  | prepared
  | signed
  | unknown
  | confirmed
  | finalized
  | failed
  deriving DecidableEq

/-- The options of the command line that are checked. -/
structure SmokeOptions where
  action : SmokeAction
  transact : Bool
  owner : String
  amount : Option String
  cap : Option String
  minShares : Option String
  maxFeeLamports : Option String
  acknowledgeRisk : Bool

/-- An event of the program, as the receipt has it. -/
structure SmokeEvent where
  name : String
  data : List (String × String)
  deriving DecidableEq

/-- One transaction of the run. It has events only once it is settled. -/
structure SmokeRecord where
  action : SmokeAction
  status : SmokeStatus
  signature : Option String
  events : Option (List SmokeEvent)
  deriving DecidableEq

/-- The journal of a run: whose it is, and its transactions in order. -/
structure SmokeReceipt where
  owner : String
  records : List SmokeRecord
  deriving DecidableEq

/-! ## Options -/

/-- The number that decimal digits denote. -/
def parseDigits (text : List Char) : Option Nat :=
  text.foldl (fun n c => if c.isDigit then n.map (10 * · + (c.toNat - 48)) else none) (some 0)

/-- `BigInt(text)` of a decimal text. -/
def bigInt (text : Option String) : Throws Nat :=
  match text.bind fun text => parseDigits text.toList with
  | none => throw "Cannot convert to a BigInt"
  | some n => pure n

/-- Decimal digits without a zero in front, for a positive `u64`. -/
def nativeAmount (value : Option String) (name : String) : Throws Nat :=
  match (value.getD "").toList with
  | c :: rest =>
    match if c = '0' then none else parseDigits (c :: rest) with
    | none => throw s!"{name} must be a positive native integer"
    | some n => do
      throwIf (2 ^ 64 ≤ n) s!"{name} exceeds u64"
      pure n
  | [] => throw s!"{name} must be a positive native integer"

/-- The action sends nothing. -/
def SmokeAction.readOnly : SmokeAction → Bool
  | .preflight => true
  | .status => true
  | _ => false

/-- The checks of the amounts. -/
def validateAmounts (options : SmokeOptions) : Throws Unit :=
  match options.action with
  | .deposit => do
    let amount ← nativeAmount options.amount "amount"
    let cap ← nativeAmount options.cap "cap"
    throwIf (amount > cap) "Amount exceeds explicit cap"
    let _ ← nativeAmount options.minShares "min-shares"
  | .requestWithdraw => do
    let amount ← nativeAmount options.amount "amount"
    let cap ← nativeAmount options.cap "cap"
    throwIf (amount > cap) "Amount exceeds explicit cap"
  | _ => pure ()

/-- The checks of a transaction. -/
def validateTransact (options : SmokeOptions) : Throws Unit :=
  if options.transact then do
    throwIf options.action.readOnly "Read-only actions cannot transact"
    throwIf (!options.acknowledgeRisk) "Explicit risk acknowledgement required"
    let _ ← nativeAmount options.maxFeeLamports "max-fee-lamports"
  else pure ()

/-- All checks of the options, before anything is read or sent. -/
def validateSmokeOptions (options : SmokeOptions) : Throws Unit := do
  throwIf (PublicKey.ofBase58 options.owner).isNone "Invalid public key input"
  validateAmounts options
  validateTransact options

/-! ## Receipts -/

/-- The receipt of a run that has sent nothing. -/
def newReceipt (owner : String) : SmokeReceipt where
  owner := owner
  records := []

/-- The receipt is that of the owner. The identity of the deployment is fixed here. -/
def validateReceipt (receipt : SmokeReceipt) (owner : String) : Throws Unit :=
  throwIf (receipt.owner ≠ owner) "Receipt identity or deployment mismatch"

/-- `['confirmed', 'finalized'].includes(record.status)`. -/
def SmokeRecord.settled (record : SmokeRecord) : Bool :=
  record.status = .confirmed || record.status = .finalized

/-- No action is sent twice, and none while an earlier one is open. -/
def assertNoReplay (receipt : SmokeReceipt) (action : SmokeAction) : Throws Unit := do
  throwIf (receipt.records.any fun r => r.action = action)
    "Action already recorded; use status with the original receipt. No automatic replacement."
  throwIf (receipt.records.any fun r => !r.settled)
    "Earlier transaction unresolved or failed; reconcile original signature before any further action"

/-- The one event that the owner's settled transaction has left of this name. -/
def confirmedEvent (receipt : SmokeReceipt) (action : SmokeAction) (name : String) :
    Throws (List (String × String)) :=
  let record := receipt.records.find? fun r => r.action = action && r.settled
  let events := (record.bind (·.events)).map fun events => events.filter fun e =>
    e.name = name && e.data.lookup "vault" = some MAINNET_SMOKE_VAULT &&
      e.data.lookup "user" = some receipt.owner
  match events with
  | some [event] => pure event.data
  | _ => throw s!"Need confirmed {name} evidence from the original transaction; run status"

/-! ## Building an action -/

/-- A ticket for a close. An amount of zero is no ticket. -/
structure SmokeTicket where
  amount : Nat
  epoch : Nat
  requestId : Nat

/-- What is read of the owner's record. -/
structure SmokeDepositor where
  depositApproved : Bool
  dep : SmokeTicket
  wd : SmokeTicket

/-- What `smokePreflight` reads. -/
structure SmokePreflight where
  status : UInt8
  minDeposit : Nat
  minWithdrawShares : Nat
  depositor : Option SmokeDepositor
  quoteBalance : Nat
  shareBalance : Nat
  /-- `epochRecord.wdStatus`. -/
  epochRecord : Option UInt8

/-- The checks before a deposit. -/
def buildDeposit (options : SmokeOptions) (current : SmokePreflight) : Throws Unit :=
  match current.depositor with
  | none => throw "Wallet is not approved for permissioned deposits"
  | some depositor => do
    throwIf (!depositor.depositApproved) "Wallet is not approved for permissioned deposits"
    throwIf (current.status &&&
        (STATUS_DEPOSITS_PAUSED ||| STATUS_BREAKER ||| STATUS_UNWIND ||| STATUS_CLOSED) ≠ 0)
      "Approved deposits currently unavailable"
    throwIf (depositor.wd.amount ≠ 0 ∨ depositor.dep.amount ≠ 0)
      "Use a wallet without pending tickets for this smoke run"
    let amount ← nativeAmount options.amount "amount"
    throwIf (amount > current.quoteBalance ∨ amount < current.minDeposit)
      "Amount outside balance or vault minimum"
    let minimum ← nativeAmount options.minShares "min-shares"
    throwIf (current.shareBalance > 0 ∧ minimum < current.minWithdrawShares)
      ("With existing shares, min-shares must cover the withdrawal minimum for an isolated smoke " ++
        "exit")

/-- No more than the smoke deposit has minted may be withdrawn. -/
def buildRequestWithdraw (options : SmokeOptions) (receipt : SmokeReceipt)
    (current : SmokePreflight) : Throws Unit := do
  let deposit ← confirmedEvent receipt .deposit "FlpPermissionedDeposit"
  let shares ← nativeAmount options.amount "shares"
  let minted ← bigInt (deposit.lookup "shares")
  throwIf (shares > minted ∨ shares > current.shareBalance)
    "Withdrawal exceeds smoke minted shares or current balance"
  throwIf (current.depositor.all fun depositor => depositor.wd.amount ≠ 0)
    "An existing withdrawal ticket must not be merged"
  throwIf (current.status &&& (STATUS_WITHDRAWALS_PAUSED ||| STATUS_UNWIND ||| STATUS_CLOSED) ≠ 0)
    "Withdrawal queue currently unavailable"
  throwIf (shares < current.minWithdrawShares ∧ shares ≠ current.shareBalance)
    "Below withdrawal minimum"

/-- The ticket must be the one of the recorded request. -/
def buildClaim (receipt : SmokeReceipt) (current : SmokePreflight) : Throws Unit := do
  let request ← confirmedEvent receipt .requestWithdraw "FlpWithdrawRequested"
  throwIf (current.depositor.all fun depositor =>
      some (toString depositor.wd.epoch) ≠ request.lookup "epoch" ||
      some (toString depositor.wd.requestId) ≠ request.lookup "requestId" ||
      some (toString depositor.wd.amount) ≠ request.lookup "shares")
    "Current withdrawal ticket does not match the recorded request"
  throwIf (current.epochRecord ≠ some 1)
    "Withdrawal has not actually settled; wait for an independent keeper close/funding"

/-- The checks of `buildSmokeAction`; the instructions themselves are not modelled. -/
def buildSmokeAction (options : SmokeOptions) (receipt : SmokeReceipt)
    (current : SmokePreflight) : Throws Unit := do
  validateSmokeOptions options
  validateReceipt receipt options.owner
  assertNoReplay receipt options.action
  match options.action with
  | .deposit => buildDeposit options current
  | .requestWithdraw => buildRequestWithdraw options receipt current
  | .claim => buildClaim receipt current
  | _ => pure ()

/-! ## Reconciliation -/

/-- How far the chain has confirmed a transaction. -/
inductive ConfirmationStatus where
  | processed
  | confirmed
  | finalized

/-- What the chain says of a signature. -/
structure SignatureStatus where
  err : Bool
  confirmationStatus : Option ConfirmationStatus

/-- What is read of a transaction that is found. -/
structure TransactionMeta where
  err : Bool
  /-- The events in the log messages. -/
  events : Option (List SmokeEvent)

/-- What the chain answers about a record's signature. -/
structure RpcAnswer where
  status : Option SignatureStatus
  /-- The metadata of the transaction, if the transaction is found and has some. -/
  transaction : Option TransactionMeta

/-- The events of a transaction that has logs and no error. -/
def RpcAnswer.logged (answer : RpcAnswer) : Option (List SmokeEvent) :=
  answer.transaction.bind fun tx => if tx.err then none else tx.events

/-- A transaction that is only processed may still be dropped. -/
def ConfirmationStatus.settled : ConfirmationStatus → Option SmokeStatus
  | .processed => none
  | .confirmed => some .confirmed
  | .finalized => some .finalized

/-- A record without a signature was never sent. No answer, or no events, leaves the outcome
unknown. -/
def reconcileRecord (answer : RpcAnswer) (record : SmokeRecord) : SmokeRecord :=
  if record.signature.getD "" = "" then record
  else
    match answer.status with
    | none => { record with status := .unknown }
    | some status =>
      if status.err then { record with status := .failed }
      else
        match status.confirmationStatus.bind (·.settled), answer.logged with
        | some settled, some events => { record with status := settled, events := some events }
        | _, _ => { record with status := .unknown }

/-- The receipt with each record reconciled with the answer about it. -/
def reconcile (answers : Nat → RpcAnswer) (receipt : SmokeReceipt) : SmokeReceipt :=
  { receipt with
    records := receipt.records.mapIdx fun i record => reconcileRecord (answers i) record }

/-! ## Effects -/

/-- A transaction that was sent, with the receipt file at that moment and the receipt after the
latest reconciliation. -/
structure Sent where
  action : SmokeAction
  signature : String
  durable : Option SmokeReceipt
  reconciled : Option SmokeReceipt

/-- The receipt file, with what the statements need to remember. -/
structure World where
  /-- The receipt file. -/
  file : Option SmokeReceipt
  /-- The receipt after the latest reconciliation. -/
  reconciled : Option SmokeReceipt
  sent : List Sent

/-- Before the first invocation. -/
def World.start : World where
  file := none
  reconciled := none
  sent := []

/-- What a write of the receipt does: it succeeds, or stops the program with the new content in the
file or with the old one. -/
inductive SaveFate where
  | saved
  | stopped (written : Bool)

/-- What a submission does: the program stops before it, it returns a signature, or it throws. -/
inductive SendFate where
  | stopped
  | returned (signature : String)
  | threw

/-- The file is replaced as a whole: it is never half written. -/
def save (fate : SaveFate) (receipt : SmokeReceipt) : Prog World Unit := fun w =>
  match fate with
  | .saved => (.ok (), { w with file := some receipt })
  | .stopped true => (.error "stopped", { w with file := some receipt })
  | .stopped false => (.error "stopped", w)

/-- The signature that is returned, if one is. -/
def send (fate : SendFate) (action : SmokeAction) (signature : String) :
    Prog World (Option String) := fun w =>
  let sent := w.sent ++ [{ action, signature, durable := w.file, reconciled := w.reconciled }]
  match fate with
  | .stopped => (.error "stopped", w)
  | .returned returned => (.ok (some returned), { w with sent })
  | .threw => (.ok none, { w with sent })

/-- Reconciliation with the answers of the chain, if they all arrive. -/
def reconcileReceipt (answers : Option (Nat → RpcAnswer)) (receipt : SmokeReceipt) :
    Prog World SmokeReceipt := fun w =>
  match answers with
  | none => (.error "stopped", w)
  | some answers =>
    (.ok (reconcile answers receipt), { w with reconciled := some (reconcile answers receipt) })

/-- A value that comes from outside, if it comes. -/
def await {α : Type} (value : Option α) : Throws α :=
  match value with
  | none => throw "stopped"
  | some a => pure a

/-! ## The command -/

/-- `alphabet` of `base58`. -/
def alphabet : JsString :=
  JsString.ofString "123456789ABCDEFGHJKLMNPQRSTUVWXYZabcdefghijkmnopqrstuvwxyz"

/-- The text of a signature. Of no bytes, `BigInt('0x')` throws. -/
def base58 (bytes : Bytes) : Throws JsString := do
  throwIf (bytes = []) "Cannot convert 0x to a BigInt"
  let n := Numeral.value 256 (bytes.map UInt8.toNat)
  let out := (Numeral.digits 58 n).map fun d => alphabet.getD d 0
  let zeros := bytes.takeWhile fun byte => byte = 0
  pure (List.replicate zeros.length (codeUnit '1') ++ out)

/-- What a submission meets at each of its steps. -/
structure SmokeOperations where
  persistPrepared : SaveFate
  sign : Option String
  persistSigned : SaveFate
  send : SendFate
  persistSent : SaveFate

/-- The receipt with one more record. -/
def SmokeReceipt.push (receipt : SmokeReceipt) (record : SmokeRecord) : SmokeReceipt :=
  { receipt with records := receipt.records ++ [record] }

/-- The receipt after the submission. The record is the same object all along; each state of it is
the last record of the receipt. -/
def submitSmokeOnce (receipt : SmokeReceipt) (record : SmokeRecord)
    (operations : SmokeOperations) : Prog World SmokeReceipt := do
  Prog.lift (assertNoReplay receipt record.action)
  save operations.persistPrepared (receipt.push record)
  let signature ← Prog.lift (await operations.sign)
  let signed := { record with signature := some signature, status := .signed }
  save operations.persistSigned (receipt.push signed)
  let returned ← send operations.send record.action signature
  let sent := receipt.push { signed with status := .unknown }
  save operations.persistSent sent
  Prog.lift (throwIf (returned ≠ some signature)
    ("Submission outcome is uncertain. Run status with this receipt; do not replace the " ++
      "transaction."))
  pure sent

/-- One invocation of the command, with all that it meets. -/
structure Invocation where
  options : SmokeOptions
  /-- Whether the other flags pass their checks. -/
  flags : Bool
  preflight : Option SmokePreflight
  answers : Option (Nat → RpcAnswer)
  saveReconciled : SaveFate
  /-- Whether the transaction can be assembled, is paid for and passes its simulation. -/
  simulated : Bool
  /-- Whether the debit is within its cap and the keypair is the owner's. -/
  authorised : Bool
  operations : SmokeOperations
  laterAnswers : Option (Nat → RpcAnswer)
  saveSent : SaveFate

/-- The transaction of an invocation, once everything is checked. -/
def Invocation.transact (inv : Invocation) (receipt : SmokeReceipt) : Prog World Unit := do
  Prog.lift (throwIf (!inv.authorised) "stopped")
  let record : SmokeRecord := {
    action := inv.options.action
    status := .prepared
    signature := none
    events := none }
  let receipt ← submitSmokeOnce receipt record inv.operations
  let receipt ← reconcileReceipt inv.laterAnswers receipt
  save inv.saveSent receipt

/-- The action of an invocation on a reconciled receipt. -/
def Invocation.act (inv : Invocation) (receipt : SmokeReceipt) (current : SmokePreflight) :
    Prog World Unit := do
  Prog.lift (buildSmokeAction inv.options receipt current)
  Prog.lift (throwIf (!inv.simulated) "stopped")
  if inv.options.transact then inv.transact receipt else pure ()

/-- The receipt that an invocation starts from. -/
def World.receipt (w : World) (owner : String) : SmokeReceipt := w.file.getD (newReceipt owner)

/-- One invocation: the options are checked before the network is asked for anything. -/
def main (inv : Invocation) : Prog World Unit := do
  Prog.lift (throwIf (inv.options.owner = "") "--owner is required (public key only)")
  Prog.lift (validateSmokeOptions inv.options)
  Prog.lift (throwIf (!inv.flags) "stopped")
  let world ← Prog.get
  let receipt := world.receipt inv.options.owner
  Prog.lift (validateReceipt receipt inv.options.owner)
  let current ← Prog.lift (await inv.preflight)
  let receipt ← reconcileReceipt inv.answers receipt
  save inv.saveReconciled receipt
  if inv.options.action.readOnly then pure () else inv.act receipt current

end FermiSdk.Smoke
