import FermiSdk.Flp.Vault

/-!
# Builders

The functions of `FlpClient` and `FlpV4Client` that build the instructions of users, of the admin and
of operators, except `closeEpoch`. Amounts and epochs are `BN | bigint` in the source, integers here;
a `number` stays a double.
-/

namespace FermiSdk

open FermiSdk.Lib

/-! ## Token accounts -/

/-- `TokenkegQfeZyiNwAJbNbGKPFXCWuBvf9Ss623VQ5DA`. -/
def TOKEN_PROGRAM_ID : PublicKey :=
  ⟨[6, 221, 246, 225, 215, 101, 161, 147, 217, 203, 225, 70, 206, 235, 121, 172,
    28, 180, 133, 237, 95, 91, 55, 145, 58, 140, 245, 133, 126, 255, 0, 169], rfl⟩

/-- `ATokenGPvbdGVxr1b2hvZbsiqW5xWH25efTNsLJA8knL`. -/
def ASSOCIATED_TOKEN_PROGRAM_ID : PublicKey :=
  ⟨[140, 151, 37, 143, 78, 36, 137, 241, 187, 61, 16, 41, 20, 142, 13, 131,
    11, 90, 19, 153, 218, 255, 16, 132, 4, 142, 123, 216, 219, 233, 248, 89], rfl⟩

/-- `SysvarRent111111111111111111111111111111111`. -/
def SYSVAR_RENT_PUBKEY : PublicKey :=
  ⟨[6, 167, 213, 23, 25, 44, 92, 81, 33, 140, 201, 76, 61, 74, 241, 127,
    88, 218, 238, 8, 155, 161, 253, 68, 227, 219, 217, 138, 0, 0, 0, 0], rfl⟩

/-- The functions of `@solana/spl-token` that the builders call. -/
structure SplToken where
  /-- `getAssociatedTokenAddressSync(mint, owner, true, programId)`. -/
  getAssociatedTokenAddressSync : (mint owner programId : PublicKey) → Throws PublicKey
  /-- `createAssociatedTokenAccountIdempotentInstruction`. -/
  createAssociatedTokenAccountIdempotentInstruction :
    (payer associatedToken owner mint programId : PublicKey) → TransactionInstruction

/-- The functions that derive an address from the owner, the token program and the mint, and that
lay out the instruction of the associated token program. -/
def SplToken.ofRuntime (rt : Runtime) : SplToken where
  getAssociatedTokenAddressSync mint owner programId :=
    rt.findProgramAddressSync [owner.bytes, programId.bytes, mint.bytes] ASSOCIATED_TOKEN_PROGRAM_ID
  createAssociatedTokenAccountIdempotentInstruction payer associatedToken owner mint programId := {
    programId := ASSOCIATED_TOKEN_PROGRAM_ID
    keys := [⟨payer, true, true⟩, ⟨associatedToken, false, true⟩, ⟨owner, false, false⟩,
      ⟨mint, false, false⟩, ⟨PublicKey.default, false, false⟩, ⟨programId, false, false⟩]
    data := [1] }

/-! ## Records -/

/-- The epoch closed with its deposits held, in an unwind or because the core refused the deposit: they
bought no shares and are refunded only. -/
def depositsHeld (record : EpochAccount) : Bool := record.depDen = 0 && record.depGross ≠ 0

/-- An active perp market with its two order books, as a recovery closes positions on it. -/
structure RecoveryMarket where
  market : PublicKey
  bids : PublicKey
  asks : PublicKey
  deriving DecidableEq

/-- One triple of writable accounts for each market, in the order of the positions. -/
def recoveryMarketMetas (markets : List RecoveryMarket) : List AccountMeta :=
  markets.flatMap fun m => [m.market, m.bids, m.asks].map fun pubkey => ⟨pubkey, false, true⟩

/-! ## `FlpClient` -/

/-- `unsigned(value, 8)` and `new BN(value.toString())`. -/
def unsignedAmount (value : Int) : Throws IdlValue := do
  let _ ← unsigned (.bigint value) 8
  pure (.bn value)

/-- `uint(value, 64)`. -/
def uintAmount (value : Int) : Throws IdlValue := do
  pure (.bn (← uint (.bigint value) 64))

/-- A flag of `STATUS` is on. -/
def hasFlag (status flags : UInt8) : Bool := status &&& flags ≠ 0

/-- The accounts of a user. -/
def userAccounts (rt : Runtime) (spl : SplToken) (programId vault : PublicKey) (state : VaultState)
    (user : PublicKey) : Throws NamedAccounts := do
  pure (.of [
    ("vault", vault),
    ("depositor", ← deriveDepositor rt programId vault user),
    ("authority", ← deriveAuthority rt programId vault),
    ("user", user),
    ("userQuoteAccount",
      ← spl.getAssociatedTokenAddressSync state.quoteMint user TOKEN_PROGRAM_ID),
    ("userShareAccount",
      ← spl.getAssociatedTokenAddressSync state.shareMint user TOKEN_2022_PROGRAM_ID),
    ("shareMint", state.shareMint),
    ("depositEscrow", state.depositEscrow),
    ("redemptionEscrow", state.redemptionEscrow),
    ("tokenProgram", TOKEN_PROGRAM_ID),
    ("token2022Program", TOKEN_2022_PROGRAM_ID),
    ("systemProgram", PublicKey.default)])

namespace FlpClient

variable (rt : Runtime) (spl : SplToken) (client : FlpClient)

/-- The user's share account, with the instruction that makes sure that it exists. -/
def shareAtaInstructions (state : VaultState) (user payer : PublicKey) :
    Throws (PublicKey × TransactionInstruction) := do
  let address ← spl.getAssociatedTokenAddressSync state.shareMint user TOKEN_2022_PROGRAM_ID
  pure (address, spl.createAssociatedTokenAccountIdempotentInstruction payer address user
    state.shareMint TOKEN_2022_PROGRAM_ID)

/-- Anyone may create a wallet's record. Approval for deposits stays off. -/
def initDepositor (vault user payer : PublicKey) : Throws TransactionInstruction := do
  client.instruction "initDepositor" (.of [
    ("vault", vault),
    ("user", user),
    ("depositor", ← deriveDepositor rt client.programId vault user),
    ("payer", payer),
    ("systemProgram", PublicKey.default)]) .empty []

/-! ### Users -/

section

variable (vault : PublicKey) (state : VaultState) (user : PublicKey)

/-- A ticket for the next close. Only a live vault takes it; there are other deposits in other
phases. -/
def requestDeposit (amount : Int) : Throws TransactionInstruction := do
  throwIf (vaultMode state.status ≠ .live) "Use phase-aware deposit instructions"
  let amount ← unsignedAmount amount
  client.instruction "requestDeposit" (.of [
    ("vault", vault),
    ("depositor", ← deriveDepositor rt client.programId vault user),
    ("user", user),
    ("userQuoteAccount",
      ← spl.getAssociatedTokenAddressSync state.quoteMint user TOKEN_PROGRAM_ID),
    ("depositEscrow", state.depositEscrow),
    ("tokenProgram", TOKEN_PROGRAM_ID),
    ("systemProgram", PublicKey.default)]) (.of [("amount", amount)]) []

/-- A ticket for the next close, paid with shares. A recovery has to end first. -/
def requestWithdraw (shares : Int) : Throws TransactionInstruction := do
  throwIf (hasFlag state.status STATUS_UNWIND) "Trading withdrawals wait until recovery completes"
  let shares ← unsignedAmount shares
  client.instruction "requestWithdraw" (.of [
    ("vault", vault),
    ("depositor", ← deriveDepositor rt client.programId vault user),
    ("user", user),
    ("shareMint", state.shareMint),
    ("userShareAccount",
      ← spl.getAssociatedTokenAddressSync state.shareMint user TOKEN_2022_PROGRAM_ID),
    ("token2022Program", TOKEN_2022_PROGRAM_ID)]) (.of [("shares", shares)]) []

/-- Takes back a ticket whose epoch has not closed. -/
def cancelDeposit : Throws TransactionInstruction := do
  client.instruction "cancelDeposit"
    (← userAccounts rt spl client.programId vault state user) .empty []

/-- The same for a withdrawal. -/
def cancelWithdraw : Throws TransactionInstruction := do
  client.instruction "cancelWithdraw"
    (← userAccounts rt spl client.programId vault state user) .empty []

/-- The shares of a ticket, once its epoch has closed at a price. -/
def claimDeposit (epoch : Int) : Throws TransactionInstruction := do
  let accounts ← userAccounts rt spl client.programId vault state user
  client.instruction "claimDeposit"
    (accounts.set [("epochRecord", ← deriveEpoch rt client.programId vault (.bigint epoch))])
    .empty []

/-- The quote of a ticket, once its epoch has been funded. -/
def claimWithdrawal (epoch : Int) : Throws TransactionInstruction := do
  let accounts ← userAccounts rt spl client.programId vault state user
  client.instruction "claimWithdrawal"
    (accounts.set [("epochRecord", ← deriveEpoch rt client.programId vault (.bigint epoch))])
    .empty []

/-- With `heldEpoch` where the epoch of the ticket closed and held its deposits (`depositsHeld`). -/
def refundPendingDeposit (heldEpoch : Option Int) : Throws TransactionInstruction := do
  let accounts ← userAccounts rt spl client.programId vault state user
  let accounts ← match heldEpoch with
    | none => pure accounts
    | some epoch => do
      pure (accounts.set [("epochRecord", ← deriveEpoch rt client.programId vault (.bigint epoch))])
  client.instruction "refundPendingDeposit" accounts .empty []

/-- What settles a ticket of the epoch: its shares, or its refund where the deposits were held. -/
def settleDepositInstruction (record : EpochAccount) : Throws TransactionInstruction :=
  if depositsHeld record then
    client.refundPendingDeposit rt spl vault state user (some record.epoch.toNat)
  else client.claimDeposit rt spl vault state user record.epoch.toNat

/-- Principal before graduation. No check of the phase: `depositInstructions` makes it. -/
def preDeposit (amount : Int) : Throws TransactionInstruction := do
  let amount ← unsignedAmount amount
  client.instruction "preDepositV3" (← userAccounts rt spl client.programId vault state user)
    (.of [("amount", amount)]) []

/-- The principal back. -/
def preWithdraw (amount : Int) : Throws TransactionInstruction := do
  let amount ← unsignedAmount amount
  client.instruction "preWithdrawV3" (← userAccounts rt spl client.programId vault state user)
    (.of [("amount", amount)]) []

/-- Shares of a closed vault, redeemed without an epoch. -/
def terminalRedeem (shares : Int) : Throws TransactionInstruction := do
  let shares ← unsignedAmount shares
  client.instruction "terminalRedeem" (← userAccounts rt spl client.programId vault state user)
    (.of [("shares", shares)]) []

/-- The shares for principal, after graduation. Nobody has to sign for it. -/
def claimPreDeposit : Throws TransactionInstruction := do
  client.instruction "claimPreDeposit"
    (← userAccounts rt spl client.programId vault state user) .empty []

/-- The deposit that the phase of the vault takes. -/
def depositInstructions (amount : Int) : Throws (List TransactionInstruction) := do
  let mode := vaultMode state.status
  throwIf (hasFlag state.status
      (STATUS_DEPOSITS_PAUSED ||| STATUS_PUBLIC_DEPOSITS_PAUSED ||| STATUS_BREAKER |||
        STATUS_UNWIND) ∨ mode = .unwind ∨ mode = .closed) "Deposits are unavailable"
  if mode = .preDeposit then do
    pure [← client.preDeposit rt spl vault state user amount]
  else do
    pure [← client.requestDeposit rt spl vault state user amount]

/-- Trading shares use the queue, even while public funds are in escrow. -/
def tradingWithdrawalInstruction (shares : Int) : Throws TransactionInstruction := do
  if hasFlag state.status STATUS_CLOSED then client.terminalRedeem rt spl vault state user shares
  else do
    throwIf (hasFlag state.status STATUS_WITHDRAWALS_PAUSED) "Withdrawals are paused"
    client.requestWithdraw rt spl vault state user shares

/-- A vault whose trading closed before graduation still holds principal in escrow: that stays a
refund, not a terminal redemption. -/
def withdrawalInstruction (shares : Int) : Throws TransactionInstruction :=
  if hasFlag state.status STATUS_PRE_DEPOSIT then
    client.preWithdraw rt spl vault state user shares
  else client.tradingWithdrawalInstruction rt spl vault state user shares

/-- Principal can still be refunded if trading closes before graduation. -/
def publicRefundInstruction (amount : Int) : Throws TransactionInstruction := do
  throwIf (!hasFlag state.status STATUS_PRE_DEPOSIT)
    "Public principal already graduated; claim shares and use the withdrawal queue"
  client.preWithdraw rt spl vault state user amount

/-- A deposit of an approved wallet, at the current price. The keys of `pricingAccounts` are dot
paths, and `health` has to end with the event queues. -/
def permissionedDepositInstructions (amount minShares : Int) (pricingAccounts : NamedAccounts)
    (health : List AccountMeta) : Throws (List TransactionInstruction) := do
  throwIf (state.version ≠ 3 ∨ hasFlag state.status
      (STATUS_DEPOSITS_PAUSED ||| STATUS_BREAKER ||| STATUS_UNWIND ||| STATUS_CLOSED))
    "Permissioned deposits are unavailable"
  let amount ← unsignedAmount amount
  let minShares ← unsignedAmount minShares
  let (_, preparation) ← shareAtaInstructions spl state user user
  let ix ← client.instruction "permissionedDeposit" (pricingAccounts.set [
    ("vault", vault),
    ("depositor", ← deriveDepositor rt client.programId vault user),
    ("user", user),
    ("userQuoteAccount",
      ← spl.getAssociatedTokenAddressSync state.quoteMint user TOKEN_PROGRAM_ID),
    ("userShareAccount",
      ← spl.getAssociatedTokenAddressSync state.shareMint user TOKEN_2022_PROGRAM_ID),
    ("depositEscrow", state.depositEscrow)])
    (.of [("amount", amount), ("minShares", minShares)]) health
  pure [preparation, ix]

/-- Before graduation only: an approved wallet redeems shares at once, unless an older batch waits.
-/
def permissionedWithdraw (shares minQuote : Int) (pricingAccounts : NamedAccounts)
    (health : List AccountMeta) : Throws TransactionInstruction := do
  throwIf (state.version ≠ 3 ∨ vaultMode state.status ≠ .preDeposit ∨
      hasFlag state.status (STATUS_BREAKER ||| STATUS_UNWIND))
    "Approved-wallet withdrawals are available only before graduation, outside recovery"
  throwIf (hasFlag state.status STATUS_WITHDRAWALS_PAUSED) "Withdrawals are paused"
  throwIf (state.deferredHead ≠ NONE_EPOCH)
    "An older withdrawal batch is deferred; it is funded first"
  let shares ← unsignedAmount shares
  let minQuote ← unsignedAmount minQuote
  client.instruction "permissionedWithdraw" (pricingAccounts.set [
    ("vault", vault),
    ("depositor", ← deriveDepositor rt client.programId vault user),
    ("user", user),
    ("userQuoteAccount",
      ← spl.getAssociatedTokenAddressSync state.quoteMint user TOKEN_PROGRAM_ID),
    ("userShareAccount",
      ← spl.getAssociatedTokenAddressSync state.shareMint user TOKEN_2022_PROGRAM_ID)])
    (.of [("shares", shares), ("minQuote", minQuote)]) health

end

/-! ### The admin and operators -/

section

variable (vault : PublicKey) (state : VaultState)

/-- Principal stays refundable up to the conversion, hence no graduation while withdrawals are
paused. -/
def graduate (admin : PublicKey) (pricingAccounts : NamedAccounts) (health : List AccountMeta) :
    Throws TransactionInstruction := do
  throwIf (state.version ≠ 3 ∨ vaultMode state.status ≠ .preDeposit) "Graduation is unavailable"
  throwIf (hasFlag state.status STATUS_WITHDRAWALS_PAUSED)
    "Withdrawals are paused; graduation must wait"
  client.instruction "graduate" (pricingAccounts.set [
    ("vault", vault),
    ("admin", admin),
    ("depositEscrow", state.depositEscrow)]) .empty health

/-- The admin approves a wallet for permissioned deposits, or takes the approval back. -/
def setDepositPermission (admin user : PublicKey) (approved : Bool) :
    Throws TransactionInstruction := do
  client.instruction "setDepositPermission" (.of [
    ("vault", vault),
    ("admin", admin),
    ("user", user),
    ("depositor", ← deriveDepositor rt client.programId vault user),
    ("systemProgram", PublicKey.default)]) (.of [("approved", .bool approved)]) []

/-- The result and the client with the queues it has learnt. -/
def checkBreaker (accounts : NamedAccounts) (health : List AccountMeta) :
    Throws (TransactionInstruction × FlpClient) := do
  let (queued, client') := client.withEventQueues rt health
  let ix ← client.instruction "checkBreaker" (accounts.set [
    ("vault", vault),
    ("shareMint", state.shareMint)]) .empty queued
  pure (ix, client')

/-- The admin clears the breaker, which restarts from the current price. -/
def resetBreaker (admin : PublicKey) (accounts : NamedAccounts) (health : List AccountMeta) :
    Throws (TransactionInstruction × FlpClient) := do
  let (queued, client') := client.withEventQueues rt health
  let ix ← client.instruction "resetBreaker" (accounts.set [
    ("vault", vault),
    ("admin", admin),
    ("shareMint", state.shareMint)]) .empty queued
  pure (ix, client')

/-- Back to live trading, with deposits paused and no delegate. -/
def abortUnwind (admin : PublicKey) : Throws TransactionInstruction := do
  throwIf (!hasFlag state.status STATUS_UNWIND ∨ hasFlag state.status STATUS_CLOSED)
    "The vault is not in recovery"
  let recovery ← client.recoveryMetas rt vault state.toVaultAccount true
  client.instruction "abortUnwind" (.of [("vault", vault), ("admin", admin)]) .empty recovery

/-- Funds the deferred head before the next close, at the price of its own close. -/
def cureDeferred (signer : PublicKey) (accounts : NamedAccounts) (health : List AccountMeta) :
    Throws (TransactionInstruction × FlpClient) := do
  throwIf (state.deferredHead = NONE_EPOCH) "No deferred batch to cure"
  throwIf (hasFlag state.status (STATUS_UNWIND ||| STATUS_CLOSED))
    "Cures are unavailable during recovery or after closure"
  let headRecord ← deriveEpoch rt client.programId vault (.bigint state.deferredHead.toNat)
  let (queued, client') := client.withEventQueues rt health
  let ix ← client.instruction "cureDeferred" (accounts.set [
    ("vault", vault),
    ("signer", signer),
    ("headRecord", headRecord),
    ("redemptionEscrow", state.redemptionEscrow),
    ("shareMint", state.shareMint)]) .empty queued
  pure (ix, client')

/-- The common accounts of the two triggers. Without a deferred head the optional record is the
program itself. -/
def triggerAccounts (signer coreProgram : PublicKey) (deferredRecord : Option PublicKey) :
    Throws NamedAccounts := do
  pure (.of [
    ("vault", vault),
    ("authority", ← deriveAuthority rt client.programId vault),
    ("fermi.group", state.group),
    ("fermi.fermiAccount", state.fermiAccount),
    ("fermi.fermiProgram", coreProgram),
    ("shareMint", state.shareMint),
    ("deferredRecord", deferredRecord.getD client.programId),
    ("signer", signer)])

/-- Starts a recovery. Whoever is neither admin nor guardian passes the deferred head
(`permissionlessTriggerAt`). -/
def triggerUnwind (signer coreProgram : PublicKey) (markets : List RecoveryMarket) (full : Bool)
    (deferredHead : Option Int) : Throws TransactionInstruction := do
  throwIf (hasFlag state.status STATUS_CLOSED) "The vault is closed"
  let record ← match deferredHead with
    | none => pure none
    | some head => do pure (some (← deriveEpoch rt client.programId vault (.bigint head)))
  let accounts ← client.triggerAccounts rt vault state signer coreProgram record
  let recovery ← client.recoveryMetas rt vault state.toVaultAccount true
  client.instruction "triggerUnwind" accounts (.of [("full", .bool full)])
    (recoveryMarketMetas markets ++ recovery)

/-- Cuts every position by a fraction of its size, without a deferred batch. -/
def triggerPartialUnwind (signer coreProgram : PublicKey) (markets : List RecoveryMarket)
    (fractionBps : JsNumber) : Throws TransactionInstruction := do
  let _ ← unsigned (.number fractionBps) 2
  throwIf (!fractionBps.isIntegerIn 1 10000) "fractionBps must be 1 to 10,000"
  throwIf (hasFlag state.status (STATUS_UNWIND ||| STATUS_CLOSED))
    "A recovery is already running or the vault is closed"
  let accounts ← client.triggerAccounts rt vault state signer coreProgram none
  let recovery ← client.recoveryMetas rt vault state.toVaultAccount true
  client.instruction "triggerPartialUnwind" accounts
    (.of [("fractionBps", .number fractionBps)]) (recoveryMarketMetas markets ++ recovery)

/-- The shared checks of the two functions below. The counts stay numbers, as the arguments have
them. -/
def marketCapacity (perpCount perpOoCount : JsNumber) : Throws Unit := do
  let perps ← checkUnsigned (.number perpCount) 8 "Use bigint or BN for large integers"
    "Value does not fit u8"
  let orders ← checkUnsigned (.number perpOoCount) 8 "Use bigint or BN for large integers"
    "Value does not fit u8"
  throwIf (perps < 1 ∨ MAX_VAULT_PERPS < perps ∨ orders < 1 ∨ 64 < orders)
    "Unsupported market capacity"

/-- Creates the core account and the store of recovery targets in one instruction. -/
def initFermiAccountV4 (admin coreProgram : PublicKey) (perpCount perpOoCount : JsNumber) :
    Throws TransactionInstruction := do
  marketCapacity perpCount perpOoCount
  throwIf (state.fermiAccount ≠ PublicKey.default) "The vault already has its FermiAccount"
  let authority ← deriveAuthority rt client.programId vault
  client.instruction "initFermiAccountV4" (.of [
    ("vault", vault),
    ("authority", authority),
    ("admin", admin),
    ("fermi.group", state.group),
    ("fermi.fermiAccount",
      ← deriveFermiAccount rt coreProgram state.group authority (.int state.vaultId.toNat)),
    ("fermi.fermiProgram", coreProgram),
    ("recoveryTargets", ← deriveRecoveryTargets rt client.programId vault),
    ("systemProgram", PublicKey.default)])
    (.of [("perpCount", .number perpCount), ("perpOoCount", .number perpOoCount),
      ("tokenCount", .number (.int 1))]) []

/-- Growth adds empty slots: quoting and deposits continue. -/
def expandMarketCapacity (admin coreProgram : PublicKey) (perpCount perpOoCount : JsNumber) :
    Throws TransactionInstruction := do
  marketCapacity perpCount perpOoCount
  throwIf (hasFlag state.status (STATUS_UNWIND ||| STATUS_CLOSED))
    "Capacity cannot grow during recovery or after closure"
  client.instruction "expandMarketCapacity" (.of [
    ("vault", vault),
    ("authority", ← deriveAuthority rt client.programId vault),
    ("admin", admin),
    ("fermi.group", state.group),
    ("fermi.fermiAccount", state.fermiAccount),
    ("fermi.fermiProgram", coreProgram),
    ("recoveryTargets", ← deriveRecoveryTargets rt client.programId vault),
    ("systemProgram", PublicKey.default)])
    (.of [("perpCount", .number perpCount), ("perpOoCount", .number perpOoCount)]) []

/-- Anyone may release a flat slot, so that the net asset value stops depending on its oracle. -/
def deactivatePerpPosition (perpMarket fermiProgram : PublicKey) :
    Throws TransactionInstruction := do
  client.instruction "deactivatePerpPosition" (.of [
    ("vault", vault),
    ("authority", ← deriveAuthority rt client.programId vault),
    ("fermi.group", state.group),
    ("fermi.fermiAccount", state.fermiAccount),
    ("fermi.fermiProgram", fermiProgram),
    ("perpMarket", perpMarket)]) .empty []

/-- The accounts of the group `pricing` of `graduate`. None of them is optional. -/
def pricingMetas (pricingAccounts : NamedAccounts) : Throws (List AccountMeta) :=
  (pricing.visit "").mapM fun item =>
    match pricingAccounts item.path with
    | none => throw s!"Missing FLP account: {item.path}"
    | some pubkey => pure ⟨pubkey, item.isSigner, item.isMut⟩

/-- A change of a management or performance fee accrues under the old rates first, if the pricing
accounts are passed. -/
def applyParams (admin : PublicKey) (pricing : Option (NamedAccounts × List AccountMeta)) :
    Throws TransactionInstruction := do
  let remaining ← match pricing with
    | none => pure []
    | some (accounts, health) => do pure ((← pricingMetas accounts) ++ health)
  client.instruction "applyParams" (.of [("vault", vault), ("admin", admin)]) .empty remaining

/-- Buys residual inventory in full recovery. The derived accounts of the buyer are overridden
below, but deriving them can fail. -/
def recoverTokenInstructions (buyer tokenMint : PublicKey) (amount maxQuote : Int)
    (recoveryAccounts : NamedAccounts) (health : List AccountMeta) :
    Throws (List TransactionInstruction) := do
  throwIf (!hasFlag state.status STATUS_UNWIND ∨ state.unwind.mode ≠ 2) "Full recovery is required"
  let amount ← unsignedAmount amount
  let maxQuote ← unsignedAmount maxQuote
  let _ ← userAccounts rt spl client.programId vault state buyer
  let authority ← deriveAuthority rt client.programId vault
  let idleAccount ← spl.getAssociatedTokenAddressSync state.quoteMint authority TOKEN_PROGRAM_ID
  let buyerTokenAccount ← spl.getAssociatedTokenAddressSync tokenMint buyer TOKEN_PROGRAM_ID
  let ix ← client.instruction "recoverToken" (recoveryAccounts.set [
    ("vault", vault),
    ("authority", authority),
    ("buyer", buyer),
    ("buyerQuoteAccount",
      ← spl.getAssociatedTokenAddressSync state.quoteMint buyer TOKEN_PROGRAM_ID),
    ("buyerTokenAccount", buyerTokenAccount),
    ("idleAccount", idleAccount)]) (.of [("amount", amount), ("maxQuote", maxQuote)]) health
  pure [
    spl.createAssociatedTokenAccountIdempotentInstruction buyer idleAccount authority
      state.quoteMint TOKEN_PROGRAM_ID,
    spl.createAssociatedTokenAccountIdempotentInstruction buyer buyerTokenAccount buyer tokenMint
      TOKEN_PROGRAM_ID,
    ix]

end

end FlpClient

/-! ## `FlpV4Client` -/

/-- `capacity`. A first allocation is of 10240 bytes at most, which is the most that one instruction can
create. -/
def capacity (perps orders : JsNumber) (initial : Bool) : Throws Unit := do
  let perpCount ← uint (.number perps) 8
  let orderCount ← uint (.number orders) 8
  throwIf (perpCount < 1 ∨ 13 < perpCount ∨ orderCount < 1 ∨ 64 < orderCount)
    "Unsupported market capacity"
  throwIf (initial ∧ 10240 < 704 + 304 * perpCount + 96 * orderCount)
    "Initial account exceeds 10240 bytes; create smaller and expand"

/-- The bounds of `PARTIAL_EXTENSION_BPS`. -/
def PARTIAL_EXTENSION_BPS_MIN : Nat := 5000
def PARTIAL_EXTENSION_BPS_MAX : Nat := 10000

/-- The arguments of a `VaultParamsInput`. -/
def vaultParamsArgs (params : VaultParamsInput) : List (String × IdlValue) := [
  ("params.epochDurationS", .number params.epochDurationS),
  ("params.requestCutoffS", .number params.requestCutoffS),
  ("params.timelockS", .number params.timelockS),
  ("params.mgmtFeeBps", .number params.mgmtFeeBps),
  ("params.perfFeeBps", .number params.perfFeeBps),
  ("params.depositFeeBps", .number params.depositFeeBps),
  ("params.withdrawFeeBps", .number params.withdrawFeeBps),
  ("params.upnlHaircutBps", .number params.upnlHaircutBps),
  ("params.minPostWithdrawInitRatioBps", .number params.minPostWithdrawInitRatioBps),
  ("params.breakerDrawdownBps", .number params.breakerDrawdownBps),
  ("params.breakerMinInitRatioBps", .number params.breakerMinInitRatioBps),
  ("params.breakerWindowS", .number params.breakerWindowS),
  ("params.tvlCap", .bn params.tvlCap),
  ("params.minDeposit", .bn params.minDeposit),
  ("params.minWithdrawShares", .bn params.minWithdrawShares),
  ("params.equityWindowS", .number params.equityWindowS)]

/-- What the admin may change of the recovery: two graces, the oracle band and the size of a step.
-/
structure RecoveryParamsInput where
  graceProportionalS : JsNumber
  graceFullS : JsNumber
  oracleBandBps : JsNumber
  maxStepQuote : Int
  deriving DecidableEq

/-- The arguments of a `RecoveryParamsInput`. -/
def recoveryParamsArgs (params : RecoveryParamsInput) : List (String × IdlValue) := [
  ("params.graceProportionalS", .number params.graceProportionalS),
  ("params.graceFullS", .number params.graceFullS),
  ("params.oracleBandBps", .number params.oracleBandBps),
  ("params.maxStepQuote", .bn params.maxStepQuote)]

namespace FlpV4Client

variable (rt : Runtime) (spl : SplToken) (client : FlpV4Client)

/-- `FlpV4Client.initDepositor`, with the payer before the derived record. -/
def initDepositor (vault user payer : PublicKey) : Throws TransactionInstruction := do
  client.instruction "initDepositor" (.of [
    ("vault", vault),
    ("user", user),
    ("payer", payer),
    ("depositor", ← deriveDepositor rt client.programId vault user),
    ("systemProgram", PublicKey.default)]) .empty []

/-- `userAccounts`, after the check of the version. -/
def userAccounts (vault : PublicKey) (state : VaultState) (user : PublicKey) :
    Throws NamedAccounts := do
  requireV4 state.toVaultAccount
  FermiSdk.userAccounts rt spl client.programId vault state user

/-! ### Users -/

section

variable (vault : PublicKey) (state : VaultState) (user : PublicKey)

/-- The accounts of `{ ...extra, ...this.userAccounts(vault, state, user) }`. -/
def preparedUser (name : String) (args : NamedArgs) (extra : NamedAccounts) (payer : PublicKey)
    (shareAta quoteAta : Bool) : Throws (List TransactionInstruction) := do
  let depositor ← client.initDepositor rt vault user payer
  let share ← if shareAta then do
      pure [(← FlpClient.shareAtaInstructions spl state user payer).2]
    else pure []
  let quote ← if quoteAta then do
      let address ← spl.getAssociatedTokenAddressSync state.quoteMint user TOKEN_PROGRAM_ID
      pure [spl.createAssociatedTokenAccountIdempotentInstruction payer address user
        state.quoteMint TOKEN_PROGRAM_ID]
    else pure []
  let accounts ← client.userAccounts rt spl vault state user
  let ix ← client.instruction name (accounts.over extra) args []
  pure (depositor :: share ++ quote ++ [ix])

/-- `preparedUser` is not used here: no token account has to exist but the one that pays. -/
def requestDepositInstructions (amount : Int) (payer : PublicKey) :
    Throws (List TransactionInstruction) := do
  let depositor ← client.initDepositor rt vault user payer
  let accounts ← client.userAccounts rt spl vault state user
  let amount ← uintAmount amount
  let ix ← client.instruction "requestDeposit" accounts (.of [("amount", amount)]) []
  pure [depositor, ix]

/-- The instruction takes principal, behind the same preparation. -/
def preDepositInstructions (amount : Int) (payer : PublicKey) :
    Throws (List TransactionInstruction) := do
  let depositor ← client.initDepositor rt vault user payer
  let accounts ← client.userAccounts rt spl vault state user
  let amount ← uintAmount amount
  let ix ← client.instruction "preDepositV3" accounts (.of [("amount", amount)]) []
  pure [depositor, ix]

/-- The refund goes to the user's quote account, which is made first. -/
def preWithdrawInstructions (amount : Int) (payer : PublicKey) :
    Throws (List TransactionInstruction) := do
  let amount ← uintAmount amount
  client.preparedUser rt spl vault state user "preWithdrawV3" (.of [("amount", amount)]) .empty
    payer false true

/-- Both token accounts of the user are made first. -/
def terminalRedeemInstructions (shares : Int) (payer : PublicKey) :
    Throws (List TransactionInstruction) := do
  let shares ← uintAmount shares
  client.preparedUser rt spl vault state user "terminalRedeem" (.of [("shares", shares)]) .empty
    payer true true

/-- The shares are there already, and so is their account. -/
def requestWithdrawInstructions (shares : Int) (payer : PublicKey) :
    Throws (List TransactionInstruction) := do
  let shares ← uintAmount shares
  client.preparedUser rt spl vault state user "requestWithdraw" (.of [("shares", shares)]) .empty
    payer false false

/-- The amount goes back to the quote account. -/
def cancelDepositInstructions (payer : PublicKey) : Throws (List TransactionInstruction) :=
  client.preparedUser rt spl vault state user "cancelDeposit" .empty .empty payer false true

/-- The shares go back to the share account. -/
def cancelWithdrawInstructions (payer : PublicKey) : Throws (List TransactionInstruction) :=
  client.preparedUser rt spl vault state user "cancelWithdraw" .empty .empty payer true false

/-- The shares go to the share account. -/
def claimPreDepositInstructions (payer : PublicKey) : Throws (List TransactionInstruction) :=
  client.preparedUser rt spl vault state user "claimPreDeposit" .empty .empty payer true false

/-- `deriveEpoch(this.programId, vault, uint(epoch, 64))`. -/
def epochRecord (epoch : Int) : Throws PublicKey := do
  deriveEpoch rt client.programId vault (.bigint (← uint (.bigint epoch) 64))

/-- The record of the epoch is the one account that the caller adds. -/
def claimDepositInstructions (epoch : Int) (payer : PublicKey) :
    Throws (List TransactionInstruction) := do
  let record ← client.epochRecord rt vault epoch
  client.preparedUser rt spl vault state user "claimDeposit" .empty
    (.of [("epochRecord", record)]) payer true false

/-- Without an epoch the optional record is the program itself. -/
def refundPendingDepositInstructions (epoch : Option Int) (payer : PublicKey) :
    Throws (List TransactionInstruction) := do
  let record ← match epoch with
    | none => pure client.programId
    | some epoch => client.epochRecord rt vault epoch
  client.preparedUser rt spl vault state user "refundPendingDeposit" .empty
    (.of [("epochRecord", record)]) payer false true

/-- The payout goes to the quote account. -/
def claimWithdrawalInstructions (epoch : Int) (payer : PublicKey) :
    Throws (List TransactionInstruction) := do
  let record ← client.epochRecord rt vault epoch
  client.preparedUser rt spl vault state user "claimWithdrawal" .empty
    (.of [("epochRecord", record)]) payer false true

/-- The record must be one of this vault, which the version 3 client does not ask. -/
def settleDepositInstructions (record : EpochAccount) (payer : PublicKey) :
    Throws (List TransactionInstruction) := do
  throwIf (record.vault ≠ vault) "Epoch identity mismatch"
  if depositsHeld record then
    client.refundPendingDepositInstructions rt spl vault state user (some record.epoch.toNat) payer
  else client.claimDepositInstructions rt spl vault state user record.epoch.toNat payer

/-- The same with `uint` for `unsigned`, and without a check of the status. -/
def permissionedDepositInstructions (amount minShares : Int) (pricing : NamedAccounts)
    (healthAndQueues : List AccountMeta) (payer : PublicKey) :
    Throws (List TransactionInstruction) := do
  let depositor ← client.initDepositor rt vault user payer
  let (_, share) ← FlpClient.shareAtaInstructions spl state user payer
  let accounts ← client.userAccounts rt spl vault state user
  let amount ← uintAmount amount
  let minShares ← uintAmount minShares
  let ix ← client.instruction "permissionedDeposit" (accounts.over pricing)
    (.of [("amount", amount), ("minShares", minShares)]) healthAndQueues
  pure [depositor, share, ix]

/-- The health accounts are appended to the last instruction that `preparedUser` made. -/
def permissionedWithdrawInstructions (shares minQuote : Int) (pricing : NamedAccounts)
    (healthAndQueues : List AccountMeta) (payer : PublicKey) :
    Throws (List TransactionInstruction) := do
  let shares ← uintAmount shares
  let minQuote ← uintAmount minQuote
  let preparation ← client.preparedUser rt spl vault state user "permissionedWithdraw"
    (.of [("shares", shares), ("minQuote", minQuote)]) pricing payer false true
  match preparation.getLast? with
  | none => throw "Cannot read properties of undefined (reading 'keys')"
  | some last => pure (preparation.dropLast ++ [{ last with keys := last.keys ++ healthAndQueues }])

end

/-! ### The admin -/

/-- The record is made first, so that a wallet can be approved before its first deposit. -/
def setDepositPermissionInstructions (vault admin user : PublicKey) (approved : Bool)
    (payer : PublicKey) : Throws (List TransactionInstruction) := do
  let depositor ← client.initDepositor rt vault user payer
  let ix ← client.instruction "setDepositPermission" (.of [
    ("vault", vault),
    ("admin", admin),
    ("user", user),
    ("depositor", ← deriveDepositor rt client.programId vault user),
    ("systemProgram", PublicKey.default)]) (.of [("approved", .bool approved)]) []
  pure [depositor, ix]

/-- All accounts are derived from the group and the id; the window account comes with the vault. -/
def initializeVault (vaultId : JsNumber) (group admin quoteBank quoteMint : PublicKey)
    (params : VaultParamsInput) (guardian feeRecipient : PublicKey) :
    Throws TransactionInstruction := do
  let _ ← uint (.number vaultId) 16
  let addresses ← deriveVaultAddresses rt client.programId group vaultId
  client.instruction "initializeVaultV4" (.of [
    ("vault", addresses.vault),
    ("authority", addresses.authority),
    ("shareMint", addresses.shareMint),
    ("depositEscrow", addresses.depositEscrow),
    ("redemptionEscrow", addresses.redemptionEscrow),
    ("group", group),
    ("admin", admin),
    ("quoteBank", quoteBank),
    ("quoteMint", quoteMint),
    ("fundingWindow", ← deriveFundingWindow rt client.programId addresses.vault),
    ("tokenProgram", TOKEN_PROGRAM_ID),
    ("token2022Program", TOKEN_2022_PROGRAM_ID),
    ("systemProgram", PublicKey.default),
    ("rent", SYSVAR_RENT_PUBKEY)])
    (.of ([("vaultId", .number vaultId)] ++ vaultParamsArgs params ++
      [("guardian", .publicKey guardian), ("feeRecipient", .publicKey feeRecipient)])) []

/-- The seeder's own accounts are among `accounts`, the vault's replace what they name. -/
def seedVault (vault : PublicKey) (state : VaultState) (accounts : NamedAccounts) (amount : Int)
    (health : List AccountMeta) : Throws TransactionInstruction := do
  requireV4 state.toVaultAccount
  let authority ← deriveAuthority rt client.programId vault
  let amount ← uintAmount amount
  client.instruction "seedVaultV4" (accounts.set [
    ("vault", vault),
    ("authority", authority),
    ("quoteMint", state.quoteMint),
    ("shareMint", state.shareMint),
    ("token2022Program", TOKEN_2022_PROGRAM_ID),
    ("associatedTokenProgram", ASSOCIATED_TOKEN_PROGRAM_ID),
    ("systemProgram", PublicKey.default)]) (.of [("amount", amount)]) health

/-- Only the capacity of a first allocation is checked further (`capacity`). -/
def initFermiAccount (vault : PublicKey) (state : VaultState) (admin coreProgram : PublicKey)
    (perps orders : JsNumber) : Throws TransactionInstruction := do
  requireV4 state.toVaultAccount
  capacity perps orders true
  throwIf (state.fermiAccount ≠ PublicKey.default) "The vault already has its FermiAccount"
  let authority ← deriveAuthority rt client.programId vault
  client.instruction "initFermiAccountV4" (.of [
    ("vault", vault),
    ("authority", authority),
    ("admin", admin),
    ("fermi.group", state.group),
    ("fermi.fermiAccount",
      ← deriveFermiAccount rt coreProgram state.group authority (.int state.vaultId.toNat)),
    ("fermi.fermiProgram", coreProgram),
    ("recoveryTargets", ← deriveRecoveryTargets rt client.programId vault),
    ("systemProgram", PublicKey.default)])
    (.of [("perpCount", .number perps), ("perpOoCount", .number orders),
      ("tokenCount", .number (.int 1))]) []

/-- Like `initFermiAccount`, with the account that is there. -/
def expandMarketCapacity (vault : PublicKey) (state : VaultState) (admin coreProgram : PublicKey)
    (perps orders : JsNumber) : Throws TransactionInstruction := do
  requireV4 state.toVaultAccount
  capacity perps orders false
  throwIf (hasFlag state.status (STATUS_UNWIND ||| STATUS_CLOSED))
    "Capacity cannot grow during recovery or after closure"
  client.instruction "expandMarketCapacity" (.of [
    ("vault", vault),
    ("authority", ← deriveAuthority rt client.programId vault),
    ("admin", admin),
    ("fermi.group", state.group),
    ("fermi.fermiAccount", state.fermiAccount),
    ("fermi.fermiProgram", coreProgram),
    ("recoveryTargets", ← deriveRecoveryTargets rt client.programId vault),
    ("systemProgram", PublicKey.default)])
    (.of [("perpCount", .number perps), ("perpOoCount", .number orders)]) []

section

variable (vault : PublicKey) (state : VaultState)

/-- Only the version is checked here; the program refuses the rest. -/
def graduate (admin : PublicKey) (pricing : NamedAccounts) (healthAndQueues : List AccountMeta) :
    Throws TransactionInstruction := do
  requireV4 state.toVaultAccount
  client.instruction "graduate" (pricing.set [
    ("vault", vault),
    ("admin", admin),
    ("depositEscrow", state.depositEscrow)]) .empty healthAndQueues

/-- Flags to set and flags to clear, each of a byte. -/
def setStatus (signer : PublicKey) (setFlags clearFlags : JsNumber) :
    Throws TransactionInstruction := do
  let setFlags ← uint (.number setFlags) 8
  let clearFlags ← uint (.number clearFlags) 8
  client.instruction "setStatus" (.of [("vault", vault), ("signer", signer)])
    (.of [("setFlags", .number (.int setFlags)), ("clearFlags", .number (.int clearFlags))]) []

/-- The change waits for the delay of `stagedParamsDelaySeconds`. -/
def stageParams (admin : PublicKey) (params : VaultParamsInput) : Throws TransactionInstruction :=
  client.instruction "stageParamsV3" (.of [("vault", vault), ("admin", admin)])
    (.of (vaultParamsArgs params)) []

/-- Without pricing accounts. -/
def applyParams (admin : PublicKey) : Throws TransactionInstruction :=
  client.instruction "applyParams" (.of [("vault", vault), ("admin", admin)]) .empty []

/-- Recovery parameters are staged apart from the others. -/
def stageRecoveryParams (admin : PublicKey) (params : RecoveryParamsInput) :
    Throws TransactionInstruction :=
  client.instruction "stageRecoveryParams" (.of [("vault", vault), ("admin", admin)])
    (.of (recoveryParamsArgs params)) []

/-- Once the staged recovery parameters are due. -/
def applyRecoveryParams (admin : PublicKey) : Throws TransactionInstruction :=
  client.instruction "applyRecoveryParams" (.of [("vault", vault), ("admin", admin)]) .empty []

/-- The two roles are set together. -/
def setRoles (admin guardian feeRecipient : PublicKey) : Throws TransactionInstruction :=
  client.instruction "setRoles" (.of [("vault", vault), ("admin", admin)])
    (.of [("guardian", .publicKey guardian), ("feeRecipient", .publicKey feeRecipient)]) []

/-- A new admin has to accept (`acceptAdmin`). -/
def proposeAdmin (admin newAdmin : PublicKey) : Throws TransactionInstruction :=
  client.instruction "proposeAdmin" (.of [("vault", vault), ("admin", admin)])
    (.of [("newAdmin", .publicKey newAdmin)]) []

/-- Signed by the new admin alone. -/
def acceptAdmin (newAdmin : PublicKey) : Throws TransactionInstruction :=
  client.instruction "acceptAdmin" (.of [("vault", vault), ("newAdmin", newAdmin)]) .empty []

/-- A proposal matures before it can be activated (`activateDelegate`). -/
def proposeDelegate (admin delegate : PublicKey) : Throws TransactionInstruction :=
  client.instruction "proposeDelegate" (.of [("vault", vault), ("admin", admin)])
    (.of [("delegate", .publicKey delegate)]) []

/-- The status is not checked, and the sidecar is always passed. -/
def abortUnwind (admin : PublicKey) : Throws TransactionInstruction := do
  let recovery ← client.recoveryMetas rt vault true
  client.instruction "abortUnwind" (.of [("vault", vault), ("admin", admin)]) .empty recovery

/-! ### Operators -/

/-- The vault with its core account. The program of the core is named by the caller. -/
def coreAccounts (coreProgram : PublicKey) : Throws NamedAccounts := do
  requireV4 state.toVaultAccount
  pure (.of [
    ("vault", vault),
    ("authority", ← deriveAuthority rt client.programId vault),
    ("fermi.group", state.group),
    ("fermi.fermiAccount", state.fermiAccount),
    ("fermi.fermiProgram", coreProgram)])

/-- Once the proposal has matured. Graduation activates it too. -/
def activateDelegate (signer coreProgram : PublicKey) : Throws TransactionInstruction := do
  let core ← client.coreAccounts rt vault state coreProgram
  client.instruction "activateDelegate" (core.set [("signer", signer)]) .empty []

/-- Like the activation, signed by whom the program accepts. -/
def removeDelegate (signer coreProgram : PublicKey) : Throws TransactionInstruction := do
  let core ← client.coreAccounts rt vault state coreProgram
  client.instruction "removeDelegate" (core.set [("signer", signer)]) .empty []

/-- The vault's orders on the markets that follow. -/
def cancelOrders (signer coreProgram : PublicKey) (markets : List AccountMeta) :
    Throws TransactionInstruction := do
  let core ← client.coreAccounts rt vault state coreProgram
  client.instruction "cancelOrders" (core.set [("signer", signer)]) .empty markets

/-- The same, from the core accounts. -/
def deactivatePerpPosition (coreProgram perpMarket : PublicKey) :
    Throws TransactionInstruction := do
  let core ← client.coreAccounts rt vault state coreProgram
  client.instruction "deactivatePerpPosition" (core.set [("perpMarket", perpMarket)]) .empty []

/-- The queues are passed by the caller here. -/
def checkBreaker (accounts : NamedAccounts) (healthAndQueues : List AccountMeta) :
    Throws TransactionInstruction := do
  let flow ← client.flowAccounts rt vault state.toVaultAccount accounts
  client.instruction "checkBreaker" flow .empty healthAndQueues

/-- The admin clears the breaker. -/
def resetBreaker (admin : PublicKey) (accounts : NamedAccounts)
    (healthAndQueues : List AccountMeta) : Throws TransactionInstruction := do
  let flow ← client.flowAccounts rt vault state.toVaultAccount accounts
  client.instruction "resetBreaker" (flow.set [("admin", admin)]) .empty healthAndQueues

/-- The instruction and the client with the queues it has learnt. -/
def fundHead (accounts : NamedAccounts) (health : List AccountMeta) :
    Throws (TransactionInstruction × FlpV4Client) := do
  throwIf (state.deferredHead = NONE_EPOCH) "No deferred head"
  let flow ← client.flowAccounts rt vault state.toVaultAccount accounts
  let (queued, client') := client.withEventQueues rt health
  let recovery ← client.unwindMetas rt vault state.toVaultAccount false
  let ix ← client.instruction "fundHeadV2" flow .empty (queued ++ recovery)
  pure (ix, client')

/-- Requires evidence for the current generation and a time of the chain before it funds. -/
def fundHeadIfOpen (accounts : NamedAccounts) (health : List AccountMeta) (chainTime : Int) :
    Throws (TransactionInstruction × FlpV4Client) := do
  let window ← client.fetchFundingWindow rt vault state
  throwIf (!fundingWindowIsOpen window chainTime) "Funding window is not open"
  client.fundHead rt vault state accounts health

/-- At most `maxAmount`, and not in a recovery. -/
def sweepIdle (accounts : NamedAccounts) (health : List AccountMeta) (maxAmount : Int) :
    Throws (TransactionInstruction × FlpV4Client) := do
  throwIf (hasFlag state.status (STATUS_UNWIND ||| STATUS_CLOSED))
    "Sweeps are unavailable during recovery or after closure"
  let flow ← client.flowAccounts rt vault state.toVaultAccount accounts
  let maxAmount ← uintAmount maxAmount
  let (queued, client') := client.withEventQueues rt health
  let ix ← client.instruction "sweepIdleV2" flow (.of [("maxAmount", maxAmount)]) queued
  pure (ix, client')

/-- `flowAccounts` has the record of the head already. -/
def cureDeferred (signer : PublicKey) (accounts : NamedAccounts) (health : List AccountMeta) :
    Throws (TransactionInstruction × FlpV4Client) := do
  throwIf (state.deferredHead = NONE_EPOCH ∨ hasFlag state.status (STATUS_UNWIND ||| STATUS_CLOSED))
    "No eligible deferred head"
  let flow ← client.flowAccounts rt vault state.toVaultAccount accounts
  let (queued, client') := client.withEventQueues rt health
  let ix ← client.instruction "cureDeferredV2" (flow.set [("signer", signer)]) .empty queued
  pure (ix, client')

/-- The flow accounts are made for an empty map, so the caller overrides none. -/
def triggerUnwind (signer coreProgram : PublicKey) (markets : List RecoveryMarket) (full : Bool)
    (head : Option Int) : Throws TransactionInstruction := do
  let flow ← client.flowAccounts rt vault state.toVaultAccount .empty
  let deferredRecord ← match head with
    | none => pure client.programId
    | some head => deriveEpoch rt client.programId vault (.bigint head)
  let recovery ← client.recoveryMetas rt vault true
  client.instruction "triggerUnwind" (flow.set [
    ("signer", signer),
    ("fermi.group", state.group),
    ("fermi.fermiAccount", state.fermiAccount),
    ("fermi.fermiProgram", coreProgram),
    ("deferredRecord", deferredRecord)]) (.of [("full", .bool full)])
    (recoveryMarketMetas markets ++ recovery)

/-- The bounds are compared as doubles; `uint` then refuses what is not an integer. -/
def triggerPartialUnwind (signer coreProgram : PublicKey) (markets : List RecoveryMarket)
    (fractionBps : JsNumber) : Throws TransactionInstruction := do
  throwIf (fractionBps.below 1 ∨ fractionBps.above 10000) "Invalid reduction"
  let flow ← client.flowAccounts rt vault state.toVaultAccount .empty
  let fractionBps ← uint (.number fractionBps) 16
  let recovery ← client.recoveryMetas rt vault true
  client.instruction "triggerPartialUnwind" (flow.set [
    ("signer", signer),
    ("fermi.group", state.group),
    ("fermi.fermiAccount", state.fermiAccount),
    ("fermi.fermiProgram", coreProgram),
    ("deferredRecord", client.programId)]) (.of [("fractionBps", .number (.int fractionBps))])
    (recoveryMarketMetas markets ++ recovery)

/-- One step of a recovery closes at most this many lots. -/
def unwindStep (accounts : NamedAccounts) (health : List AccountMeta) (maxBaseLots : Int) :
    Throws TransactionInstruction := do
  let size ← uint (.bigint maxBaseLots) 63
  throwIf (size = 0) "maxBaseLots must be positive"
  let flow ← client.flowAccounts rt vault state.toVaultAccount accounts
  let recovery ← client.recoveryMetas rt vault false
  client.instruction "unwindStepV2" flow (.of [("maxBaseLots", .bn size)]) (health ++ recovery)

/-- The last step of a recovery. -/
def finishUnwind (accounts : NamedAccounts) (health : List AccountMeta) :
    Throws TransactionInstruction := do
  let flow ← client.flowAccounts rt vault state.toVaultAccount accounts
  let recovery ← client.recoveryMetas rt vault false
  client.instruction "finishUnwind" flow .empty (health ++ recovery)

/-- Cuts each remaining target of a partial recovery by at least a half. -/
def extendPartialUnwind (accounts : NamedAccounts) (health : List AccountMeta)
    (reductionBps : JsNumber) : Throws (TransactionInstruction × FlpV4Client) := do
  throwIf (!reductionBps.isIntegerIn PARTIAL_EXTENSION_BPS_MIN PARTIAL_EXTENSION_BPS_MAX)
    ("Invalid reduction: extendPartialUnwindV2 takes " ++
      s!"{PARTIAL_EXTENSION_BPS_MIN} to {PARTIAL_EXTENSION_BPS_MAX} bps")
  let flow ← client.flowAccounts rt vault state.toVaultAccount accounts
  let reductionBps ← uint (.number reductionBps) 16
  let (queued, client') := client.withEventQueues rt health
  let recovery ← client.recoveryMetas rt vault true
  let ix ← client.instruction "extendPartialUnwindV2" flow
    (.of [("reductionBps", .number (.int reductionBps))]) (queued ++ recovery)
  pure (ix, client')

/-! ### Foreign tokens -/

/-- A foreign token is neither the quote nor the share of the vault. -/
def requireForeignMint (mint : PublicKey) : Throws Unit :=
  throwIf (mint = state.quoteMint ∨ mint = state.shareMint) "Expected a foreign mint"

/-- From the authority's account to the admin's. No sale and no payment. -/
def rescueForeignTokenInstructions (admin mint : PublicKey) (amount : Int) :
    Throws (List TransactionInstruction) := do
  requireForeignMint state mint
  let quantity ← uint (.bigint amount) 64
  throwIf (quantity = 0) "Rescue amount must be positive"
  let authority ← deriveAuthority rt client.programId vault
  let source ← spl.getAssociatedTokenAddressSync mint authority TOKEN_PROGRAM_ID
  let destination ← spl.getAssociatedTokenAddressSync mint admin TOKEN_PROGRAM_ID
  let ix ← client.instruction "rescueForeignToken" (.of [
    ("vault", vault),
    ("authority", authority),
    ("admin", admin),
    ("mint", mint),
    ("source", source),
    ("destination", destination),
    ("tokenProgram", TOKEN_PROGRAM_ID)]) (.of [("amount", .bn quantity)]) []
  pure [spl.createAssociatedTokenAccountIdempotentInstruction admin destination admin mint
    TOKEN_PROGRAM_ID, ix]

/-- The whole foreign balance of the core account, to the authority's account. -/
def clearForeignCoreTokenInstructions (admin coreProgram mint bank bankVault oracle : PublicKey)
    (health : List AccountMeta) : Throws (List TransactionInstruction) := do
  requireForeignMint state mint
  let authority ← deriveAuthority rt client.programId vault
  let destination ← spl.getAssociatedTokenAddressSync mint authority TOKEN_PROGRAM_ID
  let ix ← client.instruction "clearForeignCoreToken" (.of [
    ("vault", vault),
    ("authority", authority),
    ("admin", admin),
    ("mint", mint),
    ("bank", bank),
    ("bankVault", bankVault),
    ("oracle", oracle),
    ("destination", destination),
    ("fermi.group", state.group),
    ("fermi.fermiAccount", state.fermiAccount),
    ("fermi.fermiProgram", coreProgram),
    ("tokenProgram", TOKEN_PROGRAM_ID)]) .empty health
  pure [spl.createAssociatedTokenAccountIdempotentInstruction admin destination authority mint
    TOKEN_PROGRAM_ID, ix]

end

end FlpV4Client

end FermiSdk
