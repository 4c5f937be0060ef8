import FermiSdk.Flp.Idl

/-!
# Instructions of the vault program

The instructions of the two interface descriptions that the builders of the clients use, each with
its accounts and its arguments. Both descriptions have most of them, with the same accounts and
arguments.
-/

namespace FermiSdk

open FermiSdk.Lib

/-! The privileges of an account, as a description declares them. -/

namespace IdlAccountItem

/-- An account that is only read. -/
def read (name : String) : IdlAccountItem := .account name false false false

/-- An account that is written. -/
def write (name : String) : IdlAccountItem := .account name true false false

/-- An account that signs. -/
def sign (name : String) : IdlAccountItem := .account name false true false

/-- An account that signs and is written, since its lamports pay for something. -/
def pay (name : String) : IdlAccountItem := .account name true true false

/-- An account that may be left out, which is then the program id. -/
def readOptional (name : String) : IdlAccountItem := .account name false false true

/-- The same for an account that is written. -/
def writeOptional (name : String) : IdlAccountItem := .account name true false true

end IdlAccountItem

open IdlAccountItem

/-- The core account of the vault, without its banks. -/
def fermiCore : IdlAccountItem :=
  .accounts "fermi" [read "group", write "fermiAccount", read "fermiProgram"]

/-- The core account with the quote bank, for what moves quote in or out. -/
def fermiFlow : IdlAccountItem :=
  .accounts "fermi" [read "group", write "fermiAccount", write "quoteBank", write "quoteBankVault",
    read "quoteOracle", read "fermiProgram", read "tokenProgram"]

/-- What the price of a share is computed from. Fee shares are minted on the way. -/
def pricing : IdlAccountItem :=
  .accounts "pricing" [read "authority", write "shareMint", write "feeShareAccount",
    write "idleAccount", fermiFlow, read "token2022Program"]

/-- The fields of `VaultParamsV3`, in the order of the description. -/
def vaultParamsFields : List (String × IdlType) := [
  ("params.epochDurationS", .u32), ("params.requestCutoffS", .u32), ("params.timelockS", .u32),
  ("params.mgmtFeeBps", .u16), ("params.perfFeeBps", .u16), ("params.depositFeeBps", .u16),
  ("params.withdrawFeeBps", .u16), ("params.upnlHaircutBps", .u16),
  ("params.minPostWithdrawInitRatioBps", .u16), ("params.breakerDrawdownBps", .u16),
  ("params.breakerMinInitRatioBps", .u16), ("params.breakerWindowS", .u32),
  ("params.tvlCap", .u64), ("params.minDeposit", .u64), ("params.minWithdrawShares", .u64),
  ("params.equityWindowS", .u32)]

/-- The fields of `RecoveryParams`. -/
def recoveryParamsFields : List (String × IdlType) := [
  ("params.graceProportionalS", .u32), ("params.graceFullS", .u32), ("params.oracleBandBps", .u16),
  ("params.maxStepQuote", .u64)]

/-! The instructions. -/

/-- The admin pays for what the account grows by. -/
def expandMarketCapacityMethod : IdlInstruction where
  name := "expandMarketCapacity"
  method := "expand_market_capacity"
  accounts := [write "vault", read "authority", fermiCore, write "recoveryTargets", pay "admin",
    read "systemProgram"]
  args := [("perpCount", .u8), ("perpOoCount", .u8)]

/-- Creates the vault with its mint, its escrows and its funding window. -/
def initializeVaultV4Method : IdlInstruction where
  name := "initializeVaultV4"
  method := "initialize_vault_v4"
  accounts := [write "fundingWindow", write "vault", read "authority", read "group",
    read "quoteBank", read "quoteMint", write "shareMint", write "depositEscrow",
    write "redemptionEscrow", pay "admin", read "tokenProgram", read "token2022Program",
    read "systemProgram", read "rent"]
  args := [("vaultId", .u16)] ++ vaultParamsFields ++
    [("guardian", .publicKey), ("feeRecipient", .publicKey)]

/-- The admin pays the seed. Its shares have an account of their own. -/
def seedVaultV4Method : IdlInstruction where
  name := "seedVaultV4"
  method := "seed_vault_v4"
  accounts := [read "quoteMint", write "idleAccount", write "vault", read "authority", fermiFlow,
    pay "admin", write "adminQuoteAccount", write "shareMint", write "deadShareAccount",
    read "token2022Program", read "associatedTokenProgram", read "systemProgram"]
  args := [("amount", .u64)]

/-- Principal, before graduation. -/
def preDepositV3Method : IdlInstruction where
  name := "preDepositV3"
  method := "pre_deposit_v3"
  accounts := [write "vault", write "depositor", read "authority", pay "user",
    write "userQuoteAccount", write "depositEscrow", read "tokenProgram", read "systemProgram"]
  args := [("amount", .u64)]

/-- The accounts are those of the deposit. -/
def preWithdrawV3Method : IdlInstruction where
  name := "preWithdrawV3"
  method := "pre_withdraw_v3"
  accounts := [write "vault", write "depositor", read "authority", pay "user",
    write "userQuoteAccount", write "depositEscrow", read "tokenProgram", read "systemProgram"]
  args := [("amount", .u64)]

/-- The record is created here if the user has none, so the admin pays. -/
def setDepositPermissionMethod : IdlInstruction where
  name := "setDepositPermission"
  method := "set_deposit_permission"
  accounts := [read "vault", pay "admin", read "user", write "depositor", read "systemProgram"]
  args := [("approved", .bool)]

/-- A deposit at the current price, which an approved wallet makes without a ticket. -/
def permissionedDepositMethod : IdlInstruction where
  name := "permissionedDeposit"
  method := "permissioned_deposit"
  accounts := [write "vault", write "depositor", sign "user", write "userQuoteAccount",
    write "userShareAccount", write "depositEscrow", pricing]
  args := [("amount", .u64), ("minShares", .u64)]

/-- Turns the principal in escrow into shares. -/
def graduateMethod : IdlInstruction where
  name := "graduate"
  method := "graduate"
  accounts := [write "vault", sign "admin", write "depositEscrow", pricing]
  args := []

/-- No signer. -/
def claimPreDepositMethod : IdlInstruction where
  name := "claimPreDeposit"
  method := "claim_pre_deposit"
  accounts := [write "vault", write "depositor", read "authority", write "shareMint",
    write "userShareAccount", read "token2022Program"]
  args := []

/-- The user pays for the record if it has to be created. -/
def requestDepositMethod : IdlInstruction where
  name := "requestDeposit"
  method := "request_deposit"
  accounts := [write "vault", write "depositor", pay "user", write "userQuoteAccount",
    write "depositEscrow", read "tokenProgram", read "systemProgram"]
  args := [("amount", .u64)]

/-- A ticket can be taken back only by the user who made it. -/
def cancelDepositMethod : IdlInstruction where
  name := "cancelDeposit"
  method := "cancel_deposit"
  accounts := [write "vault", write "depositor", read "authority", sign "user",
    write "userQuoteAccount", write "depositEscrow", read "tokenProgram"]
  args := []

/-- No signer. The record is needed where the epoch held its deposits. -/
def refundPendingDepositMethod : IdlInstruction where
  name := "refundPendingDeposit"
  method := "refund_pending_deposit"
  accounts := [write "vault", write "depositor", read "authority", write "userQuoteAccount",
    write "depositEscrow", read "tokenProgram", writeOptional "epochRecord"]
  args := []

/-- No signer. -/
def claimDepositMethod : IdlInstruction where
  name := "claimDeposit"
  method := "claim_deposit"
  accounts := [write "vault", write "depositor", write "epochRecord", read "authority",
    write "shareMint", write "userShareAccount", read "token2022Program"]
  args := []

/-- The shares are burnt when the ticket is made. -/
def requestWithdrawMethod : IdlInstruction where
  name := "requestWithdraw"
  method := "request_withdraw"
  accounts := [write "vault", write "depositor", sign "user", write "shareMint",
    write "userShareAccount", read "token2022Program"]
  args := [("shares", .u64)]

/-- The shares are minted again. -/
def cancelWithdrawMethod : IdlInstruction where
  name := "cancelWithdraw"
  method := "cancel_withdraw"
  accounts := [write "vault", write "depositor", read "authority", sign "user", write "shareMint",
    write "userShareAccount", read "token2022Program"]
  args := []

/-- No signer. The payout is in escrow since the batch was funded. -/
def claimWithdrawalMethod : IdlInstruction where
  name := "claimWithdrawal"
  method := "claim_withdrawal"
  accounts := [read "vault", write "depositor", write "epochRecord", read "authority",
    write "redemptionEscrow", write "userQuoteAccount", read "tokenProgram"]
  args := []

/-- The accounts that both closes of an epoch list after the funding window, which only `closeEpochV4`
has. -/
def closeEpochAccounts : List IdlAccountItem := [
  write "vault", write "epochRecord", writeOptional "deferredTailRecord", read "authority",
  pay "payer", fermiFlow, write "depositEscrow", write "redemptionEscrow", write "shareMint",
  write "feeShareAccount", write "idleAccount", read "token2022Program", read "systemProgram"]

/-- Closes and funds the first batches of the queue at one price. Their records follow. -/
def closeEpochV4Method : IdlInstruction where
  name := "closeEpochV4"
  method := "close_epoch_v4"
  accounts := write "fundingWindow" :: closeEpochAccounts
  args := [("deferredBatchCount", .u8)]

/-- Without the authority, unlike the triggers. -/
def extendPartialUnwindV2Method : IdlInstruction where
  name := "extendPartialUnwindV2"
  method := "extend_partial_unwind_v2"
  accounts := [write "vault", sign "signer", fermiCore, write "headRecord"]
  args := [("reductionBps", .u16)]

/-- No signer: the funding window says that the head may be funded. -/
def fundHeadV2Method : IdlInstruction where
  name := "fundHeadV2"
  method := "fund_head_v2"
  accounts := [write "vault", read "fundingWindow", write "headRecord", read "authority", fermiFlow,
    write "redemptionEscrow", write "shareMint", write "feeShareAccount", write "idleAccount",
    read "token2022Program"]
  args := []

/-- No signer. The record of a deferred head may be left out. -/
def sweepIdleV2Method : IdlInstruction where
  name := "sweepIdleV2"
  method := "sweep_idle_v2"
  accounts := [readOptional "headRecord", read "shareMint", read "vault", read "authority",
    fermiFlow, write "idleAccount"]
  args := [("maxAmount", .u64)]

/-- No signer: the core refuses a slot that is not flat. -/
def deactivatePerpPositionMethod : IdlInstruction where
  name := "deactivatePerpPosition"
  method := "deactivate_perp_position"
  accounts := [read "vault", read "authority", fermiCore, read "perpMarket"]
  args := []

/-- No signer. -/
def checkBreakerMethod : IdlInstruction where
  name := "checkBreaker"
  method := "check_breaker"
  accounts := [write "vault", read "authority", fermiFlow, read "shareMint", write "idleAccount"]
  args := []

/-- The accounts are those of `checkBreaker`, behind the admin. -/
def resetBreakerMethod : IdlInstruction where
  name := "resetBreaker"
  method := "reset_breaker"
  accounts := [write "vault", sign "admin", read "authority", fermiFlow, read "shareMint",
    write "idleAccount"]
  args := []

/-- The markets follow. -/
def cancelOrdersMethod : IdlInstruction where
  name := "cancelOrders"
  method := "cancel_orders"
  accounts := [read "vault", read "authority", fermiCore, sign "signer"]
  args := []

/-- The markets and the sidecar follow. -/
def triggerUnwindMethod : IdlInstruction where
  name := "triggerUnwind"
  method := "trigger_unwind"
  accounts := [write "vault", read "authority", fermiCore, read "shareMint",
    readOptional "deferredRecord", sign "signer"]
  args := [("full", .bool)]

/-- No signer. One market is traded in a step. -/
def unwindStepV2Method : IdlInstruction where
  name := "unwindStepV2"
  method := "unwind_step_v2"
  accounts := [read "vault", read "authority", fermiCore, write "perpMarket", write "bids",
    write "asks", write "eventQueue", read "oracle"]
  args := [("maxBaseLots", .i64)]

/-- Both token accounts are of the same mint. -/
def rescueForeignTokenMethod : IdlInstruction where
  name := "rescueForeignToken"
  method := "rescue_foreign_token"
  accounts := [read "vault", read "authority", sign "admin", read "mint", write "source",
    write "destination", read "tokenProgram"]
  args := [("amount", .u64)]

/-- The balance leaves the core, hence the health accounts that follow. -/
def clearForeignCoreTokenMethod : IdlInstruction where
  name := "clearForeignCoreToken"
  method := "clear_foreign_core_token"
  accounts := [read "vault", read "authority", sign "admin", fermiCore, write "bank",
    write "bankVault", read "oracle", read "mint", write "destination", read "tokenProgram"]
  args := []

/-- No signer. -/
def finishUnwindMethod : IdlInstruction where
  name := "finishUnwind"
  method := "finish_unwind"
  accounts := [write "vault", read "authority", fermiFlow, read "shareMint",
    write "redemptionEscrow", write "idleAccount"]
  args := []

/-- Paid from the redemption escrow, without an epoch. -/
def terminalRedeemMethod : IdlInstruction where
  name := "terminalRedeem"
  method := "terminal_redeem"
  accounts := [write "vault", write "depositor", read "authority", pay "user",
    write "userQuoteAccount", write "userShareAccount", write "shareMint", write "redemptionEscrow",
    read "tokenProgram", read "token2022Program", read "systemProgram"]
  args := [("shares", .u64)]

/-- The recovery has parameters of its own. -/
def stageRecoveryParamsMethod : IdlInstruction where
  name := "stageRecoveryParams"
  method := "stage_recovery_params"
  accounts := [write "vault", sign "admin"]
  args := recoveryParamsFields

/-- Takes no arguments: the parameters are those that were staged. -/
def applyRecoveryParamsMethod : IdlInstruction where
  name := "applyRecoveryParams"
  method := "apply_recovery_params"
  accounts := [write "vault", sign "admin"]
  args := []

/-- A proposal does not touch the core account yet. -/
def proposeDelegateMethod : IdlInstruction where
  name := "proposeDelegate"
  method := "propose_delegate"
  accounts := [write "vault", sign "admin"]
  args := [("delegate", .publicKey)]

/-- Reaches the core account. -/
def activateDelegateMethod : IdlInstruction where
  name := "activateDelegate"
  method := "activate_delegate"
  accounts := [write "vault", read "authority", fermiCore, sign "signer"]
  args := []

/-- The accounts are those of the activation. -/
def removeDelegateMethod : IdlInstruction where
  name := "removeDelegate"
  method := "remove_delegate"
  accounts := [write "vault", read "authority", fermiCore, sign "signer"]
  args := []

/-- Two bytes of flags: those to set and those to clear. -/
def setStatusMethod : IdlInstruction where
  name := "setStatus"
  method := "set_status"
  accounts := [write "vault", sign "signer"]
  args := [("setFlags", .u8), ("clearFlags", .u8)]

/-- All parameters are staged together. -/
def stageParamsV3Method : IdlInstruction where
  name := "stageParamsV3"
  method := "stage_params_v3"
  accounts := [write "vault", sign "admin"]
  args := vaultParamsFields

/-- A change of the fees appends the pricing accounts. -/
def applyParamsMethod : IdlInstruction where
  name := "applyParams"
  method := "apply_params"
  accounts := [write "vault", sign "admin"]
  args := []

/-- The guardian and the recipient of fees. -/
def setRolesMethod : IdlInstruction where
  name := "setRoles"
  method := "set_roles"
  accounts := [write "vault", sign "admin"]
  args := [("guardian", .publicKey), ("feeRecipient", .publicKey)]

/-- The old admin signs. -/
def proposeAdminMethod : IdlInstruction where
  name := "proposeAdmin"
  method := "propose_admin"
  accounts := [write "vault", sign "admin"]
  args := [("newAdmin", .publicKey)]

/-- The new admin signs, not the old one. -/
def acceptAdminMethod : IdlInstruction where
  name := "acceptAdmin"
  method := "accept_admin"
  accounts := [write "vault", sign "newAdmin"]
  args := []

/-- The sidecar follows. -/
def abortUnwindMethod : IdlInstruction where
  name := "abortUnwind"
  method := "abort_unwind"
  accounts := [write "vault", sign "admin"]
  args := []

/-- Creates the core account and the sidecar. -/
def initFermiAccountV4Method : IdlInstruction where
  name := "initFermiAccountV4"
  method := "init_fermi_account_v4"
  accounts := [write "vault", read "authority", fermiCore, write "recoveryTargets", pay "admin",
    read "systemProgram"]
  args := [("perpCount", .u8), ("perpOoCount", .u8), ("tokenCount", .u8)]

/-- Funds the deferred head at the current price, no lower than its close. -/
def cureDeferredV2Method : IdlInstruction where
  name := "cureDeferredV2"
  method := "cure_deferred_v2"
  accounts := [write "vault", write "headRecord", read "authority", sign "signer", fermiFlow,
    write "redemptionEscrow", write "shareMint", write "feeShareAccount", read "token2022Program",
    write "idleAccount"]
  args := []

/-- The accounts are those of `triggerUnwind`. -/
def triggerPartialUnwindMethod : IdlInstruction where
  name := "triggerPartialUnwind"
  method := "trigger_partial_unwind"
  accounts := [write "vault", read "authority", fermiCore, read "shareMint",
    readOptional "deferredRecord", sign "signer"]
  args := [("fractionBps", .u16)]

/-- Redeemed at once, before graduation. -/
def permissionedWithdrawMethod : IdlInstruction where
  name := "permissionedWithdraw"
  method := "permissioned_withdraw"
  accounts := [write "vault", write "depositor", sign "user", write "userQuoteAccount",
    write "userShareAccount", pricing]
  args := [("shares", .u64), ("minQuote", .u64)]

/-- The user does not sign: anyone may pay for the record. -/
def initDepositorMethod : IdlInstruction where
  name := "initDepositor"
  method := "init_depositor"
  accounts := [read "vault", read "user", write "depositor", pay "payer", read "systemProgram"]
  args := []

/-- Funds the deferred head at the price of its own close. -/
def cureDeferredMethod : IdlInstruction where
  name := "cureDeferred"
  method := "cure_deferred"
  accounts := [write "vault", write "headRecord", read "authority", sign "signer", fermiFlow,
    write "redemptionEscrow", read "shareMint", write "idleAccount"]
  args := []

/-- A buyer pays quote for inventory of the core account. -/
def recoverTokenMethod : IdlInstruction where
  name := "recoverToken"
  method := "recover_token"
  accounts := [read "vault", read "authority", fermiFlow, sign "buyer", write "buyerQuoteAccount",
    write "buyerTokenAccount", write "idleAccount", write "inventoryBank",
    write "inventoryBankVault", read "inventoryOracle"]
  args := [("amount", .u64), ("maxQuote", .u64)]

/-- The same close without a funding window. -/
def closeEpochV3Method : IdlInstruction where
  name := "closeEpochV3"
  method := "close_epoch_v3"
  accounts := closeEpochAccounts
  args := [("deferredBatchCount", .u8)]

/-- `idl/flp_vault_v4.json`. -/
def FLP_V4_METHODS : List IdlInstruction := [
  expandMarketCapacityMethod, initializeVaultV4Method, seedVaultV4Method, preDepositV3Method,
  preWithdrawV3Method, setDepositPermissionMethod, permissionedDepositMethod, graduateMethod,
  claimPreDepositMethod, requestDepositMethod, cancelDepositMethod, refundPendingDepositMethod,
  claimDepositMethod, requestWithdrawMethod, cancelWithdrawMethod, claimWithdrawalMethod,
  closeEpochV4Method, extendPartialUnwindV2Method, fundHeadV2Method, sweepIdleV2Method,
  deactivatePerpPositionMethod, checkBreakerMethod, resetBreakerMethod, cancelOrdersMethod,
  triggerUnwindMethod, unwindStepV2Method, rescueForeignTokenMethod, clearForeignCoreTokenMethod,
  finishUnwindMethod, terminalRedeemMethod, stageRecoveryParamsMethod, applyRecoveryParamsMethod,
  proposeDelegateMethod, activateDelegateMethod, removeDelegateMethod, setStatusMethod,
  stageParamsV3Method, applyParamsMethod, setRolesMethod, proposeAdminMethod, acceptAdminMethod,
  abortUnwindMethod, initFermiAccountV4Method, cureDeferredV2Method, triggerPartialUnwindMethod,
  permissionedWithdrawMethod, initDepositorMethod]

/-- `idl/flp_vault.json`, the instructions that `FlpClient` builds. -/
def FLP_METHODS : List IdlInstruction := [
  abortUnwindMethod, applyParamsMethod, cancelDepositMethod, cancelWithdrawMethod,
  checkBreakerMethod, claimDepositMethod, claimPreDepositMethod, claimWithdrawalMethod,
  closeEpochV3Method, cureDeferredMethod, deactivatePerpPositionMethod, expandMarketCapacityMethod,
  graduateMethod, initDepositorMethod, initFermiAccountV4Method, permissionedDepositMethod,
  permissionedWithdrawMethod, preDepositV3Method, preWithdrawV3Method, recoverTokenMethod,
  refundPendingDepositMethod, requestDepositMethod, requestWithdrawMethod, resetBreakerMethod,
  setDepositPermissionMethod, terminalRedeemMethod, triggerPartialUnwindMethod, triggerUnwindMethod]

end FermiSdk
