import FermiSdk.Intents.Payload
import FermiSdk.Solana

/-!
# Interface descriptions

`src/flp/idl`: what the two interface descriptions of the vault program consist of. An instruction has
the accounts that it takes, as a tree, and its arguments; an account type has its fields with their
widths, as they stand one after another behind a discriminator of eight bytes.
-/

namespace FermiSdk

open FermiSdk.Lib

/-! ## Instructions -/

/-- An account with its privileges, or a group of accounts under a name. -/
inductive IdlAccountItem where
  | account (name : String) (isMut isSigner isOptional : Bool)
  | accounts (name : String) (items : List IdlAccountItem)

/-- An account of an instruction under its dot path. -/
structure IdlAccount where
  path : String
  isMut : Bool
  isSigner : Bool
  isOptional : Bool

mutual

/-- The accounts of an item in the order in which `visit` meets them. -/
def IdlAccountItem.visit : IdlAccountItem → String → List IdlAccount
  | .account name isMut isSigner isOptional, path =>
    [{ path := path ++ name, isMut, isSigner, isOptional }]
  | .accounts name items, path => visitItems items (path ++ name ++ ".")

/-- The items of a group, one after another. -/
def IdlAccountItem.visitItems : List IdlAccountItem → String → List IdlAccount
  | [], _ => []
  | item :: items, path => item.visit path ++ visitItems items path

end

/-- A scalar type of the descriptions. -/
inductive IdlType where
  | bool
  | u8
  | u16
  | u32
  | u64
  | i64
  | publicKey
  deriving DecidableEq

/-- A value that a caller passes for an argument; `bn` is one of `BN`. -/
inductive IdlValue where
  | undefined
  | bool (value : Bool)
  | number (value : JsNumber)
  | bn (value : Int)
  | publicKey (value : PublicKey)
  deriving DecidableEq

/-- The arguments that a caller names. A struct is named by its fields under dot paths. -/
abbrev NamedArgs := String → IdlValue

/-- No argument is named. -/
def NamedArgs.empty : NamedArgs := fun _ => .undefined

/-- The arguments of an object literal. -/
def NamedArgs.of (args : List (String × IdlValue)) : NamedArgs := fun name =>
  (args.lookup name).getD .undefined

/-- An instruction of a description. -/
structure IdlInstruction where
  name : String
  /-- The name in snake case, from which the discriminator is made. -/
  method : String
  accounts : List IdlAccountItem
  args : List (String × IdlType)

/-- The accounts in the order in which they are passed. -/
def IdlInstruction.paths (definition : IdlInstruction) : List IdlAccount :=
  IdlAccountItem.visitItems definition.accounts ""

/-! ## Account types -/

/-- An account type, with the width of each field. A struct of which a field is read is listed by its
fields under dot paths. -/
structure IdlAccountType where
  name : String
  fields : List (String × Nat)

/-- `BorshAccountsCoder.accountDiscriminator`. -/
def accountDiscriminator (rt : Runtime) (name : String) : Bytes :=
  (rt.sha256 (Buffer.ofAscii ("account:" ++ name))).bytes.take 8

theorem length_accountDiscriminator (rt : Runtime) (name : String) :
    (accountDiscriminator rt name).length = 8 := by
  rw [accountDiscriminator, List.length_take, Bytes32.size]
  rfl

/-- `EpochRecord` of both descriptions; `nav` is a struct of six integers of eight bytes. -/
def epochRecordType : IdlAccountType where
  name := "EpochRecord"
  fields := [
    ("vault", 32), ("epoch", 8), ("bump", 1), ("closedAt", 8), ("closedSlot", 8), ("nav", 48),
    ("supply", 8), ("mgmtFeeShares", 8), ("perfFeeShares", 8), ("depGross", 8), ("depNet", 8),
    ("depNum", 16), ("depDen", 16), ("depShares", 8), ("depClaimedNet", 8),
    ("depClaimedShares", 8), ("wdShares", 8), ("wdStatus", 1), ("wdFeeBps", 2),
    ("wdCloseNum", 16), ("wdCloseDen", 16), ("wdNum", 16), ("wdDen", 16), ("wdGross", 8),
    ("wdFee", 8), ("wdSettledAt", 8), ("wdClaimedShares", 8), ("wdClaimedUsdc", 8), ("netted", 8),
    ("nextDeferred", 8)]

/-- `Vault` of both descriptions. -/
def vaultType : IdlAccountType where
  name := "Vault"
  fields := [
    ("version", 1), ("bump", 1), ("authorityBump", 1), ("shareMintBump", 1), ("status", 1),
    ("vaultId", 2), ("quoteTokenIndex", 2), ("group", 32), ("fermiAccount", 32), ("quoteBank", 32),
    ("quoteMint", 32), ("shareMint", 32), ("depositEscrow", 32), ("redemptionEscrow", 32),
    ("admin", 32), ("pendingAdmin", 32), ("guardian", 32), ("feeRecipient", 32), ("delegate", 32),
    ("pendingDelegate", 32), ("pendingDelegateEta", 8),
    ("params.epochDurationS", 4), ("params.requestCutoffS", 4), ("params.timelockS", 4),
    ("params.mgmtFeeBps", 2), ("params.perfFeeBps", 2), ("params.depositFeeBps", 2),
    ("params.withdrawFeeBps", 2), ("params.upnlHaircutBps", 2),
    ("params.minPostWithdrawInitRatioBps", 2), ("params.breakerDrawdownBps", 2),
    ("params.breakerMinInitRatioBps", 2), ("params.breakerWindowS", 4), ("params.tvlCap", 8),
    ("params.minDeposit", 8), ("params.minWithdrawShares", 8),
    ("pendingParams", 56), ("pendingParamsEta", 8), ("epoch", 8), ("epochStartedAt", 8),
    ("pending", 160), ("owedUnmintedShares", 8), ("lockedShares", 8), ("deadShares", 8),
    ("deferredHead", 8), ("deferredTail", 8), ("hwmPriceE12", 16), ("lastFeeAccrualTs", 8),
    ("lastNav", 48), ("breakerRefPriceE12", 16), ("breakerRefTs", 8), ("stats", 52),
    ("nextRequestId", 8), ("preDepositTotal", 8), ("liveStartedAt", 8),
    ("recoveryParams.graceProportionalS", 4), ("recoveryParams.graceFullS", 4),
    ("recoveryParams.oracleBandBps", 2), ("recoveryParams.maxStepQuote", 8),
    ("pendingRecoveryParams", 18), ("pendingRecoveryEta", 8),
    ("unwind.mode", 1), ("unwind.batchEpoch", 8), ("unwind.startedAt", 8),
    ("unwind.marketIndexes", 8), ("unwind.targetBaseLots", 32),
    ("terminalAssets", 8), ("terminalSupply", 8), ("heldDeposits", 8), ("graduationNum", 16),
    ("graduationDen", 16), ("graduationRemainingQuote", 8), ("graduationRemainingShares", 8),
    ("reserved", 67)]

/-- `RecoveryTargets` of both descriptions. -/
def recoveryTargetsType : IdlAccountType where
  name := "RecoveryTargets"
  fields := [
    ("vault", 32), ("mode", 1), ("batchEpoch", 8), ("startedAt", 8), ("marketIndexes", 26),
    ("targetBaseLots", 104)]

/-- `Depositor` of both descriptions; `dep` and `wd` are tickets. -/
def depositorType : IdlAccountType where
  name := "Depositor"
  fields := [
    ("vault", 32), ("user", 32), ("bump", 1),
    ("dep.requestId", 8), ("dep.epoch", 8), ("dep.amount", 8), ("dep.aux", 8),
    ("wd.requestId", 8), ("wd.epoch", 8), ("wd.amount", 8), ("wd.aux", 8),
    ("sharesHeld", 8), ("costBasis", 8), ("realizedPnl", 8), ("totalDeposited", 8),
    ("totalWithdrawn", 8), ("firstDepositTs", 8), ("lastActionTs", 8), ("preDepositAmount", 8),
    ("depositApproved", 1), ("reserved", 55)]

/-- `FundingWindow`, which only version 4 has. -/
def fundingWindowType : IdlAccountType where
  name := "FundingWindow"
  fields := [
    ("vault", 32), ("version", 1), ("closedEpoch", 8), ("scheduledStart", 8), ("deadline", 8),
    ("eligible", 1)]

end FermiSdk
