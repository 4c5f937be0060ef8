import FermiSdk.Flp.Idl

/-!
# Accounts and their coder

What the clients read of the accounts of the vault program, and the coder that they read and write
with. `BorshCoder` is anchor's: a client has the one that anchor makes from its interface description,
and here it is a parameter. What is documented of it is said where results rest on it
(`BorshCoder.Lawful`).

Integers that the descriptions declare with up to 64 bits and without a sign are fixed-width; the
`BN`s that hold them in the source cannot have another value.
-/

namespace FermiSdk

open FermiSdk.Lib

/-! ## Accounts -/

/-- What `closeEpoch` reads of a vault. A client fills in `expandedRecovery` from the reserved bytes. -/
structure VaultAccount where
  version : UInt8
  status : UInt8
  expandedRecovery : Option Bool
  epoch : UInt64
  deferredHead : UInt64
  deferredTail : UInt64
  shareMint : PublicKey
  depositEscrow : PublicKey
  redemptionEscrow : PublicKey
  deriving DecidableEq

/-- The parameters that are in effect. -/
structure LegacyVaultParams where
  epochDurationS : UInt32
  requestCutoffS : UInt32
  timelockS : UInt32
  mgmtFeeBps : UInt16
  perfFeeBps : UInt16
  depositFeeBps : UInt16
  withdrawFeeBps : UInt16
  upnlHaircutBps : UInt16
  minPostWithdrawInitRatioBps : UInt16
  breakerDrawdownBps : UInt16
  breakerMinInitRatioBps : UInt16
  breakerWindowS : UInt32
  tvlCap : UInt64
  minDeposit : UInt64
  minWithdrawShares : UInt64
  deriving DecidableEq

/-- How long a recovery waits, and what bounds its steps. -/
structure RecoveryParams where
  graceProportionalS : UInt32
  graceFullS : UInt32
  oracleBandBps : UInt16
  maxStepQuote : UInt64
  deriving DecidableEq

/-- The recovery that a vault is in; mode 0 is none, 1 a partial and 2 a full one. -/
structure UnwindState where
  mode : UInt8
  batchEpoch : UInt64
  startedAt : Int
  marketIndexes : List Nat
  targetBaseLots : List Int
  deriving DecidableEq

/-- The timing that takes effect at the close of the epoch, if it is enabled. -/
structure ScheduledTiming where
  enabled : Bool
  epochDurationS : UInt32
  requestCutoffS : UInt32
  deriving DecidableEq

/-- `VaultAccount` with all that the clients read of it. What `decodeVaultExtension` fills in is
optional, as is `params.equityWindowS`, which the legacy schema does not have. -/
structure VaultState extends VaultAccount where
  vaultId : UInt16
  group : PublicKey
  fermiAccount : PublicKey
  quoteBank : PublicKey
  quoteMint : PublicKey
  feeRecipient : PublicKey
  params : LegacyVaultParams
  equityWindowS : Option UInt32
  recoveryParams : RecoveryParams
  unwind : UnwindState
  headSkipReason : Option UInt8
  headEligibleFailTs : Option Int
  delegateRestore : Option PublicKey
  restoreDepositsOpen : Option Bool
  scheduledTiming : Option ScheduledTiming
  reserved : Bytes
  deriving DecidableEq

/-- What is read of the record of an epoch. A `u128` is a natural number here. -/
structure EpochAccount where
  vault : PublicKey
  epoch : UInt64
  wdStatus : UInt8
  nextDeferred : UInt64
  depGross : UInt64
  depDen : Nat
  deriving DecidableEq

/-- The sidecar of a vault, with room for the targets of every market. -/
structure RecoveryTargets where
  vault : PublicKey
  mode : UInt8
  batchEpoch : UInt64
  startedAt : Int
  marketIndexes : List Nat
  targetBaseLots : List Int
  deriving DecidableEq

/-- A request of a depositor, for a deposit or for a withdrawal. -/
structure Ticket where
  requestId : UInt64
  epoch : UInt64
  amount : UInt64
  aux : UInt64
  deriving DecidableEq

/-- The record of a user in a vault. -/
structure DepositorAccount where
  vault : PublicKey
  user : PublicKey
  bump : UInt8
  dep : Ticket
  wd : Ticket
  sharesHeld : UInt64
  costBasis : UInt64
  realizedPnl : Int
  totalDeposited : UInt64
  totalWithdrawn : UInt64
  firstDepositTs : Int
  lastActionTs : Int
  preDepositAmount : UInt64
  depositApproved : Bool
  deriving DecidableEq

/-- The time in which the deferred head of a version 4 vault can be funded. -/
structure FundingWindowAccount where
  vault : PublicKey
  version : UInt8
  closedEpoch : UInt64
  scheduledStart : Int
  deadline : Int
  eligible : Bool
  deriving DecidableEq

/-! ## The coder -/

/-- What the clients call of a `BorshCoder`. -/
structure BorshCoder where
  /-- `instruction.encode(name, args)`. -/
  encode : String → NamedArgs → Throws Bytes
  /-- `accounts.size(definition)`. -/
  size : IdlAccountType → Nat
  /-- `accounts.decode('Vault', data)`, and the same for the other account types. -/
  decodeVault : Bytes → Throws VaultState
  decodeEpochRecord : Bytes → Throws EpochAccount
  decodeRecoveryTargets : Bytes → Throws RecoveryTargets
  decodeDepositor : Bytes → Throws DepositorAccount
  decodeFundingWindow : Bytes → Throws FundingWindowAccount

end FermiSdk
