import FermiSdk.Addresses
import FermiSdk.Flp.Client

/-!
# Vault state

What `src/flp/index.ts` and `src/flp/v4.ts` read of a vault: the account itself with the extension
in its reserved bytes, the recovery sidecar, the funding window and the depositors' records, and what
the clients conclude from them. A read of two accounts takes two requests, between which the chain
may change: the second connection (`later`) is the one that answers the second request.
-/

namespace FermiSdk

open FermiSdk.Lib

/-- A recovery has a target for each perp slot. -/
def MAX_VAULT_PERPS : Nat := 13

/-- The window after the scheduled end in which a close funds batches. Zero in the reserved bytes is
the minimum. -/
def MIN_EQUITY_WINDOW_S : UInt32 := 300
def MAX_EQUITY_WINDOW_S : Nat := 7200
def MAX_EQUITY_WINDOW_EPOCH_DIVISOR : Nat := 4

/-- The two bits of `STATUS` that concern public deposits. -/
def STATUS_PRE_DEPOSIT : UInt8 := 8
def STATUS_PUBLIC_DEPOSITS_PAUSED : UInt8 := 64

/-! `FUNDING_FAILURE` and `V4_FUNDING_FAILURE`. -/

/-- The failures that open recovery to anyone. Version 4 has only the shortage of cash. -/
def FUNDING_FAILURE_SPOT_QUOTE_SHORT : UInt8 := 2
def FUNDING_FAILURE_HEALTH_FLOOR : UInt8 := 3
def V4_FUNDING_FAILURE_CASH_SHORTAGE : UInt8 := 2

/-! ## The extension -/

/-- What later versions of the program keep in the reserved bytes, as fields. -/
def decodeVaultExtension (state : VaultState) : Throws VaultState := do
  let bytes := state.reserved
  throwIf (bytes.length ≠ 67) "Unsupported Vault extension"
  let at8 (i : Nat) : UInt8 := bytes.getD i 0
  let readUInt32LE (i : Nat) : UInt32 := UInt32.ofNat (leNat ((bytes.drop i).take 4))
  throwIf (1 < at8 18) "Unsupported recovery capability"
  let window := readUInt32LE 10
  pure { state with
    expandedRecovery := some (at8 18 = 1)
    headSkipReason := some (at8 19)
    headEligibleFailTs := some (leInt ((bytes.drop 20).take 8))
    delegateRestore := some (← PublicKey.ofBytes ((bytes.drop 28).take 32))
    restoreDepositsOpen := some (at8 60 &&& 1 ≠ 0)
    equityWindowS := some (if window = 0 then MIN_EQUITY_WINDOW_S else window)
    scheduledTiming := some {
      enabled := at8 0 ≠ 0
      epochDurationS := readUInt32LE 1
      requestCutoffS := readUInt32LE 5 } }

/-! ## Reads -/

/-- The targets of a recovery replace the four that fit into the vault. -/
def UnwindState.withTargets (unwind : UnwindState) (targets : RecoveryTargets) : UnwindState :=
  { unwind with
    marketIndexes := targets.marketIndexes
    targetBaseLots := targets.targetBaseLots }

/-- The sidecar belongs to the recovery that the vault is in. -/
def RecoveryTargets.Matches (targets : RecoveryTargets) (unwind : UnwindState) : Prop :=
  targets.mode = unwind.mode ∧ targets.batchEpoch = unwind.batchEpoch ∧
    targets.startedAt = unwind.startedAt
  deriving Decidable

namespace FlpClient

variable (rt : Runtime) (client : FlpClient)

/-- In an expanded recovery the targets are those of the sidecar, which is read after the vault. -/
def fetchVault (later : Connection) (address : PublicKey) : Throws VaultState := do
  let decoded ← client.fetch vaultType BorshCoder.decodeVault address
  let state ← decodeVaultExtension decoded
  throwIf (state.version ≠ 3) s!"Unsupported vault version: {state.version}"
  if state.expandedRecovery = some true ∧ state.unwind.mode ≠ 0 then do
    let sidecar ← deriveRecoveryTargets rt client.programId address
    match later.getAccountInfo sidecar with
    | none => throw "Missing or wrong-owner recovery targets"
    | some info => do
      throwIf (info.owner ≠ client.programId) "Missing or wrong-owner recovery targets"
      throwIf (info.data.length ≠ 187) "Unsupported recovery target layout"
      let targets ← client.coder.decodeRecoveryTargets info.data
      throwIf (targets.vault ≠ address ∨ ¬ targets.Matches state.unwind)
        "Recovery changed; refresh vault state"
      pure { state with unwind := state.unwind.withTargets targets }
  else pure state

/-- The record is not compared with the vault and the user. -/
def fetchDepositor (vault user : PublicKey) : Throws DepositorAccount := do
  client.fetch depositorType BorshCoder.decodeDepositor
    (← deriveDepositor rt client.programId vault user)

end FlpClient

/-- `fundingWindowIsCurrent`. A `u64` cannot be negative or longer than 64 bits. -/
def fundingWindowIsCurrent (window : FundingWindowAccount) (vault : PublicKey)
    (state : VaultState) : Bool :=
  window.version = 1 && window.vault = vault && window.closedEpoch.toNat < 2 ^ 64 - 1 &&
    window.closedEpoch.toNat + 1 = state.epoch.toNat

/-- Both ends of the window are in it. -/
def fundingWindowIsOpen (window : FundingWindowAccount) (now : Int) : Bool :=
  window.eligible && window.scheduledStart ≤ now && now ≤ window.deadline

namespace FlpV4Client

variable (rt : Runtime) (client : FlpV4Client)

/-- The client, when another connection answers. -/
def answeredBy (later : Connection) : FlpV4Client :=
  { client with shared := { client.shared with connection := later } }

/-- A vault with a core account has a sidecar, which must name the vault in or out of recovery. -/
def fetchVault (later : Connection) (vault : PublicKey) : Throws VaultState := do
  let decoded ← client.fetch vaultType BorshCoder.decodeVault vault
  let state ← decodeVaultExtension decoded
  throwIf (state.version ≠ 4) "Expected a fresh v4 vault"
  throwIf (state.fermiAccount ≠ PublicKey.default ∧ state.expandedRecovery ≠ some true)
    "Expected a v4 recovery sidecar"
  if state.fermiAccount ≠ PublicKey.default then do
    let sidecar ← deriveRecoveryTargets rt client.programId vault
    let targets ← (client.answeredBy later).fetch recoveryTargetsType
      BorshCoder.decodeRecoveryTargets sidecar
    throwIf (targets.vault ≠ vault) "Recovery target vault mismatch"
    if state.unwind.mode ≠ 0 then do
      throwIf (¬ targets.Matches state.unwind) "Recovery changed; refresh vault state"
      pure { state with unwind := state.unwind.withTargets targets }
    else pure state
  else pure state

/-- The record must be that of the vault and the user. -/
def fetchDepositor (vault user : PublicKey) : Throws DepositorAccount := do
  let address ← deriveDepositor rt client.programId vault user
  let record ← client.fetch depositorType BorshCoder.decodeDepositor address
  throwIf (record.vault ≠ vault ∨ record.user ≠ user) "Depositor identity mismatch"
  pure record

/-- A window of another generation is as good as none. -/
def fetchFundingWindow (vault : PublicKey) (state : VaultState) :
    Throws FundingWindowAccount := do
  let address ← deriveFundingWindow rt client.programId vault
  let window ← client.fetch fundingWindowType BorshCoder.decodeFundingWindow address
  throwIf (!fundingWindowIsCurrent window vault state)
    "Funding window changed; refresh vault state"
  pure window

end FlpV4Client

/-! ## What a client concludes -/

/-- The phase of a vault, as `vaultMode` reads it off the status. -/
inductive VaultMode where
  | preDeposit
  | live
  | unwind
  | closed
  deriving DecidableEq

/-- A closed vault is closed even if it never graduated. -/
def vaultMode (status : UInt8) : VaultMode :=
  if status &&& STATUS_CLOSED ≠ 0 then .closed
  else if status &&& STATUS_PRE_DEPOSIT ≠ 0 then .preDeposit
  else if status &&& STATUS_UNWIND ≠ 0 then .unwind
  else .live

/-- The longest funding window: two hours, or a quarter of the epoch if that is longer. -/
def maxEquityWindowSeconds (epochDurationS : JsNumber) : Throws Nat := do
  let seconds ← checkUnsigned (.number epochDurationS) 32 "Use bigint or BN for large integers"
    "Value does not fit u32"
  pure (max MAX_EQUITY_WINDOW_S (seconds.toNat / MAX_EQUITY_WINDOW_EPOCH_DIVISOR))

/-- `scheduledEpochTiming`: the duration and the cutoff that apply at the close of the epoch. -/
def scheduledEpochTiming (state : VaultState) : Throws (Option (UInt32 × UInt32)) := do
  let timing ← match state.scheduledTiming with
    | some timing => pure (some timing)
    | none => do pure (← decodeVaultExtension state).scheduledTiming
  pure (timing.bind fun timing =>
    if timing.enabled then some (timing.epochDurationS, timing.requestCutoffS) else none)

/-! ### Staged parameters -/

/-- The parameters that an admin stages. -/
structure VaultParamsInput where
  epochDurationS : JsNumber
  requestCutoffS : JsNumber
  timelockS : JsNumber
  mgmtFeeBps : JsNumber
  perfFeeBps : JsNumber
  depositFeeBps : JsNumber
  withdrawFeeBps : JsNumber
  upnlHaircutBps : JsNumber
  minPostWithdrawInitRatioBps : JsNumber
  breakerDrawdownBps : JsNumber
  breakerMinInitRatioBps : JsNumber
  breakerWindowS : JsNumber
  tvlCap : Int
  minDeposit : Int
  minWithdrawShares : Int
  equityWindowS : JsNumber
  deriving DecidableEq

/-- `x <= n`. -/
def JsNumber.atMost (x : JsNumber) (n : Nat) : Bool :=
  match x with
  | .int value => value ≤ n
  | .frac value _ => value ≤ n
  | .nan => false
  | .infinity negative => negative

/-- The duration and the cutoff that apply next. -/
def nextTiming (p : LegacyVaultParams) (timing : ScheduledTiming) : UInt32 × UInt32 :=
  if timing.enabled then (timing.epochDurationS, timing.requestCutoffS)
  else (p.epochDurationS, p.requestCutoffS)

/-- No current LP can lose by the change: `favourable`. -/
def favourableChange (p : LegacyVaultParams) (equityWindowS : Option UInt32)
    (timing : ScheduledTiming) (next : VaultParamsInput) : Bool :=
  next.mgmtFeeBps.atMost p.mgmtFeeBps.toNat && next.perfFeeBps.atMost p.perfFeeBps.toNat &&
    next.depositFeeBps.atMost p.depositFeeBps.toNat &&
    next.withdrawFeeBps.atMost p.withdrawFeeBps.toNat &&
    next.minDeposit ≤ p.minDeposit.toNat && next.minWithdrawShares ≤ p.minWithdrawShares.toNat &&
    next.epochDurationS = .int (nextTiming p timing).1.toNat &&
    next.requestCutoffS = .int (nextTiming p timing).2.toNat &&
    next.timelockS = .int p.timelockS.toNat && next.upnlHaircutBps = .int p.upnlHaircutBps.toNat &&
    next.minPostWithdrawInitRatioBps = .int p.minPostWithdrawInitRatioBps.toNat &&
    next.breakerDrawdownBps = .int p.breakerDrawdownBps.toNat &&
    next.breakerMinInitRatioBps = .int p.breakerMinInitRatioBps.toNat &&
    next.breakerWindowS = .int p.breakerWindowS.toNat &&
    some next.equityWindowS = equityWindowS.map fun window => .int window.toNat

/-- The wait of a staged change. The timing that is scheduled counts like the one in force. -/
def stagedParamsDelaySeconds (state : VaultState) (next : VaultParamsInput) : Throws Nat := do
  let extended ← if state.scheduledTiming = none then decodeVaultExtension state else pure state
  let p := extended.params
  match extended.scheduledTiming with
  | none => throw "Cannot read properties of undefined (reading 'enabled')"
  | some timing =>
    if favourableChange p extended.equityWindowS timing next then pure p.timelockS.toNat
    else
      let pending :=
        if timing.enabled then timing.epochDurationS.toNat + timing.requestCutoffS.toNat else 0
      pure (max (max p.timelockS.toNat (p.epochDurationS.toNat + p.requestCutoffS.toNat)) pending)

/-! ### Recovery by anyone -/

/-- The state with its extension, which is decoded unless it is there already. -/
def withHeadFailure (state : VaultState) : Throws VaultState :=
  if state.headSkipReason = none then decodeVaultExtension state else pure state

namespace FlpClient

/-- `permissionlessTriggerAt` of `index.ts`. -/
def permissionlessTriggerAt (state : VaultState) (full : Bool) : Throws (Option Int) := do
  let extended ← withHeadFailure state
  match extended.headEligibleFailTs with
  | none => throw "Cannot read properties of undefined (reading 'isZero')"
  | some since =>
    pure (
      if since = 0 ∨ extended.headSkipReason ≠ some FUNDING_FAILURE_SPOT_QUOTE_SHORT ∧
          extended.headSkipReason ≠ some FUNDING_FAILURE_HEALTH_FLOOR then none
      else if full ∧ state.unwind.mode ≠ 1 then none
      else some (since + (if full then state.recoveryParams.graceFullS
        else state.recoveryParams.graceProportionalS).toNat))

end FlpClient

namespace FlpV4Client

/-- `permissionlessTriggerAt` of `v4.ts`. -/
def permissionlessTriggerAt (state : VaultState) (full : Bool) : Throws (Option Int) := do
  requireV4 state.toVaultAccount
  let current ← withHeadFailure state
  pure (
    match current.headEligibleFailTs with
    | none => none
    | some since =>
      if current.headSkipReason ≠ some V4_FUNDING_FAILURE_CASH_SHORTAGE ∨ since ≤ 0 then none
      else if full ∧ current.unwind.mode ≠ 1 then none
      else some (since + (if full then state.recoveryParams.graceFullS
        else state.recoveryParams.graceProportionalS).toNat))

end FlpV4Client

end FermiSdk
