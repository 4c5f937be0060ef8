import FermiSdk.Flp.Coder
import FermiSdk.Flp.Instructions

/-!
# Vault clients

`FlpClient` of `src/flp/index.ts` and `FlpV4Client` of `src/flp/v4.ts`: reading an account, building an
instruction, and `closeEpoch`. What the two clients share (`fetchAccount`, `buildInstruction`, the walk
along the deferred queue) is one definition here, and each client's function is that definition at
its interface description and its messages.
-/

namespace FermiSdk

open FermiSdk.Lib

/-- No epoch: the largest `u64`. -/
def NONE_EPOCH : UInt64 := 18446744073709551615

/-- How many deferred batches one close may drain, and how many it does if the caller does not say.
-/
def MAX_EQUITY_BATCHES : Nat := 8
def DEFAULT_EQUITY_BATCHES : Nat := 2

/-- Where the account of a perp market has its event queue. -/
def PERP_MARKET_EVENT_QUEUE_OFFSET : Nat := 128

/-! `STATUS`. -/

/-- The bits of a status. Those of public deposits are in `Flp/Vault`. -/
def STATUS_DEPOSITS_PAUSED : UInt8 := 1
def STATUS_WITHDRAWALS_PAUSED : UInt8 := 2
def STATUS_BREAKER : UInt8 := 4
def STATUS_UNWIND : UInt8 := 16
def STATUS_CLOSED : UInt8 := 32

/-- `TokenzQdBNbLqP5VEhdkAS6EPFLC1PHnBqCXEpPxuEb`. -/
def TOKEN_2022_PROGRAM_ID : PublicKey :=
  ⟨[6, 221, 246, 225, 238, 117, 143, 222, 24, 66, 93, 188, 228, 108, 205, 218,
    182, 26, 252, 77, 131, 185, 13, 39, 254, 189, 249, 40, 216, 161, 139, 252], rfl⟩

/-! ## Derived addresses -/

/-- An unsigned integer of `bits` bits. -/
def checkUnsigned (value : BigNumberish) (bits : Nat) (unsafeText rangeText : String) :
    Throws Int := do
  let n ← match value with
    | .bigint n => pure n
    | .number x => do
      throwIf (!x.isSafeInteger) unsafeText
      x.toBigInt
  throwIf (n < 0 ∨ 2 ^ bits ≤ n) rangeText
  pure n

/-- `unsigned` of `index.ts`. -/
def unsigned (value : BigNumberish) (bytes : Nat) : Throws Bytes := do
  let n ← checkUnsigned value (8 * bytes) "Use bigint or BN for large integers"
    s!"Value does not fit u{8 * bytes}"
  pure (leBytes bytes n.toNat)

/-- `uint` of `v4.ts`. -/
def uint (value : BigNumberish) (bits : Nat) : Throws Int :=
  checkUnsigned value bits "Expected a safe integer" s!"Expected u{bits}"

section

variable (rt : Runtime) (programId vault : PublicKey)

/-- The record of a closed epoch. -/
def deriveEpoch (epoch : BigNumberish) : Throws PublicKey := do
  rt.findProgramAddressSync
    [Buffer.ofAscii "flp-epoch", vault.bytes, ← unsigned epoch 8] programId

/-- The sidecar of a vault, which has room for the targets of all its markets. -/
def deriveRecoveryTargets : Throws PublicKey :=
  rt.findProgramAddressSync [Buffer.ofAscii "flp-recovery", vault.bytes] programId

/-- The account that says until when the head of the queue may be funded. -/
def deriveFundingWindow : Throws PublicKey :=
  rt.findProgramAddressSync [Buffer.ofAscii "funding_window", vault.bytes] programId

/-- `authority` of both clients. -/
def deriveAuthority : Throws PublicKey :=
  rt.findProgramAddressSync [Buffer.ofAscii "flp-authority", vault.bytes] programId

/-- The record of the deferred tail, or the program id for an empty queue. -/
def deferredRecordOr (epoch : UInt64) : Throws PublicKey :=
  if epoch = NONE_EPOCH then pure programId
  else deriveEpoch rt programId vault (.bigint epoch.toNat)

/-- A recovery sidecar. -/
def recoverySidecar (isWritable : Bool) : Throws (List AccountMeta) := do
  pure [{ pubkey := ← deriveRecoveryTargets rt programId vault, isSigner := false, isWritable }]

end

/-! ## Reading an account -/

/-- `fetch` of both clients; they differ in the text for a missing account. -/
def fetchAccount {α : Type} (coder : BorshCoder) (connection : Connection) (programId : PublicKey)
    (definition : IdlAccountType) (missing : String) (decode : Bytes → Throws α)
    (address : PublicKey) : Throws α :=
  match connection.getAccountInfo address with
  | none => throw missing
  | some account => do
    throwIf (account.owner ≠ programId) missing
    throwIf (account.data.length ≠ coder.size definition) s!"Unsupported {definition.name} layout"
    decode account.data

/-! ## Building an instruction -/

/-- The accounts that a caller names, by their dot paths. -/
abbrev NamedAccounts := String → Option PublicKey

/-- No account is named. -/
def NamedAccounts.empty : NamedAccounts := fun _ => none

/-- The accounts of an object literal. -/
def NamedAccounts.of (accounts : List (String × PublicKey)) : NamedAccounts := fun path =>
  accounts.lookup path

/-- `{ ...accounts, ...own }`. -/
def NamedAccounts.set (accounts : NamedAccounts) (own : List (String × PublicKey)) :
    NamedAccounts := fun path => (own.lookup path).or (accounts path)

/-- `{ ...accounts, ...own }`. -/
def NamedAccounts.over (own accounts : NamedAccounts) : NamedAccounts := fun path =>
  (own path).or (accounts path)

/-- The meta of one account of an instruction. An omitted optional account is passed as the program
id, read-only. -/
def namedMeta (programId : PublicKey) (missing : String → String) (accounts : NamedAccounts)
    (item : IdlAccount) : Throws AccountMeta :=
  match accounts item.path with
  | some pubkey =>
    if item.isOptional ∧ pubkey = programId then
      pure { pubkey := programId, isSigner := false, isWritable := false }
    else pure { pubkey, isSigner := item.isSigner, isWritable := item.isMut }
  | none =>
    if item.isOptional then
      pure { pubkey := programId, isSigner := false, isWritable := false }
    else throw (missing item.path)

/-- `instruction` of both clients, which differ in the description and in the texts of errors. -/
def buildInstruction (coder : BorshCoder) (programId : PublicKey) (methods : List IdlInstruction)
    (unknown missing : String → String) (name : String) (accounts : NamedAccounts)
    (args : NamedArgs) (remaining : List AccountMeta) : Throws TransactionInstruction :=
  match methods.find? fun method => method.name = name with
  | none => throw (unknown name)
  | some definition => do
    let keys ← definition.paths.mapM (namedMeta programId missing accounts)
    pure {
      programId := programId
      keys := keys ++ remaining
      data := ← coder.encode name args }

/-! ## Event queues -/

/-- The map from an account to its event queue, or to null for an account that is not a perp market,
in insertion order. -/
abbrev MarketQueues := List (PublicKey × Option PublicKey)

/-- The event queue of an account that is a perp market. -/
def marketQueue (rt : Runtime) (account : Option AccountInfo) : Option PublicKey := do
  let data := (← account).data.take (PERP_MARKET_EVENT_QUEUE_OFFSET + 32)
  if data.length < PERP_MARKET_EVENT_QUEUE_OFFSET + 32 ∨
      data.take 8 ≠ accountDiscriminator rt "PerpMarket" then none
  else (PublicKey.ofBytes (data.drop PERP_MARKET_EVENT_QUEUE_OFFSET)).toOption

/-- The metas of the queues in `known` for the accounts of `health`, one for each account. -/
def queueMetas (known : MarketQueues) : List PublicKey → List AccountMeta → List AccountMeta
  | _, [] => []
  | seen, account :: health =>
    match (known.lookup account.pubkey).join with
    | none => queueMetas known seen health
    | some queue =>
      if account.pubkey ∈ seen then queueMetas known seen health
      else
        { pubkey := queue, isSigner := false, isWritable := false } ::
          queueMetas known (account.pubkey :: seen) health

/-- The map with the accounts of `health` that it does not know yet. -/
def learnQueues (rt : Runtime) (connection : Connection) (marketQueues : MarketQueues)
    (health : List AccountMeta) : MarketQueues :=
  let unknown := (health.map (·.pubkey)).eraseDups.filter fun key =>
    (marketQueues.lookup key).isNone
  marketQueues ++ unknown.map fun key => (key, marketQueue rt (connection.getAccountInfo key))

/-! ## The deferred queue -/

/-- The loop of both clients: the metas of the records from `next` on, at most `room` of them. -/
def deferredBatches (rt : Runtime) (programId vault : PublicKey)
    (fetchEpoch : UInt64 → Throws EpochAccount) :
    (room : Nat) → (seen : List UInt64) → (next : UInt64) → Throws (List AccountMeta)
  | 0, _, _ => pure []
  | room + 1, seen, next =>
    if next = NONE_EPOCH then pure []
    else do
      throwIf (next ∈ seen) "Invalid deferred queue cycle"
      let record ← fetchEpoch next
      throwIf (record.vault ≠ vault ∨ record.epoch ≠ next ∨ record.wdStatus ≠ 2)
        "Deferred queue changed; refresh vault state"
      let pubkey ← deriveEpoch rt programId vault (.bigint next.toNat)
      let batches ←
        deferredBatches rt programId vault fetchEpoch room (next :: seen) record.nextDeferred
      pure ({ pubkey, isSigner := false, isWritable := true } :: batches)

/-! ## The clients -/

/-- A client of version 3 vaults, with the event queues that it has learnt. -/
structure FlpClient where
  connection : Connection
  programId : PublicKey
  coder : BorshCoder
  marketQueues : MarketQueues

namespace FlpClient

variable (rt : Runtime) (client : FlpClient)

/-- A missing account is named in the error by its dot path. -/
def instruction (name : String) (accounts : NamedAccounts) (args : NamedArgs)
    (remaining : List AccountMeta) : Throws TransactionInstruction :=
  buildInstruction client.coder client.programId FLP_METHODS
    (fun name => s!"Unknown FLP instruction: {name}") (fun path => s!"Missing FLP account: {path}")
    name accounts args remaining

/-- The text for a missing account has the address. -/
def fetch {α : Type} (definition : IdlAccountType) (decode : BorshCoder → Bytes → Throws α)
    (address : PublicKey) : Throws α :=
  fetchAccount client.coder client.connection client.programId definition
    s!"Missing or wrong-owner {definition.name}: {address.toBase58}" (decode client.coder) address

/-- The record is not compared with what was asked for: `deferredBatches` does that. -/
def fetchEpoch (vault : PublicKey) (epoch : UInt64) : Throws EpochAccount := do
  let address ← deriveEpoch rt client.programId vault (.bigint epoch.toNat)
  client.fetch epochRecordType BorshCoder.decodeEpochRecord address

/-- The metas, and the client with the queues it has learnt. -/
def eventQueueMetas (health : List AccountMeta) : List AccountMeta × FlpClient :=
  let known := learnQueues rt client.connection client.marketQueues health
  (queueMetas known [] health, { client with marketQueues := known })

/-- `health` followed by its event queues. -/
def withEventQueues (health : List AccountMeta) : List AccountMeta × FlpClient :=
  let (queues, client') := client.eventQueueMetas rt health
  (health ++ queues, client')

/-- Only expanded vaults have a sidecar. -/
def recoveryMetas (vault : PublicKey) (state : VaultAccount) (writable : Bool) :
    Throws (List AccountMeta) :=
  if state.expandedRecovery.getD false then recoverySidecar rt client.programId vault writable
  else pure []

/-- Fetches the head of the queue and what follows it, and appends the event queues after `health`.
A vault with a sidecar has it last; the program reads it only in a recovery. -/
def closeEpoch (vault : PublicKey) (state : VaultAccount) (accounts : NamedAccounts)
    (health : List AccountMeta) (maxBatches : Option JsNumber) :
    Throws (TransactionInstruction × FlpClient) := do
  let maxBatches := maxBatches.getD (.int DEFAULT_EQUITY_BATCHES)
  throwIf (!maxBatches.isIntegerIn 1 MAX_EQUITY_BATCHES)
    s!"maxBatches must be 1 to {MAX_EQUITY_BATCHES}"
  let room ← maxBatches.toBigInt
  let batches ← deferredBatches rt client.programId vault (client.fetchEpoch rt vault) room.toNat []
    state.deferredHead
  let accounts := accounts.set [
    ("vault", vault),
    ("epochRecord", ← deriveEpoch rt client.programId vault (.bigint state.epoch.toNat)),
    ("deferredTailRecord", ← deferredRecordOr rt client.programId vault state.deferredTail),
    ("depositEscrow", state.depositEscrow),
    ("redemptionEscrow", state.redemptionEscrow),
    ("shareMint", state.shareMint)]
  let (queues, client') := client.eventQueueMetas rt health
  let recovery ← client.recoveryMetas rt vault state true
  let ix ← client.instruction "closeEpochV3" accounts
    (.of [("deferredBatchCount", .number (.int batches.length))])
    (batches ++ health ++ queues ++ recovery)
  pure (ix, client')

end FlpClient

/-- A client of version 4 vaults. Its connection and program id are those of the client that it
shares the discovery of queues with; the coder is its own. -/
structure FlpV4Client where
  shared : FlpClient
  coder : BorshCoder

namespace FlpV4Client

variable (rt : Runtime) (client : FlpV4Client)

/-- The program is that of the shared client. -/
abbrev programId : PublicKey := client.shared.programId

/-- The same with the description and the texts of version 4. -/
def instruction (name : String) (accounts : NamedAccounts) (args : NamedArgs)
    (remaining : List AccountMeta) : Throws TransactionInstruction :=
  buildInstruction client.coder client.programId FLP_V4_METHODS
    (fun name => s!"Unknown FLP v4 instruction: {name}")
    (fun path => s!"Missing FLP v4 account: {path}") name accounts args remaining

/-- Without the address in the text. -/
def fetch {α : Type} (definition : IdlAccountType) (decode : BorshCoder → Bytes → Throws α)
    (address : PublicKey) : Throws α :=
  fetchAccount client.coder client.shared.connection client.programId definition
    s!"Missing or wrong-owner {definition.name}" (decode client.coder) address

/-- The record must be the one that was asked for. -/
def fetchEpoch (vault : PublicKey) (epoch : UInt64) : Throws EpochAccount := do
  let generation ← uint (.bigint epoch.toNat) 64
  let address ← deriveEpoch rt client.programId vault (.bigint generation)
  let record ← client.fetch epochRecordType BorshCoder.decodeEpochRecord address
  throwIf (record.vault ≠ vault ∨ record.epoch ≠ epoch) "Epoch identity mismatch"
  pure record

/-- The check that most builders make first. -/
def requireV4 (state : VaultAccount) : Throws Unit :=
  throwIf (state.version ≠ 4) "Expected a fresh v4 vault"

/-- `health` followed by its event queues. -/
def withEventQueues (health : List AccountMeta) : List AccountMeta × FlpV4Client :=
  let (queues, shared) := client.shared.eventQueueMetas rt health
  (health ++ queues, { client with shared })

/-- Every version 4 vault has its sidecar. -/
def recoveryMetas (vault : PublicKey) (writable : Bool) : Throws (List AccountMeta) :=
  recoverySidecar rt client.programId vault writable

/-- `state.status & STATUS.unwind ? this.recoveryMetas(vault, writable) : []`. -/
def unwindMetas (vault : PublicKey) (state : VaultAccount) (writable : Bool) :
    Throws (List AccountMeta) :=
  if state.status &&& STATUS_UNWIND ≠ 0 then client.recoveryMetas rt vault writable else pure []

/-- What the client derives replaces what the caller names. -/
def flowAccounts (vault : PublicKey) (state : VaultAccount) (accounts : NamedAccounts) :
    Throws NamedAccounts := do
  requireV4 state
  pure (accounts.set [
    ("vault", vault),
    ("authority", ← deriveAuthority rt client.programId vault),
    ("fundingWindow", ← deriveFundingWindow rt client.programId vault),
    ("headRecord", ← deferredRecordOr rt client.programId vault state.deferredHead),
    ("shareMint", state.shareMint),
    ("depositEscrow", state.depositEscrow),
    ("redemptionEscrow", state.redemptionEscrow),
    ("token2022Program", TOKEN_2022_PROGRAM_ID),
    ("systemProgram", PublicKey.default)])

/-- The sidecar is appended only in a recovery, and the flow accounts have the head already. -/
def closeEpoch (vault : PublicKey) (state : VaultAccount) (accounts : NamedAccounts)
    (health : List AccountMeta) (maxBatches : Option JsNumber) :
    Throws (TransactionInstruction × FlpV4Client) := do
  let maxBatches := maxBatches.getD (.int DEFAULT_EQUITY_BATCHES)
  throwIf (!maxBatches.isIntegerIn 1 MAX_EQUITY_BATCHES) "Unsupported deferred batch count"
  let room ← maxBatches.toBigInt
  let batches ← deferredBatches rt client.programId vault (client.fetchEpoch rt vault)
    room.toNat [] state.deferredHead
  let flow ← client.flowAccounts rt vault state accounts
  let accounts := flow.set [
    ("epochRecord", ← deriveEpoch rt client.programId vault (.bigint state.epoch.toNat)),
    ("deferredTailRecord", ← deferredRecordOr rt client.programId vault state.deferredTail)]
  let (queued, client') := client.withEventQueues rt health
  let recovery ← client.unwindMetas rt vault state true
  let ix ← client.instruction "closeEpochV4" accounts
    (.of [("deferredBatchCount", .number (.int batches.length))]) (batches ++ queued ++ recovery)
  pure (ix, client')

end FlpV4Client

end FermiSdk
