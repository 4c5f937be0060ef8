import FermiSdk.Intents.Payload

/-!
# Accounts, signed messages and enqueue instructions

`src/intents.ts`, second part. A signed message is the SHA-256 of a preimage: a domain text followed
by keys, integers and the hashes of the payload and of the account list. Each preimage has its own
definition (`…Preimage`), so that what is hashed can be stated.

The map of flags that `mergeEffectiveRuntimeFlags` builds is keyed by the base58 text of a key; here
it is keyed by the key, which comes to the same (`PublicKey.ofBase58_toBase58`).
-/

namespace FermiSdk.Intents

open FermiSdk.Lib

/-- The domains keep the messages of two kinds apart; the seeds do so for the addresses. -/
def USER_INTENT_DOMAIN : String := "mango-v5-user-intent-v2"
def LEGACY_USER_INTENT_DOMAIN : String := "mango-v4-user-intent-v2"
def EXECUTION_QUEUE_V5_SEED : Bytes := Buffer.ofAscii "execution-queue-v5"
def EXECUTION_QUEUE_V5_DIRECT_SEED : Bytes := Buffer.ofAscii "execution-queue-v5-direct"

/-! ## Account lists -/

/-- A key and its two flags. -/
def accountBytes (account : AccountMeta) : Bytes :=
  account.pubkey.bytes ++
    [if account.isSigner then 1 else 0, if account.isWritable then 1 else 0]

/-- The bytes hashed by `hashExecutionQueueAccounts`. -/
def executionQueueAccountsPreimage (accounts : List AccountMeta) : Bytes :=
  accounts.flatMap accountBytes

/-- The privileges of a key in a transaction. -/
structure RuntimeFlags where
  isSigner : Bool
  isWritable : Bool
  deriving DecidableEq

/-- One turn of the merging loop. -/
def mergeAccount (merged : PublicKey → Option RuntimeFlags) (account : AccountMeta) :
    PublicKey → Option RuntimeFlags := fun key =>
  if key = account.pubkey then
    match merged key with
    | none => some { isSigner := account.isSigner, isWritable := account.isWritable }
    | some prev => some {
        isSigner := prev.isSigner || account.isSigner
        isWritable := prev.isWritable || account.isWritable }
  else merged key

/-- A key has one set of flags in a transaction, so all of its occurrences show the same. -/
def mergeEffectiveRuntimeFlags (remainingAccounts fixedAccounts : List AccountMeta) :
    List AccountMeta :=
  let merged := (fixedAccounts ++ remainingAccounts).foldl mergeAccount fun _ => none
  remainingAccounts.map fun account =>
    match merged account.pubkey with
    | none => account
    | some effective => {
        pubkey := account.pubkey
        isSigner := effective.isSigner
        isWritable := effective.isWritable }

/-- The list hashed by `hashExecutionQueueAccountsForCtmEnqueue`. -/
def accountsForCtmEnqueue (group executionQueue : PublicKey)
    (remainingAccounts : List AccountMeta) : List AccountMeta :=
  mergeEffectiveRuntimeFlags remainingAccounts [
    { pubkey := group, isSigner := false, isWritable := true },
    { pubkey := executionQueue, isSigner := false, isWritable := true },
    { pubkey := SYSVAR_INSTRUCTIONS_PUBKEY, isSigner := false, isWritable := false }]

/-- The list hashed by `hashExecutionQueueAccountsForV5DirectEnqueue`. -/
def accountsForV5DirectEnqueue (group executionQueue : PublicKey)
    (remainingAccounts : List AccountMeta) (userOwner : PublicKey) : List AccountMeta :=
  let effectiveRemaining := remainingAccounts.map fun account =>
    if account.pubkey = group ∨ account.pubkey = executionQueue then
      { pubkey := account.pubkey, isSigner := false, isWritable := true }
    else if account.pubkey = SYSVAR_INSTRUCTIONS_PUBKEY then
      { pubkey := account.pubkey, isSigner := false, isWritable := false }
    else account
  match effectiveRemaining.findIdx? fun account => account.pubkey = userOwner with
  | none => effectiveRemaining
  | some ownerIndex => effectiveRemaining.modify ownerIndex fun owner =>
      { pubkey := owner.pubkey, isSigner := false, isWritable := false }

/-! ## Program addresses -/

/-- One account for a group. -/
def executionQueueAuthorityStateSeeds (group : PublicKey) : List Bytes :=
  [Buffer.ofAscii "queue-authority", group.bytes]

/-- One queue for each market of a group. -/
def executionQueueV5Seeds (group : PublicKey) (marketIndex : JsNumber) : Throws (List Bytes) := do
  pure [EXECUTION_QUEUE_V5_SEED, group.bytes, ← u16ToLe marketIndex]

/-- The pool beside the queue, for direct submissions. -/
def executionQueueV5DirectSeeds (group : PublicKey) (marketIndex : JsNumber) :
    Throws (List Bytes) := do
  pure [EXECUTION_QUEUE_V5_DIRECT_SEED, group.bytes, ← u16ToLe marketIndex]

section

variable (rt : Runtime)

/-- The address of these seeds under the program, as below. -/
def findExecutionQueueAuthorityStatePda (programId group : PublicKey) : Throws PublicKey :=
  rt.findProgramAddressSync (executionQueueAuthorityStateSeeds group) programId

def findExecutionQueueV5Pda (programId group : PublicKey) (marketIndex : JsNumber) :
    Throws PublicKey := do
  rt.findProgramAddressSync (← executionQueueV5Seeds group marketIndex) programId

def findExecutionQueueV5DirectPda (programId group : PublicKey) (marketIndex : JsNumber) :
    Throws PublicKey := do
  rt.findProgramAddressSync (← executionQueueV5DirectSeeds group marketIndex) programId

/-! ## Hashes -/

/-- The first eight bytes of the hash of the name. -/
def anchorInstructionDiscriminator (ixName : String) : Bytes :=
  (rt.sha256 (Buffer.ofAscii ("global:" ++ ixName))).bytes.take 8

/-- The payload is hashed by itself, since messages carry only its hash. -/
def hashExecutionQueuePayload (payload : Bytes) : Digest := rt.sha256 payload

/-- Every entry counts, and so does their order. -/
def hashExecutionQueueAccounts (accounts : List AccountMeta) : Digest :=
  rt.sha256 (executionQueueAccountsPreimage accounts)

/-- The accounts as the relayer's transaction will have them. -/
def hashExecutionQueueAccountsForCtmEnqueue (group executionQueue : PublicKey)
    (remainingAccounts : List AccountMeta) : Digest :=
  hashExecutionQueueAccounts rt (accountsForCtmEnqueue group executionQueue remainingAccounts)

/-- The accounts as the program sees them in a direct submission. -/
def hashExecutionQueueAccountsForV5DirectEnqueue (group executionQueue : PublicKey)
    (remainingAccounts : List AccountMeta) (userOwner : PublicKey) : Digest :=
  hashExecutionQueueAccounts rt
    (accountsForV5DirectEnqueue group executionQueue remainingAccounts userOwner)

end

/-! ## Signed messages -/

/-- The older message, which has neither the accounts nor the slots. -/
structure PerpUserIntentMessageV2Params where
  group : PublicKey
  fermiAccount : PublicKey
  userOwner : PublicKey
  marketIndex : JsNumber
  payload : Bytes
  kind : Option JsNumber

/-- The message for the relayer. A slot that is left out is zero. -/
structure PerpUserIntentMessageV3Params where
  group : PublicKey
  fermiAccount : PublicKey
  userOwner : PublicKey
  marketIndex : JsNumber
  payload : Bytes
  accountsHash : Bytes
  minExecuteSlot : Option BigNumberish
  expiresAtSlot : Option BigNumberish
  clientOrderId : BigNumberish
  kind : Option JsNumber

/-- What makes a nonce of a user unique. -/
structure UserNonceReplayHashParams where
  group : PublicKey
  fermiAccount : PublicKey
  userOwner : PublicKey
  kind : JsNumber
  marketIndex : JsNumber
  nonce : BigNumberish

/-- The message of a direct submission. -/
structure DirectIntentMessageParams where
  group : PublicKey
  fermiAccount : PublicKey
  userOwner : PublicKey
  kind : JsNumber
  marketIndex : JsNumber
  payloadHash : Bytes
  accountsHash : Bytes
  expiresAtSlot : BigNumberish
  nonce : BigNumberish

/-- The message with the hash of its payload, which is sent beside it. -/
structure UserIntentMessage where
  payloadHash : Digest
  userIntentMessage : Digest

section

variable (rt : Runtime)

/-- The hash of the payload ends the preimage. -/
def perpUserIntentPreimageV2 (params : PerpUserIntentMessageV2Params) : Throws Bytes := do
  let payloadHash := hashExecutionQueuePayload rt params.payload
  pure (Buffer.concat [
    Buffer.ofAscii LEGACY_USER_INTENT_DOMAIN,
    params.group.bytes,
    params.fermiAccount.bytes,
    params.userOwner.bytes,
    ← u8 (params.kind.getD CtmWrapped),
    ← u8 UserIntentTargetKind.PerpMarket.toNumber,
    ← u16ToLe params.marketIndex,
    payloadHash.bytes])

/-- What a user signs in a transaction of their own. -/
def buildPerpUserIntentMessageV2 (params : PerpUserIntentMessageV2Params) :
    Throws UserIntentMessage := do
  pure { payloadHash := hashExecutionQueuePayload rt params.payload
         userIntentMessage := rt.sha256 (← perpUserIntentPreimageV2 rt params) }

/-- All fields have fixed widths, so the preimage needs no lengths. -/
def perpUserIntentPreimageV3 (params : PerpUserIntentMessageV3Params) : Throws Bytes := do
  throwIf (params.accountsHash.length ≠ 32) "accountsHash must be 32 bytes"
  let payloadHash := hashExecutionQueuePayload rt params.payload
  pure (Buffer.concat [
    Buffer.ofAscii USER_INTENT_DOMAIN,
    params.group.bytes,
    params.fermiAccount.bytes,
    params.userOwner.bytes,
    ← u8 (params.kind.getD CtmWrapped),
    ← u8 UserIntentTargetKind.PerpMarket.toNumber,
    ← u16ToLe params.marketIndex,
    payloadHash.bytes,
    params.accountsHash,
    ← u64ToLe (params.minExecuteSlot.getD (.number (.int 0))),
    ← u64ToLe (params.expiresAtSlot.getD (.number (.int 0))),
    ← u64ToLe params.clientOrderId])

/-- What a user signs for the relayer. -/
def buildPerpUserIntentMessageV3 (params : PerpUserIntentMessageV3Params) :
    Throws UserIntentMessage := do
  pure { payloadHash := hashExecutionQueuePayload rt params.payload
         userIntentMessage := rt.sha256 (← perpUserIntentPreimageV3 rt params) }

/-- The domain of this preimage is written out in the source. -/
def userNonceReplayPreimage (params : UserNonceReplayHashParams) : Throws Bytes := do
  pure (Buffer.concat [
    Buffer.ofAscii "mango-v5-user-nonce-v1",
    params.group.bytes,
    params.fermiAccount.bytes,
    params.userOwner.bytes,
    ← u8 params.kind,
    ← u8 UserIntentTargetKind.PerpMarket.toNumber,
    ← u16ToLe params.marketIndex,
    ← u64ToLe params.nonce])

/-- The key under which the program remembers a nonce. -/
def buildExecutionQueueV5UserNonceReplayHash (params : UserNonceReplayHashParams) :
    Throws Digest := do
  pure (rt.sha256 (← userNonceReplayPreimage params))

/-- The hashes are passed as bytes, so their lengths are checked. -/
def directIntentPreimage (params : DirectIntentMessageParams) : Throws Bytes := do
  throwIf (params.payloadHash.length ≠ 32) "payloadHash must be 32 bytes"
  throwIf (params.accountsHash.length ≠ 32) "accountsHash must be 32 bytes"
  pure (Buffer.concat [
    Buffer.ofAscii "mango-v5-direct-intent-v1",
    params.group.bytes,
    params.fermiAccount.bytes,
    params.userOwner.bytes,
    ← u8 params.kind,
    ← u8 UserIntentTargetKind.PerpMarket.toNumber,
    ← u16ToLe params.marketIndex,
    params.payloadHash,
    params.accountsHash,
    ← u64ToLe params.expiresAtSlot,
    ← u64ToLe params.nonce])

/-- What a user signs for a direct submission. -/
def buildExecutionQueueV5DirectIntentMessage (params : DirectIntentMessageParams) :
    Throws Digest := do
  pure (rt.sha256 (← directIntentPreimage params))

/-! ## Signing -/

/-- A secret key that signs here, or a signature from elsewhere. -/
inductive IntentSigner where
  | keypair (privateKey : Bytes) (publicKey : Option Bytes)
  | presigned (publicKey : PublicKey) (signature : Bytes)

/-- A secret key is followed by its public key. -/
def signIntentMessage (privateKey message : Bytes) : Throws Bytes := do
  throwIf (privateKey.length ≠ 64) "privateKey must be 64 bytes"
  pure (rt.sign message privateKey)

/-- The instruction that has the chain verify the signature. Without a public key, the one in the
secret key is used. -/
def buildIntentEd25519Instruction (message : Bytes) :
    IntentSigner → Throws TransactionInstruction
  | .keypair privateKey publicKey => do
    throwIf (privateKey.length ≠ 64) "keypair privateKey must be 64 bytes"
    rt.createInstructionWithPublicKey
      (publicKey.getD ((privateKey.drop 32).take 32)) message (rt.sign message privateKey)
  | .presigned publicKey signature => do
    throwIf (signature.length ≠ 64) "presigned signature must be 64 bytes"
    rt.createInstructionWithPublicKey publicKey.bytes message signature

/-! ## Enqueue instructions -/

/-- What the older queue gets beside the payload. -/
structure CtmEnvelopeWire where
  sequence : Int
  minExecuteSlot : Int
  kind : JsNumber
  payloadHash : Bytes
  accountsHash : Bytes
  expiresAtSlot : Int

/-- The fields of one enqueue instruction of the older queue. -/
structure BuildExecutionQueueEnqueueDirectParams where
  programId : PublicKey
  group : PublicKey
  executionQueue : PublicKey
  marketIndex : JsNumber
  remainingAccounts : List AccountMeta
  envelope : CtmEnvelopeWire
  payload : Bytes

/-- The same before the envelope is made, with the signer. -/
structure BuildExecutionQueueEnqueueDirectWithIntentParams where
  programId : PublicKey
  group : PublicKey
  executionQueue : PublicKey
  marketIndex : JsNumber
  remainingAccounts : List AccountMeta
  payload : Bytes
  minExecuteSlot : Option BigNumberish
  expiresAtSlot : Option BigNumberish
  userOwner : PublicKey
  fermiAccount : PublicKey
  userSigner : IntentSigner

/-- The two instructions, with what was signed. -/
structure EnqueueDirectWithIntentIxs where
  envelope : CtmEnvelopeWire
  userIntentMessage : Digest
  userIntentPreInstruction : TransactionInstruction
  enqueueInstruction : TransactionInstruction

/-- The arguments of an enqueue instruction of the newer queue. -/
structure DirectEnqueueArgsV5Wire where
  payload : Bytes
  kind : JsNumber
  expiresAtSlot : BigNumberish
  nonce : BigNumberish

/-- The accounts of the newer queue with the arguments. -/
structure EnqueueDirectMarketParams where
  programId : PublicKey
  group : PublicKey
  authorityState : PublicKey
  queue : PublicKey
  directPool : PublicKey
  marketIndex : JsNumber
  args : DirectEnqueueArgsV5Wire
  remainingAccounts : List AccountMeta

/-- The same before the message is made, with the signer. -/
structure EnqueueDirectWithIntentParams where
  programId : PublicKey
  group : PublicKey
  authorityState : PublicKey
  queue : PublicKey
  directPool : PublicKey
  marketIndex : JsNumber
  remainingAccounts : List AccountMeta
  payload : Bytes
  kind : Option JsNumber
  expiresAtSlot : Option BigNumberish
  nonce : BigNumberish
  userOwner : PublicKey
  fermiAccount : PublicKey
  userSigner : IntentSigner

/-- The two instructions, with what was signed. -/
structure DirectWithIntentIxs where
  directIntentMessage : Digest
  userIntentPreInstruction : TransactionInstruction
  enqueueInstruction : TransactionInstruction

/-- The envelope in Borsh. -/
def encodeEnvelope (envelope : CtmEnvelopeWire) : Throws Bytes := do
  throwIf (envelope.payloadHash.length ≠ 32) "payloadHash must be 32 bytes"
  throwIf (envelope.accountsHash.length ≠ 32) "accountsHash must be 32 bytes"
  pure (Buffer.concat [
    ← u64ToLe (.bigint envelope.sequence),
    ← u64ToLe (.bigint envelope.minExecuteSlot),
    ← u8 envelope.kind,
    envelope.payloadHash,
    envelope.accountsHash,
    ← u64ToLe (.bigint envelope.expiresAtSlot)])

/-- The payload has its length in front. -/
def enqueueDirectData (params : BuildExecutionQueueEnqueueDirectParams) : Throws Bytes := do
  pure (Buffer.concat [
    anchorInstructionDiscriminator rt "execution_queue_enqueue_direct",
    ← u16ToLe params.marketIndex,
    ← encodeEnvelope params.envelope,
    ← u32ToLe (.int params.payload.length),
    params.payload])

/-- The program itself is the last account. -/
def buildExecutionQueueEnqueueDirectIx (params : BuildExecutionQueueEnqueueDirectParams) :
    Throws TransactionInstruction := do
  let data ← enqueueDirectData rt params
  pure {
    programId := params.programId
    keys := [
      { pubkey := params.group, isSigner := false, isWritable := true },
      { pubkey := params.executionQueue, isSigner := false, isWritable := true },
      { pubkey := SYSVAR_INSTRUCTIONS_PUBKEY, isSigner := false, isWritable := false }] ++
      params.remainingAccounts ++
      [{ pubkey := params.programId, isSigner := false, isWritable := false }]
    data := data }

/-- The signature comes before the instruction that relies on it. -/
def buildExecutionQueueEnqueueDirectWithIntentIxs
    (params : BuildExecutionQueueEnqueueDirectWithIntentParams) :
    Throws EnqueueDirectWithIntentIxs := do
  let message ← buildPerpUserIntentMessageV2 rt {
    group := params.group
    fermiAccount := params.fermiAccount
    userOwner := params.userOwner
    marketIndex := params.marketIndex
    payload := params.payload
    kind := none }
  let accountsHash := hashExecutionQueueAccountsForCtmEnqueue rt params.group
    params.executionQueue params.remainingAccounts
  let minExecuteSlot ← toBigInt (params.minExecuteSlot.getD (.number (.int 0)))
  let expiresAtSlot ← toBigInt (params.expiresAtSlot.getD (.number (.int 0)))
  let envelope := {
    sequence := 0
    minExecuteSlot := minExecuteSlot
    kind := CtmWrapped
    payloadHash := message.payloadHash.bytes
    accountsHash := accountsHash.bytes
    expiresAtSlot := expiresAtSlot }
  let userIntentPreInstruction ←
    buildIntentEd25519Instruction rt message.userIntentMessage.bytes params.userSigner
  let enqueueInstruction ← buildExecutionQueueEnqueueDirectIx rt {
    programId := params.programId
    group := params.group
    executionQueue := params.executionQueue
    marketIndex := params.marketIndex
    remainingAccounts := params.remainingAccounts
    envelope := envelope
    payload := params.payload }
  pure {
    envelope := envelope
    userIntentMessage := message.userIntentMessage
    userIntentPreInstruction, enqueueInstruction }

/-- No envelope here: the program hashes what it sees. -/
def enqueueDirectMarketData (params : EnqueueDirectMarketParams) : Throws Bytes := do
  pure (Buffer.concat [
    anchorInstructionDiscriminator rt "execution_queue_v5_enqueue_direct_market",
    ← u16ToLe params.marketIndex,
    ← u32ToLe (.int params.args.payload.length),
    params.args.payload,
    ← u8 params.args.kind,
    ← u64ToLe params.args.expiresAtSlot,
    ← u64ToLe params.args.nonce])

/-- Only the pool is written among the fixed accounts. -/
def buildExecutionQueueV5EnqueueDirectMarketIx (params : EnqueueDirectMarketParams) :
    Throws TransactionInstruction := do
  pure {
    programId := params.programId
    keys := [
      { pubkey := params.group, isSigner := false, isWritable := false },
      { pubkey := params.authorityState, isSigner := false, isWritable := false },
      { pubkey := params.queue, isSigner := false, isWritable := false },
      { pubkey := params.directPool, isSigner := false, isWritable := true },
      { pubkey := SYSVAR_INSTRUCTIONS_PUBKEY, isSigner := false, isWritable := false }] ++
      params.remainingAccounts
    data := ← enqueueDirectMarketData rt params }

/-- A direct intent must expire. The message and the instruction are made from the same fields. -/
def buildExecutionQueueV5EnqueueDirectWithIntentIxs (params : EnqueueDirectWithIntentParams) :
    Throws DirectWithIntentIxs := do
  let kind := params.kind.getD CtmWrapped
  throwIf (kind ≠ CtmWrapped) "v5 direct enqueue requires QueueItemKind.CtmWrapped"
  let payloadHash := hashExecutionQueuePayload rt params.payload
  let expiresAtSlot ← toBigInt (params.expiresAtSlot.getD (.number (.int 0)))
  throwIf (expiresAtSlot ≤ 0) "r9 direct intents require a non-zero expiresAtSlot"
  let accountsHash := hashExecutionQueueAccountsForV5DirectEnqueue rt params.group params.queue
    params.remainingAccounts params.userOwner
  let directIntentMessage ← buildExecutionQueueV5DirectIntentMessage rt {
    group := params.group
    fermiAccount := params.fermiAccount
    userOwner := params.userOwner
    kind := kind
    marketIndex := params.marketIndex
    payloadHash := payloadHash.bytes
    accountsHash := accountsHash.bytes
    expiresAtSlot := .bigint expiresAtSlot
    nonce := params.nonce }
  let userIntentPreInstruction ←
    buildIntentEd25519Instruction rt directIntentMessage.bytes params.userSigner
  let enqueueInstruction ← buildExecutionQueueV5EnqueueDirectMarketIx rt {
    programId := params.programId
    group := params.group
    authorityState := params.authorityState
    queue := params.queue
    directPool := params.directPool
    marketIndex := params.marketIndex
    args := {
      payload := params.payload
      kind := kind
      expiresAtSlot := .bigint expiresAtSlot
      nonce := params.nonce }
    remainingAccounts := params.remainingAccounts }
  pure { directIntentMessage, userIntentPreInstruction, enqueueInstruction }

end

end FermiSdk.Intents
