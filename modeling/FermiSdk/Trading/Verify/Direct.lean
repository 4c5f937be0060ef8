import FermiSdk.Intents.Verify.Payload
import FermiSdk.Trading.Verify.Wire

/-!
# What a direct cancellation asks for

A cancellation that is sent without the relayer is one enqueue instruction on the queue of the market,
behind the signature of the user. What the queue reads off it is the command that the caller asked
for, and the signature is of the message that is rebuilt from it (`direct_cancels`).
-/

namespace FermiSdk

open FermiSdk.Lib FermiSdk.Intents

/-- The accounts of an enqueue instruction: those of the queue, then the canonical ones. -/
structure DirectAccounts (rt : Runtime) (context : FermiV1Context) (marketIndex : JsNumber)
    (keys : List AccountMeta) : Prop where
  canonical : ∃ authorityState queue directPool remaining,
    findExecutionQueueAuthorityStatePda rt context.programId context.group.publicKey =
      .ok authorityState ∧
    findExecutionQueueV5Pda rt context.programId context.group.publicKey marketIndex = .ok queue ∧
    findExecutionQueueV5DirectPda rt context.programId context.group.publicKey marketIndex =
      .ok directPool ∧
    Context.buildCanonicalPerpRemainingAccounts context marketIndex = .ok remaining ∧
    keys = [⟨context.group.publicKey, false, false⟩, ⟨authorityState, false, false⟩,
      ⟨queue, false, false⟩, ⟨directPool, false, true⟩, ⟨SYSVAR_INSTRUCTIONS_PUBKEY, false, false⟩] ++
      remaining

/-- The command that the queue reads off the data of an enqueue instruction, with its market, the
slot until which it may wait, and its nonce. -/
def enqueuedCommand (data : Bytes) : Option (Int × QueuePayload × Int × Int) :=
  (enqueueData.decodeAll data).bind fun (_, marketIndex, payload, _, expiresAtSlot, nonce) =>
    (decodeQueuePayload payload).map fun command => (marketIndex, command, expiresAtSlot, nonce)

/-- A direct submission enqueues a command for the user of the context. -/
structure Enqueues (rt : Runtime) (context : FermiV1Context) (marketIndex : JsNumber)
    (expiresAtSlot : Option Int) (nonce : BigNumberish) (command : QueuePayload)
    (ixs : DirectWithIntentIxs) : Prop where
  programId : ixs.enqueueInstruction.programId = context.programId
  accounts : DirectAccounts rt context marketIndex ixs.enqueueInstruction.keys
  data : ∃ market expires n, marketIndex = .int market ∧
    Trading.directExpiry context expiresAtSlot = .ok expires ∧ 0 < expires ∧ nonce.Denotes n ∧
    enqueuedCommand ixs.enqueueInstruction.data = some (market, command, expires, n)
  message : directMessage rt ixs.enqueueInstruction context.user.publicKey
    context.fermiAccount.publicKey = some ixs.directIntentMessage
  signature : buildIntentEd25519Instruction rt ixs.directIntentMessage.bytes
    (.keypair context.user.secretKey none) = .ok ixs.userIntentPreInstruction

/-- The deployment may have pools, and the submission does not have to wait. -/
def DirectAllowed (context : FermiV1Context) (minExecuteSlot : Option Int) : Prop :=
  context.directPoolsInitialized ≠ some false ∧ minExecuteSlot.getD 0 = 0

section

variable {rt : Runtime} {context : FermiV1Context} {ixs : DirectWithIntentIxs}

/-- What an enqueue instruction is made of. -/
theorem enqueueInstruction_fields {params : EnqueueDirectWithIntentParams}
    (h : buildExecutionQueueV5EnqueueDirectWithIntentIxs rt params = .ok ixs) :
    ixs.enqueueInstruction.programId = params.programId ∧
      ixs.enqueueInstruction.keys = [⟨params.group, false, false⟩,
        ⟨params.authorityState, false, false⟩, ⟨params.queue, false, false⟩,
        ⟨params.directPool, false, true⟩, ⟨SYSVAR_INSTRUCTIONS_PUBKEY, false, false⟩] ++
        params.remainingAccounts ∧
      ∃ market expires n, params.marketIndex = .int market ∧
        toBigInt (params.expiresAtSlot.getD (.number (.int 0))) = .ok expires ∧ 0 < expires ∧
        toBigInt params.nonce = .ok n ∧
        enqueuedCommand ixs.enqueueInstruction.data =
          (decodeQueuePayload params.payload).map fun command => (market, command, expires, n) := by
  simp only [buildExecutionQueueV5EnqueueDirectWithIntentIxs,
    buildExecutionQueueV5EnqueueDirectMarketIx, Throws.bind_eq_ok, Throws.throwIf_eq_ok,
    exists_const, Throws.pure_eq_ok, not_le] at h
  obtain ⟨-, expires, hexpires, hpositive, _, -, _, -, _, ⟨data, hdata, rfl⟩, rfl⟩ := h
  obtain ⟨_, market, _, _, n, hmarket, -, hexpires', hn, hvalid, rfl⟩ :=
    enqueueDirectMarketData_eq_ok hdata
  cases hexpires'
  refine ⟨rfl, rfl, market, expires, n, hmarket, hexpires, hpositive, hn, ?_⟩
  rw [enqueuedCommand, enqueueData.decodeAll_encode hvalid]
  rfl

/-- A submission enqueues the command that its payload encodes. -/
theorem submitPerpIntentDirect_enqueues {params : Trading.PerpIntentDirectParams} {random : UInt64}
    {command : QueuePayload} (hpayload : decodeQueuePayload params.payload = some command)
    (h : Trading.submitPerpIntentDirect rt params random = .ok ixs) :
    DirectAllowed params.context params.minExecuteSlot ∧
      Enqueues rt params.context params.marketIndex params.expiresAtSlot
        (params.nonce.getD (.bigint random.toNat)) command ixs := by
  simp only [Trading.submitPerpIntentDirect, Throws.bind_eq_ok, Throws.throwIf_eq_ok, exists_const,
    not_not] at h
  obtain ⟨hpools, hslot, remaining, hremaining, state, hstate, queue, hqueue, pool, hpool, expires,
    hexpires, hixs⟩ := h
  obtain ⟨hmessage, hsignature⟩ := directIntent_signed hixs
  obtain ⟨hprogram, hkeys, market, expires', n, hmarket, hexpires', hpositive, hn, hdata⟩ :=
    enqueueInstruction_fields hixs
  cases hexpires'
  rw [hpayload] at hdata
  exact ⟨⟨hpools, hslot⟩, hprogram,
    ⟨state, queue, pool, remaining, hstate, hqueue, hpool, hremaining, hkeys⟩,
    ⟨market, expires, n, hmarket, hexpires, hpositive, BigNumberish.denotes_of_toBigInt hn, hdata⟩,
    hmessage, hsignature⟩

/-- **A direct cancellation enqueues what the caller asked for, under the user's signature.** -/
theorem direct_cancels (rt : Runtime) (context : FermiV1Context) (nonce : Option BigNumberish)
    (random : UInt64) (ixs : DirectWithIntentIxs) :
    (∀ params, Trading.cancelPerpOrderByClientIdDirect rt context params nonce random = .ok ixs →
      DirectAllowed context params.minExecuteSlot ∧ ∃ id, params.clientOrderId.Denotes id ∧
        Enqueues rt context params.marketIndex params.expiresAtSlot
          (nonce.getD (.bigint random.toNat)) (.cancelByClientOrderId id) ixs) ∧
    ∀ params, Trading.cancelAllPerpOrdersDirect rt context params nonce random = .ok ixs →
      DirectAllowed context params.minExecuteSlot ∧
        ∃ limit, params.limit.getD (.int 255) = .int limit ∧
          Enqueues rt context params.marketIndex params.expiresAtSlot
            (nonce.getD (.bigint random.toNat)) (.cancelAll limit) ixs := by
  refine ⟨fun params h => ?_, fun params h => ?_⟩
  · simp only [Trading.cancelPerpOrderByClientIdDirect, Throws.bind_eq_ok] at h
    obtain ⟨payload, hpayload, h⟩ := h
    obtain ⟨id, hid, hvalid, rfl⟩ := encodeCancelByClientOrderId_eq_ok.1 hpayload
    obtain ⟨hallowed, henqueues⟩ :=
      submitPerpIntentDirect_enqueues (decode_cancelByClientOrderId hvalid) h
    exact ⟨hallowed, id, BigNumberish.denotes_of_toBigInt hid, henqueues⟩
  · simp only [Trading.cancelAllPerpOrdersDirect, Throws.bind_eq_ok] at h
    obtain ⟨payload, hpayload, h⟩ := h
    obtain ⟨limit, hlimit, hvalid, rfl⟩ := encodeCancelAll_eq_ok.1 hpayload
    obtain ⟨hallowed, henqueues⟩ := submitPerpIntentDirect_enqueues (decode_cancelAll hvalid) h
    exact ⟨hallowed, limit, hlimit, henqueues⟩

end

/-! ## A recorded cancellation

The cancellation of all orders that is recorded for the relayer, sent directly at slot 0. -/

namespace RecordedDirect

open RecordedCancel
open TriggerOrders.Recorded (group fermiAccount signer)

def authorityState : PublicKey :=
  ⟨[148, 220, 78, 249, 233, 214, 85, 107, 60, 83, 26, 255, 43, 181, 37, 176, 196, 1, 129, 115,
    229, 46, 85, 210, 81, 217, 163, 89, 184, 135, 140, 173], rfl⟩

def directPool : PublicKey :=
  ⟨[114, 76, 135, 178, 5, 115, 172, 198, 171, 147, 173, 33, 21, 243, 252, 77, 215, 147, 44, 87,
    51, 46, 226, 174, 149, 236, 186, 136, 56, 140, 133, 97], rfl⟩

def directAccountsHash : PublicKey :=
  ⟨[226, 172, 47, 79, 124, 12, 130, 30, 247, 114, 24, 176, 45, 166, 80, 90, 96, 34, 9, 234, 28,
    55, 99, 187, 137, 12, 252, 135, 10, 29, 86, 52], rfl⟩

def directIntentHash : PublicKey :=
  ⟨[53, 128, 210, 126, 167, 149, 105, 212, 235, 46, 209, 101, 187, 125, 120, 236, 190, 11, 157,
    248, 201, 177, 219, 171, 92, 26, 145, 185, 239, 104, 186, 101], rfl⟩

def enqueueHash : Digest :=
  ⟨[162, 102, 225, 182, 10, 243, 164, 214, 99, 107, 138, 15, 203, 92, 164, 234, 177, 37, 125, 32,
    175, 120, 170, 158, 251, 162, 76, 66, 55, 73, 114, 60], rfl⟩

def signature : Bytes :=
  [56, 149, 151, 204, 248, 30, 241, 172, 249, 141, 194, 5, 30, 225, 191, 174, 151, 230, 165, 89,
    189, 135, 54, 221, 26, 208, 169, 81, 77, 32, 127, 2, 107, 35, 33, 220, 202, 234, 220, 148, 2,
    242, 143, 241, 169, 58, 166, 201, 205, 124, 206, 130, 247, 113, 243, 216, 214, 185, 113, 89,
    127, 167, 88, 7]

/-- The list as it is hashed: the group writable, everything else as it is sent. -/
def hashedAccounts : List AccountMeta :=
  ⟨group, false, true⟩ :: accounts.tail

def directIntentBytes : Bytes :=
  Buffer.ofAscii "mango-v5-direct-intent-v1" ++ group.bytes ++ fermiAccount.bytes ++
    signer.bytes ++ [0, 0, 2, 0] ++ payloadHash.bytes ++ directAccountsHash.bytes ++ leBytes 8 20 ++
    leBytes 8 5

/-- SHA-256, Ed25519 and the addresses of the queue on the recorded data. -/
def runtime : Runtime :=
  .ofTables
    [([1, 3, 0, 0, 255], payloadHash),
      (executionQueueAccountsPreimage hashedAccounts, directAccountsHash),
      (directIntentBytes, directIntentHash),
      (Buffer.ofAscii "global:execution_queue_v5_enqueue_direct_market", enqueueHash)]
    [(directIntentHash.bytes, secretKey, signer, signature)]
    [([Buffer.ofAscii "queue-authority", group.bytes], authorityState),
      ([Buffer.ofAscii "execution-queue-v5", group.bytes, [2, 0]], executionQueue),
      ([Buffer.ofAscii "execution-queue-v5-direct", group.bytes, [2, 0]], directPool)]

end RecordedDirect

set_option maxRecDepth 8000 in
open RecordedCancel RecordedDirect in
theorem direct_cancels_recorded : ∃ ixs,
    Trading.cancelAllPerpOrdersDirect RecordedDirect.runtime context params (some (.bigint 5)) 0 =
      .ok ixs ∧
    enqueuedCommand ixs.enqueueInstruction.data = some (2, .cancelAll 255, 20, 5) := by
  obtain ⟨ixs, hixs⟩ : ∃ ixs, Trading.cancelAllPerpOrdersDirect RecordedDirect.runtime context params
      (some (.bigint 5)) 0 = .ok ixs := ⟨_, rfl⟩
  obtain ⟨-, limit, hlimit, henqueues⟩ := (direct_cancels RecordedDirect.runtime context
    (some (.bigint 5)) 0 ixs).2 params hixs
  obtain ⟨market, expires, n, hmarket, hexpires, -, hn, hdata⟩ := henqueues.data
  cases hlimit
  cases hmarket
  cases hexpires
  have hnonce : n = 5 := by
    rcases hn with hn | hn
    · exact (BigNumberish.bigint.inj hn).symm
    · cases hn
  rw [hnonce] at hdata
  exact ⟨ixs, hixs, hdata⟩

end FermiSdk
