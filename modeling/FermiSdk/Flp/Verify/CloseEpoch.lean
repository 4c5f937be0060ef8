import FermiSdk.Flp.Verify.DocumentedCoder
import FermiSdk.Flp.Verify.Metas
import FermiSdk.Lib.Walk

/-!
# Closing an epoch submits a prefix of the deferred queue

The records of a store, read along `nextDeferred`, form a linked queue that promises nothing
(`deferredQueue`). Both clients walk it with the same bound, and although they read records
differently (`FlpV4Client.fetchEpoch` checks the identity of a record itself), they find the same
links in it (`FlpV4Client.fetchEpoch_deferred`). So they stop at the same records, and fail at the
same blocked positions (`closeEpoch_fifo`).
-/

namespace FermiSdk

open FermiSdk.Lib

/-! ## The queue in a store -/

section

variable (rt : Runtime) (client : FlpClient) (vault : PublicKey)

/-- The record of an epoch, if the client can read one. -/
def storedRecord (epoch : UInt64) : Option EpochAccount :=
  (client.fetchEpoch rt vault epoch).toOption

/-- The record of a deferred epoch of the vault. -/
def EpochAccount.Deferred (vault : PublicKey) (epoch : UInt64) (record : EpochAccount) : Prop :=
  record.vault = vault ∧ record.epoch = epoch ∧ record.wdStatus = 2
  deriving Decidable

/-- The deferred queue of a vault as the store has it. -/
def deferredQueue : LinkedQueue UInt64 where
  stop := NONE_EPOCH
  link epoch := (storedRecord rt client vault epoch).bind fun record =>
    if record.Deferred vault epoch then some record.nextDeferred else none

/-- A record among the first `maxBatches` of the walk is missing, mismatched, not deferred, or
repeats. -/
def BlockedWalk (head : UInt64) (maxBatches : Nat) : Prop :=
  ∃ i < maxBatches, ∃ e, (deferredQueue rt client vault).walkAt head i = some e ∧
    (storedRecord rt client vault e = none ∨
      (∃ record, storedRecord rt client vault e = some record ∧
        (record.vault ≠ vault ∨ record.epoch ≠ e ∨ record.wdStatus ≠ 2)) ∨
      ∃ j < i, (deferredQueue rt client vault).walkAt head j = some e)

/-- `epochs` are the first epochs of the queue from `head`: at most `maxBatches`, and fewer only
when the queue ends with them. -/
structure FifoPrefix (head : UInt64) (maxBatches : Nat) (epochs : List UInt64) : Prop where
  starts : ∀ e, epochs[0]? = some e → e = head
  next : ∀ i e e', epochs[i]? = some e → epochs[i + 1]? = some e' →
    ∃ record, storedRecord rt client vault e = some record ∧ record.nextDeferred = e'
  deferred : ∀ e ∈ epochs, ∃ record, storedRecord rt client vault e = some record ∧
    record.vault = vault ∧ record.epoch = e ∧ record.wdStatus = 2
  nodup : epochs.Nodup
  length_le : epochs.length ≤ maxBatches
  ends : epochs.length < maxBatches →
    epochs = [] ∧ head = NONE_EPOCH ∨
    ∃ e record, epochs.getLast? = some e ∧ storedRecord rt client vault e = some record ∧
      record.nextDeferred = NONE_EPOCH

end

section

variable {rt : Runtime} {client : FlpClient} {vault : PublicKey}

theorem deferredQueue_link {e next : UInt64} :
    (deferredQueue rt client vault).link e = some next ↔ ∃ record,
      storedRecord rt client vault e = some record ∧ record.Deferred vault e ∧
        record.nextDeferred = next := by
  simp only [deferredQueue, Option.bind_eq_some_iff, Option.ite_none_right_eq_some,
    Option.some_inj]

theorem storedRecord_eq_some {e : UInt64} {record : EpochAccount} :
    storedRecord rt client vault e = some record ↔
      client.fetchEpoch rt vault e = .ok record := by
  unfold storedRecord
  cases client.fetchEpoch rt vault e <;> simp [Except.toOption]

theorem deferredQueue_link_eq_none {e : UInt64} :
    (deferredQueue rt client vault).link e = none ↔
      storedRecord rt client vault e = none ∨
      ∃ record, storedRecord rt client vault e = some record ∧
        (record.vault ≠ vault ∨ record.epoch ≠ e ∨ record.wdStatus ≠ 2) := by
  unfold deferredQueue
  cases h : storedRecord rt client vault e with
  | none => simp [h]
  | some record =>
    by_cases hd : record.Deferred vault e
    · simp [h, hd, hd.1, hd.2.1, hd.2.2]
    · have hne : record.vault ≠ vault ∨ record.epoch ≠ e ∨ record.wdStatus ≠ 2 := by
        simpa only [EpochAccount.Deferred, not_and_or] using hd
      simp only [h, Option.bind_some, if_neg hd, Option.some_inj, exists_eq_left', hne, or_true]

theorem blockedWalk_iff {head : UInt64} {n : Nat} :
    BlockedWalk rt client vault head n ↔
      ∃ i < n, (deferredQueue rt client vault).BlockedAt head i := by
  simp only [BlockedWalk, LinkedQueue.BlockedAt, deferredQueue_link_eq_none, or_assoc]

theorem fifoPrefix_of_isPrefix {head : UInt64} {n : Nat} {epochs : List UInt64}
    (h : (deferredQueue rt client vault).IsPrefix n head epochs) :
    FifoPrefix rt client vault head n epochs := by
  refine ⟨fun _ => h.head_eq, ?next, ?deferred, h.nodup, h.length_le, ?ends⟩
  case next =>
    intro i e e' he he'
    obtain ⟨record, hstored, -, hnext⟩ := deferredQueue_link.1 (h.link_eq he he')
    exact ⟨record, hstored, hnext⟩
  case deferred =>
    intro e he
    obtain ⟨next, hlink⟩ := h.exists_link he
    obtain ⟨record, hstored, hdeferred, -⟩ := deferredQueue_link.1 hlink
    exact ⟨record, hstored, hdeferred⟩
  case ends =>
    intro hlt
    rcases h.last_eq hlt with hnil | ⟨e, hlast, hlink⟩
    · exact .inl hnil
    · obtain ⟨record, hstored, -, hnext⟩ := deferredQueue_link.1 hlink
      exact .inr ⟨e, record, hlast, hstored, hnext⟩

end

/-! ## The walk of the clients -/

section

variable {rt : Runtime} {client : FlpClient} {programId vault : PublicKey}

/-- The meta of an epoch's record: its program address, writable. -/
def RecordMeta (rt : Runtime) (programId vault : PublicKey) (epoch : UInt64)
    (account : AccountMeta) : Prop :=
  deriveEpoch rt programId vault (.bigint epoch.toNat) = .ok account.pubkey ∧
    account.isWritable = true ∧ account.isSigner = false

theorem FlpClient.fetchEpoch_eq_ok {methods : List IdlInstruction}
    (hcoder : client.coder.Lawful rt methods) {epoch : UInt64} {record : EpochAccount} :
    client.fetchEpoch rt vault epoch = .ok record ↔ ∃ address,
      deriveEpoch rt client.programId vault (.bigint epoch.toNat) = .ok address ∧
        epochRecordLayout.Holds rt client.connection client.programId address record := by
  have hfetch (address : PublicKey) :
      client.fetch epochRecordType BorshCoder.decodeEpochRecord address = .ok record ↔
        epochRecordLayout.Holds rt client.connection client.programId address record :=
    fetch_eq_ok epochRecordLayout hcoder hcoder.epochRecord
  simp only [fetchEpoch, Throws.bind_eq_ok, hfetch]

theorem uint_toNat (epoch : UInt64) : uint (.bigint epoch.toNat) 64 = .ok epoch.toNat := by
  have hlt := epoch.toNat_lt
  simp only [uint, checkUnsigned, Throws.bind_eq_ok, Throws.pure_eq_ok, Throws.throwIf_eq_ok,
    exists_const, exists_eq_left', and_true, not_or]
  omega

/-- Both clients read the same deferred records, although they check them in different places. -/
theorem FlpV4Client.fetchEpoch_deferred {client : FlpV4Client}
    (hcoder : client.shared.coder.Lawful rt FLP_METHODS)
    (hcoderV4 : client.coder.Lawful rt FLP_V4_METHODS) {epoch next : UInt64} :
    (∃ record, client.fetchEpoch rt vault epoch = .ok record ∧ record.Deferred vault epoch ∧
      record.nextDeferred = next) ↔
    ∃ record, client.shared.fetchEpoch rt vault epoch = .ok record ∧
      record.Deferred vault epoch ∧ record.nextDeferred = next := by
  have hfetch (address : PublicKey) (record : EpochAccount) :
      client.fetch epochRecordType BorshCoder.decodeEpochRecord address = .ok record ↔
        epochRecordLayout.Holds rt client.shared.connection client.programId address record :=
    fetch_eq_ok epochRecordLayout hcoderV4 hcoderV4.epochRecord
  simp only [FlpClient.fetchEpoch_eq_ok hcoder, fetchEpoch, Throws.bind_eq_ok, uint_toNat,
    Except.ok.injEq, exists_eq_left', Throws.throwIf_eq_ok, exists_const, Throws.pure_eq_ok, hfetch]
  constructor
  · rintro ⟨record, ⟨address, ha, record', hr, -, rfl⟩, h⟩
    exact ⟨record', ⟨address, ha, hr⟩, h⟩
  · rintro ⟨record, ⟨address, ha, hr⟩, h⟩
    exact ⟨record, ⟨address, ha, record, hr, by simp [h.1.1, h.1.2.1], rfl⟩, h⟩

/-- One turn of the loop. -/
theorem deferredBatches_succ_eq_ok {fetch : UInt64 → Throws EpochAccount} {room : Nat}
    {seen : List UInt64} {next : UInt64} {batches : List AccountMeta} :
    deferredBatches rt programId vault fetch (room + 1) seen next = .ok batches ↔
      next = NONE_EPOCH ∧ batches = [] ∨
      next ≠ NONE_EPOCH ∧ next ∉ seen ∧ ∃ record account rest,
        (fetch next = .ok record ∧ record.Deferred vault next) ∧
        RecordMeta rt programId vault next account ∧
        deferredBatches rt programId vault fetch room (next :: seen) record.nextDeferred =
          .ok rest ∧ batches = account :: rest := by
  rw [deferredBatches]
  by_cases hnone : next = NONE_EPOCH
  · simp only [hnone, if_true, Throws.pure_eq_ok, true_and, ne_eq, not_true_eq_false, false_and,
      or_false, @eq_comm _ batches]
  · simp only [hnone, if_false, Throws.bind_eq_ok, Throws.throwIf_eq_ok, exists_const,
      Throws.pure_eq_ok, false_and, false_or, ne_eq, not_false_eq_true, true_and, not_or, not_not]
    refine and_congr_right fun _ => exists_congr fun record => ?_
    constructor
    · rintro ⟨hr, hd, a, ha, rest, hrest, rfl⟩
      exact ⟨_, rest, ⟨hr, hd⟩, ⟨ha, rfl, rfl⟩, hrest, rfl⟩
    · rintro ⟨account, rest, ⟨hr, hd⟩, ⟨ha, hw, hs⟩, hrest, rfl⟩
      refine ⟨hr, hd, _, ha, rest, hrest, ?_⟩
      rw [← hw, ← hs]

/-- The loop returns the metas of a walk along the links that it reads. -/
theorem deferredBatches_eq_ok {q : LinkedQueue UInt64} {fetch : UInt64 → Throws EpochAccount}
    (hstop : q.stop = NONE_EPOCH)
    (hlink : ∀ e next, q.link e = some next ↔ ∃ record, fetch e = .ok record ∧
      record.Deferred vault e ∧ record.nextDeferred = next)
    {room : Nat} {seen : List UInt64} {next : UInt64} {batches : List AccountMeta} :
    deferredBatches rt programId vault fetch room seen next = .ok batches ↔
      ∃ es, q.walkFrom room seen next = some es ∧
        List.Forall₂ (RecordMeta rt programId vault) es batches := by
  induction room generalizing seen next batches with
  | zero =>
    rw [deferredBatches, Throws.pure_eq_ok]
    simp [LinkedQueue.walkFrom, eq_comm]
  | succ room ih =>
    simp only [deferredBatches_succ_eq_ok, LinkedQueue.walkFrom_succ_eq_some, hstop, ih]
    constructor
    · rintro (⟨rfl, rfl⟩ | ⟨hne, hseen, record, account, rest, hr, hmeta, ⟨es, hes, hrest⟩, rfl⟩)
      · exact ⟨[], .inl ⟨rfl, rfl⟩, .nil⟩
      · exact ⟨next :: es, .inr ⟨hne, hseen, _, es, (hlink _ _).2 ⟨record, hr.1, hr.2, rfl⟩, hes,
          rfl⟩, .cons hmeta hrest⟩
    · rintro ⟨_, ⟨rfl, rfl⟩ | ⟨hne, hseen, next', es, hnext, hes, rfl⟩, hmetas⟩
      · cases hmetas
        exact .inl ⟨rfl, rfl⟩
      · obtain ⟨record, hr, hd, rfl⟩ := (hlink _ _).1 hnext
        cases hmetas with
        | cons hmeta hrest =>
          exact .inr ⟨hne, hseen, record, _, _, ⟨hr, hd⟩, hmeta, ⟨es, hes, hrest⟩, rfl⟩

/-- The loop of either client, along the queue of the store. -/
theorem FlpClient.deferredBatches_eq_ok {n : Nat} {head : UInt64} {batches : List AccountMeta} :
    deferredBatches rt client.programId vault (client.fetchEpoch rt vault) n [] head =
      .ok batches ↔ ∃ es, (deferredQueue rt client vault).walkFrom n [] head = some es ∧
        List.Forall₂ (RecordMeta rt client.programId vault) es batches := by
  apply FermiSdk.deferredBatches_eq_ok rfl
  intro e next
  simp only [deferredQueue_link, storedRecord_eq_some]

theorem FlpV4Client.deferredBatches_eq {client : FlpV4Client}
    (hcoder : client.shared.coder.Lawful rt FLP_METHODS)
    (hcoderV4 : client.coder.Lawful rt FLP_V4_METHODS) {n : Nat} {head : UInt64}
    {batches : List AccountMeta} :
    deferredBatches rt client.programId vault (client.fetchEpoch rt vault) n [] head =
      .ok batches ↔
    deferredBatches rt client.programId vault (client.shared.fetchEpoch rt vault) n []
      head = .ok batches := by
  rw [FlpClient.deferredBatches_eq_ok]
  apply FermiSdk.deferredBatches_eq_ok rfl
  intro e next
  rw [fetchEpoch_deferred hcoder hcoderV4]
  simp only [deferredQueue_link, storedRecord_eq_some]

end

/-! ## The instruction -/

section

variable {rt : Runtime} {vault : PublicKey} {state : VaultAccount} {health : List AccountMeta}

/-- The accounts that `FlpClient.closeEpoch` fills in. -/
def ownAccounts : List String :=
  ["vault", "epochRecord", "deferredTailRecord", "depositEscrow", "redemptionEscrow", "shareMint"]

/-- The accounts that `flowAccounts` fills in. -/
def ownFlowAccounts : List String :=
  ["vault", "authority", "fundingWindow", "headRecord", "shareMint", "depositEscrow",
    "redemptionEscrow", "token2022Program", "systemProgram"]

/-- The accounts that `FlpV4Client.closeEpoch` fills in. -/
def ownV4Accounts : List String := ownFlowAccounts ++ ["epochRecord", "deferredTailRecord"]

/-- The program addresses that a close needs besides those of the queue. Such an address is missing
only when no bump gives one. -/
structure VaultAddresses (rt : Runtime) (programId vault : PublicKey) (state : VaultAccount) :
    Prop where
  epochRecord : ∃ a, deriveEpoch rt programId vault (.bigint state.epoch.toNat) = .ok a
  deferredTail : ∃ a, deferredRecordOr rt programId vault state.deferredTail = .ok a
  authority : ∃ a, deriveAuthority rt programId vault = .ok a
  fundingWindow : ∃ a, deriveFundingWindow rt programId vault = .ok a
  recoveryTargets : ∃ a, deriveRecoveryTargets rt programId vault = .ok a

/-- The instruction closes an epoch with these batches: its argument counts them, and after the
accounts of its definition come the batches, the health accounts, their event queues, and the
writable recovery sidecar if `recovery` holds. -/
structure ClosesWith (rt : Runtime) (client : FlpClient) (vault : PublicKey)
    (definition : IdlInstruction) (batches health : List AccountMeta) (recovery : Prop)
    (ix : TransactionInstruction) : Prop where
  programId : ix.programId = client.programId
  data : ix.data = instructionDiscriminator rt definition.method ++ [UInt8.ofNat batches.length]
  keys : ∃ named sidecar, named.length = definition.paths.length ∧
    ix.keys = named ++ (batches ++ health ++
      (eventQueues rt client health).map (fun pubkey => ⟨pubkey, false, false⟩) ++ sidecar) ∧
    (recovery → ∃ a, deriveRecoveryTargets rt client.programId vault = .ok a ∧
      sidecar = [⟨a, false, true⟩]) ∧
    (¬ recovery → sidecar = [])

/-- The sidecar is appended under a condition. -/
theorem sidecar_eq_ok {programId : PublicKey} {recovery : Prop} [Decidable recovery]
    (h : ∃ a, deriveRecoveryTargets rt programId vault = .ok a) :
    ∃ sidecar,
      (if recovery then recoverySidecar rt programId vault true else pure []) = .ok sidecar ∧
      (recovery → ∃ a, deriveRecoveryTargets rt programId vault = .ok a ∧
        sidecar = [⟨a, false, true⟩]) ∧
      (¬ recovery → sidecar = []) := by
  obtain ⟨a, ha⟩ := h
  by_cases hrecovery : recovery
  · refine ⟨[⟨a, false, true⟩], ?_, fun _ => ⟨a, ha, rfl⟩, fun hne => absurd hrecovery hne⟩
    rw [if_pos hrecovery, recoverySidecar]
    simp only [Throws.bind_eq_ok, Throws.pure_eq_ok]
    exact ⟨a, ha, rfl⟩
  · exact ⟨[], by rw [if_neg hrecovery]; rfl, fun h => absurd h hrecovery, fun _ => rfl⟩

theorem batchLimit_eq_ok {m : Nat} {message : String} (hlo : 1 ≤ m) (hhi : m ≤ MAX_EQUITY_BATCHES) :
    throwIf (!(JsNumber.int m).isIntegerIn 1 MAX_EQUITY_BATCHES) message = .ok () := by
  rw [Throws.throwIf_eq_ok, Bool.not_eq_true', Bool.not_eq_false, JsNumber.isIntegerIn_iff]
  exact ⟨m, rfl, by omega, by omega⟩

variable {client : FlpClient} {accounts : NamedAccounts} {m : Nat} {batches : List AccountMeta}

/-- The encoding of the one argument of a close. -/
theorem borshArgs_batchCount {n : Nat} (h : n ≤ MAX_EQUITY_BATCHES) :
    borshArgs [("deferredBatchCount", .u8)] (.of [("deferredBatchCount", .number (.int n))]) =
      some [UInt8.ofNat n] := by
  have hrange : 0 ≤ (n : Int) ∧ (n : Int) < 256 ^ 1 := by
    unfold MAX_EQUITY_BATCHES at h
    omega
  exact borshArgs_one (unsignedBytes_eq hrange)

theorem closesWith_of_named {coder : BorshCoder} {methods : List IdlInstruction}
    (hcoder : coder.Lawful rt methods) {unknown missing : String → String} {name : String}
    {definition : IdlInstruction}
    (hfind : (methods.find? fun method => method.name = name) = some definition)
    (hargs : definition.args = [("deferredBatchCount", .u8)])
    {sidecar : List AccountMeta} {recovery : Prop} (hcount : batches.length ≤ MAX_EQUITY_BATCHES)
    (hnamed : AllNamed definition accounts)
    (hyes : recovery → ∃ a, deriveRecoveryTargets rt client.programId vault = .ok a ∧
      sidecar = [⟨a, false, true⟩])
    (hno : ¬ recovery → sidecar = []) :
    ∃ ix, buildInstruction coder client.programId methods unknown missing name accounts
        (.of [("deferredBatchCount", .number (.int batches.length))])
        (batches ++ health ++ (client.eventQueueMetas rt health).1 ++ sidecar) = .ok ix ∧
      ClosesWith rt client vault definition batches health recovery ix := by
  obtain ⟨named, hkeys⟩ :=
    (@exists_namedMetas_iff client.programId missing accounts definition.paths).2 hnamed
  have hbytes := borshArgs_batchCount hcount
  rw [← hargs] at hbytes
  have hdata := hcoder.encode definition name _ _ hfind hbytes
  refine ⟨_, (buildInstruction_eq_ok hfind).2 ⟨named, _, hkeys, hdata, rfl⟩, rfl, rfl, named, sidecar,
    (receiveAccounts_namedMetas hkeys).2, by rw [eventQueueMetas_eq], hyes, hno⟩

/-- With its walk done, `FlpClient.closeEpoch` returns an instruction. -/
theorem FlpClient.closeEpoch_of_batches (hcoder : client.coder.Lawful rt FLP_METHODS) (hlo : 1 ≤ m) (hhi : m ≤ MAX_EQUITY_BATCHES)
    (haddress : VaultAddresses rt client.programId vault state)
    (haccounts : Supplied closeEpochV3Method ownAccounts accounts)
    (hbatches : deferredBatches rt client.programId vault (client.fetchEpoch rt vault) m []
      state.deferredHead = .ok batches) (hlen : batches.length ≤ m) :
    ∃ r, client.closeEpoch rt vault state accounts health (some (.int m)) = .ok r ∧
      ClosesWith rt client vault closeEpochV3Method batches health
        (state.expandedRecovery.getD false = true) r.1 := by
  obtain ⟨epoch, hepoch⟩ := haddress.epochRecord
  obtain ⟨tail, htail⟩ := haddress.deferredTail
  obtain ⟨sidecar, hsidecar, hyes, hno⟩ : ∃ sidecar,
      client.recoveryMetas rt vault state true = .ok sidecar ∧ _ :=
    sidecar_eq_ok haddress.recoveryTargets
  have hnamed : AllNamed closeEpochV3Method (accounts.set [("vault", vault),
      ("epochRecord", epoch), ("deferredTailRecord", tail),
      ("depositEscrow", state.depositEscrow), ("redemptionEscrow", state.redemptionEscrow),
      ("shareMint", state.shareMint)]) := by
    intro item hitem hrequired
    apply NamedAccounts.set_isSome
    intro hown
    exact haccounts item hitem hown hrequired
  obtain ⟨ix, hix, hcloses⟩ : ∃ ix, client.instruction "closeEpochV3" _ _ _ = .ok ix ∧ _ :=
    closesWith_of_named hcoder rfl rfl (hlen.trans hhi) hnamed hyes hno
  refine ⟨(ix, (client.eventQueueMetas rt health).2), ?_, hcloses⟩
  simp only [closeEpoch, Option.getD_some, Throws.bind_eq_ok]
  exact ⟨(), batchLimit_eq_ok hlo hhi, m, rfl, batches, hbatches, epoch, hepoch, tail, htail,
    sidecar, hsidecar, ix, hix, rfl⟩

/-- With its walk done, `FlpV4Client.closeEpoch` returns an instruction. -/
theorem FlpV4Client.closeEpoch_of_batches {client : FlpV4Client}
    (hcoderV4 : client.coder.Lawful rt FLP_V4_METHODS) (hlo : 1 ≤ m)
    (hhi : m ≤ MAX_EQUITY_BATCHES) (hversion : state.version = 4)
    (haddress : VaultAddresses rt client.programId vault state)
    (hhead : ∃ a, deferredRecordOr rt client.programId vault state.deferredHead = .ok a)
    (haccounts : Supplied closeEpochV4Method ownV4Accounts accounts)
    (hbatches : deferredBatches rt client.programId vault (client.fetchEpoch rt vault) m []
      state.deferredHead = .ok batches) (hlen : batches.length ≤ m) :
    ∃ r, client.closeEpoch rt vault state accounts health (some (.int m)) = .ok r ∧
      ClosesWith rt client.shared vault closeEpochV4Method batches health
        (state.status &&& STATUS_UNWIND ≠ 0) r.1 := by
  obtain ⟨epoch, hepoch⟩ := haddress.epochRecord
  obtain ⟨tail, htail⟩ := haddress.deferredTail
  obtain ⟨authority, hauthority⟩ := haddress.authority
  obtain ⟨window, hwindow⟩ := haddress.fundingWindow
  obtain ⟨head, hhead⟩ := hhead
  obtain ⟨sidecar, hsidecar, hyes, hno⟩ : ∃ sidecar,
      client.unwindMetas rt vault state true = .ok sidecar ∧ _ :=
    sidecar_eq_ok haddress.recoveryTargets
  have hnamed : AllNamed closeEpochV4Method ((accounts.set [("vault", vault),
      ("authority", authority), ("fundingWindow", window), ("headRecord", head),
      ("shareMint", state.shareMint), ("depositEscrow", state.depositEscrow),
      ("redemptionEscrow", state.redemptionEscrow), ("token2022Program", TOKEN_2022_PROGRAM_ID),
      ("systemProgram", PublicKey.default)]).set
      [("epochRecord", epoch), ("deferredTailRecord", tail)]) := by
    intro item hitem hrequired
    apply NamedAccounts.set_isSome
    intro hown
    apply NamedAccounts.set_isSome
    intro hflow
    refine haccounts item hitem ?_ hrequired
    intro hmem
    exact (List.mem_append.1 hmem).elim hflow hown
  obtain ⟨ix, hix, hcloses⟩ : ∃ ix, client.instruction "closeEpochV4" _ _
      (batches ++ health ++ (client.shared.eventQueueMetas rt health).1 ++ sidecar) = .ok ix ∧ _ :=
    closesWith_of_named hcoderV4 rfl rfl (hlen.trans hhi) hnamed hyes hno
  rw [List.append_assoc batches] at hix
  refine ⟨(ix, (client.withEventQueues rt health).2), ?_, hcloses⟩
  simp only [closeEpoch, flowAccounts, requireV4, Option.getD_some, Throws.bind_eq_ok]
  exact ⟨(), batchLimit_eq_ok hlo hhi, m, rfl, batches, hbatches, _,
    ⟨(), Throws.throwIf_eq_ok.2 (not_not.2 hversion), authority, hauthority, window, hwindow, head,
      hhead, rfl⟩,
    epoch, hepoch, tail, htail, sidecar, hsidecar, ix, hix, rfl⟩

/-- A close that returns has done its walk. -/
theorem FlpClient.batches_of_closeEpoch {r : TransactionInstruction × FlpClient}
    (h : client.closeEpoch rt vault state accounts health (some (.int m)) = .ok r) :
    ∃ batches, deferredBatches rt client.programId vault (client.fetchEpoch rt vault) m []
      state.deferredHead = .ok batches := by
  simp only [closeEpoch, Option.getD_some, Throws.bind_eq_ok, JsNumber.toBigInt_eq_ok] at h
  obtain ⟨_, -, _, hm, batches, hbatches, -⟩ := h
  cases hm
  exact ⟨batches, hbatches⟩

theorem FlpV4Client.batches_of_closeEpoch {client : FlpV4Client}
    {r : TransactionInstruction × FlpV4Client}
    (h : client.closeEpoch rt vault state accounts health (some (.int m)) = .ok r) :
    ∃ batches, deferredBatches rt client.programId vault (client.fetchEpoch rt vault) m []
      state.deferredHead = .ok batches := by
  simp only [closeEpoch, Option.getD_some, Throws.bind_eq_ok, JsNumber.toBigInt_eq_ok] at h
  obtain ⟨_, -, _, hm, batches, hbatches, -⟩ := h
  cases hm
  exact ⟨batches, hbatches⟩

end

/-! ## Main results -/

section

variable {rt : Runtime} {client : FlpClient} {vault : PublicKey} {state : VaultAccount}
  {health : List AccountMeta} {m : Nat}

theorem exists_recordMetas {programId : PublicKey} {epochs : List UInt64}
    (h : ∀ e ∈ epochs, ∃ a, deriveEpoch rt programId vault (.bigint e.toNat) = .ok a) :
    ∃ batches, List.Forall₂ (RecordMeta rt programId vault) epochs batches := by
  induction epochs with
  | nil => exact ⟨[], .nil⟩
  | cons e epochs ih =>
    obtain ⟨a, ha⟩ := h e List.mem_cons_self
    obtain ⟨batches, hbatches⟩ := ih fun e he => h e (List.mem_cons_of_mem _ he)
    exact ⟨⟨a, false, true⟩ :: batches, .cons ⟨ha, rfl, rfl⟩ hbatches⟩

/-- The loop throws exactly when the walk is blocked. -/
theorem exists_batches_iff {head : UInt64} :
    (∃ batches, deferredBatches rt client.programId vault (client.fetchEpoch rt vault) m [] head =
      .ok batches) ↔ ¬ BlockedWalk rt client vault head m := by
  rw [blockedWalk_iff, ← LinkedQueue.walkFrom_eq_none_iff]
  simp only [FlpClient.deferredBatches_eq_ok]
  constructor
  · rintro ⟨batches, es, hes, -⟩ hnone
    rw [hes] at hnone
    cases hnone
  · intro hsome
    obtain ⟨es, hes⟩ := Option.ne_none_iff_exists'.1 hsome
    obtain ⟨batches, hbatches⟩ : ∃ batches,
        List.Forall₂ (RecordMeta rt client.programId vault) es batches := by
      apply exists_recordMetas
      intro e he
      obtain ⟨next, hlink⟩ :=
        Option.isSome_iff_exists.1 ((LinkedQueue.isPrefix_of_walkFrom hes).usable e he)
      obtain ⟨record, hr, -⟩ := deferredQueue_link.1 hlink
      have hfetch := storedRecord_eq_some.1 hr
      simp only [FlpClient.fetchEpoch, Throws.bind_eq_ok] at hfetch
      obtain ⟨a, ha, -⟩ := hfetch
      exact ⟨a, ha⟩
    exact ⟨batches, es, hes, hbatches⟩

/-- The head of a queue that has been walked has an address. -/
theorem head_address_of_batches {programId : PublicKey} {fetch : UInt64 → Throws EpochAccount}
    {head : UInt64} {batches : List AccountMeta} (hlo : 1 ≤ m)
    (h : deferredBatches rt programId vault fetch m [] head = .ok batches) :
    ∃ a, deferredRecordOr rt programId vault head = .ok a := by
  obtain ⟨m, rfl⟩ := Nat.exists_eq_succ_of_ne_zero (Nat.one_le_iff_ne_zero.1 hlo)
  unfold deferredRecordOr
  rcases deferredBatches_succ_eq_ok.1 h with ⟨hnone, -⟩ | ⟨hne, -, _, account, -, -, hmeta, -⟩
  · rw [if_pos hnone]
    exact ⟨programId, rfl⟩
  · rw [if_neg hne]
    exact ⟨account.pubkey, hmeta.1⟩

section

variable {coderV4 : BorshCoder} {known : MarketQueues} {accounts accountsV4 : NamedAccounts}
  (hcoder : client.coder.Lawful rt FLP_METHODS) (hcoderV4 : coderV4.Lawful rt FLP_V4_METHODS)
  (hlo : 1 ≤ m)
  (hhi : m ≤ MAX_EQUITY_BATCHES) (haddress : VaultAddresses rt client.programId vault state)
  (haccounts : Supplied closeEpochV3Method ownAccounts accounts)
  (haccountsV4 : Supplied closeEpochV4Method ownV4Accounts accountsV4)

include hcoder hcoderV4 hlo hhi haddress haccounts haccountsV4

/-- Both clients build the same prefix of a queue that does not block the walk. -/
theorem closeEpoch_of_free (hfree : ¬ BlockedWalk rt client vault state.deferredHead m) :
    ∃ epochs batches r rV4, FifoPrefix rt client vault state.deferredHead m epochs ∧
      List.Forall₂ (RecordMeta rt client.programId vault) epochs batches ∧
      client.closeEpoch rt vault state accounts health (some (.int m)) = .ok r ∧
      (FlpV4Client.mk { client with marketQueues := known } coderV4).closeEpoch rt vault
        { state with version := 4 } accountsV4 health (some (.int m)) = .ok rV4 ∧
      ClosesWith rt client vault closeEpochV3Method batches health
        (state.expandedRecovery.getD false = true) r.1 ∧
      ClosesWith rt { client with marketQueues := known } vault closeEpochV4Method batches
        health (state.status &&& STATUS_UNWIND ≠ 0) rV4.1 := by
  obtain ⟨batches, hbatches⟩ := exists_batches_iff.2 hfree
  obtain ⟨epochs, hepochs, hmetas⟩ := FlpClient.deferredBatches_eq_ok.1 hbatches
  have hwalk := LinkedQueue.isPrefix_of_walkFrom hepochs
  have hlen : batches.length ≤ m := hmetas.length_eq ▸ hwalk.length_le
  obtain ⟨r, hr, hcloses⟩ :=
    FlpClient.closeEpoch_of_batches hcoder hlo hhi haddress haccounts hbatches hlen
  obtain ⟨rV4, hrV4, hclosesV4⟩ := @FlpV4Client.closeEpoch_of_batches rt vault
    { state with version := 4 } health accountsV4 m batches
    (FlpV4Client.mk { client with marketQueues := known } coderV4) hcoderV4 hlo hhi rfl
    ⟨haddress.1, haddress.2, haddress.3, haddress.4, haddress.5⟩
    (head_address_of_batches hlo hbatches) haccountsV4
    ((FlpV4Client.deferredBatches_eq hcoder hcoderV4).2 hbatches) hlen
  exact ⟨epochs, batches, r, rV4, fifoPrefix_of_isPrefix hwalk, hmetas, hr, hrV4, hcloses,
    hclosesV4⟩

end

/-- **Closing an epoch submits the exact prefix of the deferred queue, in both clients.** The clients
read one store but may know different event queues; the vault is one of version 4 for the second. -/
theorem closeEpoch_fifo {coderV4 : BorshCoder} {known : MarketQueues}
    {accounts accountsV4 : NamedAccounts} (hcoder : client.coder.Lawful rt FLP_METHODS)
    (hcoderV4 : coderV4.Lawful rt FLP_V4_METHODS) (hlo : 1 ≤ m) (hhi : m ≤ MAX_EQUITY_BATCHES)
    (haddress : VaultAddresses rt client.programId vault state)
    (haccounts : Supplied closeEpochV3Method ownAccounts accounts)
    (haccountsV4 : Supplied closeEpochV4Method ownV4Accounts accountsV4) :
    let blocked := BlockedWalk rt client vault state.deferredHead m
    let shared := { client with marketQueues := known }
    let close := client.closeEpoch rt vault state accounts health (some (.int m))
    let closeV4 := (FlpV4Client.mk shared coderV4).closeEpoch rt vault { state with version := 4 }
      accountsV4 health (some (.int m))
    ((∃ e, close = .error e) ↔ blocked) ∧ ((∃ e, closeV4 = .error e) ↔ blocked) ∧
    (¬ blocked → ∃ epochs batches r rV4,
      FifoPrefix rt client vault state.deferredHead m epochs ∧
      List.Forall₂ (RecordMeta rt client.programId vault) epochs batches ∧
      close = .ok r ∧ closeV4 = .ok rV4 ∧
      ClosesWith rt client vault closeEpochV3Method batches health
        (state.expandedRecovery.getD false = true) r.1 ∧
      ClosesWith rt shared vault closeEpochV4Method batches health
        (state.status &&& STATUS_UNWIND ≠ 0) rV4.1) := by
  intro blocked shared close closeV4
  have hbuilt := @closeEpoch_of_free rt client vault state health m coderV4 known accounts
    accountsV4 hcoder hcoderV4 hlo hhi haddress haccounts haccountsV4
  refine ⟨Throws.throws_iff_of_ok_iff ⟨?close, ?free⟩,
    Throws.throws_iff_of_ok_iff ⟨?closeV4, ?freeV4⟩, hbuilt⟩
  case close =>
    intro ⟨r, hr⟩
    exact exists_batches_iff.1 (FlpClient.batches_of_closeEpoch hr)
  case free =>
    intro hfree
    obtain ⟨_, _, r, _, -, -, hr, -⟩ := hbuilt hfree
    exact ⟨r, hr⟩
  case closeV4 =>
    intro ⟨rV4, hrV4⟩
    obtain ⟨batches, hbatches⟩ := FlpV4Client.batches_of_closeEpoch hrV4
    exact exists_batches_iff.1
      ⟨batches, (FlpV4Client.deferredBatches_eq hcoder hcoderV4).1 hbatches⟩
  case freeV4 =>
    intro hfree
    obtain ⟨_, _, _, rV4, -, -, -, hrV4, -⟩ := hbuilt hfree
    exact ⟨rV4, hrV4⟩

end

/-! ## A recorded queue of two epochs -/

namespace RecordedQueue

def programId : PublicKey :=
  ⟨[212, 216, 86, 27, 36, 159, 231, 14, 174, 96, 215, 156, 198, 156, 156, 50,
    231, 85, 226, 58, 144, 157, 42, 187, 59, 195, 206, 187, 3, 179, 160, 181], rfl⟩

def vault : PublicKey :=
  ⟨[88, 175, 86, 216, 1, 57, 169, 14, 142, 173, 198, 225, 209, 247, 168, 168,
    6, 127, 91, 245, 164, 67, 79, 173, 36, 113, 161, 36, 253, 88, 170, 241], rfl⟩

def epoch4 : PublicKey :=
  ⟨[92, 249, 186, 87, 205, 216, 169, 172, 60, 137, 86, 84, 145, 187, 248, 135,
    112, 114, 142, 253, 200, 62, 26, 12, 229, 254, 202, 230, 85, 50, 187, 198], rfl⟩

def epoch7 : PublicKey :=
  ⟨[161, 230, 59, 15, 137, 55, 9, 192, 202, 55, 90, 120, 91, 223, 156, 68,
    162, 3, 220, 206, 81, 86, 66, 136, 226, 218, 175, 192, 26, 164, 138, 99], rfl⟩

def epoch9 : PublicKey :=
  ⟨[171, 37, 244, 90, 117, 120, 242, 151, 245, 18, 34, 129, 47, 35, 29, 143,
    109, 58, 251, 83, 46, 55, 26, 158, 228, 229, 36, 20, 21, 245, 52, 7], rfl⟩

def authority : PublicKey :=
  ⟨[141, 84, 125, 235, 38, 22, 116, 141, 157, 139, 161, 54, 168, 154, 54, 177,
    145, 23, 48, 25, 201, 29, 222, 203, 134, 202, 2, 138, 101, 225, 76, 14], rfl⟩

def fundingWindow : PublicKey :=
  ⟨[237, 148, 150, 35, 25, 212, 182, 138, 103, 132, 88, 100, 81, 0, 237, 115,
    153, 29, 152, 23, 63, 240, 188, 238, 154, 104, 160, 136, 123, 37, 122, 46], rfl⟩

def recoveryTargets : PublicKey :=
  ⟨[12, 114, 82, 253, 252, 43, 28, 245, 93, 82, 133, 165, 46, 245, 173, 69,
    231, 120, 152, 230, 83, 204, 183, 163, 127, 42, 25, 58, 158, 96, 212, 205], rfl⟩

def epochRecordHash : Digest :=
  ⟨[193, 72, 26, 28, 161, 98, 58, 132, 217, 41, 62, 179, 82, 154, 203, 143,
    6, 79, 59, 80, 40, 178, 153, 169, 38, 63, 109, 164, 21, 225, 41, 213], rfl⟩

/-- SHA-256 and the program addresses on the recorded data. -/
def runtime : Runtime :=
  .ofTables
    [(Buffer.ofAscii "account:EpochRecord", epochRecordHash),
      (Buffer.ofAscii "global:close_epoch_v3",
        ⟨[206, 167, 189, 255, 23, 21, 10, 101, 94, 185, 213, 245, 76, 106, 52, 60,
          132, 32, 99, 28, 213, 223, 26, 52, 79, 137, 241, 122, 198, 95, 145, 239], rfl⟩),
      (Buffer.ofAscii "global:close_epoch_v4",
        ⟨[64, 8, 6, 183, 47, 38, 251, 190, 217, 79, 143, 187, 69, 14, 79, 177,
          175, 70, 43, 234, 227, 106, 202, 221, 248, 7, 145, 194, 179, 136, 170, 86], rfl⟩)]
    []
    [([Buffer.ofAscii "flp-epoch", vault.bytes, leBytes 8 4], epoch4),
      ([Buffer.ofAscii "flp-epoch", vault.bytes, leBytes 8 7], epoch7),
      ([Buffer.ofAscii "flp-epoch", vault.bytes, leBytes 8 9], epoch9),
      ([Buffer.ofAscii "flp-authority", vault.bytes], authority),
      ([Buffer.ofAscii "funding_window", vault.bytes], fundingWindow),
      ([Buffer.ofAscii "flp-recovery", vault.bytes], recoveryTargets)]

/-- The account of a deferred epoch; the fields that no client reads are zero. -/
def record (epoch next : Nat) : AccountInfo where
  owner := programId
  data := epochRecordHash.bytes.take 8 ++ vault.bytes ++ leBytes 8 epoch ++ List.replicate 169 0 ++
    [2] ++ List.replicate 114 0 ++ leBytes 8 next

/-- Epoch 4 is the head and links to epoch 7, the tail. -/
def client : FlpClient where
  connection := {
    getAccountInfo := fun address =>
      if address = epoch4 then some (record 4 7)
      else if address = epoch7 then some (record 7 NONE_EPOCH.toNat)
      else none }
  programId := programId
  coder := .documented runtime FLP_METHODS
  marketQueues := []

def state : VaultAccount where
  version := 4
  status := 0
  expandedRecovery := some true
  epoch := 9
  deferredHead := 4
  deferredTail := 7
  shareMint := PublicKey.default
  depositEscrow := PublicKey.default
  redemptionEscrow := PublicKey.default

/-- Every account that a caller names. -/
def accounts : NamedAccounts := fun _ => some PublicKey.default

end RecordedQueue

set_option maxRecDepth 8000 in
open RecordedQueue in
theorem closeEpoch_fifo_recorded :
    ∃ epochs batches, FifoPrefix runtime client vault 4 8 epochs ∧
      List.Forall₂ (RecordMeta runtime programId vault) epochs batches ∧
      ∃ r, client.closeEpoch runtime vault state accounts [] (some (.int 8)) = .ok r ∧
        ClosesWith runtime client vault closeEpochV3Method batches []
          (state.expandedRecovery.getD false = true) r.1 := by
  have hfree : ¬ BlockedWalk runtime client vault 4 8 := exists_batches_iff.1 ⟨_, rfl⟩
  have hsupplied : ∀ definition own, Supplied definition own accounts := fun _ _ _ _ _ _ => rfl
  obtain ⟨epochs, batches, r, rV4, hfifo, hmetas, hr, -, hcloses, -⟩ :=
    (@closeEpoch_fifo runtime client vault state [] 8 (.documented runtime FLP_V4_METHODS) []
      accounts accounts (BorshCoder.documented_lawful _ _) (BorshCoder.documented_lawful _ _)
      (by decide) (by decide)
      ⟨⟨_, rfl⟩, ⟨_, rfl⟩, ⟨_, rfl⟩, ⟨_, rfl⟩, ⟨_, rfl⟩⟩ (hsupplied _ _) (hsupplied _ _)).2.2 hfree
  exact ⟨epochs, batches, hfifo, hmetas, r, hr, hcloses⟩

end FermiSdk
