import FermiSdk.Intents.Messages
import FermiSdk.Lib.Joined
import FermiSdk.RelayerClient

/-!
# Effective account flags

The list that a relayed intent hashes gives each account the privileges that any account with the
same key has, in the list or among the three fixed accounts (`mergeEffectiveRuntimeFlags_eq`). These
are the privileges that the enqueue instruction gives it, and the hash depends on nothing but them
and the order of the keys (`relayed_hash_merges`). The relayer computes the same list from a request
alone (`effectiveAccounts_of_wire`).
-/

namespace FermiSdk

open FermiSdk.Lib

namespace Intents

/-- The flags of an account once those of all accounts with its key are joined. -/
def effective (all : List AccountMeta) (account : AccountMeta) : AccountMeta where
  pubkey := account.pubkey
  isSigner := all.any fun a => a.pubkey = account.pubkey ∧ a.isSigner
  isWritable := all.any fun a => a.pubkey = account.pubkey ∧ a.isWritable

/-- What the merging loop has stored for a key: nothing for a key it has not met, else the joined
flags. -/
theorem foldl_mergeAccount (l : List AccountMeta) (k : PublicKey) :
    l.foldl mergeAccount (fun _ => none) k =
      if l.any fun a => a.pubkey = k then
        some {
          isSigner := l.any fun a => a.pubkey = k ∧ a.isSigner
          isWritable := l.any fun a => a.pubkey = k ∧ a.isWritable }
      else none := by
  induction l using List.reverseRecOn with
  | nil => rfl
  | append_singleton l a ih =>
    rw [List.foldl_append, List.foldl_cons, List.foldl_nil, mergeAccount, ih]
    simp only [List.any_append, List.any_cons, List.any_nil, Bool.or_false]
    by_cases hk : k = a.pubkey
    · subst hk
      by_cases hmet : l.any fun b => b.pubkey = a.pubkey
      · simp [hmet]
      · have hnone : ∀ b ∈ l, b.pubkey ≠ a.pubkey := by simpa using hmet
        have hs : ∀ b ∈ l, b.pubkey = a.pubkey → b.isSigner → a.isSigner :=
          fun b hb he => absurd he (hnone b hb)
        have hw : ∀ b ∈ l, b.pubkey = a.pubkey → b.isWritable → a.isWritable :=
          fun b hb he => absurd he (hnone b hb)
        simpa [hmet] using And.intro hs hw
    · simp [hk, Ne.symm hk]

/-- **Merging joins the flags of equal keys**, over the list and the fixed accounts. -/
theorem mergeEffectiveRuntimeFlags_eq (remaining fixed : List AccountMeta) :
    mergeEffectiveRuntimeFlags remaining fixed =
      remaining.map (effective (fixed ++ remaining)) := by
  refine List.map_congr_left fun a ha => ?_
  have hmet : (fixed ++ remaining).any fun b => b.pubkey = a.pubkey :=
    List.any_eq_true.2 ⟨a, List.mem_append_right _ ha, by simp⟩
  rw [foldl_mergeAccount, if_pos hmet]
  rfl

/-- The three accounts that every enqueue instruction has. -/
def fixedAccounts (group executionQueue : PublicKey) : List AccountMeta := [
  { pubkey := group, isSigner := false, isWritable := true },
  { pubkey := executionQueue, isSigner := false, isWritable := true },
  { pubkey := SYSVAR_INSTRUCTIONS_PUBKEY, isSigner := false, isWritable := false }]

theorem accountsForCtmEnqueue_eq (group executionQueue : PublicKey)
    (remaining : List AccountMeta) :
    accountsForCtmEnqueue group executionQueue remaining =
      remaining.map (effective (fixedAccounts group executionQueue ++ remaining)) :=
  mergeEffectiveRuntimeFlags_eq _ _

/-! ## What the relayed hash depends on -/

/-- The joined flags of a key, over a list and the fixed accounts. -/
def mergedFlags (group executionQueue : PublicKey) (remaining : List AccountMeta)
    (key : PublicKey) : RuntimeFlags where
  isSigner := joined AccountMeta.pubkey AccountMeta.isSigner
    (fixedAccounts group executionQueue ++ remaining) key
  isWritable := joined AccountMeta.pubkey AccountMeta.isWritable
    (fixedAccounts group executionQueue ++ remaining) key

theorem effective_eq (all : List AccountMeta) (account : AccountMeta) :
    effective all account =
      ⟨account.pubkey, joined AccountMeta.pubkey AccountMeta.isSigner all account.pubkey,
        joined AccountMeta.pubkey AccountMeta.isWritable all account.pubkey⟩ := rfl

/-- Accounts without flags join nothing. -/
theorem effective_append_of_unset {all unset : List AccountMeta}
    (hs : ∀ a ∈ unset, a.isSigner = false) (hw : ∀ a ∈ unset, a.isWritable = false) :
    effective (all ++ unset) = effective all := by
  funext account
  rw [effective_eq, effective_eq, joined_append_of_unset hs, joined_append_of_unset hw]

/-- The instruction joins the same flags as the hash: its last account, the program, has none. -/
theorem accountsForCtmEnqueue_of_keys {rt : Runtime}
    {params : BuildExecutionQueueEnqueueDirectParams} {ix : TransactionInstruction}
    (h : buildExecutionQueueEnqueueDirectIx rt params = .ok ix) :
    accountsForCtmEnqueue params.group params.executionQueue params.remainingAccounts =
      params.remainingAccounts.map (effective ix.keys) := by
  simp only [buildExecutionQueueEnqueueDirectIx, Throws.bind_eq_ok, Throws.pure_eq_ok] at h
  obtain ⟨data, -, rfl⟩ := h
  rw [accountsForCtmEnqueue_eq]
  refine congrArg (List.map · params.remainingAccounts) ?_
  exact (effective_append_of_unset (by simp) (by simp)).symm

/-- The envelope of a direct intent hashes the flags its enqueue instruction joins. -/
theorem envelope_accountsHash {rt : Runtime}
    {params : BuildExecutionQueueEnqueueDirectWithIntentParams} {ixs : EnqueueDirectWithIntentIxs}
    (h : buildExecutionQueueEnqueueDirectWithIntentIxs rt params = .ok ixs) :
    ixs.envelope.accountsHash = (hashExecutionQueueAccounts rt
      (params.remainingAccounts.map (effective ixs.enqueueInstruction.keys))).bytes := by
  simp only [buildExecutionQueueEnqueueDirectWithIntentIxs, Throws.bind_eq_ok,
    Throws.pure_eq_ok] at h
  obtain ⟨message, -, minExecuteSlot, -, expiresAtSlot, -, preInstruction, -, ix, hix, rfl⟩ := h
  rw [← accountsForCtmEnqueue_of_keys hix]
  rfl

/-- Joining the flags of the joined list changes none. -/
theorem effective_merged (fixed remaining : List AccountMeta) :
    effective (fixed ++ remaining.map (effective (fixed ++ remaining))) =
      effective (fixed ++ remaining) := by
  funext account
  rw [effective_eq, effective_eq,
    joined_relabel (f := effective (fixed ++ remaining)) (fun _ _ => rfl) (fun _ _ => rfl),
    joined_relabel (f := effective (fixed ++ remaining)) (fun _ _ => rfl) (fun _ _ => rfl)]

theorem accountsForCtmEnqueue_idempotent (group executionQueue : PublicKey)
    (remaining : List AccountMeta) :
    accountsForCtmEnqueue group executionQueue
        (accountsForCtmEnqueue group executionQueue remaining) =
      accountsForCtmEnqueue group executionQueue remaining := by
  rw [accountsForCtmEnqueue_eq, accountsForCtmEnqueue_eq, effective_merged, List.map_map]
  rfl

/-- Relabelled lists are equal when the keys are, in order, and each key has the same flags. -/
theorem map_effective_eq_iff {all all' l l' : List AccountMeta} :
    l.map (effective all) = l'.map (effective all') ↔
      l.map AccountMeta.pubkey = l'.map AccountMeta.pubkey ∧
        ∀ k ∈ l.map AccountMeta.pubkey,
          joined AccountMeta.pubkey AccountMeta.isSigner all k =
              joined AccountMeta.pubkey AccountMeta.isSigner all' k ∧
            joined AccountMeta.pubkey AccountMeta.isWritable all k =
              joined AccountMeta.pubkey AccountMeta.isWritable all' k := by
  induction l generalizing l' with
  | nil => cases l' <;> simp
  | cons a l ih =>
    cases l' with
    | nil => simp
    | cons a' l' =>
      simp only [List.map_cons, List.cons.injEq, ih, effective_eq, AccountMeta.mk.injEq,
        List.forall_mem_cons]
      constructor
      · rintro ⟨⟨hk, hs, hw⟩, hkeys, hflags⟩
        rw [← hk] at hs hw
        exact ⟨⟨hk, hkeys⟩, ⟨hs, hw⟩, hflags⟩
      · rintro ⟨⟨hk, hkeys⟩, ⟨hs, hw⟩, hflags⟩
        rw [← hk]
        exact ⟨⟨rfl, hs, hw⟩, hkeys, hflags⟩

theorem accountsForCtmEnqueue_eq_iff {group group' queue queue' : PublicKey}
    {l l' : List AccountMeta} :
    accountsForCtmEnqueue group queue l = accountsForCtmEnqueue group' queue' l' ↔
      l.map AccountMeta.pubkey = l'.map AccountMeta.pubkey ∧
        ∀ k ∈ l.map AccountMeta.pubkey,
          mergedFlags group queue l k = mergedFlags group' queue' l' k := by
  rw [accountsForCtmEnqueue_eq, accountsForCtmEnqueue_eq, map_effective_eq_iff]
  simp only [mergedFlags, RuntimeFlags.mk.injEq]

/-- **The relayed hash depends on the keys in order and on the joined flags of each key**, and on
nothing else. The hashed list has the keys of the given one, each with the flags that any entry with
its key has there or among the fixed accounts; these are the flags that the keys of the enqueue
instruction join. Hashing the joined list gives the same hash. -/
theorem relayed_hash_merges (rt : Runtime) (group queue : PublicKey) (l : List AccountMeta) :
    ((accountsForCtmEnqueue group queue l).map AccountMeta.pubkey = l.map AccountMeta.pubkey ∧
      accountsForCtmEnqueue group queue l =
        l.map (effective (fixedAccounts group queue ++ l))) ∧
    (∀ params ix, buildExecutionQueueEnqueueDirectIx rt params = .ok ix →
      accountsForCtmEnqueue params.group params.executionQueue params.remainingAccounts =
        params.remainingAccounts.map (effective ix.keys)) ∧
    (∀ params ixs, buildExecutionQueueEnqueueDirectWithIntentIxs rt params = .ok ixs →
      ixs.envelope.accountsHash = (hashExecutionQueueAccounts rt
        (params.remainingAccounts.map (effective ixs.enqueueInstruction.keys))).bytes) ∧
    hashExecutionQueueAccountsForCtmEnqueue rt group queue (accountsForCtmEnqueue group queue l) =
      hashExecutionQueueAccountsForCtmEnqueue rt group queue l ∧
    ∀ group' queue' l',
      accountsForCtmEnqueue group queue l = accountsForCtmEnqueue group' queue' l' ↔
        l.map AccountMeta.pubkey = l'.map AccountMeta.pubkey ∧
          ∀ k ∈ l.map AccountMeta.pubkey,
            mergedFlags group queue l k = mergedFlags group' queue' l' k := by
  refine ⟨⟨?_, accountsForCtmEnqueue_eq _ _ _⟩, fun _ _ h => accountsForCtmEnqueue_of_keys h,
    fun _ _ h => envelope_accountsHash h, ?_, fun _ _ _ => accountsForCtmEnqueue_eq_iff⟩
  · rw [accountsForCtmEnqueue_eq, List.map_map]
    rfl
  · rw [hashExecutionQueueAccountsForCtmEnqueue, accountsForCtmEnqueue_idempotent]
    rfl

/-- A list with the group read-only and one account twice, with a different flag each time. -/
def duplicatedAccounts : List AccountMeta := [
  { pubkey := PublicKey.default, isSigner := false, isWritable := false },
  { pubkey := ⟨List.replicate 32 1, rfl⟩, isSigner := true, isWritable := false },
  { pubkey := ⟨List.replicate 32 1, rfl⟩, isSigner := false, isWritable := true }]

/-- The enqueue instruction of that list joins the flags the relayed hash joins. -/
theorem relayed_hash_merges_at_duplicates :
    accountsForCtmEnqueue PublicKey.default ⟨List.replicate 32 2, rfl⟩ duplicatedAccounts =
      duplicatedAccounts.map (effective ([
        { pubkey := PublicKey.default, isSigner := false, isWritable := true },
        { pubkey := ⟨List.replicate 32 2, rfl⟩, isSigner := false, isWritable := true },
        { pubkey := SYSVAR_INSTRUCTIONS_PUBKEY, isSigner := false, isWritable := false }] ++
        duplicatedAccounts ++
        [{ pubkey := PublicKey.default, isSigner := false, isWritable := false }])) :=
  (relayed_hash_merges (.ofTables [] [] []) PublicKey.default ⟨List.replicate 32 2, rfl⟩ []).2.1
    ⟨PublicKey.default, PublicKey.default, ⟨List.replicate 32 2, rfl⟩, .int 0, duplicatedAccounts,
      ⟨0, 0, CtmWrapped, List.replicate 32 0, List.replicate 32 0, 0⟩, []⟩ _ rfl

end Intents

/-! ## Reading a request -/

/-- The account that a wire entry names. -/
def RelayerAccountMeta.account (entry : RelayerAccountMeta) : Option AccountMeta :=
  (PublicKey.ofBase58 entry.pubkey).map fun pubkey =>
    { pubkey, isSigner := entry.is_signer, isWritable := entry.is_writable }

theorem account_toRelayerAccountMeta (a : AccountMeta) :
    (toRelayerAccountMeta a).account = some a := by
  rw [RelayerAccountMeta.account, toRelayerAccountMeta, PublicKey.ofBase58_toBase58,
    Option.map_some]

theorem mapM_account (l : List AccountMeta) :
    (l.map toRelayerAccountMeta).mapM RelayerAccountMeta.account = some l := by
  induction l with
  | nil => rfl
  | cons a l ih =>
    rw [List.map_cons, List.mapM_cons, account_toRelayerAccountMeta, ih]
    rfl

/-- The accounts of a request, in order, with their effective flags. -/
def SubmitIntentRequest.effectiveAccounts (req : SubmitIntentRequest) :
    Option (List AccountMeta) := do
  let group ← PublicKey.ofBase58 req.group
  let queue ← PublicKey.ofBase58 req.execution_queue
  let accounts ← req.remaining_accounts.mapM RelayerAccountMeta.account
  pure (accounts.map (Intents.effective (Intents.fixedAccounts group queue ++ accounts)))

/-- A request carries the list that its sender hashed. -/
theorem effectiveAccounts_of_wire {req : SubmitIntentRequest} {group queue : PublicKey}
    {accounts : List AccountMeta} (hgroup : req.group = group.toBase58)
    (hqueue : req.execution_queue = queue.toBase58)
    (haccounts : req.remaining_accounts = accounts.map toRelayerAccountMeta) :
    req.effectiveAccounts = some (Intents.accountsForCtmEnqueue group queue accounts) := by
  rw [SubmitIntentRequest.effectiveAccounts, hgroup, hqueue, haccounts,
    PublicKey.ofBase58_toBase58, PublicKey.ofBase58_toBase58, mapM_account,
    Intents.accountsForCtmEnqueue_eq]
  rfl

end FermiSdk
