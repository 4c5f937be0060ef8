import FermiSdk.Flp.Verify.CloseEpoch
import FermiSdk.Flp.Verify.Extension

/-!
# Reading a vault

A vault with a recovery sidecar is read in two requests, between which the chain may move on. Both
clients return what the account of the vault says, with the targets of a sidecar that belongs to the
very recovery that the vault was in, or nothing (`fetchVault_eq_ok_iff`). They differ in when they
read the sidecar and in what they ask of it (`ReadsV3`, `ReadsV4`).
-/

namespace FermiSdk

open FermiSdk.Lib

/-! ## Vaults -/

section

variable {rt : Runtime} {connection later : Connection} {programId vault : PublicKey}
  {state raw : VaultState} {targets : RecoveryTargets}

/-- Any vault can be in an account. -/
theorem exists_vaultData (h : raw.Raw) (hreserved : raw.reserved.length = 67) :
    ∃ data, vaultLayout.Says rt data raw := by
  refine vaultLayout.exists_says h ?_ ?_
  · simp only [vaultLayout, VaultState.entries, List.forall_mem_cons, List.length_cons,
      List.length_nil, length_leBytes, Bytes32.size, i64Bytes, List.length_flatMap, List.map_const',
      List.sum_replicate, h.markets.1, h.lots.1, hreserved, List.not_mem_nil, false_imp_iff,
      implies_true, and_true]
    and_intros <;> decide
  · simp only [vaultLayout, VaultState.entries, List.map_cons, List.map_nil]
    decide

/-- The sidecar of the vault at the second request. -/
def SidecarRead (rt : Runtime) (later : Connection) (programId vault : PublicKey)
    (targets : RecoveryTargets) : Prop :=
  (∃ address, deriveRecoveryTargets rt programId vault = .ok address ∧
    recoveryTargetsLayout.Holds rt later programId address targets) ∧ targets.vault = vault

/-- What the account of a vault says, with its extension. -/
def HoldsExtended (rt : Runtime) (connection : Connection) (programId vault : PublicKey)
    (extended : VaultState) : Prop :=
  ∃ raw, vaultLayout.Holds rt connection programId vault raw ∧
    decodeVaultExtension raw = .ok extended

/-- What the client of version 4 vaults returns for a vault: the account as it was at the first
request, and in recovery the targets of a sidecar that at the second request belonged to this very
recovery. -/
def ReadsV4 (rt : Runtime) (connection later : Connection) (programId vault : PublicKey)
    (state : VaultState) : Prop :=
  ∃ extended, HoldsExtended rt connection programId vault extended ∧ extended.version = 4 ∧
    (extended.fermiAccount = PublicKey.default ∧ state = extended ∨
      extended.fermiAccount ≠ PublicKey.default ∧ extended.expandedRecovery = some true ∧
      ∃ targets, SidecarRead rt later programId vault targets ∧
        (extended.unwind.mode = 0 ∧ state = extended ∨
          extended.unwind.mode ≠ 0 ∧ targets.Matches extended.unwind ∧
          state = { extended with unwind := extended.unwind.withTargets targets }))

/-- The same for the client of version 3 vaults, which reads a sidecar only in recovery. -/
def ReadsV3 (rt : Runtime) (connection later : Connection) (programId vault : PublicKey)
    (state : VaultState) : Prop :=
  ∃ extended, HoldsExtended rt connection programId vault extended ∧ extended.version = 3 ∧
    (¬ (extended.expandedRecovery = some true ∧ extended.unwind.mode ≠ 0) ∧ state = extended ∨
      (extended.expandedRecovery = some true ∧ extended.unwind.mode ≠ 0) ∧
      ∃ targets, SidecarRead rt later programId vault targets ∧ targets.Matches extended.unwind ∧
        state = { extended with unwind := extended.unwind.withTargets targets })

theorem FlpV4Client.fetchVault_eq_ok {client : FlpV4Client}
    (hcoder : client.coder.Lawful rt FLP_V4_METHODS) :
    client.fetchVault rt later vault = .ok state ↔
      ReadsV4 rt client.shared.connection later client.programId vault state := by
  have hvault (raw : VaultState) : client.fetch vaultType BorshCoder.decodeVault vault = .ok raw ↔
      vaultLayout.Holds rt client.shared.connection client.programId vault raw :=
    fetch_eq_ok vaultLayout hcoder hcoder.vault
  have htargets (address : PublicKey) (targets : RecoveryTargets) :
      (client.answeredBy later).fetch recoveryTargetsType BorshCoder.decodeRecoveryTargets address =
        .ok targets ↔
      recoveryTargetsLayout.Holds rt later client.programId address targets :=
    @fetch_eq_ok rt _ targets FLP_V4_METHODS _ address (client.answeredBy later)
      recoveryTargetsLayout hcoder hcoder.recoveryTargets
  simp only [fetchVault, Throws.bind_eq_ok, hvault, Throws.throwIf_eq_ok, exists_const,
    not_not, not_and, ne_eq]
  constructor
  · rintro ⟨raw, hraw, extended, hextended, hversion, hsidecar, hrest⟩
    refine ⟨extended, ⟨raw, hraw, hextended⟩, hversion, ?_⟩
    by_cases hcore : extended.fermiAccount = PublicKey.default
    · rw [if_neg (not_not.2 hcore), Throws.pure_eq_ok] at hrest
      exact .inl ⟨hcore, hrest.symm⟩
    · rw [if_pos hcore] at hrest
      simp only [Throws.bind_eq_ok, htargets, Throws.throwIf_eq_ok, exists_const, not_not] at hrest
      obtain ⟨address, haddress, targets, hholds, hown, hrest⟩ := hrest
      refine .inr ⟨hcore, hsidecar hcore, targets, ⟨⟨address, haddress, hholds⟩, hown⟩, ?_⟩
      by_cases hmode : extended.unwind.mode = 0
      · rw [if_neg (not_not.2 hmode), Throws.pure_eq_ok] at hrest
        exact .inl ⟨hmode, hrest.symm⟩
      · rw [if_pos hmode] at hrest
        simp only [Throws.bind_eq_ok, Throws.throwIf_eq_ok, exists_const, not_not,
          Throws.pure_eq_ok] at hrest
        exact .inr ⟨hmode, hrest.1, hrest.2.symm⟩
  · rintro ⟨extended, ⟨raw, hraw, hextended⟩, hversion, hrest⟩
    refine ⟨raw, hraw, extended, hextended, hversion, ?_⟩
    rcases hrest with ⟨hcore, rfl⟩ | ⟨hcore, hexpanded, targets, ⟨⟨address, haddress, hholds⟩,
      hown⟩, hrest⟩
    · exact ⟨fun hne => absurd hcore hne, by rw [if_neg (not_not.2 hcore)]; rfl⟩
    · refine ⟨fun _ => hexpanded, ?_⟩
      rw [if_pos hcore]
      simp only [Throws.bind_eq_ok, htargets, Throws.throwIf_eq_ok, exists_const, not_not]
      refine ⟨address, haddress, targets, hholds, hown, ?_⟩
      rcases hrest with ⟨hmode, rfl⟩ | ⟨hmode, hmatches, rfl⟩
      · rw [if_neg (not_not.2 hmode)]
        rfl
      · rw [if_pos hmode, Throws.throwIf_of_not (not_not.2 hmatches)]
        rfl

theorem FlpClient.fetchVault_eq_ok {client : FlpClient}
    (hcoder : client.coder.Lawful rt FLP_METHODS) :
    client.fetchVault rt later vault = .ok state ↔
      ReadsV3 rt client.connection later client.programId vault state := by
  have hvault (raw : VaultState) : client.fetch vaultType BorshCoder.decodeVault vault = .ok raw ↔
      vaultLayout.Holds rt client.connection client.programId vault raw :=
    fetch_eq_ok vaultLayout hcoder hcoder.vault
  simp only [fetchVault, Throws.bind_eq_ok, hvault, Throws.throwIf_eq_ok, exists_const, not_not,
    ne_eq]
  constructor
  · rintro ⟨raw, hraw, extended, hextended, hversion, hrest⟩
    refine ⟨extended, ⟨raw, hraw, hextended⟩, hversion, ?_⟩
    by_cases hrecovery : extended.expandedRecovery = some true ∧ extended.unwind.mode ≠ 0
    · rw [if_pos hrecovery] at hrest
      simp only [Throws.bind_eq_ok] at hrest
      obtain ⟨address, haddress, hrest⟩ := hrest
      cases hinfo : later.getAccountInfo address with
      | none =>
        rw [hinfo] at hrest
        cases hrest
      | some info =>
        rw [hinfo] at hrest
        simp only [Throws.bind_eq_ok, Throws.throwIf_eq_ok, exists_const, not_not, not_or,
          Throws.pure_eq_ok] at hrest
        obtain ⟨howner, hlength, targets, htargets, ⟨hown, hmatches⟩, hstate⟩ := hrest
        have hholds : recoveryTargetsLayout.Holds rt later client.programId address targets :=
          ⟨info.data, by rw [hinfo, ← howner],
            (hcoder.recoveryTargets info.data targets hlength).1 htargets⟩
        exact .inr ⟨hrecovery, targets, ⟨⟨address, haddress, hholds⟩, hown⟩, hmatches,
          hstate.symm⟩
    · rw [if_neg hrecovery, Throws.pure_eq_ok] at hrest
      exact .inl ⟨hrecovery, hrest.symm⟩
  · rintro ⟨extended, ⟨raw, hraw, hextended⟩, hversion, hrest⟩
    refine ⟨raw, hraw, extended, hextended, hversion, ?_⟩
    rcases hrest with ⟨hrecovery, rfl⟩ | ⟨hrecovery, targets, ⟨⟨address, haddress, data, hinfo,
      hsays⟩, hown⟩, hmatches, rfl⟩
    · rw [if_neg hrecovery]
      rfl
    · rw [if_pos hrecovery]
      simp only [Throws.bind_eq_ok]
      refine ⟨address, haddress, ?_⟩
      rw [hinfo]
      simp only [Throws.bind_eq_ok, Throws.throwIf_eq_ok, exists_const, not_not, not_or,
        Throws.pure_eq_ok]
      exact ⟨trivial, hsays.length, targets, (hcoder.recoveryTargets data targets hsays.length).2
        hsays, ⟨hown, hmatches⟩, rfl⟩

/-- **A vault is read back exactly, and never with the targets of another recovery.** -/
theorem fetchVault_eq_ok_iff {client : FlpClient} {clientV4 : FlpV4Client}
    (hcoder : client.coder.Lawful rt FLP_METHODS)
    (hcoderV4 : clientV4.coder.Lawful rt FLP_V4_METHODS) :
    (client.fetchVault rt later vault = .ok state ↔
      ReadsV3 rt client.connection later client.programId vault state) ∧
    (clientV4.fetchVault rt later vault = .ok state ↔
      ReadsV4 rt clientV4.shared.connection later clientV4.programId vault state) :=
  ⟨FlpClient.fetchVault_eq_ok hcoder, FlpV4Client.fetchVault_eq_ok hcoderV4⟩

end

namespace RecordedVault

open RecordedExtension

/-- SHA-256 on the names of the account types, and the address of the sidecar. -/
def runtime : Runtime :=
  .ofTables
    [(Buffer.ofAscii "account:Vault",
        ⟨[211, 8, 232, 43, 2, 152, 117, 119, 217, 35, 188, 148, 194, 86, 167, 97,
          209, 47, 164, 34, 11, 42, 11, 215, 207, 54, 243, 198, 135, 42, 170, 57], rfl⟩),
      (Buffer.ofAscii "account:RecoveryTargets",
        ⟨[150, 27, 252, 200, 149, 28, 252, 176, 7, 191, 211, 246, 99, 153, 118, 191,
          153, 41, 223, 229, 142, 133, 254, 101, 67, 176, 20, 159, 211, 36, 232, 194], rfl⟩)]
    []
    [([Buffer.ofAscii "flp-recovery", RecordedQueue.vault.bytes], RecordedQueue.recoveryTargets)]

/-- A vault in a partial recovery. -/
def raw (version : UInt8) : VaultState :=
  { state with
    version
    fermiAccount := RecordedQueue.authority
    unwind := {
      mode := 1
      batchEpoch := 7
      startedAt := 1767225600
      marketIndexes := [0, 1, 2, 3]
      targetBaseLots := [10, -20, 30, -40] } }

def targets : RecoveryTargets where
  vault := RecordedQueue.vault
  mode := 1
  batchEpoch := 7
  startedAt := 1767225600
  marketIndexes := List.range 13
  targetBaseLots := [10, -20, 30, -40, 50, 0, 0, 0, 0, 0, 0, 0, 0]

/-- What the clients return. -/
def recovered (version : UInt8) : VaultState :=
  let extended := (raw version).extendedBy extension
  { extended with unwind := extended.unwind.withTargets targets }

theorem raw_raw (version : UInt8) : (raw version).Raw :=
  ⟨rfl, rfl, rfl, rfl, rfl, rfl, rfl, (by decide : IsI64 1767225600),
    ⟨rfl, (by decide : ∀ market ∈ [0, 1, 2, 3], market < 2 ^ 16)⟩, rfl,
    (by decide : ∀ lots ∈ [10, -20, 30, -40], IsI64 lots)⟩

theorem targets_ranged : targets.Ranged := ⟨by decide, ⟨rfl, by decide⟩, rfl, by decide⟩

/-- A chain that has the vault and its sidecar. -/
theorem exists_chain (version : UInt8) : ∃ connection,
    vaultLayout.Holds runtime connection RecordedQueue.programId RecordedQueue.vault
      (raw version) ∧
    recoveryTargetsLayout.Holds runtime connection RecordedQueue.programId
      RecordedQueue.recoveryTargets targets := by
  obtain ⟨data, hdata⟩ := @exists_vaultData runtime _ (raw_raw version) rfl
  obtain ⟨data', hdata'⟩ := @AccountLayout.exists_says runtime _ targets recoveryTargetsLayout
    targets_ranged (by decide) (by decide)
  let connection : Connection := {
    getAccountInfo := fun address =>
      if address = RecordedQueue.vault then some ⟨RecordedQueue.programId, data⟩
      else some ⟨RecordedQueue.programId, data'⟩ }
  have hvault : connection.getAccountInfo RecordedQueue.vault =
      some ⟨RecordedQueue.programId, data⟩ := by simp only [connection, if_true]
  have hsidecar : connection.getAccountInfo RecordedQueue.recoveryTargets =
      some ⟨RecordedQueue.programId, data'⟩ := by
    have hne : RecordedQueue.recoveryTargets ≠ RecordedQueue.vault := by decide
    simp only [connection, hne, if_false]
  exact ⟨connection, ⟨data, hvault, hdata⟩, data', hsidecar, hdata'⟩

def client (connection : Connection) : FlpClient where
  connection := connection
  programId := RecordedQueue.programId
  coder := .documented runtime FLP_METHODS
  marketQueues := []

def clientV4 (connection : Connection) : FlpV4Client where
  shared := client connection
  coder := .documented runtime FLP_V4_METHODS

end RecordedVault

open RecordedExtension RecordedVault in
theorem fetchVault_eq_ok_iff_recorded : ∃ connection connectionV4,
    (client connection).fetchVault runtime connection RecordedQueue.vault = .ok (recovered 3) ∧
    (clientV4 connectionV4).fetchVault runtime connectionV4 RecordedQueue.vault =
      .ok (recovered 4) := by
  have hextension : extension.Ranged := ⟨by decide, rfl⟩
  have hextended (version : UInt8) :
      decodeVaultExtension (raw version) = .ok ((raw version).extendedBy extension) :=
    decodeVaultExtension_bytes hextension rfl
  have hread (connection connection' : Connection) := @fetchVault_eq_ok_iff runtime
    connection RecordedQueue.vault (recovered 3) (client connection) (clientV4 connection')
    (BorshCoder.documented_lawful _ _) (BorshCoder.documented_lawful _ _)
  have hreadV4 (connection connection' : Connection) := @fetchVault_eq_ok_iff runtime
    connection' RecordedQueue.vault (recovered 4) (client connection) (clientV4 connection')
    (BorshCoder.documented_lawful _ _) (BorshCoder.documented_lawful _ _)
  obtain ⟨connection, hvault, htargets⟩ := exists_chain 3
  obtain ⟨connectionV4, hvaultV4, htargetsV4⟩ := exists_chain 4
  refine ⟨connection, connectionV4, (hread connection connectionV4).1.2 ?v3,
    (hreadV4 connection connectionV4).2.2 ?v4⟩
  case v3 =>
    exact ⟨_, ⟨_, hvault, hextended 3⟩, rfl, .inr ⟨⟨rfl, by decide⟩, targets,
      ⟨⟨_, rfl, htargets⟩, rfl⟩, ⟨rfl, rfl, rfl⟩, rfl⟩⟩
  case v4 =>
    exact ⟨_, ⟨_, hvaultV4, hextended 4⟩, rfl, .inr ⟨by decide, rfl, targets,
      ⟨⟨_, rfl, htargetsV4⟩, rfl⟩, .inr ⟨by decide, ⟨rfl, rfl, rfl⟩, rfl⟩⟩⟩

/-! ## Records -/

section

variable {rt : Runtime} {vault user : PublicKey} {state : VaultState} {client : FlpClient}
  {clientV4 : FlpV4Client}

theorem fundingWindowIsCurrent_iff {window : FundingWindowAccount} :
    fundingWindowIsCurrent window vault state = true ↔ window.version = 1 ∧
      window.vault = vault ∧ window.closedEpoch.toNat + 1 = state.epoch.toNat := by
  have hlt := state.epoch.toNat_lt
  simp only [fundingWindowIsCurrent, Bool.and_eq_true, decide_eq_true_eq, and_assoc]
  refine and_congr_right fun _ => and_congr_right fun _ => and_iff_right_of_imp fun h => ?_
  omega

/-- A record that is read at its address is then compared with what was asked for. -/
theorem readChecked_eq_ok {α : Type} {Holds : PublicKey → α → Prop} {derived : Throws PublicKey}
    {fetch : PublicKey → Throws α} {refused : α → Prop} [DecidablePred refused] {text : String}
    {record : α} (hfetch : ∀ address record, fetch address = .ok record ↔ Holds address record) :
    (do
      let address ← derived
      let record ← fetch address
      throwIf (refused record) text
      pure record : Throws α) = .ok record ↔
      (∃ address, derived = .ok address ∧ Holds address record) ∧ ¬ refused record := by
  simp only [Throws.bind_eq_ok, hfetch, Throws.throwIf_eq_ok, exists_const, Throws.pure_eq_ok]
  constructor
  · rintro ⟨address, haddress, record, hholds, haccepted, rfl⟩
    exact ⟨⟨address, haddress, hholds⟩, haccepted⟩
  · rintro ⟨⟨address, haddress, hholds⟩, haccepted⟩
    exact ⟨address, haddress, record, hholds, haccepted, rfl⟩

theorem FlpV4Client.fetchDepositor_eq_ok (hcoder : clientV4.coder.Lawful rt FLP_V4_METHODS)
    {record : DepositorAccount} :
    clientV4.fetchDepositor rt vault user = .ok record ↔ (∃ address,
      deriveDepositor rt clientV4.programId vault user = .ok address ∧
        depositorLayout.Holds rt clientV4.shared.connection clientV4.programId address record) ∧
      record.vault = vault ∧ record.user = user := by
  have hfetch (address : PublicKey) (record : DepositorAccount) :
      clientV4.fetch depositorType BorshCoder.decodeDepositor address = .ok record ↔ _ :=
    FlpV4Client.fetch_eq_ok depositorLayout hcoder hcoder.depositor
  unfold fetchDepositor
  rw [readChecked_eq_ok hfetch, not_or, not_not, not_not]

theorem FlpV4Client.fetchEpoch_eq_ok (hcoder : clientV4.coder.Lawful rt FLP_V4_METHODS)
    {epoch : UInt64} {record : EpochAccount} :
    clientV4.fetchEpoch rt vault epoch = .ok record ↔ (∃ address,
      deriveEpoch rt clientV4.programId vault (.bigint epoch.toNat) = .ok address ∧
        epochRecordLayout.Holds rt clientV4.shared.connection clientV4.programId address record) ∧
      record.vault = vault ∧ record.epoch = epoch := by
  have hfetch (address : PublicKey) (record : EpochAccount) :
      clientV4.fetch epochRecordType BorshCoder.decodeEpochRecord address = .ok record ↔ _ :=
    FlpV4Client.fetch_eq_ok epochRecordLayout hcoder hcoder.epochRecord
  unfold fetchEpoch
  rw [uint_toNat, Throws.ok_bind, readChecked_eq_ok hfetch, not_or, not_not, not_not]

theorem FlpV4Client.fetchFundingWindow_eq_ok (hcoder : clientV4.coder.Lawful rt FLP_V4_METHODS)
    {window : FundingWindowAccount} :
    clientV4.fetchFundingWindow rt vault state = .ok window ↔ (∃ address,
      deriveFundingWindow rt clientV4.programId vault = .ok address ∧
        fundingWindowLayout.Holds rt clientV4.shared.connection clientV4.programId address window) ∧
      window.version = 1 ∧ window.vault = vault ∧
        window.closedEpoch.toNat + 1 = state.epoch.toNat := by
  have hfetch (address : PublicKey) (window : FundingWindowAccount) :
      clientV4.fetch fundingWindowType BorshCoder.decodeFundingWindow address = .ok window ↔ _ :=
    FlpV4Client.fetch_eq_ok fundingWindowLayout hcoder hcoder.fundingWindow
  unfold fetchFundingWindow
  rw [readChecked_eq_ok hfetch, Bool.not_eq_true', Bool.not_eq_false, fundingWindowIsCurrent_iff]

/-- **The records of a user, of an epoch and of the funding window are read back exactly.** The
client of version 3 vaults leaves it to the address that the record is the one it asked for. -/
theorem fetchRecords_eq_ok_iff (hcoder : client.coder.Lawful rt FLP_METHODS)
    (hcoderV4 : clientV4.coder.Lawful rt FLP_V4_METHODS) :
    (∀ record, client.fetchDepositor rt vault user = .ok record ↔ ∃ address,
      deriveDepositor rt client.programId vault user = .ok address ∧
        depositorLayout.Holds rt client.connection client.programId address record) ∧
    (∀ record, clientV4.fetchDepositor rt vault user = .ok record ↔ (∃ address,
      deriveDepositor rt clientV4.programId vault user = .ok address ∧
        depositorLayout.Holds rt clientV4.shared.connection clientV4.programId address record) ∧
      record.vault = vault ∧ record.user = user) ∧
    (∀ epoch record, client.fetchEpoch rt vault epoch = .ok record ↔ ∃ address,
      deriveEpoch rt client.programId vault (.bigint epoch.toNat) = .ok address ∧
        epochRecordLayout.Holds rt client.connection client.programId address record) ∧
    (∀ epoch record, clientV4.fetchEpoch rt vault epoch = .ok record ↔ (∃ address,
      deriveEpoch rt clientV4.programId vault (.bigint epoch.toNat) = .ok address ∧
        epochRecordLayout.Holds rt clientV4.shared.connection clientV4.programId address record) ∧
      record.vault = vault ∧ record.epoch = epoch) ∧
    ∀ window, clientV4.fetchFundingWindow rt vault state = .ok window ↔ (∃ address,
      deriveFundingWindow rt clientV4.programId vault = .ok address ∧
        fundingWindowLayout.Holds rt clientV4.shared.connection clientV4.programId address window) ∧
      window.version = 1 ∧ window.vault = vault ∧
        window.closedEpoch.toNat + 1 = state.epoch.toNat := by
  have hdepositor (address : PublicKey) (record : DepositorAccount) :
      client.fetch depositorType BorshCoder.decodeDepositor address = .ok record ↔ _ :=
    FlpClient.fetch_eq_ok depositorLayout hcoder hcoder.depositor
  refine ⟨fun record => ?_, fun _ => FlpV4Client.fetchDepositor_eq_ok hcoderV4,
    fun _ _ => FlpClient.fetchEpoch_eq_ok hcoder, fun _ _ => FlpV4Client.fetchEpoch_eq_ok hcoderV4,
    fun _ => FlpV4Client.fetchFundingWindow_eq_ok hcoderV4⟩
  simp only [FlpClient.fetchDepositor, Throws.bind_eq_ok, hdepositor]

end

namespace RecordedWindow

open RecordedQueue

/-- The window after the close of epoch 8. -/
def window : FundingWindowAccount where
  vault := vault
  version := 1
  closedEpoch := 8
  scheduledStart := 1767225600
  deadline := 1767229200
  eligible := true

theorem window_ranged : fundingWindowLayout.Ranged window := ⟨by decide, by decide⟩

/-- A client on a chain where all accounts have these data. -/
def clientV4 (data : Bytes) : FlpV4Client where
  shared := { RecordedQueue.client with
    connection := { getAccountInfo := fun _ => some ⟨programId, data⟩ } }
  coder := .documented runtime FLP_V4_METHODS

end RecordedWindow

open RecordedExtension RecordedWindow in
theorem fetchRecords_eq_ok_iff_recorded : ∃ data,
    (clientV4 data).fetchFundingWindow RecordedQueue.runtime RecordedQueue.vault state =
      .ok window := by
  obtain ⟨data, hdata⟩ := @AccountLayout.exists_says RecordedQueue.runtime _ window
    fundingWindowLayout window_ranged (by decide) (by decide)
  obtain ⟨-, -, -, -, hwindow⟩ := @fetchRecords_eq_ok_iff RecordedQueue.runtime RecordedQueue.vault
    PublicKey.default state RecordedQueue.client (clientV4 data)
    (BorshCoder.documented_lawful _ _) (BorshCoder.documented_lawful _ _)
  exact ⟨data, (hwindow window).2 ⟨⟨RecordedQueue.fundingWindow, rfl, data, rfl, hdata⟩, rfl, rfl,
    rfl⟩⟩

end FermiSdk
