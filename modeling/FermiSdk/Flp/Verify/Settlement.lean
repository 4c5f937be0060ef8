import FermiSdk.Flp.Verify.PricingContext
import FermiSdk.Flp.Verify.VaultReads

/-!
# Settling what was queued

A deposit ticket is settled by the record of its epoch: refunded if the epoch closed with its deposits
held, else claimed. Whoever has read the record can have it settled, without the user
(`settlement_instructions`). The head of the withdrawal queue is funded only while the window on chain
is open (`fundHeadIfOpen_eq_ok_iff`).
-/

namespace FermiSdk

open FermiSdk.Lib

/-! ## Deposits -/

/-- What settles a deposit ticket of an epoch. -/
def EpochAccount.settlement (record : EpochAccount) : UserAction :=
  if record.depDen = 0 ∧ record.depGross ≠ 0 then .refundPendingDeposit (some record.epoch.toNat)
  else .claimDeposit record.epoch.toNat

section

variable {rt : Runtime} {spl : SplToken} {client : FlpV4Client} {vault user payer : PublicKey}
  {state : VaultState} {record : EpochAccount} {addresses : UserAddresses} {epoch : UInt64}
  {accounts : NamedAccounts} {health : List AccountMeta} {now : Int}

theorem depositsHeld_iff : depositsHeld record = true ↔ record.depDen = 0 ∧ record.depGross ≠ 0 := by
  simp [depositsHeld]

theorem settleDepositInstruction_eq {client : FlpClient} :
    client.settleDepositInstruction rt spl vault state user record =
      record.settlement.instructionV3 rt spl client vault state user := by
  unfold FlpClient.settleDepositInstruction EpochAccount.settlement
  simp only [depositsHeld_iff]
  split <;> rfl

theorem settleDepositInstructions_eq :
    client.settleDepositInstructions rt spl vault state user record payer =
      (throwIf (record.vault ≠ vault) "Epoch identity mismatch" >>= fun _ =>
        record.settlement.instructionsV4 rt spl client vault state user payer) := by
  unfold FlpV4Client.settleDepositInstructions EpochAccount.settlement
  simp only [depositsHeld_iff]
  split <;> rfl

/-- A record settles the tickets of its own epoch, and nobody else's signature is needed. -/
theorem settlement_cases : record.settlement.epoch = some (record.epoch.toNat : Int) ∧
    record.settlement.amount = none ∧ ¬ record.settlement.ByUser ∧
    ∀ status, record.settlement.InPhase status := by
  unfold EpochAccount.settlement
  split
  · exact ⟨rfl, rfl, fun h => h, fun _ => trivial⟩
  · exact ⟨rfl, rfl, fun h => h, fun _ => trivial⟩

/-- **Whoever has read the record of an epoch can have a ticket of it settled.** -/
theorem settlement_instructions (hcoder : client.shared.coder.Lawful rt FLP_METHODS)
    (hcoderV4 : client.coder.Lawful rt FLP_V4_METHODS) (hspl : spl.Lawful)
    (haddresses : addresses.Derived rt spl client.programId vault state user)
    (hread : client.fetchEpoch rt vault epoch = .ok record) :
    (state.version = 4 → ∃ address core,
      deriveEpoch rt client.programId vault (.bigint epoch.toNat) = .ok address ∧
      client.shared.settleDepositInstruction rt spl vault state user record = .ok core ∧
      core.Within ∅ (addresses.writables vault state user ∪ {address}) ∧
      ∀ payer, ∃ preparation,
        client.settleDepositInstructions rt spl vault state user record payer =
          .ok (preparation ++ [core]) ∧
        ∀ ix ∈ preparation, ix.Within {payer} {payer, addresses.depositor,
          addresses.userQuoteAccount, addresses.userShareAccount}) ∧
    (state.version ≠ 4 → ∀ payer, ∃ e,
      client.settleDepositInstructions rt spl vault state user record payer = .error e) ∧
    ∀ other, other ≠ vault → ∀ payer,
      client.settleDepositInstructions rt spl other state user record payer =
        .error "Epoch identity mismatch" := by
  obtain ⟨⟨address, haddress, -⟩, hvault, hepoch⟩ := (FlpV4Client.fetchEpoch_eq_ok hcoderV4).1 hread
  obtain ⟨hsettles, hamount, hanyone, hphase⟩ := @settlement_cases record
  rw [hepoch] at hsettles
  refine ⟨fun hversion => ?_, fun hversion payer => ?_, fun other hother payer => ?_⟩
  · have hvalid : record.settlement.Valid rt client.programId vault := by
      refine ⟨fun n hn => ?_, fun e he => ?_⟩
      · rw [hamount] at hn
        cases hn
      · rw [hsettles] at he
        cases he
        exact ⟨address, haddress⟩
    obtain ⟨core, hv3, hwithin, hv4⟩ :=
      UserAction.exists_instructions hcoder hcoderV4 hspl haddresses hversion hvalid
    refine ⟨address, core, haddress, ?_, fun key hkey => ?_, fun payer => ?_⟩
    · rw [settleDepositInstruction_eq]
      exact (hv3 state.status core).2 ⟨hphase state.status, rfl⟩
    · refine ⟨fun hsigner => hanyone ((hwithin key hkey).1 hsigner).2, fun hwritable => ?_⟩
      refine ((hwithin key hkey).2 hwritable).imp_right ?_
      rintro ⟨e, he, hrecord⟩
      rw [hsettles] at he
      cases he
      exact Except.ok.inj (hrecord.symm.trans haddress)
    · rw [settleDepositInstructions_eq, Throws.throwIf_of_not (not_not.2 hvault)]
      exact hv4 payer
  · rw [settleDepositInstructions_eq, Throws.throwIf_of_not (not_not.2 hvault)]
    exact UserAction.throws_of_invalid hcoderV4 haddresses (fun h => hversion h.1) payer
  · have hne : record.vault ≠ other := fun h => hother (h.symm.trans hvault)
    rw [settleDepositInstructions_eq, throwIf, if_pos hne]
    rfl

/-! ## The head of the queue -/

/-- **The head is funded only while the window on chain is open.** -/
theorem fundHeadIfOpen_eq_ok_iff (hcoder : client.coder.Lawful rt FLP_V4_METHODS)
    {built : TransactionInstruction × FlpV4Client} :
    client.fundHeadIfOpen rt vault state accounts health now = .ok built ↔
      (∃ address window, deriveFundingWindow rt client.programId vault = .ok address ∧
        fundingWindowLayout.Holds rt client.shared.connection client.programId address window ∧
        (window.version = 1 ∧ window.vault = vault ∧
          window.closedEpoch.toNat + 1 = state.epoch.toNat) ∧
        window.eligible = true ∧ window.scheduledStart ≤ now ∧ now ≤ window.deadline) ∧
      client.fundHead rt vault state accounts health = .ok built := by
  rw [FlpV4Client.fundHeadIfOpen, Throws.bind_eq_ok]
  simp only [throwIf_bind_eq_ok, FlpV4Client.fetchFundingWindow_eq_ok hcoder, fundingWindowIsOpen,
    Bool.not_eq_true', Bool.not_eq_false, Bool.and_eq_true, decide_eq_true_eq]
  constructor
  · rintro ⟨window, ⟨⟨address, haddress, hholds⟩, hcurrent⟩, ⟨⟨heligible, hstart⟩, hend⟩, hbuilt⟩
    exact ⟨⟨address, window, haddress, hholds, hcurrent, heligible, hstart, hend⟩, hbuilt⟩
  · rintro ⟨⟨address, window, haddress, hholds, hcurrent, heligible, hstart, hend⟩, hbuilt⟩
    exact ⟨window, ⟨⟨address, haddress, hholds⟩, hcurrent⟩, ⟨⟨heligible, hstart⟩, hend⟩, hbuilt⟩

end

/-! ## A recorded epoch -/

namespace RecordedSettlement

/-- Epoch 9, closed with shares for its deposits. -/
def record : EpochAccount where
  vault := RecordedFlow.vault
  epoch := 9
  wdStatus := 1
  nextDeferred := NONE_EPOCH
  depGross := 5000000
  depDen := 1000000

theorem record_ranged : epochRecordLayout.Ranged record := by
  change (1000000 : Nat) < 2 ^ 128
  decide

/-- The runtime of the flow, which knows the name of the record's type as well. -/
def runtime : Runtime :=
  { RecordedFlow.runtime with
    sha256 := fun data =>
      if data = Buffer.ofAscii "account:EpochRecord" then RecordedQueue.epochRecordHash
      else RecordedFlow.runtime.sha256 data }

/-- A client on a chain where all accounts have these data. -/
def client (data : Bytes) : FlpV4Client where
  shared := {
    connection := { getAccountInfo := fun _ => some ⟨RecordedQueue.programId, data⟩ }
    programId := RecordedQueue.programId
    coder := .documented runtime FLP_METHODS
    marketQueues := [] }
  coder := .documented runtime FLP_V4_METHODS

end RecordedSettlement

open RecordedExtension RecordedFlow in
theorem settlement_instructions_recorded : ∃ data core, ∀ payer, ∃ preparation,
    (RecordedSettlement.client data).settleDepositInstructions RecordedSettlement.runtime
      (.ofRuntime RecordedSettlement.runtime) vault state user RecordedSettlement.record payer =
      .ok (preparation ++ [core]) := by
  let rt := RecordedSettlement.runtime
  obtain ⟨data, hdata⟩ := @AccountLayout.exists_says rt _ RecordedSettlement.record
    epochRecordLayout RecordedSettlement.record_ranged (by decide) (by decide)
  have hread : (RecordedSettlement.client data).fetchEpoch rt vault 9 =
      .ok RecordedSettlement.record :=
    (FlpV4Client.fetchEpoch_eq_ok (BorshCoder.documented_lawful _ _)).2
      ⟨⟨RecordedQueue.epoch9, rfl, data, rfl, hdata⟩, rfl, rfl⟩
  have haddresses : addresses.Derived rt (.ofRuntime rt) (RecordedSettlement.client data).programId
      vault state user := ⟨rfl, rfl, rfl, rfl⟩
  obtain ⟨-, core, -, -, -, hbuilt⟩ := (settlement_instructions (BorshCoder.documented_lawful _ _)
    (BorshCoder.documented_lawful _ _) (SplToken.ofRuntime_lawful rt) haddresses hread).1 rfl
  refine ⟨data, core, fun payer => ?_⟩
  obtain ⟨preparation, hpreparation, -⟩ := hbuilt payer
  exact ⟨preparation, hpreparation⟩

open RecordedExtension RecordedWindow in
theorem fundHeadIfOpen_eq_ok_iff_recorded : ∃ data, ∀ accounts health built,
    ((clientV4 data).fundHeadIfOpen RecordedQueue.runtime RecordedQueue.vault state accounts health
        window.deadline = .ok built ↔
      (clientV4 data).fundHead RecordedQueue.runtime RecordedQueue.vault state accounts health =
        .ok built) ∧
    (clientV4 data).fundHeadIfOpen RecordedQueue.runtime RecordedQueue.vault state accounts health
      (window.deadline + 1) ≠ .ok built := by
  obtain ⟨data, hdata⟩ := @AccountLayout.exists_says RecordedQueue.runtime _ window
    fundingWindowLayout window_ranged (by decide) (by decide)
  have hcoder := BorshCoder.documented_lawful RecordedQueue.runtime FLP_V4_METHODS
  have hholds : fundingWindowLayout.Holds RecordedQueue.runtime
      (clientV4 data).shared.connection RecordedQueue.programId RecordedQueue.fundingWindow window :=
    ⟨data, rfl, hdata⟩
  refine ⟨data, fun accounts health built => ⟨?_, fun hlate => ?_⟩⟩
  · rw [fundHeadIfOpen_eq_ok_iff hcoder]
    exact and_iff_right ⟨RecordedQueue.fundingWindow, window, rfl, hholds, ⟨rfl, rfl, rfl⟩, rfl,
      by decide, le_refl _⟩
  · obtain ⟨⟨address, window', haddress, hholds', hcurrent, -, -, hdeadline⟩, -⟩ :=
      (fundHeadIfOpen_eq_ok_iff hcoder).1 hlate
    -- a chain has one window
    have hwindow : window' = window := Except.ok.inj
      (((@FlpV4Client.fetchFundingWindow_eq_ok _ _ state (clientV4 data) hcoder _).2
        ⟨⟨address, haddress, hholds'⟩, hcurrent⟩).symm.trans
      ((@FlpV4Client.fetchFundingWindow_eq_ok _ _ state (clientV4 data) hcoder _).2
        ⟨⟨_, rfl, hholds⟩, rfl, rfl, rfl⟩))
    rw [hwindow] at hdeadline
    omega

end FermiSdk
