import FermiSdk.Flp.Verify.CloseEpoch
import FermiSdk.Flp.Verify.Extension
import FermiSdk.Flp.Verify.UserBuilders

/-!
# What users do

The builders of version 4 put the creation of the user's accounts in front of the one instruction of an
action, and differ in nothing else from the builders of version 3 (`userAction_instructions`). Whoever
pays, the core instruction is the same.
-/

namespace FermiSdk

open FermiSdk.Lib

/-! ## The flows -/

section

variable {rt : Runtime} {spl : SplToken} {client : FlpV4Client} {vault : PublicKey}
  {state : VaultState} {user payer : PublicKey} {addresses : UserAddresses} {action : UserAction}

/-- Anyone can create the record of a user, and pays for it. -/
theorem exists_initDepositor (hcoder : client.coder.Lawful rt FLP_V4_METHODS)
    (hdepositor : deriveDepositor rt client.programId vault user = .ok addresses.depositor) :
    ∃ ix, client.initDepositor rt vault user payer = .ok ix ∧
      ix.Within {payer} {payer, addresses.depositor} := by
  unfold FlpV4Client.initDepositor FlpV4Client.instruction
  rw [hdepositor, Throws.ok_bind]
  let keys : List AccountMeta := [⟨vault, false, false⟩, ⟨user, false, false⟩,
    ⟨addresses.depositor, false, true⟩, ⟨payer, true, true⟩, ⟨PublicKey.default, false, false⟩]
  have hfind : (FLP_V4_METHODS.find? fun method => method.name = "initDepositor") =
      some initDepositorMethod := rfl
  refine ⟨_, (buildInstruction_noArgs_eq_ok hcoder hfind rfl).2 ⟨keys, rfl, rfl⟩, ?_⟩
  intro key hkey
  simp only [keys, List.append_nil, List.mem_cons, List.not_mem_nil, or_false] at hkey
  rcases hkey with rfl | rfl | rfl | rfl | rfl <;> simp

/-- Both clients build the same instruction for it. -/
theorem initDepositor_shared (hcoder : client.shared.coder.Lawful rt FLP_METHODS)
    (hcoderV4 : client.coder.Lawful rt FLP_V4_METHODS) :
    client.shared.initDepositor rt vault user payer = client.initDepositor rt vault user payer := by
  unfold FlpClient.initDepositor FlpV4Client.initDepositor FlpClient.instruction
    FlpV4Client.instruction
  cases hdepositor : deriveDepositor rt client.programId vault user with
  | error e => rfl
  | ok record =>
    have hfind : (FLP_METHODS.find? fun method => method.name = "initDepositor") =
        some initDepositorMethod := rfl
    have hfindV4 : (FLP_V4_METHODS.find? fun method => method.name = "initDepositor") =
        some initDepositorMethod := rfl
    rw [Throws.ok_bind, Throws.ok_bind,
      (buildInstruction_noArgs_eq_ok hcoder hfind rfl).2 ⟨_, rfl, rfl⟩,
      (buildInstruction_noArgs_eq_ok hcoderV4 hfindV4 rfl).2 ⟨_, rfl, rfl⟩]

theorem preparation_within (hspl : spl.Lawful) {depositor : TransactionInstruction}
    (hdepositor : depositor.Within {payer} {payer, addresses.depositor}) :
    ∀ ix ∈ action.preparation spl depositor addresses state user payer,
      ix.Within {payer} {payer, addresses.depositor, addresses.userQuoteAccount,
        addresses.userShareAccount} := by
  have hwiden (ix : TransactionInstruction) (account : PublicKey)
      (h : ix.Within {payer} {payer, account}) (haccount : account ∈ ({payer, addresses.depositor,
        addresses.userQuoteAccount, addresses.userShareAccount} : Set PublicKey)) :
      ix.Within {payer} {payer, addresses.depositor, addresses.userQuoteAccount,
        addresses.userShareAccount} := by
    intro key hkey
    refine ⟨(h key hkey).1, fun hwritable => ?_⟩
    rcases (h key hkey).2 hwritable with hpayer | hkeyAccount
    · exact .inl hpayer
    · exact hkeyAccount ▸ haccount
  intro ix hix
  unfold UserAction.preparation at hix
  rcases List.mem_append.1 hix with hix | hix
  · rcases List.mem_cons.1 hix with rfl | hix
    · exact hwiden _ _ hdepositor (by simp)
    · cases hshares : action.preparesShares with
      | false => simp [hshares] at hix
      | true =>
        simp only [hshares, if_true, List.mem_singleton] at hix
        subst hix
        exact hwiden _ _ (hspl.within _ _ _ _ _) (by simp)
  · cases hquote : action.preparesQuote with
    | false => simp [hquote] at hix
    | true =>
      simp only [hquote, if_true, List.mem_singleton] at hix
      subst hix
      exact hwiden _ _ (hspl.within _ _ _ _ _) (by simp)

/-- A valid action is one instruction, whichever client builds it and whoever pays. -/
theorem UserAction.exists_instructions (hcoder : client.shared.coder.Lawful rt FLP_METHODS)
    (hcoderV4 : client.coder.Lawful rt FLP_V4_METHODS) (hspl : spl.Lawful)
    (haddresses : addresses.Derived rt spl client.programId vault state user)
    (hversion : state.version = 4) (hvalid : action.Valid rt client.programId vault) :
    ∃ core, (∀ status ix, action.instructionV3 rt spl client.shared vault
        { state with status := status } user = .ok ix ↔ action.InPhase status ∧ ix = core) ∧
      core.Within {key | key = user ∧ action.ByUser} (addresses.writables vault state user ∪
        action.records rt client.programId vault) ∧
      ∀ payer, ∃ preparation,
        action.instructionsV4 rt spl client vault state user payer = .ok (preparation ++ [core]) ∧
        ∀ ix ∈ preparation, ix.Within {payer} {payer, addresses.depositor,
          addresses.userQuoteAccount, addresses.userShareAccount} := by
  obtain ⟨core, hcore⟩ := (@exists_core_iff rt client.programId vault state user addresses
    action).2 hvalid
  refine ⟨core, fun status ix => ?_, core_within hcore, fun payer => ?_⟩
  · have haddresses' : addresses.Derived rt spl client.shared.programId vault
        { state with status := status } user :=
      ⟨haddresses.depositor, haddresses.authority, haddresses.userQuoteAccount,
        haddresses.userShareAccount⟩
    rw [instructionV3_eq_ok hcoder haddresses']
    refine and_congr_right fun _ => ?_
    constructor
    · intro hix
      exact Except.ok.inj (hix.symm.trans hcore)
    · rintro rfl
      exact hcore
  · obtain ⟨depositor, hdepositor, hwithin⟩ :=
      @exists_initDepositor rt client vault user payer addresses hcoderV4 haddresses.depositor
    refine ⟨action.preparation spl depositor addresses state user payer, ?_,
      preparation_within hspl hwithin⟩
    exact (instructionsV4_eq_ok hcoderV4 haddresses hdepositor).2 ⟨hversion, core, hcore, rfl⟩

/-- An action that is not valid, or of a vault of another version, is not built. -/
theorem UserAction.throws_of_invalid (hcoderV4 : client.coder.Lawful rt FLP_V4_METHODS)
    (haddresses : addresses.Derived rt spl client.programId vault state user)
    (hinvalid : ¬ (state.version = 4 ∧ action.Valid rt client.programId vault)) (payer : PublicKey) :
    ∃ e, action.instructionsV4 rt spl client vault state user payer = .error e := by
  obtain ⟨depositor, hdepositor, -⟩ :=
    @exists_initDepositor rt client vault user payer addresses hcoderV4 haddresses.depositor
  rw [Throws.throws_iff]
  rintro ⟨ixs, hixs⟩
  obtain ⟨hversion, core, hcore, -⟩ := (instructionsV4_eq_ok hcoderV4 haddresses hdepositor).1 hixs
  exact hinvalid ⟨hversion, exists_core_iff.1 ⟨core, hcore⟩⟩

/-- **Every flow of version 4 is the instruction of version 3 behind what its payer creates.** -/
theorem userAction_instructions (hcoder : client.shared.coder.Lawful rt FLP_METHODS)
    (hcoderV4 : client.coder.Lawful rt FLP_V4_METHODS) (hspl : spl.Lawful)
    (haddresses : addresses.Derived rt spl client.programId vault state user) :
    (state.version = 4 ∧ action.Valid rt client.programId vault → ∃ core,
      (∀ status ix, action.instructionV3 rt spl client.shared vault
        { state with status := status } user = .ok ix ↔ action.InPhase status ∧ ix = core) ∧
      core.Within {key | key = user ∧ action.ByUser} (addresses.writables vault state user ∪
        action.records rt client.programId vault) ∧
      ∀ payer, ∃ preparation,
        action.instructionsV4 rt spl client vault state user payer = .ok (preparation ++ [core]) ∧
        ∀ ix ∈ preparation, ix.Within {payer} {payer, addresses.depositor,
          addresses.userQuoteAccount, addresses.userShareAccount}) ∧
    (¬ (state.version = 4 ∧ action.Valid rt client.programId vault) → ∀ payer, ∃ e,
      action.instructionsV4 rt spl client vault state user payer = .error e) := by
  constructor
  · rintro ⟨hversion, hvalid⟩
    exact UserAction.exists_instructions hcoder hcoderV4 hspl haddresses hversion hvalid
  · exact UserAction.throws_of_invalid hcoderV4 haddresses

end

/-! ## A recorded flow -/

namespace RecordedFlow

open RecordedExtension

theorem length_key (n : UInt8) : (List.replicate 32 n).length = 32 := List.length_replicate

def key (n : UInt8) : PublicKey := ⟨List.replicate 32 n, length_key n⟩

def vault : PublicKey := RecordedQueue.vault
def user : PublicKey := key 2

def addresses : UserAddresses where
  depositor :=
    ⟨[105, 12, 118, 199, 60, 251, 6, 166, 148, 233, 239, 160, 70, 165, 77, 53,
      4, 226, 26, 47, 205, 181, 106, 22, 209, 55, 190, 6, 255, 155, 26, 40], rfl⟩
  authority := RecordedQueue.authority
  userQuoteAccount :=
    ⟨[76, 163, 244, 46, 205, 158, 236, 213, 67, 73, 150, 253, 204, 235, 164, 156,
      19, 225, 227, 98, 51, 70, 118, 219, 3, 106, 81, 208, 62, 233, 128, 247], rfl⟩
  userShareAccount :=
    ⟨[100, 237, 213, 235, 231, 17, 214, 191, 126, 85, 242, 54, 49, 192, 20, 117,
      215, 52, 244, 192, 149, 128, 203, 108, 247, 26, 206, 118, 112, 91, 201, 180], rfl⟩

def initDepositorHash : Digest :=
  ⟨[70, 24, 221, 66, 16, 225, 187, 49, 85, 39, 250, 55, 6, 44, 149, 174,
    130, 219, 39, 112, 246, 61, 44, 147, 196, 193, 1, 162, 65, 141, 182, 225], rfl⟩

/-- SHA-256 and the program addresses on the data of the user and of epoch 9. -/
def runtime : Runtime :=
  .ofTables
    [(Buffer.ofAscii "global:init_depositor", initDepositorHash),
      (Buffer.ofAscii "global:claim_deposit",
        ⟨[201, 106, 1, 224, 122, 144, 210, 155, 214, 70, 78, 54, 238, 213, 222, 156,
          124, 198, 129, 113, 234, 91, 31, 176, 47, 19, 243, 223, 169, 212, 61, 248], rfl⟩),
      (Buffer.ofAscii "global:pre_withdraw_v3",
        ⟨[243, 252, 112, 232, 99, 207, 129, 26, 28, 156, 176, 122, 120, 139, 35, 232,
          70, 107, 24, 202, 115, 169, 65, 54, 59, 246, 129, 246, 65, 178, 241, 221], rfl⟩)]
    []
    [([Buffer.ofAscii "flp-user", vault.bytes, user.bytes], addresses.depositor),
      ([Buffer.ofAscii "flp-authority", vault.bytes], RecordedQueue.authority),
      ([user.bytes, TOKEN_PROGRAM_ID.bytes, state.quoteMint.bytes], addresses.userQuoteAccount),
      ([user.bytes, TOKEN_2022_PROGRAM_ID.bytes, state.shareMint.bytes],
        addresses.userShareAccount),
      ([Buffer.ofAscii "flp-epoch", vault.bytes, leBytes 8 9], RecordedQueue.epoch9)]

def client : FlpV4Client where
  shared := {
    connection := { getAccountInfo := fun _ => none }
    programId := RecordedQueue.programId
    coder := .documented runtime FLP_METHODS
    marketQueues := [] }
  coder := .documented runtime FLP_V4_METHODS

end RecordedFlow

open RecordedExtension RecordedFlow in
theorem userAction_instructions_recorded : ∃ core,
    core.Within {key | key = user ∧ (UserAction.claimDeposit 9).ByUser}
      (addresses.writables vault state user ∪
        (UserAction.claimDeposit 9).records runtime client.programId vault) ∧
    ∀ payer, ∃ preparation, client.claimDepositInstructions runtime (.ofRuntime runtime) vault state
      user 9 payer = .ok (preparation ++ [core]) := by
  have haddresses : addresses.Derived runtime (.ofRuntime runtime) client.programId vault state
      user := ⟨rfl, rfl, rfl, rfl⟩
  have hvalid : (UserAction.claimDeposit 9).Valid runtime client.programId vault := by
    refine ⟨fun n hn => (nomatch hn), fun e he => ?_⟩
    cases he
    exact ⟨RecordedQueue.epoch9, rfl⟩
  obtain ⟨core, -, hwithin, hflow⟩ := (@userAction_instructions runtime (.ofRuntime runtime) client
    vault state user addresses (.claimDeposit 9) (BorshCoder.documented_lawful _ _)
    (BorshCoder.documented_lawful _ _) (SplToken.ofRuntime_lawful runtime) haddresses).1
    ⟨rfl, hvalid⟩
  refine ⟨core, hwithin, fun payer => ?_⟩
  obtain ⟨preparation, hbuilt, -⟩ := hflow payer
  exact ⟨preparation, hbuilt⟩

end FermiSdk
