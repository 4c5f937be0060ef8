import FermiSdk.Addresses.Verify.Aliasing
import FermiSdk.Flp.Builders
import FermiSdk.Flp.Verify.Coder
import FermiSdk.Flp.Verify.Instructions

/-!
# What users can do

A user, or anyone for a user, acts on a vault through one instruction (`UserAction.core`). It exists
exactly for an amount that fits and an epoch whose record has an address
(`UserAction.exists_core_iff`), needs no signature but the user's, and writes only what belongs to the
user or to the vault (`UserAction.core_within`).
-/

namespace FermiSdk

open FermiSdk.Lib

/-! ## Privileges -/

/-- Only `signers` have to sign, and only `writables` are written. -/
def TransactionInstruction.Within (ix : TransactionInstruction)
    (signers writables : Set PublicKey) : Prop :=
  ∀ key ∈ ix.keys,
    (key.isSigner → key.pubkey ∈ signers) ∧ (key.isWritable → key.pubkey ∈ writables)

/-- Who creates an associated token account pays for it, and signs for nothing else. -/
structure SplToken.Lawful (spl : SplToken) : Prop where
  within : ∀ payer associatedToken owner mint programId,
    (spl.createAssociatedTokenAccountIdempotentInstruction payer associatedToken owner mint
      programId).Within {payer} {payer, associatedToken}

theorem SplToken.ofRuntime_lawful (rt : Runtime) : (SplToken.ofRuntime rt).Lawful where
  within := by
    intro payer associatedToken owner mint programId key hkey
    simp only [ofRuntime, List.mem_cons, List.not_mem_nil, or_false] at hkey
    rcases hkey with rfl | rfl | rfl | rfl | rfl | rfl <;> simp

/-- A privilege of an account is one that the description declares for a name of it. -/
theorem declared_of_namedMetas {programId : PublicKey} {missing : String → String}
    {accounts : NamedAccounts} {items : List IdlAccount} {keys : List AccountMeta}
    (h : items.mapM (namedMeta programId missing accounts) = .ok keys) :
    ∀ key ∈ keys,
      (key.isSigner → ∃ item ∈ items, item.isSigner ∧ accounts item.path = some key.pubkey) ∧
      (key.isWritable → ∃ item ∈ items, item.isMut ∧ accounts item.path = some key.pubkey) := by
  rw [Throws.mapM_eq_ok] at h
  induction h with
  | nil => exact fun _ hkey => (nomatch hkey)
  | @cons item account items keys hitem _ ih =>
    intro key hkey
    rcases List.mem_cons.1 hkey with rfl | hkey
    · unfold namedMeta at hitem
      cases hnamed : accounts item.path with
      | none =>
        simp only [hnamed] at hitem
        split at hitem
        · cases hitem
          exact ⟨fun h => (nomatch h), fun h => (nomatch h)⟩
        · cases hitem
      | some pubkey =>
        simp only [hnamed] at hitem
        split at hitem
        · cases hitem
          exact ⟨fun h => (nomatch h), fun h => (nomatch h)⟩
        · cases hitem
          exact ⟨fun hsigner => ⟨item, List.mem_cons_self, hsigner, hnamed⟩,
            fun hmut => ⟨item, List.mem_cons_self, hmut, hnamed⟩⟩
    · obtain ⟨hsigner, hwritable⟩ := ih key hkey
      refine ⟨fun h => ?_, fun h => ?_⟩
      · obtain ⟨item, hitem, hrest⟩ := hsigner h
        exact ⟨item, List.mem_cons_of_mem _ hitem, hrest⟩
      · obtain ⟨item, hitem, hrest⟩ := hwritable h
        exact ⟨item, List.mem_cons_of_mem _ hitem, hrest⟩

/-! ## Addresses of a user -/

/-- The addresses that the clients derive for a user. -/
structure UserAddresses where
  depositor : PublicKey
  authority : PublicKey
  userQuoteAccount : PublicKey
  userShareAccount : PublicKey

namespace UserAddresses

/-- The addresses are those that the derivations give. -/
structure Derived (addresses : UserAddresses) (rt : Runtime) (spl : SplToken)
    (programId vault : PublicKey) (state : VaultState) (user : PublicKey) : Prop where
  depositor : deriveDepositor rt programId vault user = .ok addresses.depositor
  authority : deriveAuthority rt programId vault = .ok addresses.authority
  userQuoteAccount : spl.getAssociatedTokenAddressSync state.quoteMint user TOKEN_PROGRAM_ID =
    .ok addresses.userQuoteAccount
  userShareAccount : spl.getAssociatedTokenAddressSync state.shareMint user TOKEN_2022_PROGRAM_ID =
    .ok addresses.userShareAccount

def accounts (addresses : UserAddresses) (vault : PublicKey) (state : VaultState)
    (user : PublicKey) : NamedAccounts :=
  .of [
    ("vault", vault),
    ("depositor", addresses.depositor),
    ("authority", addresses.authority),
    ("user", user),
    ("userQuoteAccount", addresses.userQuoteAccount),
    ("userShareAccount", addresses.userShareAccount),
    ("shareMint", state.shareMint),
    ("depositEscrow", state.depositEscrow),
    ("redemptionEscrow", state.redemptionEscrow),
    ("tokenProgram", TOKEN_PROGRAM_ID),
    ("token2022Program", TOKEN_2022_PROGRAM_ID),
    ("systemProgram", PublicKey.default)]

/-- The accounts that an action of a user may change. -/
def writables (addresses : UserAddresses) (vault : PublicKey) (state : VaultState)
    (user : PublicKey) : Set PublicKey :=
  {vault, addresses.depositor, user, addresses.userQuoteAccount, addresses.userShareAccount,
    state.shareMint, state.depositEscrow, state.redemptionEscrow}

variable {addresses : UserAddresses} {rt : Runtime} {spl : SplToken} {programId vault : PublicKey}
  {state : VaultState} {user : PublicKey}

theorem Derived.userAccounts_eq (h : addresses.Derived rt spl programId vault state user) :
    userAccounts rt spl programId vault state user = .ok (addresses.accounts vault state user) := by
  unfold userAccounts
  rw [h.depositor, h.authority, h.userQuoteAccount, h.userShareAccount]
  rfl

end UserAddresses

/-! ## Actions -/

/-- What a user can do, with the amount or the epoch that a caller passes. -/
inductive UserAction where
  | requestDeposit (amount : Int)
  | preDeposit (amount : Int)
  | preWithdraw (amount : Int)
  | requestWithdraw (shares : Int)
  | terminalRedeem (shares : Int)
  | cancelDeposit
  | cancelWithdraw
  | claimPreDeposit
  | claimDeposit (epoch : Int)
  | refundPendingDeposit (epoch : Option Int)
  | claimWithdrawal (epoch : Int)

namespace UserAction

/-- The builder of `FlpV4Client` for an action. -/
def instructionsV4 (rt : Runtime) (spl : SplToken) (client : FlpV4Client) (vault : PublicKey)
    (state : VaultState) (user payer : PublicKey) :
    UserAction → Throws (List TransactionInstruction)
  | .requestDeposit amount =>
    client.requestDepositInstructions rt spl vault state user amount payer
  | .preDeposit amount => client.preDepositInstructions rt spl vault state user amount payer
  | .preWithdraw amount => client.preWithdrawInstructions rt spl vault state user amount payer
  | .requestWithdraw shares =>
    client.requestWithdrawInstructions rt spl vault state user shares payer
  | .terminalRedeem shares => client.terminalRedeemInstructions rt spl vault state user shares payer
  | .cancelDeposit => client.cancelDepositInstructions rt spl vault state user payer
  | .cancelWithdraw => client.cancelWithdrawInstructions rt spl vault state user payer
  | .claimPreDeposit => client.claimPreDepositInstructions rt spl vault state user payer
  | .claimDeposit epoch => client.claimDepositInstructions rt spl vault state user epoch payer
  | .refundPendingDeposit epoch =>
    client.refundPendingDepositInstructions rt spl vault state user epoch payer
  | .claimWithdrawal epoch => client.claimWithdrawalInstructions rt spl vault state user epoch payer

/-- The builder of `FlpClient` for an action. -/
def instructionV3 (rt : Runtime) (spl : SplToken) (client : FlpClient) (vault : PublicKey)
    (state : VaultState) (user : PublicKey) : UserAction → Throws TransactionInstruction
  | .requestDeposit amount => client.requestDeposit rt spl vault state user amount
  | .preDeposit amount => client.preDeposit rt spl vault state user amount
  | .preWithdraw amount => client.preWithdraw rt spl vault state user amount
  | .requestWithdraw shares => client.requestWithdraw rt spl vault state user shares
  | .terminalRedeem shares => client.terminalRedeem rt spl vault state user shares
  | .cancelDeposit => client.cancelDeposit rt spl vault state user
  | .cancelWithdraw => client.cancelWithdraw rt spl vault state user
  | .claimPreDeposit => client.claimPreDeposit rt spl vault state user
  | .claimDeposit epoch => client.claimDeposit rt spl vault state user epoch
  | .refundPendingDeposit epoch => client.refundPendingDeposit rt spl vault state user epoch
  | .claimWithdrawal epoch => client.claimWithdrawal rt spl vault state user epoch

def method : UserAction → IdlInstruction
  | .requestDeposit _ => requestDepositMethod
  | .preDeposit _ => preDepositV3Method
  | .preWithdraw _ => preWithdrawV3Method
  | .requestWithdraw _ => requestWithdrawMethod
  | .terminalRedeem _ => terminalRedeemMethod
  | .cancelDeposit => cancelDepositMethod
  | .cancelWithdraw => cancelWithdrawMethod
  | .claimPreDeposit => claimPreDepositMethod
  | .claimDeposit _ => claimDepositMethod
  | .refundPendingDeposit _ => refundPendingDepositMethod
  | .claimWithdrawal _ => claimWithdrawalMethod

/-- The amount or the number of shares. -/
def amount : UserAction → Option Int
  | .requestDeposit amount | .preDeposit amount | .preWithdraw amount => some amount
  | .requestWithdraw shares | .terminalRedeem shares => some shares
  | _ => none

/-- The epoch of the ticket that is settled. -/
def epoch : UserAction → Option Int
  | .claimDeposit epoch | .claimWithdrawal epoch => some epoch
  | .refundPendingDeposit epoch => epoch
  | _ => none

/-- The user has to sign. Anyone may settle what the user has asked for before. -/
def ByUser : UserAction → Prop
  | .claimPreDeposit | .claimDeposit _ | .refundPendingDeposit _ | .claimWithdrawal _ => False
  | _ => True

/-- Version 3 builds the action in this phase. -/
def InPhase (status : UInt8) : UserAction → Prop
  | .requestDeposit _ => vaultMode status = .live
  | .requestWithdraw _ => hasFlag status STATUS_UNWIND = false
  | _ => True

/-- The amount fits, and the record of the epoch has an address. -/
structure Valid (rt : Runtime) (programId vault : PublicKey) (action : UserAction) : Prop where
  amount : ∀ n, action.amount = some n → 0 ≤ n ∧ n < 256 ^ 8
  epoch : ∀ e, action.epoch = some e →
    ∃ record, deriveEpoch rt programId vault (.bigint e) = .ok record

/-- The record of the epoch that an action settles, if it settles one. -/
def records (rt : Runtime) (programId vault : PublicKey) (action : UserAction) : Set PublicKey :=
  {record | ∃ e, action.epoch = some e ∧ deriveEpoch rt programId vault (.bigint e) = .ok record}

/-- The accounts that are created for an action, if they are not there yet. -/
def preparesShares : UserAction → Bool
  | .terminalRedeem _ | .cancelWithdraw | .claimPreDeposit | .claimDeposit _ => true
  | _ => false

def preparesQuote : UserAction → Bool
  | .preWithdraw _ | .terminalRedeem _ | .cancelDeposit | .refundPendingDeposit _
  | .claimWithdrawal _ => true
  | _ => false

/-- The bytes of the arguments. -/
def data (action : UserAction) : Throws Bytes :=
  match action.amount with
  | none => pure []
  | some amount => unsigned (.bigint amount) 8

/-- The accounts of a user with the record of the epoch. -/
def named (rt : Runtime) (programId vault : PublicKey) (accounts : NamedAccounts)
    (action : UserAction) : Throws NamedAccounts :=
  match action.epoch with
  | none => pure accounts
  | some epoch => do
    pure (accounts.set [("epochRecord", ← deriveEpoch rt programId vault (.bigint epoch))])

/-- The one instruction of an action. -/
def core (rt : Runtime) (programId vault : PublicKey) (accounts : NamedAccounts)
    (action : UserAction) : Throws TransactionInstruction := do
  let data ← action.data
  let accounts ← action.named rt programId vault accounts
  let keys ← action.method.paths.mapM (namedMeta programId id accounts)
  pure {
    programId := programId
    keys := keys
    data := instructionDiscriminator rt action.method.method ++ data }

/-- What is put in front of it. -/
def preparation (spl : SplToken) (depositor : TransactionInstruction) (addresses : UserAddresses)
    (state : VaultState) (user payer : PublicKey) (action : UserAction) :
    List TransactionInstruction :=
  depositor ::
    (if action.preparesShares then
      [spl.createAssociatedTokenAccountIdempotentInstruction payer addresses.userShareAccount user
        state.shareMint TOKEN_2022_PROGRAM_ID]
    else []) ++
    (if action.preparesQuote then
      [spl.createAssociatedTokenAccountIdempotentInstruction payer addresses.userQuoteAccount user
        state.quoteMint TOKEN_PROGRAM_ID]
    else [])

end UserAction

/-! ## Amounts -/

section

variable {amount : Int} {data : Bytes}

/-! Both clients check an amount in the same way and write it in eight bytes. -/

theorem unsigned_amount_eq_ok : unsigned (.bigint amount) 8 = .ok data ↔
    (0 ≤ amount ∧ amount < 256 ^ 8) ∧ data = leBytes 8 amount.toNat := by
  rw [unsigned_eq_ok]
  constructor
  · rintro ⟨n, hn, hrange, hdata⟩
    cases hn
    exact ⟨hrange, hdata⟩
  · rintro ⟨hrange, hdata⟩
    exact ⟨amount, rfl, hrange, hdata⟩

theorem unsignedAmount_eq_ok {value : IdlValue} : unsignedAmount amount = .ok value ↔
    (0 ≤ amount ∧ amount < 256 ^ 8) ∧ value = .bn amount := by
  simp only [unsignedAmount, Throws.bind_eq_ok, Throws.pure_eq_ok, unsigned_amount_eq_ok]
  constructor
  · rintro ⟨_, ⟨hrange, -⟩, rfl⟩
    exact ⟨hrange, rfl⟩
  · rintro ⟨hrange, rfl⟩
    exact ⟨_, ⟨hrange, rfl⟩, rfl⟩

theorem unsignedAmount_bind_eq_ok {α : Type} {f : IdlValue → Throws α} {b : α} :
    (unsignedAmount amount >>= f) = .ok b ↔
      (0 ≤ amount ∧ amount < 256 ^ 8) ∧ f (.bn amount) = .ok b := by
  simp only [Throws.bind_eq_ok, unsignedAmount_eq_ok, and_assoc, exists_and_left, exists_eq_left]

theorem uint_eq_ok {n : Int} : uint (.bigint amount) 64 = .ok n ↔
    (0 ≤ amount ∧ amount < 256 ^ 8) ∧ n = amount := by
  rw [uint, checkUnsigned_eq_ok, toBigInt_bigint]
  constructor
  · rintro ⟨hn, hrange⟩
    cases hn
    exact ⟨hrange, rfl⟩
  · rintro ⟨hrange, rfl⟩
    exact ⟨rfl, hrange⟩

theorem uintAmount_eq_ok {value : IdlValue} : uintAmount amount = .ok value ↔
    (0 ≤ amount ∧ amount < 256 ^ 8) ∧ value = .bn amount := by
  simp only [uintAmount, Throws.bind_eq_ok, Throws.pure_eq_ok, uint_eq_ok]
  constructor
  · rintro ⟨_, ⟨hrange, rfl⟩, rfl⟩
    exact ⟨hrange, rfl⟩
  · rintro ⟨hrange, rfl⟩
    exact ⟨_, ⟨hrange, rfl⟩, rfl⟩

theorem uintAmount_bind_eq_ok {α : Type} {f : IdlValue → Throws α} {b : α} :
    (uintAmount amount >>= f) = .ok b ↔
      (0 ≤ amount ∧ amount < 256 ^ 8) ∧ f (.bn amount) = .ok b := by
  simp only [Throws.bind_eq_ok, uintAmount_eq_ok, and_assoc, exists_and_left, exists_eq_left]

end

/-! ## What an action needs and what it may change -/

namespace UserAction

section

variable {rt : Runtime} {spl : SplToken} {programId vault : PublicKey} {state : VaultState}
  {user payer : PublicKey} {addresses : UserAddresses} {action : UserAction}
  {ix : TransactionInstruction}

/-- The instructions of users. -/
def methods : List IdlInstruction := [
  requestDepositMethod, preDepositV3Method, preWithdrawV3Method, requestWithdrawMethod,
  terminalRedeemMethod, cancelDepositMethod, cancelWithdrawMethod, claimPreDepositMethod,
  claimDepositMethod, refundPendingDepositMethod, claimWithdrawalMethod]

theorem method_mem (action : UserAction) : action.method ∈ methods := by
  cases action <;> simp [methods, method]

/-- The names of the accounts of a user. -/
def names : List String := ["vault", "depositor", "authority", "user", "userQuoteAccount",
  "userShareAccount", "shareMint", "depositEscrow", "redemptionEscrow", "tokenProgram",
  "token2022Program", "systemProgram"]

theorem path_mem : ∀ method ∈ methods, ∀ item ∈ method.paths,
    item.path ∈ names ∨ item.path = "epochRecord" := by
  decide

theorem path_of_isSigner : ∀ method ∈ methods, ∀ item ∈ method.paths,
    item.isSigner = true → item.path = "user" := by
  decide

theorem path_of_isMut : ∀ method ∈ methods, ∀ item ∈ method.paths, item.isMut = true →
    item.path ∈ ["vault", "depositor", "user", "userQuoteAccount", "userShareAccount",
      "shareMint", "depositEscrow", "redemptionEscrow"] ∨ item.path = "epochRecord" := by
  decide

/-- The actions that settle nothing, or need no record for it. -/
theorem not_required_epochRecord : ∀ method ∈ [requestDepositMethod, preDepositV3Method,
    preWithdrawV3Method, requestWithdrawMethod, terminalRedeemMethod, cancelDepositMethod,
    cancelWithdrawMethod, claimPreDepositMethod, refundPendingDepositMethod],
    ∀ item ∈ method.paths, item.path = "epochRecord" → item.isOptional = true := by
  decide

theorem signers_of_settlement : ∀ method ∈ [claimPreDepositMethod, claimDepositMethod,
    refundPendingDepositMethod, claimWithdrawalMethod], ∀ item ∈ method.paths,
    item.isSigner = false := by
  decide

/-- A signature is the user's, for an action that is the user's to take. -/
theorem signer_of_item (action : UserAction) {item : IdlAccount} (hitem : item ∈ action.method.paths)
    (hsigner : item.isSigner = true) : item.path = "user" ∧ action.ByUser := by
  refine ⟨path_of_isSigner _ action.method_mem item hitem hsigner, ?_⟩
  have hno (method : IdlInstruction) (hmem : method ∈ [claimPreDepositMethod, claimDepositMethod,
      refundPendingDepositMethod, claimWithdrawalMethod]) (hitem : item ∈ method.paths) : False := by
    rw [signers_of_settlement method hmem item hitem] at hsigner
    cases hsigner
  cases action with
  | claimPreDeposit => exact hno claimPreDepositMethod (by simp) hitem
  | claimDeposit => exact hno claimDepositMethod (by simp) hitem
  | refundPendingDeposit => exact hno refundPendingDepositMethod (by simp) hitem
  | claimWithdrawal => exact hno claimWithdrawalMethod (by simp) hitem
  | _ => trivial

theorem isSome_accounts : ∀ name ∈ names, (addresses.accounts vault state user name).isSome := by
  intro name hname
  simp only [names, List.mem_cons, List.not_mem_nil, or_false] at hname
  rcases hname with h | h | h | h | h | h | h | h | h | h | h | h <;> rw [h] <;> rfl

theorem mem_writables {name : String} {key : PublicKey}
    (hname : name ∈ ["vault", "depositor", "user", "userQuoteAccount", "userShareAccount",
      "shareMint", "depositEscrow", "redemptionEscrow"])
    (h : addresses.accounts vault state user name = some key) :
    key ∈ addresses.writables vault state user := by
  simp only [List.mem_cons, List.not_mem_nil, or_false] at hname
  unfold UserAddresses.writables
  rcases hname with rfl | rfl | rfl | rfl | rfl | rfl | rfl | rfl <;>
    (rw [← Option.some.inj h]; simp)

theorem data_eq_ok {bytes : Bytes} (h : action.data = .ok bytes) :
    ∀ n, action.amount = some n → 0 ≤ n ∧ n < 256 ^ 8 := by
  intro n hn
  rw [data, hn] at h
  exact (unsigned_amount_eq_ok.1 h).1

/-- The accounts are those of the user, and the record. -/
theorem named_eq_ok {accounts named : NamedAccounts}
    (h : action.named rt programId vault accounts = .ok named) :
    (∀ e, action.epoch = some e →
      ∃ record, deriveEpoch rt programId vault (.bigint e) = .ok record) ∧
    ∀ path key, named path = some key →
      accounts path = some key ∨
        path = "epochRecord" ∧ key ∈ action.records rt programId vault := by
  unfold UserAction.named at h
  cases hepoch : action.epoch with
  | none =>
    rw [hepoch, Throws.pure_eq_ok] at h
    subst h
    exact ⟨fun _ he => (nomatch he), fun _ _ => .inl⟩
  | some e =>
    simp only [hepoch, Throws.bind_eq_ok, Throws.pure_eq_ok] at h
    obtain ⟨record, hrecord, rfl⟩ := h
    constructor
    · intro e' he
      cases he
      exact ⟨record, hrecord⟩
    · intro path key hkey
      by_cases hpath : path = "epochRecord"
      · subst hpath
        cases hkey
        exact .inr ⟨rfl, e, hepoch, hrecord⟩
      · have hne : (path == "epochRecord") = false := beq_eq_false_iff_ne.2 hpath
        have hnone : [("epochRecord", record)].lookup path = none := by
          simp [List.lookup_cons, hne]
        rw [NamedAccounts.set, hnone, Option.none_or] at hkey
        exact .inl hkey

/-- Only the actions on an epoch require a record. -/
theorem epoch_of_required (action : UserAction) {item : IdlAccount}
    (hitem : item ∈ action.method.paths) (hpath : item.path = "epochRecord")
    (hrequired : item.isOptional = false) : ∃ e, action.epoch = some e := by
  have hno {e : Prop} (method : IdlInstruction) (hmem : method ∈ [requestDepositMethod,
      preDepositV3Method, preWithdrawV3Method, requestWithdrawMethod, terminalRedeemMethod,
      cancelDepositMethod, cancelWithdrawMethod, claimPreDepositMethod,
      refundPendingDepositMethod]) (hitem : item ∈ method.paths) : e := by
    rw [not_required_epochRecord method hmem item hitem hpath] at hrequired
    cases hrequired
  cases action with
  | claimDeposit e => exact ⟨e, rfl⟩
  | claimWithdrawal e => exact ⟨e, rfl⟩
  | requestDeposit => exact hno requestDepositMethod (by simp) hitem
  | preDeposit => exact hno preDepositV3Method (by simp) hitem
  | preWithdraw => exact hno preWithdrawV3Method (by simp) hitem
  | requestWithdraw => exact hno requestWithdrawMethod (by simp) hitem
  | terminalRedeem => exact hno terminalRedeemMethod (by simp) hitem
  | cancelDeposit => exact hno cancelDepositMethod (by simp) hitem
  | cancelWithdraw => exact hno cancelWithdrawMethod (by simp) hitem
  | claimPreDeposit => exact hno claimPreDepositMethod (by simp) hitem
  | refundPendingDeposit => exact hno refundPendingDepositMethod (by simp) hitem

theorem exists_named (hvalid : action.Valid rt programId vault) : ∃ named,
    action.named rt programId vault (addresses.accounts vault state user) = .ok named ∧
      ∀ item ∈ action.method.paths, item.isOptional = false → (named item.path).isSome := by
  unfold UserAction.named
  cases hepoch : action.epoch with
  | none =>
    refine ⟨_, rfl, fun item hitem hrequired => ?_⟩
    rcases path_mem _ action.method_mem item hitem with hpath | hpath
    · exact isSome_accounts _ hpath
    · obtain ⟨e, he⟩ := epoch_of_required action hitem hpath hrequired
      rw [hepoch] at he
      cases he
  | some e =>
    obtain ⟨record, hrecord⟩ := hvalid.epoch e hepoch
    refine ⟨(addresses.accounts vault state user).set [("epochRecord", record)], ?_,
      fun item hitem _ => ?_⟩
    · dsimp only
      rw [hrecord]
      rfl
    · rw [NamedAccounts.set, Option.isSome_or, Bool.or_eq_true]
      rcases path_mem _ action.method_mem item hitem with hpath | hpath
      · exact .inr (isSome_accounts _ hpath)
      · rw [hpath]
        exact .inl rfl

/-- An action with valid arguments has its instruction, and no other has one. -/
theorem exists_core_iff :
    (∃ ix, action.core rt programId vault (addresses.accounts vault state user) = .ok ix) ↔
      action.Valid rt programId vault := by
  unfold core
  simp only [Throws.bind_eq_ok, Throws.pure_eq_ok]
  constructor
  · rintro ⟨_, data, hdata, named, hnamed, -⟩
    exact ⟨data_eq_ok hdata, (named_eq_ok hnamed).1⟩
  · intro hvalid
    obtain ⟨data, hdata⟩ : ∃ data, action.data = .ok data := by
      unfold UserAction.data
      cases hamount : action.amount with
      | none => exact ⟨[], rfl⟩
      | some n => exact ⟨_, unsigned_amount_eq_ok.2 ⟨hvalid.amount n hamount, rfl⟩⟩
    obtain ⟨named, hnamed, hsome⟩ := @exists_named rt programId vault state user addresses _ hvalid
    obtain ⟨keys, hkeys⟩ := (@exists_namedMetas_iff programId id named _).2 hsome
    exact ⟨_, data, hdata, named, hnamed, keys, hkeys, rfl⟩

/-- The core instruction has the privileges of the action. -/
theorem core_within
    (h : action.core rt programId vault (addresses.accounts vault state user) = .ok ix) :
    ix.Within {key | key = user ∧ action.ByUser}
      (addresses.writables vault state user ∪ action.records rt programId vault) := by
  unfold core at h
  simp only [Throws.bind_eq_ok, Throws.pure_eq_ok] at h
  obtain ⟨data, -, named, hnamed, keys, hkeys, rfl⟩ := h
  obtain ⟨-, hnamed⟩ := named_eq_ok hnamed
  intro key hkey
  obtain ⟨hsigner, hwritable⟩ := declared_of_namedMetas hkeys key hkey
  constructor
  · intro hkeySigner
    obtain ⟨item, hitem, hitemSigner, hname⟩ := hsigner hkeySigner
    obtain ⟨hpath, hbyUser⟩ := signer_of_item action hitem hitemSigner
    rw [hpath] at hname
    rcases hnamed _ _ hname with haccount | ⟨hpath, -⟩
    · cases haccount
      exact ⟨rfl, hbyUser⟩
    · exact absurd hpath (by decide)
  · intro hkeyWritable
    obtain ⟨item, hitem, hitemMut, hname⟩ := hwritable hkeyWritable
    rcases hnamed _ _ hname with haccount | ⟨-, hrecord⟩
    · left
      rcases path_of_isMut _ action.method_mem item hitem hitemMut with hpath | hpath
      · exact mem_writables hpath haccount
      · rw [hpath] at haccount
        cases haccount
    · exact .inr hrecord

end

end UserAction

end FermiSdk
