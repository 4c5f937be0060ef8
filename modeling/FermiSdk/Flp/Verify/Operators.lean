import FermiSdk.Flp.Verify.UserFlows

/-!
# What operators pass

The builders of operators take a map of accounts from the caller and complete it with the accounts
that the client derives (`flowAccounts`). A caller cannot replace a derived account, adds no
signature, and what follows the accounts of the instruction is the caller's own list and accounts
that do not sign (`operator_accounts`).
-/

namespace FermiSdk

open FermiSdk.Lib

/-! ## Derived accounts -/

/-- The addresses that the clients derive for the flow of a vault. -/
structure FlowAddresses where
  authority : PublicKey
  fundingWindow : PublicKey
  headRecord : PublicKey

namespace FlowAddresses

structure Derived (addresses : FlowAddresses) (rt : Runtime) (programId vault : PublicKey)
    (state : VaultState) : Prop where
  authority : deriveAuthority rt programId vault = .ok addresses.authority
  fundingWindow : deriveFundingWindow rt programId vault = .ok addresses.fundingWindow
  headRecord : deferredRecordOr rt programId vault state.deferredHead = .ok addresses.headRecord

/-- The accounts that the client passes whatever the caller names. -/
def own (addresses : FlowAddresses) (vault : PublicKey) (state : VaultState) :
    List (String × PublicKey) := [
  ("vault", vault),
  ("authority", addresses.authority),
  ("fundingWindow", addresses.fundingWindow),
  ("headRecord", addresses.headRecord),
  ("shareMint", state.shareMint),
  ("depositEscrow", state.depositEscrow),
  ("redemptionEscrow", state.redemptionEscrow),
  ("token2022Program", TOKEN_2022_PROGRAM_ID),
  ("systemProgram", PublicKey.default)]

end FlowAddresses

/-! ## Operations -/

/-- What operators and the admin do with the accounts of a flow. -/
inductive OperatorAction where
  | checkBreaker
  | resetBreaker (admin : PublicKey)
  | fundHead
  | sweepIdle (maxAmount : Int)
  | cureDeferred (signer : PublicKey)
  | unwindStep (maxBaseLots : Int)
  | finishUnwind
  | extendPartialUnwind (reductionBps : JsNumber)

namespace OperatorAction

/-- The builder of `FlpV4Client` for an action. -/
def build (rt : Runtime) (client : FlpV4Client) (vault : PublicKey) (state : VaultState)
    (accounts : NamedAccounts) (health : List AccountMeta) :
    OperatorAction → Throws TransactionInstruction
  | .checkBreaker => client.checkBreaker rt vault state accounts health
  | .resetBreaker admin => client.resetBreaker rt vault state admin accounts health
  | .fundHead => Prod.fst <$> client.fundHead rt vault state accounts health
  | .sweepIdle maxAmount => Prod.fst <$> client.sweepIdle rt vault state accounts health maxAmount
  | .cureDeferred signer => Prod.fst <$> client.cureDeferred rt vault state signer accounts health
  | .unwindStep maxBaseLots => client.unwindStep rt vault state accounts health maxBaseLots
  | .finishUnwind => client.finishUnwind rt vault state accounts health
  | .extendPartialUnwind reductionBps =>
    Prod.fst <$> client.extendPartialUnwind rt vault state accounts health reductionBps

def method : OperatorAction → IdlInstruction
  | .checkBreaker => checkBreakerMethod
  | .resetBreaker _ => resetBreakerMethod
  | .fundHead => fundHeadV2Method
  | .sweepIdle _ => sweepIdleV2Method
  | .cureDeferred _ => cureDeferredV2Method
  | .unwindStep _ => unwindStepV2Method
  | .finishUnwind => finishUnwindMethod
  | .extendPartialUnwind _ => extendPartialUnwindV2Method

/-- Who has to sign. Only the extension of a reduction takes the signer from the caller's map. -/
def signers (accounts : NamedAccounts) : OperatorAction → Set PublicKey
  | .resetBreaker admin => {admin}
  | .cureDeferred signer => {signer}
  | .extendPartialUnwind _ => {key | accounts "signer" = some key}
  | _ => ∅

end OperatorAction

section

variable {rt : Runtime} {client : FlpV4Client} {vault : PublicKey} {state : VaultState}
  {addresses : FlowAddresses} {accounts accounts' : NamedAccounts} {health : List AccountMeta}
  {action : OperatorAction} {ix : TransactionInstruction}

theorem flowAccounts_eq (haddresses : addresses.Derived rt client.programId vault state) :
    client.flowAccounts rt vault state.toVaultAccount accounts =
      (FlpV4Client.requireV4 state.toVaultAccount >>= fun _ =>
        pure (accounts.set (addresses.own vault state))) := by
  have hauthority := haddresses.authority
  have hwindow := haddresses.fundingWindow
  have hhead := haddresses.headRecord
  unfold FlpV4Client.flowAccounts
  rw [hauthority, hwindow, hhead]
  rfl

/-- Callers whose maps differ only in accounts that the client derives get the same. -/
theorem flowAccounts_congr (haddresses : addresses.Derived rt client.programId vault state)
    (h : ∀ path, (addresses.own vault state).lookup path = none → accounts path = accounts' path) :
    client.flowAccounts rt vault state.toVaultAccount accounts =
      client.flowAccounts rt vault state.toVaultAccount accounts' := by
  have hset : accounts.set (addresses.own vault state) =
      accounts'.set (addresses.own vault state) := by
    funext path
    unfold NamedAccounts.set
    cases hown : (addresses.own vault state).lookup path with
    | none => rw [Option.none_or, Option.none_or, h path hown]
    | some key => rfl
  rw [flowAccounts_eq haddresses, flowAccounts_eq haddresses, hset]

theorem build_congr (haddresses : addresses.Derived rt client.programId vault state)
    (h : ∀ path, (addresses.own vault state).lookup path = none → accounts path = accounts' path) :
    action.build rt client vault state accounts health =
      action.build rt client vault state accounts' health := by
  have hflow := flowAccounts_congr haddresses h
  cases action with
  | checkBreaker =>
    unfold OperatorAction.build FlpV4Client.checkBreaker
    rw [hflow]
  | resetBreaker admin =>
    unfold OperatorAction.build FlpV4Client.resetBreaker
    rw [hflow]
  | fundHead =>
    unfold OperatorAction.build FlpV4Client.fundHead
    rw [hflow]
  | sweepIdle maxAmount =>
    unfold OperatorAction.build FlpV4Client.sweepIdle
    rw [hflow]
  | cureDeferred signer =>
    unfold OperatorAction.build FlpV4Client.cureDeferred
    rw [hflow]
  | unwindStep maxBaseLots =>
    unfold OperatorAction.build FlpV4Client.unwindStep
    rw [hflow]
  | finishUnwind =>
    unfold OperatorAction.build FlpV4Client.finishUnwind
    rw [hflow]
  | extendPartialUnwind reductionBps =>
    unfold OperatorAction.build FlpV4Client.extendPartialUnwind
    rw [hflow]

/-! ## What follows the accounts -/

/-- The accounts are the caller's or do not sign. -/
def Unsigned (health rest : List AccountMeta) : Prop :=
  ∀ key ∈ rest, key ∈ health ∨ key.isSigner = false

theorem Unsigned.refl : Unsigned health health := fun _ => .inl

theorem Unsigned.append {rest rest' : List AccountMeta} (h : Unsigned health rest)
    (h' : Unsigned health rest') : Unsigned health (rest ++ rest') := by
  intro key hkey
  rcases List.mem_append.1 hkey with hkey | hkey
  · exact h key hkey
  · exact h' key hkey

theorem isSigner_queueMetas (known : MarketQueues) (seen : List PublicKey)
    (health : List AccountMeta) : ∀ key ∈ queueMetas known seen health, key.isSigner = false := by
  induction health generalizing seen with
  | nil => exact fun _ hkey => (nomatch hkey)
  | cons account health ih =>
    intro key hkey
    unfold queueMetas at hkey
    split at hkey
    · exact ih _ key hkey
    · split at hkey
      · exact ih _ key hkey
      · rcases List.mem_cons.1 hkey with rfl | hkey
        · rfl
        · exact ih _ key hkey

theorem unsigned_withEventQueues : Unsigned health (client.withEventQueues rt health).1 :=
  Unsigned.refl.append fun key hkey => .inr (isSigner_queueMetas _ _ _ key hkey)

theorem unsigned_recoveryMetas {writable : Bool} {sidecar : List AccountMeta}
    (h : client.recoveryMetas rt vault writable = .ok sidecar) : Unsigned health sidecar := by
  unfold FlpV4Client.recoveryMetas recoverySidecar at h
  simp only [Throws.bind_eq_ok, Throws.pure_eq_ok] at h
  obtain ⟨address, -, rfl⟩ := h
  intro key hkey
  rw [List.mem_singleton.1 hkey]
  exact .inr rfl

theorem unsigned_unwindMetas {writable : Bool} {sidecar : List AccountMeta}
    (h : client.unwindMetas rt vault state.toVaultAccount writable = .ok sidecar) :
    Unsigned health sidecar := by
  unfold FlpV4Client.unwindMetas at h
  split at h
  · exact unsigned_recoveryMetas h
  · rw [Throws.pure_eq_ok] at h
    subst h
    exact fun _ hkey => (nomatch hkey)

/-! ## One instruction -/

/-- The accounts of an action: the derived ones as they are, and the signer it takes. -/
structure OperatorAction.Names (action : OperatorAction) (addresses : FlowAddresses)
    (vault : PublicKey) (state : VaultState) (accounts named : NamedAccounts) : Prop where
  own : ∀ path key, (addresses.own vault state).lookup path = some key → named path = some key
  signer : ∀ item ∈ action.method.paths, item.isSigner = true → ∀ key,
    named item.path = some key → key ∈ action.signers accounts

theorem set_own {path : String} {key : PublicKey}
    (h : (addresses.own vault state).lookup path = some key) :
    accounts.set (addresses.own vault state) path = some key := by
  rw [NamedAccounts.set, h]
  rfl

/-- An action that nobody has to sign. -/
theorem names_unsigned (hmethod : ∀ item ∈ action.method.paths, item.isSigner = false) :
    action.Names addresses vault state accounts (accounts.set (addresses.own vault state)) where
  own _ _ := set_own
  signer item hitem hsigner := by
    rw [hmethod item hitem] at hsigner
    cases hsigner

/-- An action with a signer of its own. -/
theorem names_signed {name : String} {signer : PublicKey}
    (hown : (addresses.own vault state).lookup name = none)
    (hmethod : ∀ item ∈ action.method.paths, item.isSigner = true → item.path = name)
    (hsigners : action.signers accounts = {signer}) :
    action.Names addresses vault state accounts
      ((accounts.set (addresses.own vault state)).set [(name, signer)]) where
  own path key h := by
    have hne : (path == name) = false := by
      refine beq_eq_false_iff_ne.2 ?_
      rintro rfl
      rw [hown] at h
      cases h
    have hnone : [(name, signer)].lookup path = none := by
      simp [List.lookup_cons, hne]
    rw [NamedAccounts.set, hnone, Option.none_or]
    exact set_own h
  signer item hitem hsigner key hkey := by
    have hlookup : [(name, signer)].lookup name = some signer := by
      simp
    rw [hmethod item hitem hsigner, NamedAccounts.set, hlookup] at hkey
    rw [hsigners, ← Option.some.inj hkey]
    rfl

/-- What anyone may do needs no signature. -/
theorem isSigner_permissionless : ∀ method ∈ [checkBreakerMethod, fundHeadV2Method,
    sweepIdleV2Method, unwindStepV2Method, finishUnwindMethod], ∀ item ∈ method.paths,
    item.isSigner = false := by
  decide

theorem path_signer : ∀ method ∈ [cureDeferredV2Method, extendPartialUnwindV2Method],
    ∀ item ∈ method.paths, item.isSigner = true → item.path = "signer" := by
  decide

theorem path_admin : ∀ item ∈ resetBreakerMethod.paths, item.isSigner = true →
    item.path = "admin" := by
  decide

/-- An action is one instruction on such accounts. -/
theorem build_inv (haddresses : addresses.Derived rt client.programId vault state)
    (h : action.build rt client vault state accounts health = .ok ix) :
    ∃ named args rest, client.instruction action.method.name named args rest = .ok ix ∧
      action.Names addresses vault state accounts named ∧ Unsigned health rest := by
  cases action with
  | checkBreaker =>
    unfold OperatorAction.build FlpV4Client.checkBreaker at h
    rw [flowAccounts_eq haddresses] at h
    simp only [Throws.bind_eq_ok, Throws.pure_eq_ok] at h
    obtain ⟨_, ⟨_, -, rfl⟩, hix⟩ := h
    exact ⟨_, _, _, hix, names_unsigned (isSigner_permissionless checkBreakerMethod (by simp)),
      .refl⟩
  | resetBreaker admin =>
    unfold OperatorAction.build FlpV4Client.resetBreaker at h
    rw [flowAccounts_eq haddresses] at h
    simp only [Throws.bind_eq_ok, Throws.pure_eq_ok] at h
    obtain ⟨_, ⟨_, -, rfl⟩, hix⟩ := h
    exact ⟨_, _, _, hix, names_signed rfl path_admin rfl, .refl⟩
  | fundHead =>
    unfold OperatorAction.build FlpV4Client.fundHead at h
    rw [flowAccounts_eq haddresses] at h
    simp only [Throws.map_eq_ok, Throws.bind_eq_ok, Throws.pure_eq_ok] at h
    obtain ⟨_, ⟨_, -, _, ⟨_, -, rfl⟩, sidecar, hsidecar, _, hix, rfl⟩, rfl⟩ := h
    exact ⟨_, _, _, hix, names_unsigned (isSigner_permissionless fundHeadV2Method (by simp)),
      unsigned_withEventQueues.append (unsigned_unwindMetas hsidecar)⟩
  | sweepIdle maxAmount =>
    unfold OperatorAction.build FlpV4Client.sweepIdle at h
    rw [flowAccounts_eq haddresses] at h
    simp only [Throws.map_eq_ok, Throws.bind_eq_ok, Throws.pure_eq_ok] at h
    obtain ⟨_, ⟨_, -, _, ⟨_, -, rfl⟩, _, -, _, hix, rfl⟩, rfl⟩ := h
    exact ⟨_, _, _, hix, names_unsigned (isSigner_permissionless sweepIdleV2Method (by simp)),
      unsigned_withEventQueues⟩
  | cureDeferred signer =>
    unfold OperatorAction.build FlpV4Client.cureDeferred at h
    rw [flowAccounts_eq haddresses] at h
    simp only [Throws.map_eq_ok, Throws.bind_eq_ok, Throws.pure_eq_ok] at h
    obtain ⟨_, ⟨_, -, _, ⟨_, -, rfl⟩, _, hix, rfl⟩, rfl⟩ := h
    exact ⟨_, _, _, hix, names_signed rfl (path_signer cureDeferredV2Method (by simp)) rfl,
      unsigned_withEventQueues⟩
  | unwindStep maxBaseLots =>
    unfold OperatorAction.build FlpV4Client.unwindStep at h
    rw [flowAccounts_eq haddresses] at h
    simp only [Throws.bind_eq_ok, Throws.pure_eq_ok] at h
    obtain ⟨_, -, _, -, _, ⟨_, -, rfl⟩, sidecar, hsidecar, hix⟩ := h
    exact ⟨_, _, _, hix, names_unsigned (isSigner_permissionless unwindStepV2Method (by simp)),
      Unsigned.refl.append (unsigned_recoveryMetas hsidecar)⟩
  | finishUnwind =>
    unfold OperatorAction.build FlpV4Client.finishUnwind at h
    rw [flowAccounts_eq haddresses] at h
    simp only [Throws.bind_eq_ok, Throws.pure_eq_ok] at h
    obtain ⟨_, ⟨_, -, rfl⟩, sidecar, hsidecar, hix⟩ := h
    exact ⟨_, _, _, hix, names_unsigned (isSigner_permissionless finishUnwindMethod (by simp)),
      Unsigned.refl.append (unsigned_recoveryMetas hsidecar)⟩
  | extendPartialUnwind reductionBps =>
    unfold OperatorAction.build FlpV4Client.extendPartialUnwind at h
    rw [flowAccounts_eq haddresses] at h
    simp only [Throws.map_eq_ok, Throws.bind_eq_ok, Throws.pure_eq_ok] at h
    obtain ⟨_, ⟨_, -, _, ⟨_, -, rfl⟩, _, -, sidecar, hsidecar, _, hix, rfl⟩, rfl⟩ := h
    refine ⟨_, _, _, hix, ⟨fun _ _ => set_own, ?_⟩,
      unsigned_withEventQueues.append (unsigned_recoveryMetas hsidecar)⟩
    intro item hitem hsigner key hkey
    rw [path_signer extendPartialUnwindV2Method (by simp) item hitem hsigner] at hkey
    exact hkey

theorem find?_operator (action : OperatorAction) :
    (FLP_V4_METHODS.find? fun method => method.name = action.method.name) =
      some action.method := by
  cases action <;> rfl

/-- The account of an item is the one that is named for it. -/
theorem pubkey_of_named {programId : PublicKey} {missing : String → String}
    {named : NamedAccounts} {item : IdlAccount} {account : AccountMeta}
    (h : namedMeta programId missing named item = .ok account) :
    (∀ key, named item.path = some key → account.pubkey = key) ∧
      (account.isSigner = true → item.isSigner = true ∧ named item.path = some account.pubkey) := by
  unfold namedMeta at h
  cases hnamed : named item.path with
  | none =>
    simp only [hnamed] at h
    split at h <;> cases h
    exact ⟨fun _ hkey => (nomatch hkey), fun hsigner => (nomatch hsigner)⟩
  | some key =>
    simp only [hnamed] at h
    split at h
    · next homitted =>
      cases h
      exact ⟨fun _ hkey => homitted.2.symm.trans (Option.some.inj hkey),
        fun hsigner => (nomatch hsigner)⟩
    · cases h
      exact ⟨fun _ hkey => Option.some.inj hkey, fun hsigner => ⟨hsigner, rfl⟩⟩

/-- **A caller cannot replace a derived account, and adds no signature.** -/
theorem operator_accounts (haddresses : addresses.Derived rt client.programId vault state) :
    (∀ accounts', (∀ path, (addresses.own vault state).lookup path = none →
        accounts path = accounts' path) →
      action.build rt client vault state accounts health =
        action.build rt client vault state accounts' health) ∧
    ∀ ix, action.build rt client vault state accounts health = .ok ix →
      ix.programId = client.programId ∧ ∃ keys rest, ix.keys = keys ++ rest ∧
        List.Forall₂ (fun item key =>
          (∀ own, (addresses.own vault state).lookup item.path = some own → key.pubkey = own) ∧
            (key.isSigner = true → key.pubkey ∈ action.signers accounts))
          action.method.paths keys ∧
        ∀ key ∈ rest, key ∈ health ∨ key.isSigner = false := by
  refine ⟨fun accounts' h => build_congr haddresses h, fun ix hix => ?_⟩
  obtain ⟨named, args, rest, hbuild, hnames, hrest⟩ := build_inv haddresses hix
  unfold FlpV4Client.instruction at hbuild
  rw [buildInstruction_eq_ok (find?_operator action)] at hbuild
  obtain ⟨keys, data, hkeys, -, rfl⟩ := hbuild
  refine ⟨rfl, keys, rest, rfl, ?_, hrest⟩
  rw [Throws.mapM_eq_ok, List.forall₂_iff_get] at hkeys
  rw [List.forall₂_iff_get]
  refine ⟨hkeys.1, fun i hi hi' => ?_⟩
  obtain ⟨hpubkey, hsigner⟩ := pubkey_of_named (hkeys.2 i hi hi')
  refine ⟨fun own hown => hpubkey own (hnames.own _ _ hown), fun hsigns => ?_⟩
  obtain ⟨hitem, hnamed⟩ := hsigner hsigns
  exact hnames.signer _ (List.get_mem _ _) hitem _ hnamed

end

namespace RecordedOperator

open RecordedFlow

def checkBreakerHash : Digest :=
  ⟨[253, 69, 25, 4, 49, 188, 253, 243, 23, 228, 33, 125, 36, 148, 56, 9,
    108, 62, 67, 81, 79, 114, 243, 252, 113, 81, 93, 58, 158, 118, 4, 68], rfl⟩

/-- SHA-256 and the program addresses on the flow of a vault without deferred batches. -/
def runtime : Runtime :=
  .ofTables
    [(Buffer.ofAscii "global:check_breaker", checkBreakerHash)]
    []
    [([Buffer.ofAscii "flp-authority", vault.bytes], RecordedQueue.authority),
      ([Buffer.ofAscii "funding_window", vault.bytes], RecordedQueue.fundingWindow)]

def addresses : FlowAddresses where
  authority := RecordedQueue.authority
  fundingWindow := RecordedQueue.fundingWindow
  headRecord := client.programId

/-- Two maps, one of which names another vault and another authority. -/
def honest : NamedAccounts := fun _ => some (key 10)

def forged : NamedAccounts := honest.set [("vault", key 11), ("authority", key 12)]

end RecordedOperator

open RecordedExtension RecordedFlow RecordedOperator in
theorem operator_accounts_recorded : ∃ ix,
    client.checkBreaker RecordedOperator.runtime vault state forged [] = .ok ix ∧
      client.checkBreaker RecordedOperator.runtime vault state honest [] = .ok ix ∧
      ix.programId = client.programId := by
  have haddresses : RecordedOperator.addresses.Derived RecordedOperator.runtime client.programId
      vault state := ⟨rfl, rfl, rfl⟩
  obtain ⟨hsame, hbuilt⟩ := @operator_accounts RecordedOperator.runtime client vault state
    RecordedOperator.addresses forged [] .checkBreaker haddresses
  have hforged : ∃ ix,
      client.checkBreaker RecordedOperator.runtime vault state forged [] = .ok ix := ⟨_, rfl⟩
  obtain ⟨ix, hix⟩ := hforged
  refine ⟨ix, hix, ?_, (hbuilt ix hix).1⟩
  have hagree : ∀ path, (RecordedOperator.addresses.own vault state).lookup path = none →
      forged path = honest path := by
    intro path hpath
    have hvault : (path == "vault") = false := by
      refine beq_eq_false_iff_ne.2 ?_
      rintro rfl
      cases hpath
    have hauthority : (path == "authority") = false := by
      refine beq_eq_false_iff_ne.2 ?_
      rintro rfl
      cases hpath
    simp [forged, NamedAccounts.set, List.lookup_cons, hvault, hauthority]
  exact (hsame honest hagree).symm.trans hix

end FermiSdk
