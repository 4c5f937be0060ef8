import FermiSdk.Flp.Verify.Requests

/-!
# What the admin and the guardian do

The builders of `FlpV4Client` that set up a vault, change its roles and parameters, or start and stop a
recovery. Each asks for one instruction, which nobody but the role that the builder names is asked to
sign, and it is built exactly under the conditions that the builder checks (`admin_instructions`).
-/

namespace FermiSdk

open FermiSdk.Lib

/-- What is done to a vault by its admin, its guardian or a delegate, with what the caller passes. -/
inductive AdminAction where
  | setDepositPermission (admin user : PublicKey) (approved : Bool) (payer : PublicKey)
  | initializeVault (vaultId : JsNumber) (group admin quoteBank quoteMint : PublicKey)
    (params : VaultParamsInput) (guardian feeRecipient : PublicKey)
  | seedVault (accounts : NamedAccounts) (amount : Int) (health : List AccountMeta)
  | initFermiAccount (admin coreProgram : PublicKey) (perps orders : JsNumber)
  | expandMarketCapacity (admin coreProgram : PublicKey) (perps orders : JsNumber)
  | setStatus (signer : PublicKey) (setFlags clearFlags : JsNumber)
  | stageParams (admin : PublicKey) (params : VaultParamsInput)
  | applyParams (admin : PublicKey)
  | stageRecoveryParams (admin : PublicKey) (params : RecoveryParamsInput)
  | applyRecoveryParams (admin : PublicKey)
  | setRoles (admin guardian feeRecipient : PublicKey)
  | proposeAdmin (admin newAdmin : PublicKey)
  | acceptAdmin (newAdmin : PublicKey)
  | proposeDelegate (admin delegate : PublicKey)
  | activateDelegate (signer coreProgram : PublicKey)
  | removeDelegate (signer coreProgram : PublicKey)
  | cancelOrders (signer coreProgram : PublicKey) (markets : List AccountMeta)
  | deactivatePerpPosition (coreProgram perpMarket : PublicKey)
  | triggerUnwind (signer coreProgram : PublicKey) (markets : List RecoveryMarket) (full : Bool)
    (head : Option Int)
  | triggerPartialUnwind (signer coreProgram : PublicKey) (markets : List RecoveryMarket)
    (fractionBps : JsNumber)
  | abortUnwind (admin : PublicKey)
  | rescueForeignToken (admin mint : PublicKey) (amount : Int)
  | clearForeignCoreToken (admin coreProgram mint bank bankVault oracle : PublicKey)
    (health : List AccountMeta)

/-- The counts fit into an account, and into its first allocation. -/
def Capacity (perps orders : JsNumber) (initial : Bool) : Prop :=
  ∃ p o : Int, perps = .int p ∧ orders = .int o ∧ (1 ≤ p ∧ p ≤ 13) ∧ (1 ≤ o ∧ o ≤ 64) ∧
    (initial = true → 704 + 304 * p + 96 * o ≤ 10240)

namespace AdminAction

/-- The builder of `FlpV4Client` for an action. -/
def build (rt : Runtime) (spl : SplToken) (client : FlpV4Client) (vault : PublicKey)
    (state : VaultState) : AdminAction → Throws (List TransactionInstruction)
  | .setDepositPermission admin user approved payer =>
    client.setDepositPermissionInstructions rt vault admin user approved payer
  | .initializeVault vaultId group admin quoteBank quoteMint params guardian feeRecipient =>
    ([·]) <$> client.initializeVault rt vaultId group admin quoteBank quoteMint params guardian
      feeRecipient
  | .seedVault accounts amount health =>
    ([·]) <$> client.seedVault rt vault state accounts amount health
  | .initFermiAccount admin coreProgram perps orders =>
    ([·]) <$> client.initFermiAccount rt vault state admin coreProgram perps orders
  | .expandMarketCapacity admin coreProgram perps orders =>
    ([·]) <$> client.expandMarketCapacity rt vault state admin coreProgram perps orders
  | .setStatus signer setFlags clearFlags =>
    ([·]) <$> client.setStatus vault signer setFlags clearFlags
  | .stageParams admin params => ([·]) <$> client.stageParams vault admin params
  | .applyParams admin => ([·]) <$> client.applyParams vault admin
  | .stageRecoveryParams admin params => ([·]) <$> client.stageRecoveryParams vault admin params
  | .applyRecoveryParams admin => ([·]) <$> client.applyRecoveryParams vault admin
  | .setRoles admin guardian feeRecipient =>
    ([·]) <$> client.setRoles vault admin guardian feeRecipient
  | .proposeAdmin admin newAdmin => ([·]) <$> client.proposeAdmin vault admin newAdmin
  | .acceptAdmin newAdmin => ([·]) <$> client.acceptAdmin vault newAdmin
  | .proposeDelegate admin delegate => ([·]) <$> client.proposeDelegate vault admin delegate
  | .activateDelegate signer coreProgram =>
    ([·]) <$> client.activateDelegate rt vault state signer coreProgram
  | .removeDelegate signer coreProgram =>
    ([·]) <$> client.removeDelegate rt vault state signer coreProgram
  | .cancelOrders signer coreProgram markets =>
    ([·]) <$> client.cancelOrders rt vault state signer coreProgram markets
  | .deactivatePerpPosition coreProgram perpMarket =>
    ([·]) <$> client.deactivatePerpPosition rt vault state coreProgram perpMarket
  | .triggerUnwind signer coreProgram markets full head =>
    ([·]) <$> client.triggerUnwind rt vault state signer coreProgram markets full head
  | .triggerPartialUnwind signer coreProgram markets fractionBps =>
    ([·]) <$> client.triggerPartialUnwind rt vault state signer coreProgram markets fractionBps
  | .abortUnwind admin => ([·]) <$> client.abortUnwind rt vault admin
  | .rescueForeignToken admin mint amount =>
    client.rescueForeignTokenInstructions rt spl vault state admin mint amount
  | .clearForeignCoreToken admin coreProgram mint bank bankVault oracle health =>
    client.clearForeignCoreTokenInstructions rt spl vault state admin coreProgram mint bank bankVault
      oracle health

/-- What the builder of an action is for. -/
def spec (state : VaultState) : AdminAction → BuilderSpec
  | .setDepositPermission admin _ approved payer => {
    method := setDepositPermissionMethod
    args := .of [("approved", .bool approved)]
    signers := {admin, payer} }
  | .initializeVault vaultId _ admin _ _ params guardian feeRecipient => {
    method := initializeVaultV4Method
    args := .of ([("vaultId", .number vaultId)] ++ vaultParamsArgs params ++
      [("guardian", .publicKey guardian), ("feeRecipient", .publicKey feeRecipient)])
    signers := {admin}
    Allowed := ∃ n : Int, vaultId = .int n ∧ 0 ≤ n ∧ n < 2 ^ 16 }
  | .seedVault accounts amount health => {
    method := seedVaultV4Method
    args := .of [("amount", .bn amount)]
    signers := {key | accounts "admin" = some key}
    given := health
    Allowed := state.version = 4 ∧ IsAmount amount
    Named := Supplied seedVaultV4Method ["vault", "authority", "quoteMint", "shareMint",
      "token2022Program", "associatedTokenProgram", "systemProgram"] accounts }
  | .initFermiAccount admin _ perps orders => {
    method := initFermiAccountV4Method
    args := .of [("perpCount", .number perps), ("perpOoCount", .number orders),
      ("tokenCount", .number (.int 1))]
    signers := {admin}
    Allowed := state.version = 4 ∧ Capacity perps orders true ∧
      state.fermiAccount = PublicKey.default }
  | .expandMarketCapacity admin _ perps orders => {
    method := expandMarketCapacityMethod
    args := .of [("perpCount", .number perps), ("perpOoCount", .number orders)]
    signers := {admin}
    Allowed := state.version = 4 ∧ Capacity perps orders false ∧
      hasFlag state.status (STATUS_UNWIND ||| STATUS_CLOSED) = false }
  | .setStatus signer setFlags clearFlags => {
    method := setStatusMethod
    args := .of [("setFlags", .number setFlags), ("clearFlags", .number clearFlags)]
    signers := {signer}
    Allowed := (∃ n : Int, setFlags = .int n ∧ 0 ≤ n ∧ n < 2 ^ 8) ∧
      ∃ n : Int, clearFlags = .int n ∧ 0 ≤ n ∧ n < 2 ^ 8 }
  | .stageParams admin params => {
    method := stageParamsV3Method
    args := .of (vaultParamsArgs params)
    signers := {admin} }
  | .applyParams admin => {
    method := applyParamsMethod
    signers := {admin} }
  | .stageRecoveryParams admin params => {
    method := stageRecoveryParamsMethod
    args := .of (recoveryParamsArgs params)
    signers := {admin} }
  | .applyRecoveryParams admin => {
    method := applyRecoveryParamsMethod
    signers := {admin} }
  | .setRoles admin guardian feeRecipient => {
    method := setRolesMethod
    args := .of [("guardian", .publicKey guardian), ("feeRecipient", .publicKey feeRecipient)]
    signers := {admin} }
  | .proposeAdmin admin newAdmin => {
    method := proposeAdminMethod
    args := .of [("newAdmin", .publicKey newAdmin)]
    signers := {admin} }
  | .acceptAdmin newAdmin => {
    method := acceptAdminMethod
    signers := {newAdmin} }
  | .proposeDelegate admin delegate => {
    method := proposeDelegateMethod
    args := .of [("delegate", .publicKey delegate)]
    signers := {admin} }
  | .activateDelegate signer _ => {
    method := activateDelegateMethod
    signers := {signer}
    Allowed := state.version = 4 }
  | .removeDelegate signer _ => {
    method := removeDelegateMethod
    signers := {signer}
    Allowed := state.version = 4 }
  | .cancelOrders signer _ markets => {
    method := cancelOrdersMethod
    signers := {signer}
    given := markets
    Allowed := state.version = 4 }
  | .deactivatePerpPosition _ _ => {
    method := deactivatePerpPositionMethod
    signers := ∅
    Allowed := state.version = 4 }
  | .triggerUnwind signer _ _ full head => {
    method := triggerUnwindMethod
    args := .of [("full", .bool full)]
    signers := {signer}
    Allowed := state.version = 4 ∧ ∀ epoch, head = some epoch → IsAmount epoch }
  | .triggerPartialUnwind signer _ _ fractionBps => {
    method := triggerPartialUnwindMethod
    args := .of [("fractionBps", .number fractionBps)]
    signers := {signer}
    Allowed := state.version = 4 ∧ ∃ n : Int, fractionBps = .int n ∧ 1 ≤ n ∧ n ≤ 10000 }
  | .abortUnwind admin => {
    method := abortUnwindMethod
    signers := {admin} }
  | .rescueForeignToken admin mint amount => {
    method := rescueForeignTokenMethod
    args := .of [("amount", .bn amount)]
    signers := {admin}
    Allowed := mint ≠ state.quoteMint ∧ mint ≠ state.shareMint ∧ IsAmount amount ∧ amount ≠ 0 }
  | .clearForeignCoreToken admin _ mint _ _ _ health => {
    method := clearForeignCoreTokenMethod
    signers := {admin}
    given := health
    Allowed := mint ≠ state.quoteMint ∧ mint ≠ state.shareMint }

theorem find?_method (state : VaultState) (action : AdminAction) :
    (FLP_V4_METHODS.find? fun method => method.name = (action.spec state).method.name) =
      some (action.spec state).method := by
  cases action <;> rfl

/-! ## The accounts of the instructions -/

/-- The instructions on the vault alone, with their signer. -/
def plainMethods : List (IdlInstruction × String) := [
  (setStatusMethod, "signer"), (stageParamsV3Method, "admin"), (applyParamsMethod, "admin"),
  (stageRecoveryParamsMethod, "admin"), (applyRecoveryParamsMethod, "admin"),
  (setRolesMethod, "admin"), (proposeAdminMethod, "admin"), (acceptAdminMethod, "newAdmin"),
  (proposeDelegateMethod, "admin"), (abortUnwindMethod, "admin")]

theorem path_of_plain : ∀ entry ∈ plainMethods, ∀ item ∈ entry.1.paths,
    item.path ∈ ["vault", entry.2] ∧ (item.isSigner = true → item.path = entry.2) := by
  decide

/-- The instructions on the account of the core program, with the accounts of their own. -/
def coreMethods : List (IdlInstruction × List String) := [
  (activateDelegateMethod, ["signer"]), (removeDelegateMethod, ["signer"]),
  (cancelOrdersMethod, ["signer"]), (deactivatePerpPositionMethod, ["perpMarket"])]

theorem path_of_core : ∀ entry ∈ coreMethods, ∀ item ∈ entry.1.paths,
    item.path ∈ ["vault", "authority", "fermi.group", "fermi.fermiAccount", "fermi.fermiProgram"] ++
      entry.2 ∧
    (item.isSigner = true → item.path = "signer") := by
  decide

/-- The instructions that size the account of the core program. -/
theorem path_of_capacity : ∀ method ∈ [initFermiAccountV4Method, expandMarketCapacityMethod],
    ∀ item ∈ method.paths, item.path ∈ ["vault", "authority", "admin", "fermi.group",
      "fermi.fermiAccount", "fermi.fermiProgram", "recoveryTargets", "systemProgram"] ∧
    (item.isSigner = true → item.path = "admin") := by
  decide

theorem path_of_trigger : ∀ method ∈ [triggerUnwindMethod, triggerPartialUnwindMethod],
    ∀ item ∈ method.paths, item.path ∈ ["signer", "fermi.group", "fermi.fermiAccount",
      "fermi.fermiProgram", "deferredRecord"] ++ ownNames ∧
    (item.isSigner = true → item.path = "signer") := by
  decide

theorem path_of_setDepositPermission : ∀ item ∈ setDepositPermissionMethod.paths,
    item.path ∈ ["vault", "admin", "user", "depositor", "systemProgram"] ∧
    (item.isSigner = true → item.path = "admin") := by
  decide

theorem path_of_initializeVault : ∀ item ∈ initializeVaultV4Method.paths,
    item.path ∈ ["vault", "authority", "shareMint", "depositEscrow", "redemptionEscrow", "group",
      "admin", "quoteBank", "quoteMint", "fundingWindow", "tokenProgram", "token2022Program",
      "systemProgram", "rent"] ∧
    (item.isSigner = true → item.path = "admin") := by
  decide

theorem path_of_seedVault : ∀ item ∈ seedVaultV4Method.paths,
    item.isSigner = true → item.path = "admin" := by
  decide

theorem path_of_rescue : ∀ item ∈ rescueForeignTokenMethod.paths,
    item.path ∈ ["vault", "authority", "admin", "mint", "source", "destination", "tokenProgram"] ∧
    (item.isSigner = true → item.path = "admin") := by
  decide

theorem path_of_clear : ∀ item ∈ clearForeignCoreTokenMethod.paths,
    item.path ∈ ["vault", "authority", "admin", "mint", "bank", "bankVault", "oracle",
      "destination", "fermi.group", "fermi.fermiAccount", "fermi.fermiProgram", "tokenProgram"] ∧
    (item.isSigner = true → item.path = "admin") := by
  decide

/-! ## The builders -/

section

variable {rt : Runtime} {spl : SplToken} {client : FlpV4Client} {vault : PublicKey}
  {state : VaultState} {action : AdminAction}

/-- The builder of an action makes a request. -/
def Asked (rt : Runtime) (spl : SplToken) (client : FlpV4Client) (vault : PublicKey)
    (state : VaultState) (action : AdminAction) : Prop :=
  ∃ request, (action.spec state).Asks
    (fun accounts rest => client.instruction (action.spec state).method.name accounts
      (action.spec state).args rest)
    (action.build rt spl client vault state) request

/-- An action on the vault alone. -/
theorem asked_of_plain {role : String} {signer : PublicKey} {rest : List AccountMeta}
    (hmethod : ((action.spec state).method, role) ∈ plainMethods) (hrole : role ≠ "vault")
    (hsigners : (action.spec state).signers = {signer}) (hnamed : (action.spec state).Named)
    (hrest : Unsigned (action.spec state).given rest)
    (hbuilt : ∀ ixs, action.build rt spl client vault state = .ok ixs ↔
      (action.spec state).Allowed ∧
      ∃ ix, client.instruction (action.spec state).method.name
        (.of [("vault", vault), (role, signer)]) (action.spec state).args rest = .ok ix ∧
        ixs = [ix]) :
    action.Asked rt spl client vault state := by
  refine ⟨_, BuilderSpec.asks_of_listed (path_of_plain _ hmethod) rfl (fun key hkey => ?_) hnamed
    (fun _ hix => (List.not_mem_nil hix).elim) hrest hbuilt⟩
  have hsigner : [("vault", vault), (role, signer)].lookup role = some signer := by
    simp [List.lookup_cons, beq_false_of_ne hrole]
  rw [hsigners, ← Option.some.inj (hkey.symm.trans hsigner)]
  rfl

theorem capacity_eq_ok {perps orders : JsNumber} {initial : Bool} :
    capacity perps orders initial = .ok () ↔ Capacity perps orders initial := by
  unfold capacity
  rw [uint_number_bind_eq_ok (by decide)]
  simp only [uint_number_bind_eq_ok (by decide : 8 ≤ 32), Throws.bind_eq_ok, Throws.throwIf_eq_ok,
    exists_const, not_or, not_lt, not_and]
  constructor
  · rintro ⟨p, rfl, -, o, rfl, -, ⟨hp, hp', ho, ho'⟩, hsize⟩
    exact ⟨p, o, rfl, rfl, ⟨hp, hp'⟩, ⟨ho, ho'⟩, hsize⟩
  · rintro ⟨p, o, rfl, rfl, hp, ho, hsize⟩
    exact ⟨p, rfl, ⟨by omega, by omega⟩, o, rfl, ⟨by omega, by omega⟩, ⟨hp.1, hp.2, ho.1, ho.2⟩,
      hsize⟩

theorem capacity_bind_eq_ok {α : Type} {perps orders : JsNumber} {initial : Bool}
    {f : Unit → Throws α} {b : α} :
    (capacity perps orders initial >>= f) = .ok b ↔ Capacity perps orders initial ∧ f () = .ok b := by
  rw [← capacity_eq_ok, Throws.bind_eq_ok]
  constructor
  · rintro ⟨_, h⟩
    exact h
  · intro h
    exact ⟨(), h⟩

theorem requireV4_bind_eq_ok {α : Type} {f : Unit → Throws α} {b : α} :
    (FlpV4Client.requireV4 state.toVaultAccount >>= f) = .ok b ↔ state.version = 4 ∧ f () = .ok b := by
  simp only [FlpV4Client.requireV4, throwIf_bind_eq_ok, not_not]

/-- The accounts of the core program that a vault is traded with. -/
theorem coreAccounts_bind_eq_ok {α : Type} {f : NamedAccounts → Throws α} {b : α}
    {coreProgram authority : PublicKey}
    (hauthority : deriveAuthority rt client.programId vault = .ok authority) :
    (client.coreAccounts rt vault state coreProgram >>= f) = .ok b ↔ state.version = 4 ∧
      f (.of [("vault", vault), ("authority", authority), ("fermi.group", state.group),
        ("fermi.fermiAccount", state.fermiAccount), ("fermi.fermiProgram", coreProgram)]) =
        .ok b := by
  unfold FlpV4Client.coreAccounts
  rw [hauthority]
  simp only [bind_assoc, requireV4_bind_eq_ok, Throws.ok_bind, pure_bind]

/-- An action on the account of the core program. -/
theorem asked_of_core {coreProgram authority key : PublicKey} {name : String}
    {rest : List AccountMeta} (hmethod : ((action.spec state).method, [name]) ∈ coreMethods)
    (hauthority : deriveAuthority rt client.programId vault = .ok authority)
    (hsigners : ∀ signer, [(name, key)].lookup "signer" = some signer →
      signer ∈ (action.spec state).signers)
    (hnamed : (action.spec state).Named) (hrest : Unsigned (action.spec state).given rest)
    (hallowed : (action.spec state).Allowed ↔ state.version = 4)
    (hbuild : action.build rt spl client vault state = ([·]) <$> (do
      let core ← client.coreAccounts rt vault state coreProgram
      client.instruction (action.spec state).method.name (core.set [(name, key)])
        (action.spec state).args rest)) :
    action.Asked rt spl client vault state := by
  let own := [(name, key)] ++ [("vault", vault), ("authority", authority),
    ("fermi.group", state.group), ("fermi.fermiAccount", state.fermiAccount),
    ("fermi.fermiProgram", coreProgram)]
  have hpaths : ∀ item ∈ (action.spec state).method.paths, item.path ∈ own.map Prod.fst ∧
      (item.isSigner = true → item.path = "signer") := by
    intro item hitem
    obtain ⟨hpath, hsigner⟩ := path_of_core _ hmethod item hitem
    exact ⟨List.mem_append.2 (List.mem_append.1 hpath).symm, hsigner⟩
  refine ⟨⟨[], .of own, rest⟩, BuilderSpec.asks_of_listed hpaths rfl ?role hnamed
    (fun _ hix => (List.not_mem_nil hix).elim) hrest fun ixs => ?built⟩
  case role =>
    intro signer hsigner
    rw [List.lookup_append] at hsigner
    exact hsigners signer (hsigner.symm.trans Option.or_none).symm
  case built =>
    rw [hbuild, singleton_map_eq_ok, hallowed]
    simp only [coreAccounts_bind_eq_ok hauthority, NamedAccounts.set_of, exists_and_iff]
    exact Iff.rfl

/-- The start of a recovery. -/
theorem asked_of_trigger {addresses : FlowAddresses} {coreProgram signer record : PublicKey}
    {rest : List AccountMeta}
    (hmethod : (action.spec state).method ∈ [triggerUnwindMethod, triggerPartialUnwindMethod])
    (hsigners : (action.spec state).signers = {signer}) (hnamed : (action.spec state).Named)
    (hrest : Unsigned (action.spec state).given rest)
    (hbuilt : ∀ ixs, action.build rt spl client vault state = .ok ixs ↔
      (action.spec state).Allowed ∧
      ∃ ix, client.instruction (action.spec state).method.name ((NamedAccounts.empty.set
        (addresses.own vault state)).set [("signer", signer), ("fermi.group", state.group),
          ("fermi.fermiAccount", state.fermiAccount), ("fermi.fermiProgram", coreProgram),
          ("deferredRecord", record)]) (action.spec state).args rest = .ok ix ∧ ixs = [ix]) :
    action.Asked rt spl client vault state := by
  rw [NamedAccounts.empty_set, NamedAccounts.set_of] at hbuilt
  refine ⟨_, BuilderSpec.asks_of_listed (path_of_trigger _ hmethod) rfl (fun key hkey => ?_) hnamed
    (fun _ hix => (List.not_mem_nil hix).elim) hrest hbuilt⟩
  rw [hsigners]
  cases hkey
  rfl

/-- **Every builder asks for one instruction.** -/
theorem asked (hcoder : client.coder.Lawful rt FLP_V4_METHODS) (hspl : spl.Lawful)
    (hfinds : FindsAddresses rt spl) : action.Asked rt spl client vault state := by
  obtain ⟨authority, hauthority⟩ := hfinds.authority client.programId vault
  obtain ⟨targets, htargets⟩ := hfinds.recoveryTargets client.programId vault
  cases action with
  | setStatus signer setFlags clearFlags =>
    refine @asked_of_plain rt spl client vault state (.setStatus signer setFlags clearFlags) "signer"
      signer [] (by simp [spec, plainMethods]) (by decide) rfl trivial .refl fun ixs => ?_
    simp only [build, singleton_map_eq_ok, FlpV4Client.setStatus,
      uint_number_bind_eq_ok (by decide : 8 ≤ 32)]
    constructor
    · rintro ⟨ix, ⟨n, rfl, hn, m, rfl, hm, hix⟩, rfl⟩
      exact ⟨⟨⟨n, rfl, hn⟩, m, rfl, hm⟩, ix, hix, rfl⟩
    · rintro ⟨⟨⟨n, rfl, hn⟩, m, rfl, hm⟩, ix, hix, rfl⟩
      exact ⟨ix, ⟨n, rfl, hn, m, rfl, hm, hix⟩, rfl⟩
  | stageParams admin params =>
    exact @asked_of_plain rt spl client vault state (.stageParams admin params) "admin" admin []
      (by simp [spec, plainMethods]) (by decide) rfl trivial .refl fun ixs =>
      singleton_map_eq_ok.trans (and_iff_right trivial).symm
  | applyParams admin =>
    exact @asked_of_plain rt spl client vault state (.applyParams admin) "admin" admin []
      (by simp [spec, plainMethods]) (by decide) rfl trivial .refl fun ixs =>
      singleton_map_eq_ok.trans (and_iff_right trivial).symm
  | stageRecoveryParams admin params =>
    exact @asked_of_plain rt spl client vault state (.stageRecoveryParams admin params) "admin" admin
      [] (by simp [spec, plainMethods]) (by decide) rfl trivial .refl fun ixs =>
      singleton_map_eq_ok.trans (and_iff_right trivial).symm
  | applyRecoveryParams admin =>
    exact @asked_of_plain rt spl client vault state (.applyRecoveryParams admin) "admin" admin []
      (by simp [spec, plainMethods]) (by decide) rfl trivial .refl fun ixs =>
      singleton_map_eq_ok.trans (and_iff_right trivial).symm
  | setRoles admin guardian feeRecipient =>
    exact @asked_of_plain rt spl client vault state (.setRoles admin guardian feeRecipient) "admin"
      admin [] (by simp [spec, plainMethods]) (by decide) rfl trivial .refl fun ixs =>
      singleton_map_eq_ok.trans (and_iff_right trivial).symm
  | proposeAdmin admin newAdmin =>
    exact @asked_of_plain rt spl client vault state (.proposeAdmin admin newAdmin) "admin" admin []
      (by simp [spec, plainMethods]) (by decide) rfl trivial .refl fun ixs =>
      singleton_map_eq_ok.trans (and_iff_right trivial).symm
  | acceptAdmin newAdmin =>
    exact @asked_of_plain rt spl client vault state (.acceptAdmin newAdmin) "newAdmin" newAdmin []
      (by simp [spec, plainMethods]) (by decide) rfl trivial .refl fun ixs =>
      singleton_map_eq_ok.trans (and_iff_right trivial).symm
  | proposeDelegate admin delegate =>
    exact @asked_of_plain rt spl client vault state (.proposeDelegate admin delegate) "admin" admin []
      (by simp [spec, plainMethods]) (by decide) rfl trivial .refl fun ixs =>
      singleton_map_eq_ok.trans (and_iff_right trivial).symm
  | activateDelegate signer coreProgram =>
    exact @asked_of_core rt spl client vault state (.activateDelegate signer coreProgram) coreProgram
      authority signer "signer" [] (by simp [spec, coreMethods]) hauthority (by rintro _ ⟨⟩; rfl)
      trivial .refl Iff.rfl rfl
  | removeDelegate signer coreProgram =>
    exact @asked_of_core rt spl client vault state (.removeDelegate signer coreProgram) coreProgram
      authority signer "signer" [] (by simp [spec, coreMethods]) hauthority (by rintro _ ⟨⟩; rfl)
      trivial .refl Iff.rfl rfl
  | cancelOrders signer coreProgram markets =>
    exact @asked_of_core rt spl client vault state (.cancelOrders signer coreProgram markets)
      coreProgram authority signer "signer" markets (by simp [spec, coreMethods]) hauthority
      (by rintro _ ⟨⟩; rfl) trivial .refl Iff.rfl rfl
  | deactivatePerpPosition coreProgram perpMarket =>
    exact @asked_of_core rt spl client vault state (.deactivatePerpPosition coreProgram perpMarket)
      coreProgram authority perpMarket "perpMarket" [] (by simp [spec, coreMethods]) hauthority
      (by rintro _ ⟨⟩) trivial .refl Iff.rfl rfl
  | abortUnwind admin =>
    obtain ⟨sidecar, hsidecar⟩ := @exists_recoveryMetas rt client vault targets htargets true
    refine @asked_of_plain rt spl client vault state (.abortUnwind admin) "admin" admin sidecar
      (by simp [spec, plainMethods]) (by decide) rfl trivial (unsigned_recoveryMetas hsidecar) fun ixs => ?_
    rw [build, FlpV4Client.abortUnwind, hsidecar]
    exact singleton_map_eq_ok.trans (and_iff_right trivial).symm
  | setDepositPermission admin user approved payer =>
    obtain ⟨depositor, hdepositor⟩ := hfinds.depositor client.programId vault user
    obtain ⟨record, hrecord, hwithin⟩ := @exists_initDepositor rt client vault user payer
      ⟨depositor, authority, authority, authority⟩ hcoder hdepositor
    refine ⟨⟨[record], .of [("vault", vault), ("admin", admin), ("user", user),
      ("depositor", depositor), ("systemProgram", PublicKey.default)], []⟩,
      BuilderSpec.asks_of_listed path_of_setDepositPermission rfl (by rintro _ ⟨⟩; exact .inl rfl)
      trivial (fun ix hix key hkey hsigner => ?_) .refl fun ixs => ?_⟩
    · rw [List.mem_singleton.1 hix] at hkey
      exact .inr ((hwithin key hkey).1 hsigner)
    · simp only [build, FlpV4Client.setDepositPermissionInstructions, hrecord, hdepositor,
        Throws.ok_bind, Throws.bind_eq_ok, Throws.pure_eq_ok, @eq_comm _ _ ixs]
      exact (and_iff_right trivial).symm
  | initializeVault vaultId group admin quoteBank quoteMint params guardian feeRecipient =>
    obtain ⟨addresses, window, haddresses⟩ :=
      @FindsAddresses.newVault rt spl hfinds vaultId client.programId group
    refine ⟨⟨[], .of [("vault", addresses.vault), ("authority", addresses.authority),
      ("shareMint", addresses.shareMint), ("depositEscrow", addresses.depositEscrow),
      ("redemptionEscrow", addresses.redemptionEscrow), ("group", group), ("admin", admin),
      ("quoteBank", quoteBank), ("quoteMint", quoteMint), ("fundingWindow", window),
      ("tokenProgram", TOKEN_PROGRAM_ID), ("token2022Program", TOKEN_2022_PROGRAM_ID),
      ("systemProgram", PublicKey.default), ("rent", SYSVAR_RENT_PUBKEY)], []⟩,
      BuilderSpec.asks_of_listed path_of_initializeVault rfl (by rintro _ ⟨⟩; rfl) trivial
      (fun _ hix => (List.not_mem_nil hix).elim) .refl fun ixs => ?_⟩
    rw [build, singleton_map_eq_ok]
    simp only [FlpV4Client.initializeVault, uint_number_bind_eq_ok (by decide : 16 ≤ 32)]
    constructor
    · rintro ⟨ix, ⟨n, rfl, hn, hix⟩, rfl⟩
      obtain ⟨hvault, hwindow⟩ := haddresses n rfl hn
      rw [hvault, Throws.ok_bind, hwindow, Throws.ok_bind] at hix
      exact ⟨⟨n, rfl, hn⟩, ix, hix, rfl⟩
    · rintro ⟨⟨n, rfl, hn⟩, ix, hix, rfl⟩
      obtain ⟨hvault, hwindow⟩ := haddresses n rfl hn
      refine ⟨ix, ⟨n, rfl, hn, ?_⟩, rfl⟩
      rw [hvault, Throws.ok_bind, hwindow, Throws.ok_bind]
      exact hix
  | seedVault accounts amount health =>
    refine ⟨⟨[], accounts.set [("vault", vault), ("authority", authority),
      ("quoteMint", state.quoteMint), ("shareMint", state.shareMint),
      ("token2022Program", TOKEN_2022_PROGRAM_ID),
      ("associatedTokenProgram", ASSOCIATED_TOKEN_PROGRAM_ID),
      ("systemProgram", PublicKey.default)], health⟩, BuilderSpec.asks_of_completed
      (fun item hitem hsigner key hkey => ?_) Iff.rfl (fun _ hix => (List.not_mem_nil hix).elim)
      .refl fun ixs => ?_⟩
    · rw [path_of_seedVault item hitem hsigner] at hkey
      exact hkey
    · simp only [build, singleton_map_eq_ok, FlpV4Client.seedVault, requireV4_bind_eq_ok, hauthority,
        Throws.ok_bind, uintAmount_bind_eq_ok, spec, IsAmount, and_assoc, exists_and_left]
      exact Iff.rfl
  | initFermiAccount admin coreProgram perps orders =>
    obtain ⟨account, haccount⟩ :=
      hfinds.fermiAccount coreProgram state.group authority state.vaultId
    refine ⟨⟨[], .of [("vault", vault), ("authority", authority), ("admin", admin),
      ("fermi.group", state.group), ("fermi.fermiAccount", account),
      ("fermi.fermiProgram", coreProgram), ("recoveryTargets", targets),
      ("systemProgram", PublicKey.default)], []⟩,
      BuilderSpec.asks_of_listed (path_of_capacity initFermiAccountV4Method (by simp)) rfl
      (by rintro _ ⟨⟩; rfl) trivial (fun _ hix => (List.not_mem_nil hix).elim) .refl fun ixs => ?_⟩
    simp only [build, singleton_map_eq_ok, FlpV4Client.initFermiAccount, requireV4_bind_eq_ok,
      capacity_bind_eq_ok, throwIf_bind_eq_ok, not_not, hauthority, haccount, htargets,
      Throws.ok_bind, spec, and_assoc, exists_and_left]
    exact Iff.rfl
  | expandMarketCapacity admin coreProgram perps orders =>
    refine ⟨⟨[], .of [("vault", vault), ("authority", authority), ("admin", admin),
      ("fermi.group", state.group), ("fermi.fermiAccount", state.fermiAccount),
      ("fermi.fermiProgram", coreProgram), ("recoveryTargets", targets),
      ("systemProgram", PublicKey.default)], []⟩,
      BuilderSpec.asks_of_listed (path_of_capacity expandMarketCapacityMethod (by simp)) rfl
      (by rintro _ ⟨⟩; rfl) trivial (fun _ hix => (List.not_mem_nil hix).elim) .refl fun ixs => ?_⟩
    simp only [build, singleton_map_eq_ok, FlpV4Client.expandMarketCapacity, requireV4_bind_eq_ok,
      capacity_bind_eq_ok, throwIf_bind_eq_ok, Bool.not_eq_true, hauthority, htargets,
      Throws.ok_bind, spec, and_assoc, exists_and_left]
    exact Iff.rfl
  | triggerUnwind signer coreProgram markets full head =>
    obtain ⟨addresses, haddresses⟩ := hfinds.flow client.programId vault state
    obtain ⟨sidecar, hsidecar⟩ := @exists_recoveryMetas rt client vault targets htargets true
    have hrest : Unsigned ((triggerUnwind signer coreProgram markets full head).spec state).given
        (recoveryMarketMetas markets ++ sidecar) :=
      unsigned_recoveryMarketMetas.append (unsigned_recoveryMetas hsidecar)
    cases head with
    | none =>
      refine @asked_of_trigger rt spl client vault state (.triggerUnwind signer coreProgram markets full
        none) addresses coreProgram signer client.programId _ (by simp [spec]) rfl trivial hrest
        fun ixs => ?_
      simp only [build, FlpV4Client.triggerUnwind, singleton_map_eq_ok,
        flowAccounts_bind_eq_ok haddresses, pure_bind, hsidecar, Throws.ok_bind, spec,
        reduceCtorEq, false_imp_iff, implies_true, and_true, and_assoc, exists_and_left]
      exact Iff.rfl
    | some epoch =>
      obtain ⟨record, hrecord⟩ := hfinds.epochRecord client.programId vault epoch
      refine @asked_of_trigger rt spl client vault state (.triggerUnwind signer coreProgram markets full
        (some epoch)) addresses coreProgram signer record _ (by simp [spec]) rfl trivial hrest
        fun ixs => ?_
      simp only [build, FlpV4Client.triggerUnwind, singleton_map_eq_ok,
        flowAccounts_bind_eq_ok haddresses, Throws.bind_eq_ok, hrecord, hsidecar, Except.ok.injEq,
        exists_eq_left', spec, Option.some_inj, forall_eq', and_assoc, exists_and_left,
        exists_eq_left]
      exact Iff.rfl
  | triggerPartialUnwind signer coreProgram markets fractionBps =>
    obtain ⟨addresses, haddresses⟩ := hfinds.flow client.programId vault state
    obtain ⟨sidecar, hsidecar⟩ := @exists_recoveryMetas rt client vault targets htargets true
    refine @asked_of_trigger rt spl client vault state (.triggerPartialUnwind signer coreProgram markets
      fractionBps) addresses coreProgram signer client.programId
      (recoveryMarketMetas markets ++ sidecar) (by simp [spec]) rfl
      trivial (unsigned_recoveryMarketMetas.append (unsigned_recoveryMetas hsidecar)) fun ixs => ?_
    simp only [build, FlpV4Client.triggerPartialUnwind, singleton_map_eq_ok, throwIf_bind_eq_ok,
      flowAccounts_bind_eq_ok haddresses, uint_number_bind_eq_ok (by decide : 16 ≤ 32), hsidecar,
      Throws.ok_bind, not_or, Bool.not_eq_true]
    constructor
    · rintro ⟨ix, ⟨⟨hbelow, habove⟩, hversion, n, rfl, -, hix⟩, rfl⟩
      simp only [JsNumber.below, JsNumber.above, decide_eq_false_iff_not, not_lt] at hbelow habove
      exact ⟨⟨hversion, n, rfl, hbelow, habove⟩, ix, hix, rfl⟩
    · rintro ⟨⟨hversion, n, rfl, hmin, hmax⟩, ix, hix, rfl⟩
      refine ⟨ix, ⟨⟨?_, ?_⟩, hversion, n, rfl, ⟨by omega, by omega⟩, hix⟩, rfl⟩
      · simpa only [JsNumber.below, decide_eq_false_iff_not, not_lt] using hmin
      · simpa only [JsNumber.above, decide_eq_false_iff_not, not_lt] using hmax
  | rescueForeignToken admin mint amount =>
    obtain ⟨source, hsource⟩ := hfinds.token mint authority TOKEN_PROGRAM_ID
    obtain ⟨destination, hdestination⟩ := hfinds.token mint admin TOKEN_PROGRAM_ID
    refine ⟨⟨[spl.createAssociatedTokenAccountIdempotentInstruction admin destination admin mint
      TOKEN_PROGRAM_ID], .of [("vault", vault), ("authority", authority), ("admin", admin),
      ("mint", mint), ("source", source), ("destination", destination),
      ("tokenProgram", TOKEN_PROGRAM_ID)], []⟩, BuilderSpec.asks_of_listed path_of_rescue rfl
      (by rintro _ ⟨⟩; rfl) trivial (fun ix hix key hkey hsigner => ?_) .refl fun ixs => ?_⟩
    · rw [List.mem_singleton.1 hix] at hkey
      exact (hspl.within _ _ _ _ _ key hkey).1 hsigner
    · simp only [build, FlpV4Client.rescueForeignTokenInstructions, FlpV4Client.requireForeignMint,
        hauthority, hsource, hdestination, Throws.ok_bind, Throws.bind_eq_ok, Throws.throwIf_eq_ok,
        exists_const, not_or, uint_eq_ok, Throws.pure_eq_ok, @eq_comm _ _ ixs]
      constructor
      · rintro ⟨hmint, _, ⟨hrange, rfl⟩, hpositive, ix, hix, rfl⟩
        exact ⟨⟨hmint.1, hmint.2, hrange, hpositive⟩, ix, hix, rfl⟩
      · rintro ⟨⟨hquote, hshare, hrange, hpositive⟩, ix, hix, rfl⟩
        exact ⟨⟨hquote, hshare⟩, amount, ⟨hrange, rfl⟩, hpositive, ix, hix, rfl⟩
  | clearForeignCoreToken admin coreProgram mint bank bankVault oracle health =>
    obtain ⟨destination, hdestination⟩ := hfinds.token mint authority TOKEN_PROGRAM_ID
    refine ⟨⟨[spl.createAssociatedTokenAccountIdempotentInstruction admin destination authority mint
      TOKEN_PROGRAM_ID], .of [("vault", vault), ("authority", authority), ("admin", admin),
      ("mint", mint), ("bank", bank), ("bankVault", bankVault), ("oracle", oracle),
      ("destination", destination), ("fermi.group", state.group),
      ("fermi.fermiAccount", state.fermiAccount), ("fermi.fermiProgram", coreProgram),
      ("tokenProgram", TOKEN_PROGRAM_ID)], health⟩, BuilderSpec.asks_of_listed path_of_clear rfl
      (by rintro _ ⟨⟩; rfl) trivial (fun ix hix key hkey hsigner => ?_) .refl fun ixs => ?_⟩
    · rw [List.mem_singleton.1 hix] at hkey
      exact (hspl.within _ _ _ _ _ key hkey).1 hsigner
    · simp only [build, FlpV4Client.clearForeignCoreTokenInstructions, FlpV4Client.requireForeignMint,
        hauthority, hdestination, Throws.ok_bind, Throws.bind_eq_ok, Throws.throwIf_eq_ok,
        exists_const, not_or, Throws.pure_eq_ok, @eq_comm _ _ ixs]
      exact Iff.rfl

/-- **The builders of the admin build what they are for.** -/
theorem admin_instructions (hcoder : client.coder.Lawful rt FLP_V4_METHODS) (hspl : spl.Lawful)
    (hfinds : FindsAddresses rt spl) :
    (action.spec state).Meets client.coder client.programId
      (action.build rt spl client vault state) := by
  obtain ⟨request, hrequest⟩ := @asked rt spl client vault state action hcoder hspl hfinds
  exact hrequest.meets (find?_method state action) fun _ _ => rfl

end

end AdminAction

/-! ## The funding window -/

theorem maxEquityWindowSeconds_eq_ok {epochDurationS : JsNumber} {window : Nat} :
    maxEquityWindowSeconds epochDurationS = .ok window ↔
      ∃ n : Nat, epochDurationS = .int n ∧ n < 2 ^ 32 ∧ max 7200 (n / 4) = window := by
  unfold maxEquityWindowSeconds MAX_EQUITY_WINDOW_S MAX_EQUITY_WINDOW_EPOCH_DIVISOR
  simp only [checkUnsigned_bind_eq_ok (by decide : 32 ≤ 32), Throws.pure_eq_ok]
  constructor
  · rintro ⟨n, rfl, hn, rfl⟩
    exact ⟨n.toNat, by rw [Int.toNat_of_nonneg hn.1], by omega, rfl⟩
  · rintro ⟨n, rfl, hn, rfl⟩
    exact ⟨n, rfl, by omega, rfl⟩

/-- The window of a vault that has never been given one is allowed for every duration. -/
theorem MIN_EQUITY_WINDOW_S_le {epochDurationS : JsNumber} {window : Nat}
    (h : maxEquityWindowSeconds epochDurationS = .ok window) :
    MIN_EQUITY_WINDOW_S.toNat ≤ window := by
  obtain ⟨n, -, -, rfl⟩ := maxEquityWindowSeconds_eq_ok.1 h
  exact le_max_of_le_left (by decide)

/-! ## A recorded recovery -/

def RecordedRequest.client : FlpV4Client :=
  { RecordedFlow.client with coder := .documented RecordedRequest.runtime FLP_V4_METHODS }

open RecordedExtension RecordedFlow RecordedRequest in
theorem admin_instructions_recorded : ∃ ix, RecordedRequest.client.triggerUnwind
    RecordedRequest.runtime vault state user (key 3) [] true none = .ok ix ∧
    ∀ account ∈ ix.keys, account.isSigner → account.pubkey = user := by
  have hbuilder := @AdminAction.admin_instructions RecordedRequest.runtime
    (.ofRuntime RecordedRequest.runtime) RecordedRequest.client vault state
    (.triggerUnwind user (key 3) [] true none) (BorshCoder.documented_lawful _ _)
    (SplToken.ofRuntime_lawful _) findsAddresses
  have hdata := (BorshCoder.documented_lawful RecordedRequest.runtime FLP_V4_METHODS).encode
    triggerUnwindMethod "triggerUnwind" (.of [("full", .bool true)]) [1] rfl rfl
  obtain ⟨ixs, hixs⟩ := hbuilder.succeeds.2
    ⟨⟨rfl, fun _ hepoch => (Option.some_ne_none _ hepoch.symm).elim⟩, trivial, _, hdata⟩
  obtain ⟨ix, hix, rfl⟩ := singleton_map_eq_ok.1 hixs
  obtain ⟨-, -, -, -, -, hsigners⟩ := hbuilder.asked _ hixs
  refine ⟨ix, hix, fun key hkey hsigner => ?_⟩
  exact (hsigners ix (List.mem_singleton.2 rfl) key hkey hsigner).resolve_right List.not_mem_nil

end FermiSdk
