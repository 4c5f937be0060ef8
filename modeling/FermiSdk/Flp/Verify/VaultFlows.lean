import FermiSdk.Flp.Verify.AdminFlows

/-!
# What is done to a vault of version 3

The builders of `FlpClient` that are not the users' own: priced deposits and withdrawals of approved
wallets, the roles, the breaker, the recovery and the capacity of the vault's account. As those of
version 4, each asks for one instruction that nobody but its role signs (`vault_instructions`).
-/

namespace FermiSdk

open FermiSdk.Lib

/-- What is done to a vault of version 3, with what the caller passes. -/
inductive VaultAction where
  | permissionedDeposit (user : PublicKey) (amount minShares : Int) (pricing : NamedAccounts)
    (health : List AccountMeta)
  | permissionedWithdraw (user : PublicKey) (shares minQuote : Int) (pricing : NamedAccounts)
    (health : List AccountMeta)
  | graduate (admin : PublicKey) (pricing : NamedAccounts) (health : List AccountMeta)
  | setDepositPermission (admin user : PublicKey) (approved : Bool)
  | checkBreaker (accounts : NamedAccounts) (health : List AccountMeta)
  | resetBreaker (admin : PublicKey) (accounts : NamedAccounts) (health : List AccountMeta)
  | abortUnwind (admin : PublicKey)
  | cureDeferred (signer : PublicKey) (accounts : NamedAccounts) (health : List AccountMeta)
  | triggerUnwind (signer coreProgram : PublicKey) (markets : List RecoveryMarket) (full : Bool)
    (head : Option Int)
  | triggerPartialUnwind (signer coreProgram : PublicKey) (markets : List RecoveryMarket)
    (fractionBps : JsNumber)
  | initFermiAccount (admin coreProgram : PublicKey) (perps orders : JsNumber)
  | expandMarketCapacity (admin coreProgram : PublicKey) (perps orders : JsNumber)
  | deactivatePerpPosition (perpMarket coreProgram : PublicKey)
  | applyParams (admin : PublicKey) (pricing : Option (NamedAccounts × List AccountMeta))
  | recoverToken (buyer mint : PublicKey) (amount maxQuote : Int) (accounts : NamedAccounts)
    (health : List AccountMeta)

namespace VaultAction

/-- The builder of `FlpClient` for an action. -/
def build (rt : Runtime) (spl : SplToken) (client : FlpClient) (vault : PublicKey)
    (state : VaultState) : VaultAction → Throws (List TransactionInstruction)
  | .permissionedDeposit user amount minShares pricing health =>
    client.permissionedDepositInstructions rt spl vault state user amount minShares pricing health
  | .permissionedWithdraw user shares minQuote pricing health =>
    ([·]) <$> client.permissionedWithdraw rt spl vault state user shares minQuote pricing health
  | .graduate admin pricing health => ([·]) <$> client.graduate vault state admin pricing health
  | .setDepositPermission admin user approved =>
    ([·]) <$> client.setDepositPermission rt vault admin user approved
  | .checkBreaker accounts health =>
    ([·.1]) <$> client.checkBreaker rt vault state accounts health
  | .resetBreaker admin accounts health =>
    ([·.1]) <$> client.resetBreaker rt vault state admin accounts health
  | .abortUnwind admin => ([·]) <$> client.abortUnwind rt vault state admin
  | .cureDeferred signer accounts health =>
    ([·.1]) <$> client.cureDeferred rt vault state signer accounts health
  | .triggerUnwind signer coreProgram markets full head =>
    ([·]) <$> client.triggerUnwind rt vault state signer coreProgram markets full head
  | .triggerPartialUnwind signer coreProgram markets fractionBps =>
    ([·]) <$> client.triggerPartialUnwind rt vault state signer coreProgram markets fractionBps
  | .initFermiAccount admin coreProgram perps orders =>
    ([·]) <$> client.initFermiAccountV4 rt vault state admin coreProgram perps orders
  | .expandMarketCapacity admin coreProgram perps orders =>
    ([·]) <$> client.expandMarketCapacity rt vault state admin coreProgram perps orders
  | .deactivatePerpPosition perpMarket coreProgram =>
    ([·]) <$> client.deactivatePerpPosition rt vault state perpMarket coreProgram
  | .applyParams admin pricing => ([·]) <$> client.applyParams vault admin pricing
  | .recoverToken buyer mint amount maxQuote accounts health =>
    client.recoverTokenInstructions rt spl vault state buyer mint amount maxQuote accounts health

/-- What the builder of an action is for. -/
def spec (state : VaultState) : VaultAction → BuilderSpec
  | .permissionedDeposit user amount minShares pricing health => {
    method := permissionedDepositMethod
    args := .of [("amount", .bn amount), ("minShares", .bn minShares)]
    signers := {user}
    given := health
    Allowed := (state.version = 3 ∧ hasFlag state.status (STATUS_DEPOSITS_PAUSED |||
      STATUS_BREAKER ||| STATUS_UNWIND ||| STATUS_CLOSED) = false) ∧
      IsAmount amount ∧ IsAmount minShares
    Named := Supplied permissionedDepositMethod ["vault", "depositor", "user", "userQuoteAccount",
      "userShareAccount", "depositEscrow"] pricing }
  | .permissionedWithdraw user shares minQuote pricing health => {
    method := permissionedWithdrawMethod
    args := .of [("shares", .bn shares), ("minQuote", .bn minQuote)]
    signers := {user}
    given := health
    Allowed := (state.version = 3 ∧ vaultMode state.status = .preDeposit ∧
      hasFlag state.status (STATUS_BREAKER ||| STATUS_UNWIND) = false) ∧
      hasFlag state.status STATUS_WITHDRAWALS_PAUSED = false ∧ state.deferredHead = NONE_EPOCH ∧
      IsAmount shares ∧ IsAmount minQuote
    Named := Supplied permissionedWithdrawMethod ["vault", "depositor", "user", "userQuoteAccount",
      "userShareAccount"] pricing }
  | .graduate admin pricing health => {
    method := graduateMethod
    signers := {admin}
    given := health
    Allowed := (state.version = 3 ∧ vaultMode state.status = .preDeposit) ∧
      hasFlag state.status STATUS_WITHDRAWALS_PAUSED = false
    Named := Supplied graduateMethod ["vault", "admin", "depositEscrow"] pricing }
  | .setDepositPermission admin _ approved => {
    method := setDepositPermissionMethod
    args := .of [("approved", .bool approved)]
    signers := {admin} }
  | .checkBreaker accounts health => {
    method := checkBreakerMethod
    signers := ∅
    given := health
    Named := Supplied checkBreakerMethod ["vault", "shareMint"] accounts }
  | .resetBreaker admin accounts health => {
    method := resetBreakerMethod
    signers := {admin}
    given := health
    Named := Supplied resetBreakerMethod ["vault", "admin", "shareMint"] accounts }
  | .abortUnwind admin => {
    method := abortUnwindMethod
    signers := {admin}
    Allowed := hasFlag state.status STATUS_UNWIND = true ∧
      hasFlag state.status STATUS_CLOSED = false }
  | .cureDeferred signer accounts health => {
    method := cureDeferredMethod
    signers := {signer}
    given := health
    Allowed := state.deferredHead ≠ NONE_EPOCH ∧
      hasFlag state.status (STATUS_UNWIND ||| STATUS_CLOSED) = false
    Named := Supplied cureDeferredMethod ["vault", "signer", "headRecord", "redemptionEscrow",
      "shareMint"] accounts }
  | .triggerUnwind signer _ _ full head => {
    method := triggerUnwindMethod
    args := .of [("full", .bool full)]
    signers := {signer}
    Allowed := hasFlag state.status STATUS_CLOSED = false ∧
      ∀ epoch, head = some epoch → IsAmount epoch }
  | .triggerPartialUnwind signer _ _ fractionBps => {
    method := triggerPartialUnwindMethod
    args := .of [("fractionBps", .number fractionBps)]
    signers := {signer}
    Allowed := (∃ n : Int, fractionBps = .int n ∧ 1 ≤ n ∧ n ≤ 10000) ∧
      hasFlag state.status (STATUS_UNWIND ||| STATUS_CLOSED) = false }
  | .initFermiAccount admin _ perps orders => {
    method := initFermiAccountV4Method
    args := .of [("perpCount", .number perps), ("perpOoCount", .number orders),
      ("tokenCount", .number (.int 1))]
    signers := {admin}
    Allowed := Capacity perps orders false ∧ state.fermiAccount = PublicKey.default }
  | .expandMarketCapacity admin _ perps orders => {
    method := expandMarketCapacityMethod
    args := .of [("perpCount", .number perps), ("perpOoCount", .number orders)]
    signers := {admin}
    Allowed := Capacity perps orders false ∧
      hasFlag state.status (STATUS_UNWIND ||| STATUS_CLOSED) = false }
  | .deactivatePerpPosition _ _ => {
    method := deactivatePerpPositionMethod
    signers := ∅ }
  | .applyParams admin pricing => {
    method := applyParamsMethod
    signers := {admin}
    given := (pricing.map Prod.snd).getD []
    Allowed := ∀ accounts health, pricing = some (accounts, health) →
      Names accounts pricingNames }
  | .recoverToken buyer _ amount maxQuote accounts health => {
    method := recoverTokenMethod
    args := .of [("amount", .bn amount), ("maxQuote", .bn maxQuote)]
    signers := {buyer}
    given := health
    Allowed := (hasFlag state.status STATUS_UNWIND = true ∧ state.unwind.mode = 2) ∧
      IsAmount amount ∧ IsAmount maxQuote
    Named := Supplied recoverTokenMethod ["vault", "authority", "buyer", "buyerQuoteAccount",
      "buyerTokenAccount", "idleAccount"] accounts }

theorem find?_method (state : VaultState) (action : VaultAction) :
    (FLP_METHODS.find? fun method => method.name = (action.spec state).method.name) =
      some (action.spec state).method := by
  cases action <;> rfl

/-! ## The accounts of the instructions -/

/-- The instructions on accounts that the caller names, with the account that signs. -/
def roleMethods : List (IdlInstruction × String) := [
  (permissionedDepositMethod, "user"), (permissionedWithdrawMethod, "user"),
  (graduateMethod, "admin"), (resetBreakerMethod, "admin"),
  (cureDeferredMethod, "signer"), (recoverTokenMethod, "buyer")]

theorem path_of_role : ∀ entry ∈ roleMethods, ∀ item ∈ entry.1.paths,
    item.isSigner = true → item.path = entry.2 := by
  decide

theorem path_of_start : ∀ method ∈ [triggerUnwindMethod, triggerPartialUnwindMethod],
    ∀ item ∈ method.paths, item.path ∈ ["vault", "authority", "fermi.group", "fermi.fermiAccount",
      "fermi.fermiProgram", "shareMint", "deferredRecord", "signer"] ∧
    (item.isSigner = true → item.path = "signer") := by
  decide

theorem path_of_deactivate : ∀ item ∈ deactivatePerpPositionMethod.paths,
    item.path ∈ ["vault", "authority", "fermi.group", "fermi.fermiAccount", "fermi.fermiProgram",
      "perpMarket"] ∧ (item.isSigner = true → item.path = "signer") := by
  decide

theorem exists_pricing : ∀ name ∈ pricingNames, ∃ item ∈ pricing.visit "", item.path = name := by
  decide

theorem isSigner_pricing : ∀ item ∈ pricing.visit "", item.isSigner = false := by
  decide

/-! ## The builders -/

section

variable {rt : Runtime} {spl : SplToken} {client : FlpClient} {vault : PublicKey}
  {state : VaultState} {action : VaultAction}

/-- The builder of an action makes a request. -/
def Asked (rt : Runtime) (spl : SplToken) (client : FlpClient) (vault : PublicKey)
    (state : VaultState) (action : VaultAction) : Prop :=
  ∃ request, (action.spec state).Asks
    (fun accounts rest => client.instruction (action.spec state).method.name accounts
      (action.spec state).args rest)
    (action.build rt spl client vault state) request

/-- An action on accounts that the caller names, which one role signs. -/
theorem asked_of_role {role : String} {signer : PublicKey} {accounts : NamedAccounts}
    {own : List (String × PublicKey)} {preparation : List TransactionInstruction}
    {rest : List AccountMeta} (hmethod : ((action.spec state).method, role) ∈ roleMethods)
    (hrole : own.lookup role = some signer) (hsigners : (action.spec state).signers = {signer})
    (hnamed : (action.spec state).Named ↔
      Supplied (action.spec state).method (own.map Prod.fst) accounts)
    (hpreparation : ∀ ix ∈ preparation, ∀ key ∈ ix.keys, key.isSigner → key.pubkey = signer)
    (hrest : Unsigned (action.spec state).given rest)
    (hbuilt : ∀ ixs, action.build rt spl client vault state = .ok ixs ↔
      (action.spec state).Allowed ∧ ∃ ix, client.instruction (action.spec state).method.name
        (accounts.set own) (action.spec state).args rest = .ok ix ∧ ixs = preparation ++ [ix]) :
    action.Asked rt spl client vault state := by
  refine ⟨_, BuilderSpec.asks_of_completed (fun item hitem hsigner key hkey => ?_) hnamed ?_ hrest
    hbuilt⟩
  · rw [path_of_role _ hmethod item hitem hsigner, NamedAccounts.set, hrole] at hkey
    rw [hsigners, ← Option.some.inj hkey]
    rfl
  · rw [hsigners]
    exact hpreparation

/-- The start of a recovery. -/
theorem asked_of_start {authority coreProgram signer record : PublicKey} {rest : List AccountMeta}
    (hmethod : (action.spec state).method ∈ [triggerUnwindMethod, triggerPartialUnwindMethod])
    (hsigners : (action.spec state).signers = {signer}) (hnamed : (action.spec state).Named)
    (hrest : Unsigned (action.spec state).given rest)
    (hbuilt : ∀ ixs, action.build rt spl client vault state = .ok ixs ↔
      (action.spec state).Allowed ∧ ∃ ix, client.instruction (action.spec state).method.name (.of [
        ("vault", vault), ("authority", authority), ("fermi.group", state.group),
        ("fermi.fermiAccount", state.fermiAccount), ("fermi.fermiProgram", coreProgram),
        ("shareMint", state.shareMint), ("deferredRecord", record), ("signer", signer)])
        (action.spec state).args rest = .ok ix ∧ ixs = [ix]) :
    action.Asked rt spl client vault state := by
  refine ⟨_, BuilderSpec.asks_of_listed (path_of_start _ hmethod) rfl (fun key hkey => ?_) hnamed
    (fun _ hix => (List.not_mem_nil hix).elim) hrest hbuilt⟩
  rw [hsigners]
  cases hkey
  rfl

/-- Both clients allow the same counts, except that the first allocation of version 4 has a bound. -/
theorem marketCapacity_bind_eq_ok {α : Type} {perps orders : JsNumber} {f : Unit → Throws α} {b : α} :
    (FlpClient.marketCapacity perps orders >>= f) = .ok b ↔
      Capacity perps orders false ∧ f () = .ok b := by
  have hcapacity : FlpClient.marketCapacity perps orders = .ok () ↔ Capacity perps orders false := by
    unfold FlpClient.marketCapacity MAX_VAULT_PERPS
    simp only [checkUnsigned_bind_eq_ok (by decide : 8 ≤ 32), Throws.throwIf_eq_ok]
    constructor
    · rintro ⟨p, rfl, hp, o, rfl, ho, hrange⟩
      exact ⟨p, o, rfl, rfl, by omega, by omega, fun h => (Bool.false_ne_true h).elim⟩
    · rintro ⟨p, o, rfl, rfl, hp, ho, -⟩
      exact ⟨p, rfl, by omega, o, rfl, by omega, by omega⟩
  rw [← hcapacity, Throws.bind_eq_ok]
  constructor
  · rintro ⟨_, h⟩
    exact h
  · intro h
    exact ⟨(), h⟩

theorem unsigned_sidecar {targets : PublicKey} {given : List AccountMeta}
    (htargets : deriveRecoveryTargets rt client.programId vault = .ok targets) (writable : Bool) :
    ∃ sidecar, client.recoveryMetas rt vault state.toVaultAccount writable = .ok sidecar ∧
      Unsigned given sidecar := by
  unfold FlpClient.recoveryMetas recoverySidecar
  rw [htargets]
  split
  · refine ⟨_, rfl, fun key hkey => ?_⟩
    rw [List.mem_singleton.1 hkey]
    exact .inr rfl
  · exact ⟨[], rfl, fun _ hkey => (List.not_mem_nil hkey).elim⟩

theorem unsigned_queued {health : List AccountMeta} :
    Unsigned health (client.withEventQueues rt health).1 :=
  Unsigned.refl.append fun key hkey => .inr (isSigner_queueMetas _ _ _ key hkey)

/-- The accounts for pricing do not sign. -/
theorem unsigned_pricingMetas {accounts : NamedAccounts} {metas given : List AccountMeta}
    (h : FlpClient.pricingMetas accounts = .ok metas) : Unsigned given metas := by
  intro key hkey
  obtain ⟨item, hitem, hmeta⟩ := (Throws.mem_mapM h).1 hkey
  cases hnamed : accounts item.path with
  | none => simp [hnamed] at hmeta
  | some pubkey =>
    simp only [hnamed, Throws.pure_eq_ok] at hmeta
    exact .inr (hmeta ▸ isSigner_pricing item hitem)

theorem exists_pricingMetas_iff {accounts : NamedAccounts} :
    (∃ metas, FlpClient.pricingMetas accounts = .ok metas) ↔ Names accounts pricingNames := by
  refine ⟨fun ⟨metas, hmetas⟩ name hname => ?_, exists_pricingMetas⟩
  obtain ⟨item, hitem, rfl⟩ := exists_pricing name hname
  obtain ⟨key, hkey⟩ := Throws.exists_of_mapM hmetas item hitem
  cases hnamed : accounts item.path with
  | none => simp [hnamed] at hkey
  | some pubkey => rfl

/-- What is built together with the queues that the client has learnt. -/
theorem queued_map_eq_ok {instruction : Throws TransactionInstruction} {client' : FlpClient}
    {ixs : List TransactionInstruction} :
    ([·.1]) <$> (do
      let ix ← instruction
      pure (ix, client') : Throws (TransactionInstruction × FlpClient)) = .ok ixs ↔
      ∃ ix, instruction = .ok ix ∧ ixs = [ix] := by
  cases instruction with
  | error e => simp
  | ok ix => simp [eq_comm]

/-- **Every builder of version 3 asks for one instruction.** -/
theorem asked (hspl : spl.Lawful) (hfinds : FindsAddresses rt spl) :
    action.Asked rt spl client vault state := by
  obtain ⟨authority, hauthority⟩ := hfinds.authority client.programId vault
  obtain ⟨targets, htargets⟩ := hfinds.recoveryTargets client.programId vault
  cases action with
  | permissionedDeposit user amount minShares pricing health =>
    obtain ⟨depositor, hdepositor⟩ := hfinds.depositor client.programId vault user
    obtain ⟨quote, hquote⟩ := hfinds.token state.quoteMint user TOKEN_PROGRAM_ID
    obtain ⟨share, hshare⟩ := hfinds.token state.shareMint user TOKEN_2022_PROGRAM_ID
    refine @asked_of_role rt spl client vault state
      (.permissionedDeposit user amount minShares pricing health) "user" user pricing
      [("vault", vault), ("depositor", depositor), ("user", user), ("userQuoteAccount", quote),
      ("userShareAccount", share), ("depositEscrow", state.depositEscrow)]
      [spl.createAssociatedTokenAccountIdempotentInstruction user share user state.shareMint
        TOKEN_2022_PROGRAM_ID] health (by simp [spec, roleMethods]) rfl rfl Iff.rfl
      (fun ix hix key hkey hsigner => ?_) .refl fun ixs => ?_
    · rw [List.mem_singleton.1 hix] at hkey
      exact (hspl.within _ _ _ _ _ key hkey).1 hsigner
    · simp only [build, FlpClient.permissionedDepositInstructions, throwIf_bind_eq_ok,
        unsignedAmount_bind_eq_ok, FlpClient.shareAtaInstructions, hshare, hdepositor, hquote,
        Throws.ok_bind, pure_bind, not_or, not_not, Bool.not_eq_true, spec, IsAmount]
      simp only [Throws.bind_eq_ok, Throws.pure_eq_ok, @eq_comm _ _ ixs, and_assoc]
      exact Iff.rfl
  | permissionedWithdraw user shares minQuote pricing health =>
    obtain ⟨depositor, hdepositor⟩ := hfinds.depositor client.programId vault user
    obtain ⟨quote, hquote⟩ := hfinds.token state.quoteMint user TOKEN_PROGRAM_ID
    obtain ⟨share, hshare⟩ := hfinds.token state.shareMint user TOKEN_2022_PROGRAM_ID
    refine @asked_of_role rt spl client vault state
      (.permissionedWithdraw user shares minQuote pricing health) "user" user pricing
      [("vault", vault), ("depositor", depositor), ("user", user), ("userQuoteAccount", quote),
      ("userShareAccount", share)] [] health (by simp [spec, roleMethods]) rfl rfl Iff.rfl
      (fun _ hix => (List.not_mem_nil hix).elim) .refl fun ixs => ?_
    simp only [build, singleton_map_eq_ok, FlpClient.permissionedWithdraw, throwIf_bind_eq_ok,
      unsignedAmount_bind_eq_ok, hshare, hdepositor, hquote, Throws.ok_bind, not_or, not_not,
      Bool.not_eq_true, spec, IsAmount, and_assoc, exists_and_left]
    exact Iff.rfl
  | graduate admin pricing health =>
    refine @asked_of_role rt spl client vault state (.graduate admin pricing health) "admin" admin
      pricing [("vault", vault), ("admin", admin), ("depositEscrow", state.depositEscrow)] [] health
      (by simp [spec, roleMethods]) rfl rfl Iff.rfl (fun _ hix => (List.not_mem_nil hix).elim) .refl
      fun ixs => ?_
    simp only [build, singleton_map_eq_ok, FlpClient.graduate, throwIf_bind_eq_ok, not_or, not_not,
      Bool.not_eq_true, spec, and_assoc, exists_and_left]
    exact Iff.rfl
  | setDepositPermission admin user approved =>
    obtain ⟨depositor, hdepositor⟩ := hfinds.depositor client.programId vault user
    refine ⟨⟨[], .of [("vault", vault), ("admin", admin), ("user", user), ("depositor", depositor),
      ("systemProgram", PublicKey.default)], []⟩, BuilderSpec.asks_of_listed
      AdminAction.path_of_setDepositPermission rfl (by rintro _ ⟨⟩; rfl) trivial
      (fun _ hix => (List.not_mem_nil hix).elim) .refl fun ixs => ?_⟩
    simp only [build, singleton_map_eq_ok, FlpClient.setDepositPermission, hdepositor,
      Throws.ok_bind]
    exact (and_iff_right trivial).symm
  | checkBreaker accounts health =>
    refine ⟨⟨[], accounts.set [("vault", vault), ("shareMint", state.shareMint)],
      (client.withEventQueues rt health).1⟩, BuilderSpec.asks_of_completed
      (fun item hitem hsigner => ?_) Iff.rfl (fun _ hix => (List.not_mem_nil hix).elim)
      unsigned_queued fun ixs => ?_⟩
    · rw [isSigner_permissionless checkBreakerMethod (by simp) item hitem] at hsigner
      cases hsigner
    · simp only [build, FlpClient.checkBreaker, queued_map_eq_ok]
      exact (and_iff_right trivial).symm
  | resetBreaker admin accounts health =>
    refine @asked_of_role rt spl client vault state (.resetBreaker admin accounts health) "admin"
      admin accounts [("vault", vault), ("admin", admin), ("shareMint", state.shareMint)] []
      (client.withEventQueues rt health).1 (by simp [spec, roleMethods]) rfl rfl Iff.rfl
      (fun _ hix => (List.not_mem_nil hix).elim) unsigned_queued fun ixs => ?_
    simp only [build, FlpClient.resetBreaker, queued_map_eq_ok]
    exact (and_iff_right trivial).symm
  | abortUnwind admin =>
    obtain ⟨sidecar, hsidecar, hrest⟩ :=
      @unsigned_sidecar rt client vault state targets [] htargets true
    refine ⟨⟨[], .of [("vault", vault), ("admin", admin)], sidecar⟩, BuilderSpec.asks_of_listed
      (AdminAction.path_of_plain (abortUnwindMethod, "admin") (by simp [AdminAction.plainMethods]))
      rfl (by rintro _ ⟨⟩; rfl) trivial (fun _ hix => (List.not_mem_nil hix).elim) hrest
      fun ixs => ?_⟩
    simp only [build, singleton_map_eq_ok, FlpClient.abortUnwind, throwIf_bind_eq_ok, hsidecar,
      Throws.ok_bind, not_or, Bool.not_eq_true', Bool.not_eq_false, Bool.not_eq_true, spec,
      and_assoc, exists_and_left]
    exact Iff.rfl
  | cureDeferred signer accounts health =>
    have hlt := state.deferredHead.toNat_lt
    obtain ⟨record, hrecord⟩ :=
      hfinds.epochRecord client.programId vault state.deferredHead.toNat
    have hhead := (hrecord record).2 ⟨⟨by omega, by omega⟩, rfl⟩
    refine @asked_of_role rt spl client vault state (.cureDeferred signer accounts health) "signer"
      signer accounts [("vault", vault), ("signer", signer), ("headRecord", record),
      ("redemptionEscrow", state.redemptionEscrow), ("shareMint", state.shareMint)] []
      (client.withEventQueues rt health).1 (by simp [spec, roleMethods]) rfl rfl Iff.rfl
      (fun _ hix => (List.not_mem_nil hix).elim) unsigned_queued fun ixs => ?_
    simp only [build, FlpClient.cureDeferred, Throws.map_eq_ok, throwIf_bind_eq_ok, hhead,
      Throws.ok_bind, Bool.not_eq_true]
    simp only [Throws.bind_eq_ok, Throws.pure_eq_ok, spec]
    constructor
    · rintro ⟨_, ⟨hhead, hflags, ix, hix, rfl⟩, rfl⟩
      exact ⟨⟨hhead, hflags⟩, ix, hix, rfl⟩
    · rintro ⟨⟨hhead, hflags⟩, ix, hix, rfl⟩
      exact ⟨_, ⟨hhead, hflags, ix, hix, rfl⟩, rfl⟩
  | triggerUnwind signer coreProgram markets full head =>
    obtain ⟨sidecar, hsidecar, hrest⟩ :=
      @unsigned_sidecar rt client vault state targets [] htargets true
    cases head with
    | none =>
      refine @asked_of_start rt spl client vault state (.triggerUnwind signer coreProgram markets full
        none) authority coreProgram signer client.programId (recoveryMarketMetas markets ++ sidecar)
        (by simp [spec]) rfl trivial (unsigned_recoveryMarketMetas.append hrest) fun ixs => ?_
      simp only [build, FlpClient.triggerUnwind, FlpClient.triggerAccounts, singleton_map_eq_ok,
        throwIf_bind_eq_ok, hauthority, hsidecar, Throws.ok_bind, pure_bind, Option.getD_none,
        Bool.not_eq_true, spec, reduceCtorEq, false_imp_iff, implies_true, and_true, and_assoc,
        exists_and_left]
      exact Iff.rfl
    | some epoch =>
      obtain ⟨record, hrecord⟩ := hfinds.epochRecord client.programId vault epoch
      refine @asked_of_start rt spl client vault state (.triggerUnwind signer coreProgram markets full
        (some epoch)) authority coreProgram signer record (recoveryMarketMetas markets ++ sidecar)
        (by simp [spec]) rfl trivial (unsigned_recoveryMarketMetas.append hrest) fun ixs => ?_
      simp only [build, FlpClient.triggerUnwind, FlpClient.triggerAccounts, singleton_map_eq_ok,
        throwIf_bind_eq_ok, hauthority, hsidecar, Throws.ok_bind, pure_bind, Bool.not_eq_true, spec, Option.some_inj, forall_eq']
      simp only [Throws.bind_eq_ok, hrecord, Option.getD_some, and_assoc, exists_and_left,
        exists_eq_left]
      exact Iff.rfl
  | triggerPartialUnwind signer coreProgram markets fractionBps =>
    obtain ⟨sidecar, hsidecar, hrest⟩ :=
      @unsigned_sidecar rt client vault state targets [] htargets true
    refine @asked_of_start rt spl client vault state (.triggerPartialUnwind signer coreProgram markets
      fractionBps) authority coreProgram signer client.programId
      (recoveryMarketMetas markets ++ sidecar) (by simp [spec]) rfl trivial
      (unsigned_recoveryMarketMetas.append hrest) fun ixs => ?_
    simp only [build, FlpClient.triggerPartialUnwind, FlpClient.triggerAccounts, singleton_map_eq_ok,
      unsigned_number_bind_eq_ok (by decide : 8 * 2 ≤ 32), throwIf_bind_eq_ok, hauthority, hsidecar,
      Throws.ok_bind, pure_bind, Option.getD_none, Bool.not_eq_true', Bool.not_eq_false,
      Bool.not_eq_true, JsNumber.isIntegerIn_iff, spec]
    constructor
    · rintro ⟨ix, ⟨n, rfl, -, ⟨_, hn, hrange⟩, hflags, hix⟩, rfl⟩
      exact ⟨⟨⟨_, hn, hrange⟩, hflags⟩, ix, hix, rfl⟩
    · rintro ⟨⟨⟨n, rfl, hrange⟩, hflags⟩, ix, hix, rfl⟩
      exact ⟨ix, ⟨n, rfl, ⟨by omega, by omega⟩, ⟨n, rfl, hrange⟩, hflags, hix⟩, rfl⟩
  | initFermiAccount admin coreProgram perps orders =>
    obtain ⟨account, haccount⟩ :=
      hfinds.fermiAccount coreProgram state.group authority state.vaultId
    refine ⟨⟨[], .of [("vault", vault), ("authority", authority), ("admin", admin),
      ("fermi.group", state.group), ("fermi.fermiAccount", account),
      ("fermi.fermiProgram", coreProgram), ("recoveryTargets", targets),
      ("systemProgram", PublicKey.default)], []⟩, BuilderSpec.asks_of_listed
      (AdminAction.path_of_capacity initFermiAccountV4Method (by simp)) rfl (by rintro _ ⟨⟩; rfl)
      trivial (fun _ hix => (List.not_mem_nil hix).elim) .refl fun ixs => ?_⟩
    simp only [build, singleton_map_eq_ok, FlpClient.initFermiAccountV4, marketCapacity_bind_eq_ok,
      throwIf_bind_eq_ok, not_not, hauthority, haccount, htargets, Throws.ok_bind, spec, and_assoc,
      exists_and_left]
    exact Iff.rfl
  | expandMarketCapacity admin coreProgram perps orders =>
    refine ⟨⟨[], .of [("vault", vault), ("authority", authority), ("admin", admin),
      ("fermi.group", state.group), ("fermi.fermiAccount", state.fermiAccount),
      ("fermi.fermiProgram", coreProgram), ("recoveryTargets", targets),
      ("systemProgram", PublicKey.default)], []⟩, BuilderSpec.asks_of_listed
      (AdminAction.path_of_capacity expandMarketCapacityMethod (by simp)) rfl (by rintro _ ⟨⟩; rfl)
      trivial (fun _ hix => (List.not_mem_nil hix).elim) .refl fun ixs => ?_⟩
    simp only [build, singleton_map_eq_ok, FlpClient.expandMarketCapacity,
      marketCapacity_bind_eq_ok, throwIf_bind_eq_ok, Bool.not_eq_true, hauthority, htargets,
      Throws.ok_bind, spec, and_assoc, exists_and_left]
    exact Iff.rfl
  | deactivatePerpPosition perpMarket coreProgram =>
    refine ⟨⟨[], .of [("vault", vault), ("authority", authority), ("fermi.group", state.group),
      ("fermi.fermiAccount", state.fermiAccount), ("fermi.fermiProgram", coreProgram),
      ("perpMarket", perpMarket)], []⟩, BuilderSpec.asks_of_listed path_of_deactivate rfl
      (by rintro _ ⟨⟩) trivial (fun _ hix => (List.not_mem_nil hix).elim) .refl fun ixs => ?_⟩
    simp only [build, singleton_map_eq_ok, FlpClient.deactivatePerpPosition, hauthority,
      Throws.ok_bind]
    exact (and_iff_right trivial).symm
  | applyParams admin pricing =>
    have hpaths := AdminAction.path_of_plain (applyParamsMethod, "admin")
      (by simp [AdminAction.plainMethods])
    cases pricing with
    | none =>
      refine ⟨⟨[], .of [("vault", vault), ("admin", admin)], []⟩, BuilderSpec.asks_of_listed hpaths
        rfl (by rintro _ ⟨⟩; rfl) trivial (fun _ hix => (List.not_mem_nil hix).elim) .refl
        fun ixs => ?_⟩
      simp only [build, singleton_map_eq_ok, FlpClient.applyParams, pure_bind]
      exact (and_iff_right fun _ _ h => (Option.some_ne_none _ h.symm).elim).symm
    | some pricing =>
      obtain ⟨accounts, health⟩ := pricing
      have hallowed : (spec state (.applyParams admin (some (accounts, health)))).Allowed ↔
          Names accounts pricingNames := by
        simp only [spec, Option.some.injEq, Prod.mk.injEq]
        exact ⟨fun h => h accounts health ⟨rfl, rfl⟩, by rintro h _ _ ⟨rfl, rfl⟩; exact h⟩
      by_cases hnames : Names accounts pricingNames
      · obtain ⟨metas, hmetas⟩ := exists_pricingMetas hnames
        refine ⟨⟨[], .of [("vault", vault), ("admin", admin)], metas ++ health⟩,
          BuilderSpec.asks_of_listed hpaths rfl (by rintro _ ⟨⟩; rfl) trivial
          (fun _ hix => (List.not_mem_nil hix).elim) ((unsigned_pricingMetas hmetas).append .refl)
          fun ixs => ?_⟩
        simp only [build, singleton_map_eq_ok, FlpClient.applyParams, hmetas, Throws.ok_bind,
          pure_bind, hallowed]
        exact (and_iff_right hnames).symm
      · refine ⟨⟨[], .of [("vault", vault), ("admin", admin)], []⟩, BuilderSpec.asks_of_listed
          hpaths rfl (by rintro _ ⟨⟩; rfl) trivial (fun _ hix => (List.not_mem_nil hix).elim)
          (fun _ hkey => (List.not_mem_nil hkey).elim) fun ixs => ?_⟩
        refine iff_of_false (fun hbuilt => hnames ?_) fun h => hnames (hallowed.1 h.1)
        simp only [build, singleton_map_eq_ok, FlpClient.applyParams, pure_bind,
          Throws.bind_eq_ok] at hbuilt
        obtain ⟨_, ⟨metas, hmetas, -⟩, -⟩ := hbuilt
        exact exists_pricingMetas_iff.1 ⟨metas, hmetas⟩
  | recoverToken buyer mint amount maxQuote accounts health =>
    obtain ⟨depositor, hdepositor⟩ := hfinds.depositor client.programId vault buyer
    obtain ⟨quote, hquote⟩ := hfinds.token state.quoteMint buyer TOKEN_PROGRAM_ID
    obtain ⟨share, hshare⟩ := hfinds.token state.shareMint buyer TOKEN_2022_PROGRAM_ID
    obtain ⟨idle, hidle⟩ := hfinds.token state.quoteMint authority TOKEN_PROGRAM_ID
    obtain ⟨bought, hbought⟩ := hfinds.token mint buyer TOKEN_PROGRAM_ID
    refine @asked_of_role rt spl client vault state
      (.recoverToken buyer mint amount maxQuote accounts health) "buyer" buyer accounts
      [("vault", vault), ("authority", authority), ("buyer", buyer), ("buyerQuoteAccount", quote),
      ("buyerTokenAccount", bought), ("idleAccount", idle)]
      [spl.createAssociatedTokenAccountIdempotentInstruction buyer idle authority state.quoteMint
        TOKEN_PROGRAM_ID, spl.createAssociatedTokenAccountIdempotentInstruction buyer bought buyer
        mint TOKEN_PROGRAM_ID] health (by simp [spec, roleMethods]) rfl rfl Iff.rfl
      (fun ix hix key hkey hsigner => ?_) .refl fun ixs => ?_
    · rcases List.mem_pair.1 hix with rfl | rfl
      · exact (hspl.within _ _ _ _ _ key hkey).1 hsigner
      · exact (hspl.within _ _ _ _ _ key hkey).1 hsigner
    · simp only [build, FlpClient.recoverTokenInstructions, throwIf_bind_eq_ok,
        unsignedAmount_bind_eq_ok, userAccounts, hdepositor, hauthority, hquote, hshare, hidle,
        hbought, Throws.ok_bind, pure_bind, not_or, not_not, Bool.not_eq_true',
        Bool.not_eq_false, spec, IsAmount]
      simp only [Throws.bind_eq_ok, Throws.pure_eq_ok, @eq_comm _ _ ixs, and_assoc]
      exact Iff.rfl

/-- **The builders of version 3 build what they are for.** -/
theorem vault_instructions (hspl : spl.Lawful) (hfinds : FindsAddresses rt spl) :
    (action.spec state).Meets client.coder client.programId
      (action.build rt spl client vault state) := by
  obtain ⟨request, hrequest⟩ := @asked rt spl client vault state action hspl hfinds
  exact hrequest.meets (find?_method state action) fun _ _ => rfl

end

end VaultAction

/-! ## A recorded recovery -/

def RecordedRequest.shared : FlpClient :=
  { RecordedFlow.client.shared with coder := .documented RecordedRequest.runtime FLP_METHODS }

open RecordedExtension RecordedFlow in
theorem vault_instructions_recorded : ∃ ix, RecordedRequest.shared.triggerUnwind
    RecordedRequest.runtime vault state user (key 3) [] true none = .ok ix ∧
    ∀ account ∈ ix.keys, account.isSigner → account.pubkey = user := by
  have hbuilder := @VaultAction.vault_instructions RecordedRequest.runtime
    (.ofRuntime RecordedRequest.runtime) RecordedRequest.shared vault state
    (.triggerUnwind user (key 3) [] true none) (SplToken.ofRuntime_lawful _)
    RecordedRequest.findsAddresses
  have hdata := (BorshCoder.documented_lawful RecordedRequest.runtime FLP_METHODS).encode
    triggerUnwindMethod "triggerUnwind" (.of [("full", .bool true)]) [1] rfl rfl
  have hallowed : ((VaultAction.triggerUnwind user (key 3) [] true none).spec state).Allowed :=
    ⟨rfl, fun _ hepoch => (Option.some_ne_none _ hepoch.symm).elim⟩
  obtain ⟨ixs, hixs⟩ := hbuilder.succeeds.2 ⟨hallowed, trivial, _, hdata⟩
  obtain ⟨ix, hix, rfl⟩ := singleton_map_eq_ok.1 hixs
  obtain ⟨-, -, -, -, -, hsigners⟩ := hbuilder.asked _ hixs
  refine ⟨ix, hix, fun key hkey hsigner => ?_⟩
  exact (hsigners ix (List.mem_singleton.2 rfl) key hkey hsigner).resolve_right List.not_mem_nil

end FermiSdk
