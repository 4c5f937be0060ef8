import FermiSdk.Flp.PricingContext
import FermiSdk.Flp.Verify.Operators

/-!
# The pricing context suffices

The builders of operators and of priced instructions take maps of accounts, and a map that lacks one
fails at the account that is missed. The accounts of a pricing context, completed by the few that an
action names itself, are never missed: what is left of the conditions under which an instruction is
built are those on the vault and on the arguments (`context_suffices`).
-/

namespace FermiSdk

open FermiSdk.Lib

/-- A number that is written in eight bytes. -/
def IsAmount (n : Int) : Prop := 0 ≤ n ∧ n < 256 ^ 8

/-! ## Named accounts -/

section

variable {accounts : NamedAccounts} {entries : List (String × PublicKey)} {path : String}

theorem isSome_lookup_iff : (entries.lookup path).isSome ↔ path ∈ entries.map Prod.fst := by
  induction entries with
  | nil => exact iff_of_false (fun h => by cases h) List.not_mem_nil
  | cons entry entries ih =>
    rw [List.lookup_cons, List.map_cons, List.mem_cons]
    by_cases h : path = entry.1
    · simp [h]
    · simp [beq_false_of_ne h, h, ih]

theorem isSome_set_iff :
    (accounts.set entries path).isSome ↔ path ∈ entries.map Prod.fst ∨ (accounts path).isSome := by
  rw [NamedAccounts.set, Option.isSome_or, Bool.or_eq_true, isSome_lookup_iff]

/-- The accounts are named under these names. -/
def Names (accounts : NamedAccounts) (names : List String) : Prop :=
  ∀ name ∈ names, (accounts name).isSome

theorem names_of (entries : List (String × PublicKey)) :
    Names (.of entries) (entries.map Prod.fst) :=
  fun _ hname => isSome_lookup_iff.2 hname

theorem Names.set {names : List String} (h : Names accounts names)
    (entries : List (String × PublicKey)) :
    Names (accounts.set entries) (names ++ entries.map Prod.fst) := by
  intro name hname
  rw [isSome_set_iff]
  rcases List.mem_append.1 hname with hname | hname
  · exact .inr (h name hname)
  · exact .inl hname

/-- An instruction is built from what has all the names that it asks for. -/
theorem allNamed_of_names {definition : IdlInstruction} {names : List String}
    (hnames : Names accounts names)
    (hpaths : ∀ item ∈ definition.paths, item.isOptional = false → item.path ∈ names) :
    AllNamed definition accounts :=
  fun item hitem hrequired => hnames _ (hpaths item hitem hrequired)

end

/-- An instruction whose accounts are named and whose arguments are written is built. -/
theorem exists_buildInstruction {rt : Runtime} {coder : BorshCoder} {programId : PublicKey}
    {methods : List IdlInstruction} {unknown missing : String → String}
    {definition : IdlInstruction} {accounts : NamedAccounts} {args : NamedArgs} {data : Bytes}
    (hcoder : coder.Lawful rt methods)
    (hfind : (methods.find? fun method => method.name = definition.name) = some definition)
    (hnamed : AllNamed definition accounts) (hdata : borshArgs definition.args args = some data)
    (rest : List AccountMeta) :
    ∃ ix, buildInstruction coder programId methods unknown missing definition.name accounts args
      rest = .ok ix := by
  obtain ⟨keys, hkeys⟩ :=
    (@exists_namedMetas_iff programId missing accounts definition.paths).2 hnamed
  have hencode := hcoder.encode definition definition.name args data hfind hdata
  exact ⟨_, (buildInstruction_eq_ok hfind).2 ⟨keys, _, hkeys, hencode, rfl⟩⟩

theorem exists_instruction {rt : Runtime} {client : FlpV4Client} {definition : IdlInstruction}
    {accounts : NamedAccounts} {args : NamedArgs} {data : Bytes}
    (hcoder : client.coder.Lawful rt FLP_V4_METHODS)
    (hfind : (FLP_V4_METHODS.find? fun method => method.name = definition.name) = some definition)
    (hnamed : AllNamed definition accounts) (hdata : borshArgs definition.args args = some data)
    (rest : List AccountMeta) :
    ∃ ix, client.instruction definition.name accounts args rest = .ok ix :=
  exists_buildInstruction hcoder hfind hnamed hdata rest

/-! ## Operators -/

namespace OperatorAction

/-- What an action names that is not in a pricing context. -/
def needs : OperatorAction → List String
  | .unwindStep _ => ["perpMarket", "bids", "asks", "eventQueue", "oracle"]
  | .extendPartialUnwind _ => ["signer"]
  | _ => []

/-- What the builder of an action names besides the flow. -/
def adds : OperatorAction → List String
  | .resetBreaker _ => ["admin"]
  | .cureDeferred _ => ["signer"]
  | _ => []

/-- The conditions of an action on the vault and on its arguments. -/
def Eligible (state : VaultState) : OperatorAction → Prop
  | .checkBreaker | .resetBreaker _ | .finishUnwind => True
  | .fundHead => state.deferredHead ≠ NONE_EPOCH
  | .sweepIdle maxAmount =>
    hasFlag state.status (STATUS_UNWIND ||| STATUS_CLOSED) = false ∧ IsAmount maxAmount
  | .cureDeferred _ => state.deferredHead ≠ NONE_EPOCH ∧
    hasFlag state.status (STATUS_UNWIND ||| STATUS_CLOSED) = false
  | .unwindStep maxBaseLots => 0 < maxBaseLots ∧ maxBaseLots < 2 ^ 63
  | .extendPartialUnwind reductionBps => ∃ n : Int, reductionBps = .int n ∧ 5000 ≤ n ∧ n ≤ 10000

end OperatorAction

/-- The names of the accounts of a pricing context. -/
def contextNames : List String := ["authority", "fermi.group", "fermi.fermiAccount",
  "fermi.quoteBank", "fermi.quoteBankVault", "fermi.quoteOracle", "fermi.fermiProgram",
  "fermi.tokenProgram", "feeShareAccount", "idleAccount", "shareMint", "token2022Program",
  "systemProgram"]

/-- The names of the accounts that the clients derive. -/
def ownNames : List String := ["vault", "authority", "fundingWindow", "headRecord", "shareMint",
  "depositEscrow", "redemptionEscrow", "token2022Program", "systemProgram"]

/-- The instructions, with what an action names itself and what its builder adds. -/
theorem path_operators : ∀ entry ∈ [
    (checkBreakerMethod, [], []),
    (resetBreakerMethod, [], ["admin"]),
    (fundHeadV2Method, [], []),
    (sweepIdleV2Method, [], []),
    (cureDeferredV2Method, [], ["signer"]),
    (unwindStepV2Method, ["perpMarket", "bids", "asks", "eventQueue", "oracle"], []),
    (finishUnwindMethod, [], []),
    (extendPartialUnwindV2Method, ["signer"], [])],
    ∀ item ∈ entry.1.paths, item.isOptional = false →
      item.path ∈ contextNames ++ entry.2.1 ++ ownNames ++ entry.2.2 := by
  decide

theorem path_operator (action : OperatorAction) : ∀ item ∈ action.method.paths,
    item.isOptional = false → item.path ∈ contextNames ++ action.needs ++ ownNames ++ action.adds :=
  path_operators (action.method, action.needs, action.adds) (by
    cases action <;> simp [OperatorAction.method, OperatorAction.needs, OperatorAction.adds])

section

variable {rt : Runtime} {client : FlpV4Client} {vault : PublicKey} {state : VaultState}
  {addresses : FlowAddresses} {accounts : NamedAccounts} {health : List AccountMeta}
  {action : OperatorAction}

theorem flowAccounts_bind_eq_ok {α : Type} {f : NamedAccounts → Throws α} {b : α}
    (haddresses : addresses.Derived rt client.programId vault state) :
    (client.flowAccounts rt vault state.toVaultAccount accounts >>= f) = .ok b ↔
      state.version = 4 ∧ f (accounts.set (addresses.own vault state)) = .ok b := by
  rw [flowAccounts_eq haddresses]
  simp only [FlpV4Client.requireV4, Throws.bind_eq_ok, Throws.throwIf_eq_ok, exists_const, not_not,
    Throws.pure_eq_ok, and_assoc, exists_and_left, exists_eq_left']

theorem exists_recoveryMetas {targets : PublicKey}
    (htargets : deriveRecoveryTargets rt client.programId vault = .ok targets) (writable : Bool) :
    ∃ sidecar, client.recoveryMetas rt vault writable = .ok sidecar := by
  unfold FlpV4Client.programId at htargets
  unfold FlpV4Client.recoveryMetas recoverySidecar
  rw [htargets]
  exact ⟨_, rfl⟩

theorem exists_unwindMetas {targets : PublicKey}
    (htargets : deriveRecoveryTargets rt client.programId vault = .ok targets) (writable : Bool) :
    ∃ sidecar, client.unwindMetas rt vault state.toVaultAccount writable = .ok sidecar := by
  unfold FlpV4Client.unwindMetas
  split
  · exact exists_recoveryMetas htargets writable
  · exact ⟨[], rfl⟩

/-- The accounts of an action, after what its builder adds, are all that it asks for. -/
theorem operator_named (haccounts : Names accounts (contextNames ++ action.needs))
    {added : List (String × PublicKey)} (hadded : added.map Prod.fst = action.adds) :
    AllNamed action.method ((accounts.set (addresses.own vault state)).set added) := by
  refine allNamed_of_names ((haccounts.set (addresses.own vault state)).set added) ?_
  rw [hadded]
  exact path_operator action

/-- The same for an action to which its builder adds nothing. -/
theorem operator_named_nil (haccounts : Names accounts (contextNames ++ action.needs))
    (hadded : action.adds = []) :
    AllNamed action.method (accounts.set (addresses.own vault state)) := by
  have hpaths := path_operator action
  rw [hadded, List.append_nil] at hpaths
  exact allNamed_of_names (haccounts.set (addresses.own vault state)) hpaths

theorem borshArgs_nil (args : NamedArgs) : borshArgs [] args = some [] := rfl

theorem borshArgs_amount {name : String} {n : Int} (h : IsAmount n) :
    borshArgs [(name, .u64)] (.of [(name, .bn n)]) = some (leBytes 8 n.toNat) :=
  borshArgs_one (unsignedBytes_eq h)

/-- An action whose instruction takes no arguments is built for what its accounts name. -/
theorem exists_operator (hcoder : client.coder.Lawful rt FLP_V4_METHODS)
    (haccounts : Names accounts (contextNames ++ action.needs))
    {args : NamedArgs} {data : Bytes} (hdata : borshArgs action.method.args args = some data)
    (hadded : action.adds = []) (rest : List AccountMeta) :
    ∃ ix, client.instruction action.method.name (accounts.set (addresses.own vault state)) args
      rest = .ok ix :=
  exists_instruction hcoder (find?_operator action) (operator_named_nil haccounts hadded) hdata rest

theorem borsh_lots {n : Int} (h : 0 ≤ n ∧ n < 2 ^ 63) :
    IdlType.i64.borsh (.bn n) = some (i64Bytes n) :=
  if_pos ⟨by omega, h.2⟩

theorem exists_fst_iff {α β : Type} {x : Throws (α × β)} :
    (∃ a, Prod.fst <$> x = .ok a) ↔ ∃ p, x = .ok p := by
  simp only [Throws.map_eq_ok]
  constructor
  · rintro ⟨_, p, hp, -⟩
    exact ⟨p, hp⟩
  · rintro ⟨p, hp⟩
    exact ⟨p.1, p, hp, rfl⟩

theorem throwIf_bind_eq_ok {α : Type} {c : Prop} [Decidable c] {e : String} {f : Unit → Throws α}
    {b : α} : (throwIf c e >>= f) = .ok b ↔ ¬ c ∧ f () = .ok b := by
  simp only [Throws.bind_eq_ok, Throws.throwIf_eq_ok]
  constructor
  · rintro ⟨_, h⟩
    exact h
  · intro h
    exact ⟨(), h⟩

/-- What is computed last is returned in some form. -/
theorem exists_returned {α β : Type} {x : Throws α} {g : α → β} (h : ∃ a, x = .ok a) :
    ∃ b, (do
      let a ← x
      pure (g a) : Throws β) = .ok b := by
  obtain ⟨a, ha⟩ := h
  rw [ha]
  exact ⟨g a, rfl⟩

theorem uint63_bind_eq_ok {α : Type} {n : Int} {f : Int → Throws α} {b : α} :
    (uint (.bigint n) 63 >>= f) = .ok b ↔ (0 ≤ n ∧ n < 2 ^ 63) ∧ f n = .ok b := by
  simp only [Throws.bind_eq_ok, uint, checkUnsigned_eq_ok, toBigInt_bigint, Except.ok.injEq]
  constructor
  · rintro ⟨_, ⟨rfl, hrange⟩, hf⟩
    exact ⟨hrange, hf⟩
  · rintro ⟨hrange, hf⟩
    exact ⟨n, ⟨rfl, hrange⟩, hf⟩

/-- **An operator's instruction is built exactly if the action is eligible.** -/
theorem exists_build_iff (hcoder : client.coder.Lawful rt FLP_V4_METHODS)
    (haddresses : addresses.Derived rt client.programId vault state)
    {targets : PublicKey} (htargets : deriveRecoveryTargets rt client.programId vault = .ok targets)
    (haccounts : Names accounts (contextNames ++ action.needs)) :
    (∃ ix, action.build rt client vault state accounts health = .ok ix) ↔
      state.version = 4 ∧ action.Eligible state := by
  cases action with
  | checkBreaker =>
    simp only [OperatorAction.build, FlpV4Client.checkBreaker, flowAccounts_bind_eq_ok haddresses,
      exists_and_left, OperatorAction.Eligible, and_true]
    exact and_iff_left (@exists_operator rt client vault state addresses accounts .checkBreaker
      hcoder haccounts .empty _ (borshArgs_nil _) rfl health)
  | resetBreaker admin =>
    simp only [OperatorAction.build, FlpV4Client.resetBreaker, flowAccounts_bind_eq_ok haddresses,
      exists_and_left, OperatorAction.Eligible, and_true]
    exact and_iff_left (exists_instruction hcoder (find?_operator (.resetBreaker admin))
      (@operator_named vault state addresses accounts (.resetBreaker admin) haccounts _ rfl)
      (borshArgs_nil .empty) health)
  | fundHead =>
    have hix := @exists_operator rt client vault state addresses accounts .fundHead hcoder haccounts
      .empty _ (borshArgs_nil _) rfl
    obtain ⟨sidecar, hsidecar⟩ := @exists_unwindMetas rt client vault state targets htargets false
    simp only [OperatorAction.build, exists_fst_iff, FlpV4Client.fundHead, throwIf_bind_eq_ok,
      flowAccounts_bind_eq_ok haddresses, exists_and_left, hsidecar, Throws.ok_bind,
      OperatorAction.Eligible]
    rw [and_left_comm]
    exact and_congr_right fun _ => and_iff_left (exists_returned (hix _))
  | sweepIdle maxAmount =>
    have hix (h : 0 ≤ maxAmount ∧ maxAmount < 256 ^ 8) :=
      @exists_operator rt client vault state addresses accounts (.sweepIdle maxAmount) hcoder haccounts
        (.of [("maxAmount", .bn maxAmount)]) _ (borshArgs_amount h) rfl
    simp only [OperatorAction.build, exists_fst_iff, FlpV4Client.sweepIdle, throwIf_bind_eq_ok,
      flowAccounts_bind_eq_ok haddresses, uintAmount_bind_eq_ok, exists_and_left,
      OperatorAction.Eligible, IsAmount, Bool.not_eq_true]
    rw [and_left_comm]
    exact and_congr_right fun _ => and_congr_right fun _ => and_iff_left_of_imp fun h =>
      exists_returned (hix h _)
  | cureDeferred signer =>
    have hix := @exists_instruction rt client _ _ _ _ hcoder (find?_operator (.cureDeferred signer))
      (@operator_named vault state addresses accounts (.cureDeferred signer) haccounts
        [("signer", signer)] rfl) (borshArgs_nil .empty)
    simp only [OperatorAction.build, exists_fst_iff, FlpV4Client.cureDeferred, throwIf_bind_eq_ok,
      flowAccounts_bind_eq_ok haddresses, exists_and_left, OperatorAction.Eligible, not_or,
      Bool.not_eq_true]
    rw [and_left_comm]
    exact and_congr_right fun _ => and_iff_left (exists_returned (hix _))
  | unwindStep maxBaseLots =>
    have hix (h : 0 ≤ maxBaseLots ∧ maxBaseLots < 2 ^ 63) :=
      @exists_operator rt client vault state addresses accounts (.unwindStep maxBaseLots) hcoder haccounts
        (.of [("maxBaseLots", .bn maxBaseLots)]) _ (borshArgs_one (borsh_lots h)) rfl
    obtain ⟨sidecar, hsidecar⟩ := @exists_recoveryMetas rt client vault targets htargets false
    simp only [OperatorAction.build, FlpV4Client.unwindStep, uint63_bind_eq_ok, throwIf_bind_eq_ok,
      flowAccounts_bind_eq_ok haddresses, exists_and_left, hsidecar, Throws.ok_bind,
      OperatorAction.Eligible]
    constructor
    · rintro ⟨hrange, hpositive, hversion, -⟩
      exact ⟨hversion, by omega, hrange.2⟩
    · rintro ⟨hversion, hpositive, hlt⟩
      have hrange : 0 ≤ maxBaseLots ∧ maxBaseLots < 2 ^ 63 := ⟨by omega, hlt⟩
      exact ⟨hrange, by omega, hversion, hix hrange _⟩
  | finishUnwind =>
    have hix := @exists_operator rt client vault state addresses accounts .finishUnwind hcoder haccounts
      .empty _ (borshArgs_nil _) rfl
    obtain ⟨sidecar, hsidecar⟩ := @exists_recoveryMetas rt client vault targets htargets false
    simp only [OperatorAction.build, FlpV4Client.finishUnwind, flowAccounts_bind_eq_ok haddresses,
      exists_and_left, hsidecar, Throws.ok_bind, OperatorAction.Eligible, and_true]
    exact and_iff_left (hix (health ++ sidecar))
  | extendPartialUnwind reductionBps =>
    obtain ⟨sidecar, hsidecar⟩ := @exists_recoveryMetas rt client vault targets htargets true
    simp only [OperatorAction.build, exists_fst_iff, FlpV4Client.extendPartialUnwind,
      throwIf_bind_eq_ok, flowAccounts_bind_eq_ok haddresses, exists_and_left,
      OperatorAction.Eligible, Bool.not_eq_true', Bool.not_eq_false, JsNumber.isIntegerIn_iff]
    constructor
    · rintro ⟨hbps, hversion, -⟩
      exact ⟨hversion, hbps⟩
    · rintro ⟨hversion, n, rfl, hmin, hmax⟩
      have hn : 0 ≤ n ∧ n < 256 ^ 2 := ⟨by omega, by omega⟩
      have huint : uint (.number (.int n)) 16 = .ok n := by
        rw [uint, checkUnsigned_eq_ok, toBigInt_number_eq_ok, JsNumber.isSafeInteger_int]
        exact ⟨⟨rfl, by unfold MAX_SAFE_INTEGER; omega⟩, by omega⟩
      have hix := @exists_operator rt client vault state addresses accounts
        (.extendPartialUnwind (.int n)) hcoder haccounts (.of [("reductionBps", .number (.int n))]) _
        (borshArgs_one (unsignedBytes_eq hn)) rfl
      refine ⟨⟨n, rfl, hmin, hmax⟩, hversion, ?_⟩
      simp only [huint, Throws.ok_bind, hsidecar]
      exact exists_returned (hix _)

end

/-! ## Priced instructions -/

/-- What is priced when it is executed. -/
inductive PricedAction where
  | permissionedDeposit (amount minShares : Int)
  | permissionedWithdraw (shares minQuote : Int)
  | graduate (admin : PublicKey)

namespace PricedAction

/-- The builder of `FlpV4Client` for an action. -/
def build (rt : Runtime) (spl : SplToken) (client : FlpV4Client) (vault : PublicKey)
    (state : VaultState) (user payer : PublicKey) (pricing : NamedAccounts)
    (health : List AccountMeta) : PricedAction → Throws (List TransactionInstruction)
  | .permissionedDeposit amount minShares =>
    client.permissionedDepositInstructions rt spl vault state user amount minShares pricing health
      payer
  | .permissionedWithdraw shares minQuote =>
    client.permissionedWithdrawInstructions rt spl vault state user shares minQuote pricing health
      payer
  | .graduate admin => (fun ix => [ix]) <$> client.graduate vault state admin pricing health

/-- The amounts of an action are amounts. -/
def Valid : PricedAction → Prop
  | .permissionedDeposit amount minShares => IsAmount amount ∧ IsAmount minShares
  | .permissionedWithdraw shares minQuote => IsAmount shares ∧ IsAmount minQuote
  | .graduate _ => True

end PricedAction

/-- The names of the accounts for pricing. -/
def pricingNames : List String :=
  (contextNames.filter (· ≠ "systemProgram")).map ("pricing." ++ ·)

theorem path_permissioned : ∀ method ∈ [permissionedDepositMethod, permissionedWithdrawMethod],
    ∀ item ∈ method.paths, item.isOptional = false →
      item.path ∈ UserAction.names ++ pricingNames := by
  decide

theorem path_graduate : ∀ item ∈ graduateMethod.paths, item.isOptional = false →
    item.path ∈ pricingNames ++ ["vault", "admin", "depositEscrow"] := by
  decide

theorem path_pricing : ∀ item ∈ pricing.visit "", item.path ∈ pricingNames := by
  decide

section

variable {rt : Runtime} {spl : SplToken} {client : FlpV4Client} {vault user payer : PublicKey}
  {state : VaultState} {addresses : UserAddresses} {pricing : NamedAccounts}
  {health : List AccountMeta} {action : PricedAction} {names : List String}

theorem Names.over {own : NamedAccounts} {names' : List String} (h : Names own names)
    (hpricing : Names pricing names') : Names (own.over pricing) (names ++ names') := by
  intro name hname
  rw [NamedAccounts.over, Option.isSome_or, Bool.or_eq_true]
  rcases List.mem_append.1 hname with hname | hname
  · exact .inl (h name hname)
  · exact .inr (hpricing name hname)

theorem names_user : Names (addresses.accounts vault state user) UserAction.names :=
  fun _ hname => UserAction.isSome_accounts _ hname

/-- The encoding of two amounts. -/
theorem borshArgs_amounts {name name' : String} {amount amount' : Int} (hne : name' ≠ name)
    (h : IsAmount amount) (h' : IsAmount amount') :
    borshArgs [(name, .u64), (name', .u64)] (.of [(name, .bn amount), (name', .bn amount')]) =
      some (leBytes 8 amount.toNat ++ leBytes 8 amount'.toNat) :=
  borshArgs_two hne (unsignedBytes_eq h) (unsignedBytes_eq h')

/-- **A priced instruction is built exactly for a version-4 vault and amounts.** -/
theorem exists_priced_iff (hcoder : client.coder.Lawful rt FLP_V4_METHODS)
    (haddresses : addresses.Derived rt spl client.programId vault state user)
    (hpricing : Names pricing pricingNames) :
    (∃ ixs, action.build rt spl client vault state user payer pricing health = .ok ixs) ↔
      state.version = 4 ∧ action.Valid := by
  obtain ⟨depositor, hdepositor, -⟩ :=
    @exists_initDepositor rt client vault user payer addresses hcoder haddresses.depositor
  have hnames : Names ((addresses.accounts vault state user).over pricing)
      (UserAction.names ++ pricingNames) := names_user.over hpricing
  cases action with
  | permissionedDeposit amount minShares =>
    have hix (h : IsAmount amount) (h' : IsAmount minShares) :=
      @exists_instruction rt client permissionedDepositMethod _ _ _ hcoder rfl (allNamed_of_names hnames
        (path_permissioned permissionedDepositMethod (by simp)))
        (@borshArgs_amounts "amount" "minShares" amount minShares (by decide) h h') health
    have hshare := haddresses.userShareAccount
    simp only [PricedAction.build, FlpV4Client.permissionedDepositInstructions, hdepositor,
      Throws.ok_bind, FlpClient.shareAtaInstructions, hshare, pure_bind,
      UserAction.userAccountsV4_bind_eq_ok haddresses, uintAmount_bind_eq_ok, exists_and_left,
      PricedAction.Valid]
    refine and_congr_right fun _ => and_congr_right fun h => and_iff_left_of_imp fun h' => ?_
    exact exists_returned (hix h h')
  | permissionedWithdraw shares minQuote =>
    have hix (h : IsAmount shares) (h' : IsAmount minQuote) :=
      @exists_instruction rt client permissionedWithdrawMethod _ _ _ hcoder rfl (allNamed_of_names hnames
        (path_permissioned permissionedWithdrawMethod (by simp)))
        (@borshArgs_amounts "shares" "minQuote" shares minQuote (by decide) h h') []
    simp only [PricedAction.build, FlpV4Client.permissionedWithdrawInstructions,
      uintAmount_bind_eq_ok, exists_and_left, PricedAction.Valid]
    constructor
    · rintro ⟨h, h', _, hixs⟩
      obtain ⟨preparation, hpreparation, -⟩ := Throws.bind_eq_ok.1 hixs
      exact ⟨((UserAction.preparedUser_eq_ok haddresses hdepositor).1 hpreparation).1, h, h'⟩
    · rintro ⟨hversion, h, h'⟩
      obtain ⟨ix, hix⟩ := hix h h'
      have hpreparation : ∃ preparation, client.preparedUser rt spl vault state user
          "permissionedWithdraw" (.of [("shares", .bn shares), ("minQuote", .bn minQuote)]) pricing
          payer false true = .ok preparation ∧ preparation.getLast? = some ix :=
        ⟨_, (UserAction.preparedUser_eq_ok haddresses hdepositor).2 ⟨hversion, ix, hix, rfl⟩, rfl⟩
      obtain ⟨preparation, hpreparation, hlast⟩ := hpreparation
      refine ⟨h, h', preparation.dropLast ++ [{ ix with keys := ix.keys ++ health }], ?_⟩
      rw [hpreparation, Throws.ok_bind, hlast]
      rfl
  | graduate admin =>
    have hgraduate : Names (pricing.set [("vault", vault), ("admin", admin),
        ("depositEscrow", state.depositEscrow)]) (pricingNames ++ ["vault", "admin", "depositEscrow"]) :=
      hpricing.set _
    have hix := @exists_instruction rt client graduateMethod _ .empty _ hcoder rfl
      (allNamed_of_names hgraduate path_graduate) (borshArgs_nil _) health
    simp only [PricedAction.build, FlpV4Client.graduate, FlpV4Client.requireV4, PricedAction.Valid,
      and_true, Throws.map_eq_ok, throwIf_bind_eq_ok, not_not]
    constructor
    · rintro ⟨_, _, ⟨hversion, -⟩, -⟩
      exact hversion
    · intro hversion
      obtain ⟨ix, hix⟩ := hix
      exact ⟨[ix], ix, ⟨hversion, hix⟩, rfl⟩

end

/-! ## The context -/

section

variable {rt : Runtime} {spl : SplToken} {core : CoreClient} {client client' : FlpV4Client}
  {vault : PublicKey} {state : VaultState} {context : FlpPricingContext} {flow : FlowAddresses}
  {targets : PublicKey}

/-- What a context was checked for, and what it hands on. -/
structure FlpPricingContext.Checked (context : FlpPricingContext) (rt : Runtime) (core : CoreClient)
    (programId vault : PublicKey) (state : VaultState) : Prop where
  account : core.getFermiAccount state.fermiAccount = .ok context.account
  accountGroup : context.account.group = state.group
  owner : deriveAuthority rt programId vault = .ok context.account.owner
  bank : ∃ bank, context.group.getFirstBankByMint state.quoteMint = .ok bank ∧
    bank.publicKey = state.quoteBank
  accounts : context.accounts.map Prod.fst = contextNames
  pricingAccounts : context.pricingAccounts.map Prod.fst = pricingNames
  health : ∀ key ∈ context.health, key.isSigner = false ∧ key.isWritable = false
  pricingHealth : ∀ key ∈ context.pricingHealth, key.isSigner = false

theorem context_checked
    (h : buildFlpPricingContext rt spl core client vault state = .ok (context, client')) :
    context.Checked rt core client.programId vault state := by
  simp only [buildFlpPricingContext, Throws.bind_eq_ok, Throws.throwIf_eq_ok, exists_const,
    Throws.pure_eq_ok, not_or, not_not, Prod.mk.injEq] at h
  obtain ⟨account, haccount, authority, hauthority, ⟨hgroup, rfl⟩, group, -, bank, hbank, hpublicKey,
    keys, -, fee, -, idle, -, rfl, -⟩ := h
  have hhealth : ∀ key ∈ keys.map fun pubkey => (⟨pubkey, false, false⟩ : AccountMeta),
      key.isSigner = false ∧ key.isWritable = false := by
    intro key hkey
    obtain ⟨_, -, rfl⟩ := List.mem_map.1 hkey
    exact ⟨rfl, rfl⟩
  refine ⟨haccount, hgroup, hauthority, ⟨bank, hbank, hpublicKey⟩, rfl, rfl, hhealth, ?_⟩
  intro key hkey
  rcases @unsigned_withEventQueues rt client _ key hkey with hkey | hkey
  · exact (hhealth key hkey).1
  · exact hkey

theorem exists_pricingMetas {accounts : NamedAccounts} (h : Names accounts pricingNames) :
    ∃ metas, FlpClient.pricingMetas accounts = .ok metas := by
  refine Throws.exists_mapM fun item hitem => ?_
  obtain ⟨key, hkey⟩ := Option.isSome_iff_exists.1 (h _ (path_pricing item hitem))
  rw [hkey]
  exact ⟨_, rfl⟩

/-- Building a context changes nothing of the client but the queues that it knows. -/
theorem coder_of_context
    (h : buildFlpPricingContext rt spl core client vault state = .ok (context, client')) :
    client'.coder = client.coder := by
  simp only [buildFlpPricingContext, Throws.bind_eq_ok, Throws.throwIf_eq_ok, exists_const,
    Throws.pure_eq_ok, not_or, not_not, Prod.mk.injEq] at h
  obtain ⟨_, -, _, -, -, _, -, _, -, -, _, -, _, -, _, -, -, rfl⟩ := h
  rfl

/-- **A pricing context suffices.** It was read for the vault, and with its accounts every action of
an operator and every priced instruction is built exactly under the conditions on the vault and on
the arguments. -/
theorem context_suffices (hcoder : client.coder.Lawful rt FLP_V4_METHODS)
    (hcontext : buildFlpPricingContext rt spl core client vault state = .ok (context, client'))
    (hflow : flow.Derived rt client'.programId vault state)
    (htargets : deriveRecoveryTargets rt client'.programId vault = .ok targets) :
    context.Checked rt core client.programId vault state ∧
    (∀ (action : OperatorAction) (own : List (String × PublicKey)) (health : List AccountMeta),
      own.map Prod.fst = action.needs →
      ((∃ ix, action.build rt client' vault state ((NamedAccounts.of context.accounts).set own)
          health = .ok ix) ↔ state.version = 4 ∧ action.Eligible state)) ∧
    (∀ (action : PricedAction) (addresses : UserAddresses) (user payer : PublicKey)
        (health : List AccountMeta),
      addresses.Derived rt spl client'.programId vault state user →
      ((∃ ixs, action.build rt spl client' vault state user payer
          (NamedAccounts.of context.pricingAccounts) health = .ok ixs) ↔
        state.version = 4 ∧ action.Valid)) ∧
    ∃ metas, FlpClient.pricingMetas (NamedAccounts.of context.pricingAccounts) = .ok metas := by
  have hchecked := context_checked hcontext
  have hcoder' : client'.coder.Lawful rt FLP_V4_METHODS := by
    rwa [coder_of_context hcontext]
  have hnames : Names (NamedAccounts.of context.accounts) contextNames := by
    rw [← hchecked.accounts]
    exact names_of context.accounts
  have hpricing : Names (NamedAccounts.of context.pricingAccounts) pricingNames := by
    rw [← hchecked.pricingAccounts]
    exact names_of context.pricingAccounts
  refine ⟨hchecked, fun action own health hown => ?_, fun action addresses user payer health h => ?_,
    exists_pricingMetas hpricing⟩
  · refine exists_build_iff hcoder' hflow htargets ?_
    rw [← hown]
    exact hnames.set own
  · exact exists_priced_iff hcoder' h hpricing

end

/-! ## A recorded context -/

namespace RecordedContext

open RecordedExtension RecordedFlow

def feeShareAccount : PublicKey :=
  ⟨[161, 153, 21, 225, 14, 228, 156, 80, 221, 68, 125, 25, 65, 56, 238, 249,
    104, 181, 170, 70, 77, 10, 198, 88, 185, 206, 201, 137, 68, 41, 210, 114], rfl⟩

def idleAccount : PublicKey :=
  ⟨[91, 15, 63, 43, 181, 237, 114, 205, 28, 113, 32, 12, 17, 202, 106, 16,
    162, 124, 213, 125, 138, 129, 107, 246, 3, 238, 149, 158, 155, 11, 144, 69], rfl⟩

/-- SHA-256 and the program addresses of the flow of a vault, and of its fees and idle tokens. -/
def runtime : Runtime :=
  .ofTables
    [(Buffer.ofAscii "global:check_breaker", RecordedOperator.checkBreakerHash)]
    []
    [([Buffer.ofAscii "flp-authority", vault.bytes], RecordedQueue.authority),
      ([Buffer.ofAscii "funding_window", vault.bytes], RecordedQueue.fundingWindow),
      ([Buffer.ofAscii "flp-recovery", vault.bytes], RecordedQueue.recoveryTargets),
      ([state.feeRecipient.bytes, TOKEN_2022_PROGRAM_ID.bytes, state.shareMint.bytes],
        feeShareAccount),
      ([RecordedQueue.authority.bytes, TOKEN_PROGRAM_ID.bytes, state.quoteMint.bytes],
        idleAccount)]

def bank : CoreBank := ⟨state.quoteBank, key 11, key 12⟩

def client : FlpV4Client :=
  { RecordedFlow.client with coder := .documented runtime FLP_V4_METHODS }

/-- The core program holds the account of the vault, in a group with one bank. -/
def core : CoreClient where
  programId := key 10
  getFermiAccount _ := .ok ⟨state.group, RecordedQueue.authority⟩
  getGroup _ := .ok ⟨fun _ => .ok bank⟩
  buildHealthRemainingAccounts _ _ banks :=
    .ok (banks.map CoreBank.publicKey ++ banks.map CoreBank.oracle)

end RecordedContext

open RecordedExtension RecordedFlow RecordedContext in
theorem context_suffices_recorded : ∃ context client', buildFlpPricingContext RecordedContext.runtime
      (.ofRuntime RecordedContext.runtime) core RecordedContext.client vault state = .ok (context, client') ∧
    context.Checked RecordedContext.runtime core RecordedContext.client.programId vault state ∧
    ∃ ix, client'.checkBreaker RecordedContext.runtime vault state
      ((NamedAccounts.of context.accounts).set []) context.health = .ok ix := by
  obtain ⟨⟨context, client'⟩, hcontext⟩ : ∃ built, buildFlpPricingContext RecordedContext.runtime
      (.ofRuntime RecordedContext.runtime) core RecordedContext.client vault state = .ok built := ⟨_, rfl⟩
  have hclient : client'.programId = RecordedContext.client.programId := by
    cases hcontext
    rfl
  have hflow : RecordedOperator.addresses.Derived RecordedContext.runtime client'.programId vault
      state := by
    rw [hclient]
    exact ⟨rfl, rfl, rfl⟩
  obtain ⟨hchecked, hoperators, -⟩ := @context_suffices RecordedContext.runtime
    (.ofRuntime RecordedContext.runtime) core RecordedContext.client client' vault state context
    RecordedOperator.addresses RecordedQueue.recoveryTargets (BorshCoder.documented_lawful _ _) hcontext hflow rfl
  exact ⟨context, client', hcontext, hchecked,
    (hoperators .checkBreaker [] context.health rfl).2 ⟨rfl, trivial⟩⟩

end FermiSdk
