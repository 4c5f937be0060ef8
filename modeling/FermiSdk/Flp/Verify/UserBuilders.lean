import FermiSdk.Flp.Verify.UserActions

/-!
# The builders of users' instructions

The builders of both clients, action by action. Each builds the core instruction of its action: those
of version 3 refuse some actions by the phase of the vault (`UserAction.instructionV3_eq_ok`), those of
version 4 put the creation of the user's accounts in front of it (`UserAction.instructionsV4_eq_ok`).
-/

namespace FermiSdk

open FermiSdk.Lib

/-! ## Two builders, one instruction -/

section

variable {programId : PublicKey} {missing missing' : String → String}
  {accounts accounts' : NamedAccounts}

/-- The accounts agree on an item: the same key, or the program's for a missing optional account. -/
def SameItem (programId : PublicKey) (accounts accounts' : NamedAccounts) (item : IdlAccount) :
    Prop :=
  accounts item.path = accounts' item.path ∨
    item.isOptional = true ∧ accounts item.path = some programId ∧ accounts' item.path = none

theorem namedMeta_congr {item : IdlAccount} {account : AccountMeta}
    (h : SameItem programId accounts accounts' item) :
    namedMeta programId missing accounts item = .ok account ↔
      namedMeta programId missing' accounts' item = .ok account := by
  unfold namedMeta
  rcases h with h | ⟨hoptional, h, h'⟩
  · rw [h]
    cases accounts' item.path with
    | none => cases item.isOptional <;> simp
    | some key => rfl
  · simp [h, h', hoptional]

theorem namedMetas_congr {items : List IdlAccount} {keys : List AccountMeta}
    (h : ∀ item ∈ items, SameItem programId accounts accounts' item) :
    items.mapM (namedMeta programId missing accounts) = .ok keys ↔
      items.mapM (namedMeta programId missing' accounts') = .ok keys := by
  rw [Throws.mapM_eq_ok, Throws.mapM_eq_ok]
  constructor
  · intro hkeys
    induction hkeys with
    | nil => exact .nil
    | cons hitem _ ih =>
      rw [List.forall_mem_cons] at h
      exact .cons ((namedMeta_congr h.1).1 hitem) (ih h.2)
  · intro hkeys
    induction hkeys with
    | nil => exact .nil
    | cons hitem _ ih =>
      rw [List.forall_mem_cons] at h
      exact .cons ((namedMeta_congr h.1).2 hitem) (ih h.2)

end

/-! ## The core instruction -/

/-! An instruction of a lawful coder, by its accounts. -/

section

variable {rt : Runtime} {coder : BorshCoder} {programId : PublicKey} {methods : List IdlInstruction}
  {definition : IdlInstruction} {unknown missing : String → String} {accounts : NamedAccounts}
  {remaining : List AccountMeta} {name argument : String} {n : Int} {ix : TransactionInstruction}

theorem buildInstruction_noArgs_eq_ok (hcoder : coder.Lawful rt methods)
    (hfind : (methods.find? fun method => method.name = name) = some definition)
    (hargs : definition.args = []) {args : NamedArgs} :
    buildInstruction coder programId methods unknown missing name accounts args remaining = .ok ix ↔
      ∃ keys, definition.paths.mapM (namedMeta programId missing accounts) = .ok keys ∧
        ix = {
          programId := programId
          keys := keys ++ remaining
          data := instructionDiscriminator rt definition.method ++ [] } := by
  have hbytes : borshArgs definition.args args = some [] := by
    rw [hargs]
    rfl
  simp only [buildInstruction_eq_ok hfind, hcoder.encode definition name args [] hfind hbytes,
    Except.ok.injEq, exists_eq_left', exists_and_left]

theorem buildInstruction_amount_eq_ok (hcoder : coder.Lawful rt methods)
    (hfind : (methods.find? fun method => method.name = name) = some definition)
    (hargs : definition.args = [(argument, .u64)]) (hrange : 0 ≤ n ∧ n < 256 ^ 8) :
    buildInstruction coder programId methods unknown missing name accounts
        (.of [(argument, .bn n)]) remaining = .ok ix ↔
      ∃ keys, definition.paths.mapM (namedMeta programId missing accounts) = .ok keys ∧
        ix = {
          programId := programId
          keys := keys ++ remaining
          data := instructionDiscriminator rt definition.method ++ leBytes 8 n.toNat } := by
  have hbytes : borshArgs definition.args (.of [(argument, .bn n)]) =
      some (leBytes 8 n.toNat) := by
    rw [hargs]
    exact borshArgs_one (unsignedBytes_eq hrange)
  simp only [buildInstruction_eq_ok hfind, hcoder.encode definition name _ _ hfind hbytes,
    Except.ok.injEq, exists_eq_left', exists_and_left]

end

namespace UserAction

section

variable {rt : Runtime} {spl : SplToken} {coder : BorshCoder} {programId vault : PublicKey}
  {methods : List IdlInstruction} {missing unknown : String → String}
  {accounts named : NamedAccounts} {action : UserAction} {n e : Int} {argument : String}
  {ix : TransactionInstruction}

theorem find?_method (action : UserAction) :
    (FLP_METHODS.find? fun method => method.name = action.method.name) = some action.method ∧
      (FLP_V4_METHODS.find? fun method => method.name = action.method.name) =
        some action.method := by
  cases action <;> exact ⟨rfl, rfl⟩

/-- An action with an amount. -/
theorem build_amount (hcoder : coder.Lawful rt methods)
    (hfind : (methods.find? fun method => method.name = action.method.name) = some action.method)
    (hamount : action.amount = some n) (hepoch : action.epoch = none)
    (hargs : action.method.args = [(argument, .u64)])
    (hsame : ∀ item ∈ action.method.paths, SameItem programId named accounts item) :
    ((0 ≤ n ∧ n < 256 ^ 8) ∧ buildInstruction coder programId methods unknown missing
      action.method.name named (.of [(argument, .bn n)]) [] = .ok ix) ↔
      action.core rt programId vault accounts = .ok ix := by
  rw [core, data, UserAction.named, hamount, hepoch]
  simp only [Throws.bind_eq_ok, Throws.pure_eq_ok, unsigned_amount_eq_ok, exists_eq_left',
    @eq_comm _ _ ix]
  constructor
  · rintro ⟨hrange, hbuild⟩
    obtain ⟨keys, hkeys, rfl⟩ := (buildInstruction_amount_eq_ok hcoder hfind hargs hrange).1 hbuild
    refine ⟨_, ⟨hrange, rfl⟩, keys, (namedMetas_congr hsame).1 hkeys, ?_⟩
    rw [List.append_nil]
  · rintro ⟨_, ⟨hrange, rfl⟩, keys, hkeys, rfl⟩
    refine ⟨hrange, (buildInstruction_amount_eq_ok hcoder hfind hargs hrange).2
      ⟨keys, (namedMetas_congr hsame).2 hkeys, ?_⟩⟩
    rw [List.append_nil]

/-- An action without arguments, on the accounts of its core instruction. -/
theorem build_noArgs (hcoder : coder.Lawful rt methods)
    (hfind : (methods.find? fun method => method.name = action.method.name) = some action.method)
    (hargs : action.method.args = [])
    (hsame : ∀ item ∈ action.method.paths, SameItem programId named accounts item) :
    buildInstruction coder programId methods unknown missing action.method.name named .empty [] =
        .ok ix ↔
      ∃ keys, action.method.paths.mapM (namedMeta programId id accounts) = .ok keys ∧
        ix = {
          programId := programId
          keys := keys
          data := instructionDiscriminator rt action.method.method ++ [] } := by
  simp only [buildInstruction_noArgs_eq_ok hcoder hfind hargs, List.append_nil]
  exact exists_congr fun keys => and_congr_left fun _ => namedMetas_congr hsame

/-- An action on a ticket that is not yet in an epoch. -/
theorem build_plain (hcoder : coder.Lawful rt methods)
    (hfind : (methods.find? fun method => method.name = action.method.name) = some action.method)
    (hamount : action.amount = none) (hepoch : action.epoch = none)
    (hargs : action.method.args = [])
    (hsame : ∀ item ∈ action.method.paths, SameItem programId named accounts item) :
    buildInstruction coder programId methods unknown missing action.method.name named .empty [] =
        .ok ix ↔
      action.core rt programId vault accounts = .ok ix := by
  rw [build_noArgs hcoder hfind hargs hsame, core, data, UserAction.named, hamount,
    hepoch]
  simp only [Throws.bind_eq_ok, Throws.pure_eq_ok, exists_eq_left', @eq_comm _ _ ix]

/-- An action on the record of an epoch. -/
theorem build_epoch (hcoder : coder.Lawful rt methods) {named : PublicKey → NamedAccounts}
    (hfind : (methods.find? fun method => method.name = action.method.name) = some action.method)
    (hamount : action.amount = none) (hepoch : action.epoch = some e)
    (hargs : action.method.args = [])
    (hsame : ∀ record, ∀ item ∈ action.method.paths,
      SameItem programId (named record) (accounts.set [("epochRecord", record)]) item) :
    (∃ record, deriveEpoch rt programId vault (.bigint e) = .ok record ∧
      buildInstruction coder programId methods unknown missing action.method.name (named record)
        .empty [] = .ok ix) ↔
      action.core rt programId vault accounts = .ok ix := by
  simp only [build_noArgs hcoder hfind hargs (hsame _), core, data, UserAction.named, hamount,
    hepoch, Throws.bind_eq_ok, Throws.pure_eq_ok, exists_eq_left', @eq_comm _ _ ix]
  constructor
  · rintro ⟨record, hrecord, keys, hkeys, h⟩
    exact ⟨_, ⟨record, hrecord, rfl⟩, keys, hkeys, h⟩
  · rintro ⟨_, ⟨record, hrecord, rfl⟩, keys, hkeys, h⟩
    exact ⟨record, hrecord, keys, hkeys, h⟩

theorem sameItem_refl {items : List IdlAccount} :
    ∀ item ∈ items, SameItem programId accounts accounts item := fun _ _ => .inl rfl

end

/-! ## Version 3 -/

section

variable {rt : Runtime} {spl : SplToken} {client : FlpClient} {vault : PublicKey}
  {state : VaultState} {user : PublicKey} {addresses : UserAddresses} {action : UserAction}
  {ix : TransactionInstruction}

/-! `requestDeposit` and `requestWithdraw` name only the accounts that they pass. -/

theorem requestDeposit_accounts : ∀ item ∈ requestDepositMethod.paths,
    NamedAccounts.of [("vault", vault), ("depositor", addresses.depositor), ("user", user),
      ("userQuoteAccount", addresses.userQuoteAccount), ("depositEscrow", state.depositEscrow),
      ("tokenProgram", TOKEN_PROGRAM_ID), ("systemProgram", PublicKey.default)] item.path =
      addresses.accounts vault state user item.path := by
  intro item hitem
  have hpath : ∀ item ∈ requestDepositMethod.paths, item.path ∈ ["vault", "depositor", "user",
      "userQuoteAccount", "depositEscrow", "tokenProgram", "systemProgram"] := by
    decide
  have hitem := hpath item hitem
  simp only [List.mem_cons, List.not_mem_nil, or_false] at hitem
  rcases hitem with h | h | h | h | h | h | h <;> rw [h] <;> rfl

theorem requestWithdraw_accounts : ∀ item ∈ requestWithdrawMethod.paths,
    NamedAccounts.of [("vault", vault), ("depositor", addresses.depositor), ("user", user),
      ("shareMint", state.shareMint), ("userShareAccount", addresses.userShareAccount),
      ("token2022Program", TOKEN_2022_PROGRAM_ID)] item.path =
      addresses.accounts vault state user item.path := by
  intro item hitem
  have hpath : ∀ item ∈ requestWithdrawMethod.paths, item.path ∈ ["vault", "depositor", "user",
      "shareMint", "userShareAccount", "token2022Program"] := by
    decide
  have hitem := hpath item hitem
  simp only [List.mem_cons, List.not_mem_nil, or_false] at hitem
  rcases hitem with h | h | h | h | h | h <;> rw [h] <;> rfl

/-- `FlpClient` builds the core instruction, if the vault is in the phase for it. -/
theorem instructionV3_eq_ok (hcoder : client.coder.Lawful rt FLP_METHODS)
    (haddresses : addresses.Derived rt spl client.programId vault state user) :
    action.instructionV3 rt spl client vault state user = .ok ix ↔
      action.InPhase state.status ∧
        action.core rt client.programId vault (addresses.accounts vault state user) = .ok ix := by
  have haccounts := haddresses.userAccounts_eq
  have hfind := (find?_method action).1
  cases action with
  | requestDeposit amount =>
    rw [instructionV3, FlpClient.requestDeposit, Throws.bind_eq_ok]
    simp only [Throws.throwIf_eq_ok, exists_const, not_not]
    refine and_congr_right fun _ => ?_
    rw [unsignedAmount_bind_eq_ok, haddresses.depositor, Throws.ok_bind,
      haddresses.userQuoteAccount, Throws.ok_bind]
    exact build_amount hcoder hfind rfl rfl rfl fun item hitem => .inl (requestDeposit_accounts item hitem)
  | preDeposit amount =>
    rw [instructionV3, FlpClient.preDeposit, unsignedAmount_bind_eq_ok, haccounts, Throws.ok_bind]
    exact (build_amount hcoder hfind rfl rfl rfl sameItem_refl).trans (and_iff_right trivial).symm
  | preWithdraw amount =>
    rw [instructionV3, FlpClient.preWithdraw, unsignedAmount_bind_eq_ok, haccounts, Throws.ok_bind]
    exact (build_amount hcoder hfind rfl rfl rfl sameItem_refl).trans (and_iff_right trivial).symm
  | requestWithdraw shares =>
    rw [instructionV3, FlpClient.requestWithdraw, Throws.bind_eq_ok]
    simp only [Throws.throwIf_eq_ok, exists_const, Bool.not_eq_true]
    refine and_congr_right fun _ => ?_
    rw [unsignedAmount_bind_eq_ok, haddresses.depositor, Throws.ok_bind,
      haddresses.userShareAccount, Throws.ok_bind]
    exact build_amount hcoder hfind rfl rfl rfl fun item hitem => .inl (requestWithdraw_accounts item hitem)
  | terminalRedeem shares =>
    rw [instructionV3, FlpClient.terminalRedeem, unsignedAmount_bind_eq_ok, haccounts,
      Throws.ok_bind]
    exact (build_amount hcoder hfind rfl rfl rfl sameItem_refl).trans (and_iff_right trivial).symm
  | cancelDeposit =>
    rw [instructionV3, FlpClient.cancelDeposit, haccounts, Throws.ok_bind]
    exact (build_plain hcoder hfind rfl rfl rfl sameItem_refl).trans (and_iff_right trivial).symm
  | cancelWithdraw =>
    rw [instructionV3, FlpClient.cancelWithdraw, haccounts, Throws.ok_bind]
    exact (build_plain hcoder hfind rfl rfl rfl sameItem_refl).trans (and_iff_right trivial).symm
  | claimPreDeposit =>
    rw [instructionV3, FlpClient.claimPreDeposit, haccounts, Throws.ok_bind]
    exact (build_plain hcoder hfind rfl rfl rfl sameItem_refl).trans (and_iff_right trivial).symm
  | claimDeposit epoch =>
    rw [instructionV3, FlpClient.claimDeposit, haccounts, Throws.ok_bind, Throws.bind_eq_ok]
    exact (build_epoch hcoder hfind rfl rfl rfl (fun _ => sameItem_refl)).trans (and_iff_right trivial).symm
  | refundPendingDeposit epoch =>
    rw [instructionV3, FlpClient.refundPendingDeposit, haccounts, Throws.ok_bind]
    cases epoch with
    | none =>
      simp only [pure_bind]
      exact (build_plain hcoder hfind rfl rfl rfl sameItem_refl).trans (and_iff_right trivial).symm
    | some epoch =>
      simp only [pure_bind]
      rw [Throws.bind_eq_ok]
      exact (build_epoch hcoder hfind rfl rfl rfl (fun _ => sameItem_refl)).trans
        (and_iff_right trivial).symm
  | claimWithdrawal epoch =>
    rw [instructionV3, FlpClient.claimWithdrawal, haccounts, Throws.ok_bind, Throws.bind_eq_ok]
    exact (build_epoch hcoder hfind rfl rfl rfl (fun _ => sameItem_refl)).trans (and_iff_right trivial).symm

end

/-! ## Version 4 -/

section

variable {rt : Runtime} {spl : SplToken} {client : FlpV4Client} {vault : PublicKey}
  {state : VaultState} {user payer : PublicKey} {addresses : UserAddresses} {action : UserAction}
  {ixs : List TransactionInstruction} {depositor : TransactionInstruction}

/-- The accounts of a user prevail, and have no record of an epoch. -/
theorem over_epochRecord (record : PublicKey) :
    (addresses.accounts vault state user).over (.of [("epochRecord", record)]) =
      (addresses.accounts vault state user).set [("epochRecord", record)] := by
  funext path
  unfold NamedAccounts.over NamedAccounts.set
  by_cases hpath : path = "epochRecord"
  · subst hpath
    rfl
  · have hne : (path == "epochRecord") = false := beq_eq_false_iff_ne.2 hpath
    have hnone : [("epochRecord", record)].lookup path = none := by
      simp [List.lookup_cons, hne]
    rw [NamedAccounts.of, hnone, Option.or_none, Option.none_or]

theorem over_empty (accounts : NamedAccounts) : accounts.over .empty = accounts := by
  funext path
  exact Option.or_none

theorem userAccountsV4_eq_ok {accounts : NamedAccounts}
    (haddresses : addresses.Derived rt spl client.programId vault state user) :
    client.userAccounts rt spl vault state user = .ok accounts ↔
      state.version = 4 ∧ accounts = addresses.accounts vault state user := by
  unfold FlpV4Client.userAccounts FlpV4Client.requireV4
  simp only [Throws.bind_eq_ok, Throws.throwIf_eq_ok, exists_const, not_not,
    haddresses.userAccounts_eq, Except.ok.injEq, @eq_comm _ _ accounts]

theorem userAccountsV4_bind_eq_ok {α : Type} {f : NamedAccounts → Throws α} {b : α}
    (haddresses : addresses.Derived rt spl client.programId vault state user) :
    (client.userAccounts rt spl vault state user >>= f) = .ok b ↔
      state.version = 4 ∧ f (addresses.accounts vault state user) = .ok b := by
  simp only [Throws.bind_eq_ok, userAccountsV4_eq_ok haddresses, and_assoc, exists_and_left,
    exists_eq_left]

/-- `preparedUser` builds an instruction on the user's accounts behind the preparation. -/
theorem preparedUser_eq_ok {name : String} {args : NamedArgs} {extra : NamedAccounts}
    {shareAta quoteAta : Bool}
    (haddresses : addresses.Derived rt spl client.programId vault state user)
    (hdepositor : client.initDepositor rt vault user payer = .ok depositor) :
    client.preparedUser rt spl vault state user name args extra payer shareAta quoteAta =
        .ok ixs ↔
      state.version = 4 ∧ ∃ ix,
        client.instruction name ((addresses.accounts vault state user).over extra) args [] =
          .ok ix ∧
        ixs = depositor ::
          (if shareAta then [spl.createAssociatedTokenAccountIdempotentInstruction payer
            addresses.userShareAccount user state.shareMint TOKEN_2022_PROGRAM_ID] else []) ++
          (if quoteAta then [spl.createAssociatedTokenAccountIdempotentInstruction payer
            addresses.userQuoteAccount user state.quoteMint TOKEN_PROGRAM_ID] else []) ++ [ix] := by
  have hshare := haddresses.userShareAccount
  have hquote := haddresses.userQuoteAccount
  unfold FlpV4Client.preparedUser FlpClient.shareAtaInstructions
  rw [hdepositor, Throws.ok_bind]
  cases shareAta <;> cases quoteAta <;>
    simp only [Bool.false_eq_true, if_true, if_false, hshare, hquote, Throws.ok_bind, pure_bind,
      userAccountsV4_bind_eq_ok haddresses, Throws.bind_eq_ok, Throws.pure_eq_ok, @eq_comm _ _ ixs]

/-- The epoch of a ticket is checked twice, in the same way. -/
theorem epochRecord_eq_ok {epoch : Int} {record : PublicKey} :
    client.epochRecord rt vault epoch = .ok record ↔
      deriveEpoch rt client.programId vault (.bigint epoch) = .ok record := by
  simp only [FlpV4Client.epochRecord, deriveEpoch, Throws.bind_eq_ok, uint_eq_ok,
    unsigned_amount_eq_ok]
  constructor
  · rintro ⟨n, ⟨-, rfl⟩, h⟩
    exact h
  · rintro ⟨bytes, ⟨hrange, hbytes⟩, h⟩
    exact ⟨epoch, ⟨hrange, rfl⟩, bytes, ⟨hrange, hbytes⟩, h⟩

/-- The program id stands for the record of an epoch that is left out. -/
theorem refundPendingDeposit_accounts {programId : PublicKey} :
    ∀ item ∈ refundPendingDepositMethod.paths,
      SameItem programId ((addresses.accounts vault state user).set [("epochRecord", programId)])
        (addresses.accounts vault state user) item := by
  intro item hitem
  have hpath : ∀ item ∈ refundPendingDepositMethod.paths,
      item.path ∈ ["vault", "depositor", "authority", "userQuoteAccount", "depositEscrow",
        "tokenProgram"] ∨ item.path = "epochRecord" ∧ item.isOptional = true := by
    decide
  rcases hpath item hitem with h | ⟨h, hoptional⟩
  · left
    simp only [List.mem_cons, List.not_mem_nil, or_false] at h
    rcases h with h | h | h | h | h | h <;> rw [h] <;> rfl
  · right
    refine ⟨hoptional, ?_, ?_⟩ <;> rw [h] <;> rfl

/-- The record of a settled ticket is derived before the version of the vault is checked. -/
theorem prepared_epoch_iff {p : PublicKey → Prop}
    {build : PublicKey → TransactionInstruction → Prop}
    (hbuild : ∀ ix, (∃ record, p record ∧ build record ix) ↔
      action.core rt client.programId vault (addresses.accounts vault state user) = .ok ix) :
    (∃ record, p record ∧ state.version = 4 ∧ ∃ ix, build record ix ∧
      ixs = action.preparation spl depositor addresses state user payer ++ [ix]) ↔
    state.version = 4 ∧ ∃ ix,
      action.core rt client.programId vault (addresses.accounts vault state user) = .ok ix ∧
        ixs = action.preparation spl depositor addresses state user payer ++ [ix] := by
  simp only [← hbuild]
  constructor
  · rintro ⟨record, hrecord, hversion, ix, hix, h⟩
    exact ⟨hversion, ix, ⟨record, hrecord, hix⟩, h⟩
  · rintro ⟨hversion, ix, ⟨record, hrecord, hix⟩, h⟩
    exact ⟨record, hrecord, hversion, ix, hix, h⟩

/-- An amount is checked before the version of the vault. -/
theorem prepared_amount_iff {p : Prop} {build : TransactionInstruction → Prop}
    (hbuild : ∀ ix, (p ∧ build ix) ↔
      action.core rt client.programId vault (addresses.accounts vault state user) = .ok ix) :
    (p ∧ state.version = 4 ∧ ∃ ix, build ix ∧
      ixs = action.preparation spl depositor addresses state user payer ++ [ix]) ↔
    state.version = 4 ∧ ∃ ix,
      action.core rt client.programId vault (addresses.accounts vault state user) = .ok ix ∧
        ixs = action.preparation spl depositor addresses state user payer ++ [ix] := by
  simp only [← hbuild]
  constructor
  · rintro ⟨hp, hversion, ix, hix, h⟩
    exact ⟨hversion, ix, ⟨hp, hix⟩, h⟩
  · rintro ⟨hversion, ix, ⟨hp, hix⟩, h⟩
    exact ⟨hp, hversion, ix, hix, h⟩

/-- `FlpV4Client` builds the core instruction of a version 4 vault, behind the preparation. -/
theorem instructionsV4_eq_ok (hcoder : client.coder.Lawful rt FLP_V4_METHODS)
    (haddresses : addresses.Derived rt spl client.programId vault state user)
    (hdepositor : client.initDepositor rt vault user payer = .ok depositor) :
    action.instructionsV4 rt spl client vault state user payer = .ok ixs ↔
      state.version = 4 ∧ ∃ ix,
        action.core rt client.programId vault (addresses.accounts vault state user) = .ok ix ∧
        ixs = action.preparation spl depositor addresses state user payer ++ [ix] := by
  have hfind := (find?_method action).2
  cases action with
  | requestDeposit amount =>
    rw [instructionsV4, FlpV4Client.requestDepositInstructions, hdepositor, Throws.ok_bind,
      userAccountsV4_bind_eq_ok haddresses, uintAmount_bind_eq_ok, Throws.bind_eq_ok,
      and_left_comm]
    simp only [Throws.pure_eq_ok, @eq_comm _ _ ixs]
    exact prepared_amount_iff fun ix => build_amount hcoder hfind rfl rfl rfl sameItem_refl
  | preDeposit amount =>
    rw [instructionsV4, FlpV4Client.preDepositInstructions, hdepositor, Throws.ok_bind,
      userAccountsV4_bind_eq_ok haddresses, uintAmount_bind_eq_ok, Throws.bind_eq_ok,
      and_left_comm]
    simp only [Throws.pure_eq_ok, @eq_comm _ _ ixs]
    exact prepared_amount_iff fun ix => build_amount hcoder hfind rfl rfl rfl sameItem_refl
  | preWithdraw amount =>
    rw [instructionsV4, FlpV4Client.preWithdrawInstructions, uintAmount_bind_eq_ok,
      preparedUser_eq_ok haddresses hdepositor, over_empty]
    exact prepared_amount_iff fun ix => build_amount hcoder hfind rfl rfl rfl sameItem_refl
  | requestWithdraw shares =>
    rw [instructionsV4, FlpV4Client.requestWithdrawInstructions, uintAmount_bind_eq_ok,
      preparedUser_eq_ok haddresses hdepositor, over_empty]
    exact prepared_amount_iff fun ix => build_amount hcoder hfind rfl rfl rfl sameItem_refl
  | terminalRedeem shares =>
    rw [instructionsV4, FlpV4Client.terminalRedeemInstructions, uintAmount_bind_eq_ok,
      preparedUser_eq_ok haddresses hdepositor, over_empty]
    exact prepared_amount_iff fun ix => build_amount hcoder hfind rfl rfl rfl sameItem_refl
  | cancelDeposit =>
    rw [instructionsV4, FlpV4Client.cancelDepositInstructions,
      preparedUser_eq_ok haddresses hdepositor, over_empty]
    exact and_congr_right fun _ => exists_congr fun ix => and_congr_left fun _ =>
      build_plain hcoder hfind rfl rfl rfl sameItem_refl
  | cancelWithdraw =>
    rw [instructionsV4, FlpV4Client.cancelWithdrawInstructions,
      preparedUser_eq_ok haddresses hdepositor, over_empty]
    exact and_congr_right fun _ => exists_congr fun ix => and_congr_left fun _ =>
      build_plain hcoder hfind rfl rfl rfl sameItem_refl
  | claimPreDeposit =>
    rw [instructionsV4, FlpV4Client.claimPreDepositInstructions,
      preparedUser_eq_ok haddresses hdepositor, over_empty]
    exact and_congr_right fun _ => exists_congr fun ix => and_congr_left fun _ =>
      build_plain hcoder hfind rfl rfl rfl sameItem_refl
  | claimDeposit epoch =>
    rw [instructionsV4, FlpV4Client.claimDepositInstructions, Throws.bind_eq_ok]
    simp only [epochRecord_eq_ok, preparedUser_eq_ok haddresses hdepositor, over_epochRecord]
    exact prepared_epoch_iff fun ix => build_epoch hcoder hfind rfl rfl rfl fun _ => sameItem_refl
  | refundPendingDeposit epoch =>
    rw [instructionsV4]
    unfold FlpV4Client.refundPendingDepositInstructions
    cases epoch with
    | none =>
      -- Version 4 passes the program id for the record that version 3 leaves out.
      dsimp only
      rw [pure_bind, preparedUser_eq_ok haddresses hdepositor, over_epochRecord]
      refine and_congr_right fun _ => exists_congr fun ix => and_congr_left fun _ => ?_
      exact build_plain hcoder hfind rfl rfl rfl refundPendingDeposit_accounts
    | some epoch =>
      dsimp only
      rw [Throws.bind_eq_ok]
      simp only [epochRecord_eq_ok, preparedUser_eq_ok haddresses hdepositor, over_epochRecord]
      exact prepared_epoch_iff fun ix => build_epoch hcoder hfind rfl rfl rfl fun _ => sameItem_refl
  | claimWithdrawal epoch =>
    rw [instructionsV4, FlpV4Client.claimWithdrawalInstructions, Throws.bind_eq_ok]
    simp only [epochRecord_eq_ok, preparedUser_eq_ok haddresses hdepositor, over_epochRecord]
    exact prepared_epoch_iff fun ix => build_epoch hcoder hfind rfl rfl rfl fun _ => sameItem_refl

end

end UserAction

end FermiSdk
