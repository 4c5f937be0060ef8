import FermiSdk.Flp.Client

/-!
# What the program finds in an instruction

The program takes the accounts of an instruction in the order of its description
(`receiveAccounts`). Whatever the coder makes of the arguments, the program finds the accounts that the
caller named, with exactly the privileges that the description declares, and the caller's further
accounts after them (`buildInstruction_accounts`). An instruction is built exactly if its name is known,
every account that is not optional is named and the coder takes the arguments.
-/

namespace FermiSdk

open FermiSdk.Lib

/-! ## The program's view -/

/-- The account that the program finds for an item. An optional account that is the program itself
is none; any other has the privileges that the description declares, no more and no less. -/
def receiveAccount (programId : PublicKey) (item : IdlAccount) (account : AccountMeta) :
    Option (String × Option PublicKey) :=
  if item.isOptional ∧ account = ⟨programId, false, false⟩ then some (item.path, none)
  else if account.isSigner = item.isSigner ∧ account.isWritable = item.isMut then
    some (item.path, some account.pubkey)
  else none

/-- The accounts that the program finds for the items, one key for each. -/
def receiveAccounts (programId : PublicKey) (items : List IdlAccount) (keys : List AccountMeta) :
    Option (List (String × Option PublicKey)) :=
  (items.zip keys).mapM fun p => receiveAccount programId p.1 p.2

/-- What a caller names for an item. The program id stands for an optional account that is left
out. -/
def namedAccount (programId : PublicKey) (accounts : NamedAccounts) (item : IdlAccount) :
    String × Option PublicKey :=
  (item.path,
    if item.isOptional then (accounts item.path).filter (· ≠ programId) else accounts item.path)

/-- Every account of the instruction is named, unless it is optional. -/
def AllNamed (definition : IdlInstruction) (accounts : NamedAccounts) : Prop :=
  ∀ item ∈ definition.paths, item.isOptional = false → (accounts item.path).isSome

section

variable {coder : BorshCoder} {programId : PublicKey} {methods : List IdlInstruction}
  {unknown missing : String → String} {name : String} {accounts : NamedAccounts} {args : NamedArgs}
  {remaining : List AccountMeta} {definition : IdlInstruction}

/-- The program finds for an item what the caller named for it. -/
theorem receiveAccount_namedMeta {item : IdlAccount} {account : AccountMeta}
    (h : namedMeta programId missing accounts item = .ok account) :
    receiveAccount programId item account = some (namedAccount programId accounts item) := by
  obtain ⟨path, isMut, isSigner, isOptional⟩ := item
  unfold namedMeta at h
  unfold receiveAccount namedAccount
  cases hkey : accounts path with
  | none =>
    simp only [hkey] at h ⊢
    cases isOptional with
    | false => cases h
    | true =>
      cases h
      simp
  | some key =>
    simp only [hkey] at h ⊢
    by_cases homitted : isOptional = true ∧ key = programId
    · rw [if_pos homitted, Throws.pure_eq_ok] at h
      obtain ⟨rfl, rfl⟩ := homitted
      subst h
      simp [Option.filter]
    · rw [if_neg homitted, Throws.pure_eq_ok] at h
      subst h
      cases isOptional with
      | false => simp
      | true =>
        have hne : key ≠ programId := fun heq => homitted ⟨rfl, heq⟩
        simp [hne, Option.filter]

theorem receiveAccounts_namedMetas {items : List IdlAccount} {keys : List AccountMeta}
    (h : items.mapM (namedMeta programId missing accounts) = .ok keys) :
    receiveAccounts programId items keys = some (items.map (namedAccount programId accounts)) ∧
      keys.length = items.length := by
  rw [Throws.mapM_eq_ok] at h
  induction h with
  | nil => exact ⟨rfl, rfl⟩
  | cons hitem _ ih =>
    obtain ⟨ih, hlength⟩ := ih
    refine ⟨?_, congrArg (· + 1) hlength⟩
    unfold receiveAccounts at ih ⊢
    rw [List.zip_cons_cons, List.mapM_cons, receiveAccount_namedMeta hitem, ih, List.map_cons]
    rfl

theorem exists_namedMeta_iff {item : IdlAccount} :
    (∃ account, namedMeta programId missing accounts item = .ok account) ↔
      (item.isOptional = false → (accounts item.path).isSome) := by
  unfold namedMeta
  cases accounts item.path with
  | none => cases item.isOptional <;> simp
  | some key =>
    refine ⟨fun _ _ => rfl, fun _ => ?_⟩
    by_cases homitted : item.isOptional = true ∧ key = programId
    · exact ⟨⟨programId, false, false⟩, if_pos homitted⟩
    · exact ⟨⟨key, item.isSigner, item.isMut⟩, if_neg homitted⟩

theorem exists_namedMetas_iff {items : List IdlAccount} :
    (∃ keys, items.mapM (namedMeta programId missing accounts) = .ok keys) ↔
      ∀ item ∈ items, item.isOptional = false → (accounts item.path).isSome := by
  induction items with
  | nil => exact ⟨fun _ _ hitem => (nomatch hitem), fun _ => ⟨[], rfl⟩⟩
  | cons item items ih =>
    rw [List.forall_mem_cons, ← ih, ← @exists_namedMeta_iff programId missing accounts item,
      List.mapM_cons]
    simp only [Throws.bind_eq_ok, Throws.pure_eq_ok]
    constructor
    · rintro ⟨_, account, haccount, keys, hkeys, rfl⟩
      exact ⟨⟨account, haccount⟩, keys, hkeys⟩
    · rintro ⟨⟨account, haccount⟩, keys, hkeys⟩
      exact ⟨account :: keys, account, haccount, keys, hkeys, rfl⟩

/-- What is thrown for a list of items names a required account that is not named. -/
theorem namedMetas_eq_error {items : List IdlAccount} {e : String}
    (h : items.mapM (namedMeta programId missing accounts) = .error e) :
    ∃ item ∈ items, item.isOptional = false ∧ accounts item.path = none ∧ e = missing item.path := by
  obtain ⟨item, hitem, h⟩ := Throws.exists_of_mapM_eq_error h
  refine ⟨item, hitem, ?_⟩
  unfold namedMeta at h
  cases hkey : accounts item.path with
  | none =>
    rw [hkey] at h
    cases hoptional : item.isOptional <;> rw [hoptional] at h <;> cases h
    exact ⟨rfl, rfl, rfl⟩
  | some key =>
    rw [hkey] at h
    dsimp only at h
    split at h <;> cases h

theorem buildInstruction_eq (hfind : (methods.find? fun method => method.name = name) =
    some definition) :
    buildInstruction coder programId methods unknown missing name accounts args remaining = (do
      let keys ← definition.paths.mapM (namedMeta programId missing accounts)
      pure {
        programId := programId
        keys := keys ++ remaining
        data := ← coder.encode name args }) := by
  unfold buildInstruction
  rw [hfind]

/-- An instruction that is built, by its accounts and its data. -/
theorem buildInstruction_eq_ok {ix : TransactionInstruction}
    (hfind : (methods.find? fun method => method.name = name) = some definition) :
    buildInstruction coder programId methods unknown missing name accounts args remaining = .ok ix ↔
      ∃ keys data, definition.paths.mapM (namedMeta programId missing accounts) = .ok keys ∧
        coder.encode name args = .ok data ∧ ix = { programId, keys := keys ++ remaining, data } := by
  rw [buildInstruction_eq hfind]
  simp only [Throws.bind_eq_ok, Throws.pure_eq_ok, @eq_comm _ _ ix, exists_and_left]

/-- **The program finds the accounts that the caller named.** -/
theorem buildInstruction_accounts :
    let build := buildInstruction coder programId methods unknown missing name accounts args
      remaining
    ((∃ ix, build = .ok ix) ↔ ∃ definition data,
      (methods.find? fun method => method.name = name) = some definition ∧
        AllNamed definition accounts ∧ coder.encode name args = .ok data) ∧
    (∀ ix, build = .ok ix → ix.programId = programId ∧ coder.encode name args = .ok ix.data ∧
      ∃ definition keys, (methods.find? fun method => method.name = name) = some definition ∧
        ix.keys = keys ++ remaining ∧ keys.length = definition.paths.length ∧
        receiveAccounts programId definition.paths keys =
          some (definition.paths.map (namedAccount programId accounts))) ∧
    ∀ e, build = .error e → e = unknown name ∨ coder.encode name args = .error e ∨
      ∃ definition item, (methods.find? fun method => method.name = name) = some definition ∧
        item ∈ definition.paths ∧ item.isOptional = false ∧ accounts item.path = none ∧
        e = missing item.path := by
  intro build
  cases hfind : methods.find? fun method => method.name = name with
  | none =>
    have hbuild : build = .error (unknown name) := by
      show buildInstruction _ _ _ _ _ _ _ _ _ = _
      unfold buildInstruction
      rw [hfind]
      rfl
    rw [hbuild]
    refine ⟨⟨?_, ?_⟩, ?_, ?_⟩
    · rintro ⟨_, h⟩
      cases h
    · rintro ⟨_, _, h, -⟩
      cases h
    · intro _ h
      cases h
    · intro e h
      cases h
      exact .inl rfl
  | some definition =>
    have hbuild (ix : TransactionInstruction) : build = .ok ix ↔ _ := buildInstruction_eq_ok hfind
    simp only [hbuild, Option.some_inj, exists_eq_left', AllNamed, exists_and_left,
      ← @exists_namedMetas_iff programId missing accounts]
    refine ⟨?built, ?received, ?thrown⟩
    case built =>
      constructor
      · rintro ⟨_, keys, hkeys, data, hdata, -⟩
        exact ⟨⟨keys, hkeys⟩, data, hdata⟩
      · rintro ⟨⟨keys, hkeys⟩, data, hdata⟩
        exact ⟨_, keys, hkeys, data, hdata, rfl⟩
    case received =>
      rintro _ ⟨keys, hkeys, data, hdata, rfl⟩
      obtain ⟨haccounts, hlength⟩ := receiveAccounts_namedMetas hkeys
      exact ⟨rfl, hdata, keys, rfl, hlength, haccounts⟩
    case thrown =>
      intro e h
      have hthrown : definition.paths.mapM (namedMeta programId missing accounts) = .error e ∨
          coder.encode name args = .error e := by
        rw [show build = _ from buildInstruction_eq hfind] at h
        simp only [Throws.bind_eq_error] at h
        rcases h with h | ⟨_, -, h | ⟨_, -, h⟩⟩
        · exact .inl h
        · exact .inr h
        · cases h
      rcases hthrown with h | h
      · exact .inr (.inr (namedMetas_eq_error h))
      · exact .inr (.inl h)

end

end FermiSdk
