import FermiSdk.Flp.Verify.Metas
import FermiSdk.Flp.Verify.PricingContext

/-!
# What a builder asks for

A builder checks what it is given, prepares accounts, and asks for one instruction. What it is for is
a `BuilderSpec`; who signs what is built, and when the builder fails, follow from the one request that
it makes (`BuilderSpec.Asks.meets`).
-/

namespace FermiSdk

open FermiSdk.Lib

/-! ## Derivations -/

/-- An address is found for at most fifteen seeds of at most 32 bytes, which a bump follows, and for
every token account. -/
structure FindsAddresses (rt : Runtime) (spl : SplToken) : Prop where
  program : ∀ seeds programId, seeds.length ≤ 15 → (∀ seed ∈ seeds, seed.length ≤ 32) →
    ∃ key, rt.findProgramAddressSync seeds programId = .ok key
  token : ∀ mint owner programId,
    ∃ key, spl.getAssociatedTokenAddressSync mint owner programId = .ok key

/-! ## Checked numbers -/

section

variable {x : JsNumber} {n : Int} {bits : Nat}

theorem isSafeInteger_of_lt (hbits : bits ≤ 32) (h : 0 ≤ n ∧ n < 2 ^ bits) :
    (JsNumber.int n).isSafeInteger = true := by
  have hpow : (2 : Int) ^ bits ≤ 2 ^ 32 := pow_le_pow_right₀ (by norm_num) hbits
  rw [JsNumber.isSafeInteger_int]
  unfold MAX_SAFE_INTEGER
  omega

theorem checkUnsigned_number_eq_ok {unsafeText rangeText : String} (hbits : bits ≤ 32) :
    checkUnsigned (.number x) bits unsafeText rangeText = .ok n ↔
      x = .int n ∧ 0 ≤ n ∧ n < 2 ^ bits := by
  rw [checkUnsigned_eq_ok, toBigInt_number_eq_ok, and_assoc]
  constructor
  · rintro ⟨hx, -, hrange⟩
    exact ⟨hx, hrange⟩
  · rintro ⟨rfl, hrange⟩
    exact ⟨rfl, isSafeInteger_of_lt hbits hrange, hrange⟩

theorem checkUnsigned_bind_eq_ok {α : Type} {unsafeText rangeText : String} {f : Int → Throws α}
    {b : α} (hbits : bits ≤ 32) :
    (checkUnsigned (.number x) bits unsafeText rangeText >>= f) = .ok b ↔
      ∃ n, x = .int n ∧ (0 ≤ n ∧ n < 2 ^ bits) ∧ f n = .ok b := by
  simp only [Throws.bind_eq_ok, checkUnsigned_number_eq_ok hbits, and_assoc]

theorem uint_number_bind_eq_ok {α : Type} {f : Int → Throws α} {b : α} (hbits : bits ≤ 32) :
    (uint (.number x) bits >>= f) = .ok b ↔
      ∃ n, x = .int n ∧ (0 ≤ n ∧ n < 2 ^ bits) ∧ f n = .ok b :=
  checkUnsigned_bind_eq_ok hbits

theorem unsigned_number_bind_eq_ok {α : Type} {width : Nat} {f : Bytes → Throws α} {b : α}
    (hwidth : 8 * width ≤ 32) : (unsigned (.number x) width >>= f) = .ok b ↔
      ∃ n, x = .int n ∧ (0 ≤ n ∧ n < 2 ^ (8 * width)) ∧ f (leBytes width n.toNat) = .ok b := by
  unfold unsigned
  simp only [bind_assoc, pure_bind]
  exact checkUnsigned_bind_eq_ok hwidth

theorem unsigned_int {width : Nat} (hwidth : 8 * width ≤ 32) (h : 0 ≤ n ∧ n < 2 ^ (8 * width)) :
    unsigned (.number (.int n)) width = .ok (leBytes width n.toNat) := by
  unfold unsigned
  rw [(checkUnsigned_number_eq_ok hwidth).2 ⟨rfl, h⟩]
  rfl

end

section

variable {rt : Runtime} {spl : SplToken} {vaultId : Int}

namespace FindsAddresses

variable (h : FindsAddresses rt spl)
include h

/-- The seeds are a text, some keys and a few bytes more. -/
theorem ofKeys {tag : Bytes} (programId : PublicKey) (keys : List PublicKey) {last : List Bytes}
    (htag : tag.length ≤ 32) (hkeys : keys.length ≤ 2) (hcount : last.length ≤ 1)
    (hlast : ∀ seed ∈ last, seed.length ≤ 32) :
    ∃ key, rt.findProgramAddressSync (tag :: (keys.map (·.bytes) ++ last)) programId = .ok key := by
  refine h.program _ _ ?_ ?_
  · simp only [List.length_append, List.length_cons, List.length_map]
    omega
  · intro seed hseed
    rcases List.mem_cons.1 hseed with rfl | hseed
    · exact htag
    · rcases List.mem_append.1 hseed with hseed | hseed
      · obtain ⟨key, -, rfl⟩ := List.mem_map.1 hseed
        exact key.size.le
      · exact hlast seed hseed

theorem authority (programId vault : PublicKey) :
    ∃ key, deriveAuthority rt programId vault = .ok key :=
  h.ofKeys programId [vault] (by decide) (by simp) (by simp) (by simp)

theorem fundingWindow (programId vault : PublicKey) :
    ∃ key, deriveFundingWindow rt programId vault = .ok key :=
  h.ofKeys programId [vault] (by decide) (by simp) (by simp) (by simp)

theorem recoveryTargets (programId vault : PublicKey) :
    ∃ key, deriveRecoveryTargets rt programId vault = .ok key :=
  h.ofKeys programId [vault] (by decide) (by simp) (by simp) (by simp)

theorem depositor (programId vault user : PublicKey) :
    ∃ key, deriveDepositor rt programId vault user = .ok key :=
  h.ofKeys programId [vault, user] (by decide) (by simp) (by simp) (by simp)

/-- An epoch of eight bytes has a record, and no other has one. -/
theorem epochRecord (programId vault : PublicKey) (epoch : Int) :
    ∃ record, ∀ key, deriveEpoch rt programId vault (.bigint epoch) = .ok key ↔
      IsAmount epoch ∧ key = record := by
  unfold deriveEpoch
  obtain ⟨record, hrecord⟩ := @ofKeys rt spl h (Buffer.ofAscii "flp-epoch") programId [vault]
    [leBytes 8 epoch.toNat] (by decide) (by simp) (by simp) (by simp)
  refine ⟨record, fun key => ?_⟩
  simp only [Throws.bind_eq_ok, unsigned_amount_eq_ok]
  constructor
  · rintro ⟨_, ⟨hepoch, rfl⟩, hkey⟩
    exact ⟨hepoch, Except.ok.inj (hkey.symm.trans hrecord)⟩
  · rintro ⟨hepoch, rfl⟩
    exact ⟨_, ⟨hepoch, rfl⟩, hrecord⟩

/-- The addresses of the flow of a vault. -/
theorem flow (programId vault : PublicKey) (state : VaultState) :
    ∃ addresses : FlowAddresses, addresses.Derived rt programId vault state := by
  obtain ⟨authority, hauthority⟩ := h.authority programId vault
  obtain ⟨window, hwindow⟩ := h.fundingWindow programId vault
  obtain ⟨head, hhead⟩ : ∃ head, deferredRecordOr rt programId vault state.deferredHead = .ok head := by
    unfold deferredRecordOr
    split
    · exact ⟨programId, rfl⟩
    · have hlt := state.deferredHead.toNat_lt
      obtain ⟨record, hrecord⟩ := h.epochRecord programId vault state.deferredHead.toNat
      exact ⟨record, (hrecord record).2 ⟨⟨by omega, by omega⟩, rfl⟩⟩
  exact ⟨⟨authority, window, head⟩, hauthority, hwindow, hhead⟩

theorem fermiAccount (coreProgram group authority : PublicKey) (id : UInt16) :
    ∃ key, deriveFermiAccount rt coreProgram group authority (.int id.toNat) = .ok key := by
  have hlt := id.toNat_lt
  have hshort := @unsigned_int (id.toNat : Int) 2 (by decide) (by omega)
  have hlong := @unsigned_int (id.toNat : Int) 4 (by decide) (by omega)
  unfold deriveFermiAccount vaultFermiAccountSeeds
  rw [hshort, Throws.ok_bind, hlong, Throws.ok_bind]
  exact h.ofKeys coreProgram [group, authority] (by decide) (by simp) (by simp) (by simp)

theorem vaultAddresses (programId group : PublicKey) (hid : 0 ≤ vaultId ∧ vaultId < 2 ^ 16) :
    ∃ addresses, deriveVaultAddresses rt programId group (.int vaultId) = .ok addresses := by
  have hseed := @unsigned_int vaultId 2 (by decide) hid
  obtain ⟨vault, hvault⟩ := @ofKeys rt spl h (Buffer.ofAscii "flp-vault") programId [group]
    [leBytes 2 vaultId.toNat] (by decide) (by simp) (by simp) (by simp)
  obtain ⟨authority, hauthority⟩ := h.authority programId vault
  obtain ⟨shareMint, hshareMint⟩ := @ofKeys rt spl h (Buffer.ofAscii "flp-shares") programId [vault]
    [] (by decide) (by simp) (by simp) (by simp)
  obtain ⟨deposit, hdeposit⟩ := @ofKeys rt spl h (Buffer.ofAscii "flp-escrow") programId [vault]
    [Buffer.ofAscii "dep"] (by decide) (by simp) (by simp) (by decide)
  obtain ⟨redemption, hredemption⟩ := @ofKeys rt spl h (Buffer.ofAscii "flp-escrow") programId
    [vault] [Buffer.ofAscii "red"] (by decide) (by simp) (by simp) (by decide)
  unfold deriveAuthority at hauthority
  simp only [List.map_cons, List.map_nil, List.cons_append, List.nil_append, List.append_nil]
    at hvault hshareMint hdeposit hredemption
  refine ⟨⟨vault, authority, shareMint, deposit, redemption⟩, ?_⟩
  unfold deriveVaultAddresses vaultSeeds
  rw [hseed]
  simp only [Throws.ok_bind, pure_bind, hvault, hauthority, hshareMint, hdeposit, hredemption]
  rfl

/-- The addresses of a vault that is not there yet, if its id is one. -/
theorem newVault {vaultId : JsNumber} (programId group : PublicKey) :
    ∃ addresses window, ∀ n : Int, vaultId = .int n → 0 ≤ n ∧ n < 2 ^ 16 →
      deriveVaultAddresses rt programId group vaultId = .ok addresses ∧
        deriveFundingWindow rt programId addresses.vault = .ok window := by
  by_cases hid : ∃ n : Int, vaultId = .int n ∧ 0 ≤ n ∧ n < 2 ^ 16
  · obtain ⟨n, rfl, hn⟩ := hid
    obtain ⟨addresses, haddresses⟩ := @vaultAddresses rt spl n h programId group hn
    obtain ⟨window, hwindow⟩ := h.fundingWindow programId addresses.vault
    exact ⟨addresses, window, fun _ _ _ => ⟨haddresses, hwindow⟩⟩
  · exact ⟨⟨group, group, group, group, group⟩, group, fun n hn hrange =>
      absurd ⟨n, hn, hrange⟩ hid⟩

end FindsAddresses

end

/-! ## Requests -/

/-- Accounts that complete a list make a longer list. -/
theorem NamedAccounts.set_of (entries own : List (String × PublicKey)) :
    (NamedAccounts.of entries).set own = .of (own ++ entries) := by
  funext path
  exact (List.lookup_append ..).symm

theorem NamedAccounts.empty_set (own : List (String × PublicKey)) :
    NamedAccounts.empty.set own = .of own :=
  funext fun _ => Option.or_none

/-- What is left to name is what the builder does not complete itself. -/
theorem allNamed_set_iff {definition : IdlInstruction} {accounts : NamedAccounts}
    {own : List (String × PublicKey)} :
    AllNamed definition (accounts.set own) ↔
      Supplied definition (own.map Prod.fst) accounts := by
  constructor
  · intro h item hitem hown hrequired
    exact (isSome_set_iff.1 (h item hitem hrequired)).resolve_left hown
  · intro h item hitem hrequired
    exact NamedAccounts.set_isSome fun hown => h item hitem hown hrequired

/-- What a builder is for: the instruction that it asks for, its arguments, who may be asked to sign,
and the accounts that the caller passes through. -/
structure BuilderSpec where
  method : IdlInstruction
  args : NamedArgs := .empty
  signers : Set PublicKey
  given : List AccountMeta := []
  /-- What the builder checks of the vault and of what the caller passes. -/
  Allowed : Prop := True
  /-- What the caller has to name. -/
  Named : Prop := True

/-- The accounts that a builder names and what follows them, and what it puts in front of the
instruction. -/
structure Request where
  preparation : List TransactionInstruction
  named : NamedAccounts
  rest : List AccountMeta

namespace BuilderSpec

/-- A builder, of which `built` is the outcome, makes a request exactly if what it checks holds. -/
structure Asks (spec : BuilderSpec)
    (instruction : NamedAccounts → List AccountMeta → Throws TransactionInstruction)
    (built : Throws (List TransactionInstruction)) (request : Request) : Prop where
  preparation : ∀ ix ∈ request.preparation, ∀ key ∈ ix.keys,
    key.isSigner → key.pubkey ∈ spec.signers
  signer : ∀ item ∈ spec.method.paths, item.isSigner = true → ∀ key,
    request.named item.path = some key → key ∈ spec.signers
  rest : Unsigned spec.given request.rest
  named : AllNamed spec.method request.named ↔ spec.Named
  built : ∀ ixs, built = .ok ixs ↔ spec.Allowed ∧
    ∃ ix, instruction request.named request.rest = .ok ix ∧ ixs = request.preparation ++ [ix]

/-- The outcome of a builder is one instruction of the program, behind what prepares it, with the
arguments that the caller passed. Nobody signs but those it is for, except through accounts that the
caller passes; and the builder fails only at what it checks, at an account that the caller does not
name, and at arguments that the coder refuses. -/
structure Meets (spec : BuilderSpec) (coder : BorshCoder) (programId : PublicKey)
    (built : Throws (List TransactionInstruction)) : Prop where
  asked : ∀ ixs, built = .ok ixs → ∃ preparation ix, ixs = preparation ++ [ix] ∧
    ix.programId = programId ∧ coder.encode spec.method.name spec.args = .ok ix.data ∧
    ∀ ix ∈ ixs, ∀ key ∈ ix.keys, key.isSigner → key.pubkey ∈ spec.signers ∨ key ∈ spec.given
  succeeds : (∃ ixs, built = .ok ixs) ↔ spec.Allowed ∧ spec.Named ∧
    ∃ data, coder.encode spec.method.name spec.args = .ok data

section

variable {spec : BuilderSpec} {coder : BorshCoder} {programId : PublicKey}
  {methods : List IdlInstruction} {unknown missing : String → String}
  {instruction : NamedAccounts → List AccountMeta → Throws TransactionInstruction}
  {built : Throws (List TransactionInstruction)} {request : Request}

theorem Asks.asked (h : spec.Asks instruction built request)
    (hfind : (methods.find? fun m => m.name = spec.method.name) = some spec.method)
    (hinstruction : ∀ accounts rest, instruction accounts rest =
      buildInstruction coder programId methods unknown missing spec.method.name accounts spec.args rest)
    {ixs : List TransactionInstruction} (hbuilt : built = .ok ixs) :
    ∃ preparation ix, ixs = preparation ++ [ix] ∧ ix.programId = programId ∧
      coder.encode spec.method.name spec.args = .ok ix.data ∧
      ∀ ix ∈ ixs, ∀ key ∈ ix.keys, key.isSigner → key.pubkey ∈ spec.signers ∨ key ∈ spec.given := by
  obtain ⟨-, ix, hix, rfl⟩ := (h.built _).1 hbuilt
  rw [hinstruction] at hix
  obtain ⟨keys, data, hkeys, hdata, rfl⟩ := (buildInstruction_eq_ok hfind).1 hix
  refine ⟨_, _, rfl, rfl, hdata, fun built hmem key hkey hsigner => ?_⟩
  rcases List.mem_append.1 hmem with hmem | hmem
  · exact .inl (h.preparation built hmem key hkey hsigner)
  · rw [List.mem_singleton.1 hmem] at hkey
    rcases List.mem_append.1 hkey with hkey | hkey
    · obtain ⟨item, hitem, hdeclared, hnamed⟩ := (declared_of_namedMetas hkeys key hkey).1 hsigner
      exact .inl (h.signer item hitem hdeclared _ hnamed)
    · rcases h.rest key hkey with hgiven | hunsigned
      · exact .inr hgiven
      · rw [hunsigned] at hsigner
        cases hsigner

theorem Asks.meets (h : spec.Asks instruction built request)
    (hfind : (methods.find? fun m => m.name = spec.method.name) = some spec.method)
    (hinstruction : ∀ accounts rest, instruction accounts rest =
      buildInstruction coder programId methods unknown missing spec.method.name accounts spec.args
        rest) : spec.Meets coder programId built where
  asked _ := h.asked hfind hinstruction
  succeeds := by
    constructor
    · rintro ⟨ixs, hixs⟩
      obtain ⟨hallowed, ix, hix, -⟩ := (h.built ixs).1 hixs
      rw [hinstruction] at hix
      obtain ⟨keys, data, hkeys, hdata, -⟩ := (buildInstruction_eq_ok hfind).1 hix
      exact ⟨hallowed, h.named.1 (exists_namedMetas_iff.1 ⟨keys, hkeys⟩), data, hdata⟩
    · rintro ⟨hallowed, hnamed, data, hdata⟩
      obtain ⟨keys, hkeys⟩ :=
        (@exists_namedMetas_iff programId missing _ _).2 (h.named.2 hnamed)
      have hix : instruction request.named request.rest =
          .ok ⟨programId, keys ++ request.rest, data⟩ := by
        rw [hinstruction]
        exact (buildInstruction_eq_ok hfind).2 ⟨keys, data, hkeys, hdata, rfl⟩
      exact ⟨_, (h.built _).2 ⟨hallowed, _, hix, rfl⟩⟩

/-- A builder that completes the accounts of the caller by its own. -/
theorem asks_of_completed {accounts : NamedAccounts} {own : List (String × PublicKey)}
    {preparation : List TransactionInstruction} {rest : List AccountMeta}
    (hsigner : ∀ item ∈ spec.method.paths, item.isSigner = true → ∀ key,
      accounts.set own item.path = some key → key ∈ spec.signers)
    (hnamed : spec.Named ↔ Supplied spec.method (own.map Prod.fst) accounts)
    (hpreparation : ∀ ix ∈ preparation, ∀ key ∈ ix.keys, key.isSigner → key.pubkey ∈ spec.signers)
    (hrest : Unsigned spec.given rest)
    (hbuilt : ∀ ixs, built = .ok ixs ↔ spec.Allowed ∧
      ∃ ix, instruction (accounts.set own) rest = .ok ix ∧ ixs = preparation ++ [ix]) :
    spec.Asks instruction built ⟨preparation, accounts.set own, rest⟩ where
  preparation := hpreparation
  signer := hsigner
  rest := hrest
  named := allNamed_set_iff.trans hnamed.symm
  built := hbuilt

/-- A builder that names all accounts itself. -/
theorem asks_of_listed {role : String} {own : List (String × PublicKey)} {names : List String}
    {preparation : List TransactionInstruction} {rest : List AccountMeta}
    (hpaths : ∀ item ∈ spec.method.paths,
      item.path ∈ names ∧ (item.isSigner = true → item.path = role))
    (hnames : own.map Prod.fst = names)
    (hrole : ∀ key, own.lookup role = some key → key ∈ spec.signers) (hnamed : spec.Named)
    (hpreparation : ∀ ix ∈ preparation, ∀ key ∈ ix.keys, key.isSigner → key.pubkey ∈ spec.signers)
    (hrest : Unsigned spec.given rest)
    (hbuilt : ∀ ixs, built = .ok ixs ↔ spec.Allowed ∧
      ∃ ix, instruction (.of own) rest = .ok ix ∧ ixs = preparation ++ [ix]) :
    spec.Asks instruction built ⟨preparation, .of own, rest⟩ := by
  rw [← NamedAccounts.empty_set own] at hbuilt ⊢
  refine asks_of_completed (fun item hitem hsigner key hkey => hrole key ?_) ?_ hpreparation hrest
    hbuilt
  · rwa [(hpaths item hitem).2 hsigner, NamedAccounts.empty_set] at hkey
  · refine iff_of_true hnamed fun item hitem hown => ?_
    rw [hnames] at hown
    exact absurd (hpaths item hitem).1 hown

end

end BuilderSpec

/-! ## Builders step by step -/

theorem singleton_map_eq_ok {x : Throws TransactionInstruction}
    {ixs : List TransactionInstruction} : ([·]) <$> x = .ok ixs ↔ ∃ ix, x = .ok ix ∧ ixs = [ix] := by
  simp only [Throws.map_eq_ok, @eq_comm _ ixs]

/-- What is checked first is checked of what is built. -/
theorem exists_and_iff {p : Prop} {build : TransactionInstruction → Prop}
    {ixs : List TransactionInstruction} :
    (∃ ix, (p ∧ build ix) ∧ ixs = [ix]) ↔ p ∧ ∃ ix, build ix ∧ ixs = [] ++ [ix] := by
  simp only [and_assoc, exists_and_left, List.nil_append]

/-- The accounts of the markets are read and written, and do not sign. -/
theorem unsigned_recoveryMarketMetas {markets : List RecoveryMarket} {given : List AccountMeta} :
    Unsigned given (recoveryMarketMetas markets) := by
  intro key hkey
  obtain ⟨market, -, hkey⟩ := List.mem_flatMap.1 hkey
  obtain ⟨_, -, rfl⟩ := List.mem_map.1 hkey
  exact .inr rfl

/-! ## A recorded vault -/

namespace RecordedRequest

open RecordedQueue

def triggerUnwindHash : Digest :=
  ⟨[88, 133, 250, 224, 116, 80, 144, 110, 200, 107, 146, 238, 211, 204, 201, 155,
    240, 244, 187, 211, 76, 25, 160, 31, 226, 106, 70, 226, 6, 45, 7, 209], rfl⟩

def addresses : List (List Bytes × PublicKey) := [
  ([Buffer.ofAscii "flp-authority", vault.bytes], authority),
  ([Buffer.ofAscii "funding_window", vault.bytes], fundingWindow),
  ([Buffer.ofAscii "flp-recovery", vault.bytes], recoveryTargets)]

/-- SHA-256 and the program addresses on the data of a vault. Any other address is the default key. -/
def runtime : Runtime := {
  Runtime.ofTables [(Buffer.ofAscii "global:trigger_unwind", triggerUnwindHash)] [] [] with
  findProgramAddressSync := fun seeds _ => pure ((addresses.lookup seeds).getD PublicKey.default) }

theorem findsAddresses : FindsAddresses runtime (.ofRuntime runtime) where
  program _ _ _ _ := ⟨_, rfl⟩
  token _ _ _ := ⟨_, rfl⟩

end RecordedRequest

end FermiSdk
