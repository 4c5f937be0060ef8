import FermiSdk.AccountClient.Verify.DocumentedNode
import FermiSdk.Trading.Verify.Wire

/-!
# Scans and lookups find the same accounts

A scan has the node compare bytes at fixed offsets. These are the offsets of the fields
(`FieldsAt.of_decode`), so that a scan gives the accounts whose fields are the wanted ones, and
a lookup at a derived address gives what the scan would find there (`accounts_found`).
-/

namespace FermiSdk

open FermiSdk.Lib

section

variable {rt : Runtime} {client : FermiV1AccountClient} {group owner : PublicKey} {pk : PublicKey}
  {account : FermiAccount} {accounts : List FermiAccount} {data : Bytes}

namespace FermiV1AccountClient

/-! ## Single reads -/

theorem getMangoAccountFromAi_eq_ok {info : AccountInfo} :
    client.getMangoAccountFromAi pk (some info) = .ok account ↔
      info.owner = client.programId ∧ client.coder.decode pk info.data = .ok account := by
  unfold getMangoAccountFromAi
  rw [Option.filter_some]
  by_cases h : info.owner = client.programId
  · rw [if_pos (decide_eq_true h)]
    exact (and_iff_right h).symm
  · rw [if_neg (by rwa [decide_eq_true_eq])]
    exact iff_of_false (fun h => by cases h) fun hboth => h hboth.1

theorem getFermiAccount_eq_ok : client.getFermiAccount pk = .ok account ↔
    ∃ info, client.connection.getAccountInfo pk = some info ∧ info.owner = client.programId ∧
      client.coder.decode pk info.data = .ok account := by
  unfold getFermiAccount
  cases hinfo : client.connection.getAccountInfo pk with
  | none =>
    refine iff_of_false (fun h => by cases h) ?_
    rintro ⟨info, hsome, -⟩
    cases hsome
  | some info =>
    rw [getMangoAccountFromAi_eq_ok]
    constructor
    · intro h
      exact ⟨info, rfl, h⟩
    · rintro ⟨info', hsome, h⟩
      cases hsome
      exact h

/-- The accounts of the program with the discriminator of a Fermi account can be read. -/
def Readable (rt : Runtime) (client : FermiV1AccountClient) : Prop :=
  ∀ key info, client.connection.getAccountInfo key = some info → info.owner = client.programId →
    info.data.take 8 = accountDiscriminator rt "FermiAccount" →
    ∃ account, client.getFermiAccount key = .ok account

end FermiV1AccountClient

open FermiV1AccountClient

/-! ## Scans -/

/-- What the accounts of a group are scanned for. `legacyOwner` is the older name of a scan for an
owner. -/
inductive AccountQuery where
  | all
  | owner (owner : PublicKey)
  | legacyOwner (owner : PublicKey)
  | delegate (delegate : PublicKey)

namespace AccountQuery

def scan (client : FermiV1AccountClient) (group : PublicKey) :
    AccountQuery → Throws (List FermiAccount)
  | .all => client.getAllMangoAccounts group
  | .owner key => client.getFermiAccountsForOwner group key
  | .legacyOwner key => client.getMangoAccountsForOwner group key
  | .delegate key => client.getMangoAccountsForDelegate group key

def Selects (account : FermiAccount) : AccountQuery → Prop
  | .all => True
  | .owner key => account.owner = key
  | .legacyOwner key => account.owner = key
  | .delegate key => account.delegate = key

/-- The wanted bytes behind the group. -/
def wants : AccountQuery → List (Nat × Bytes)
  | .all => []
  | .owner key => [(40, key.bytes)]
  | .legacyOwner key => [(40, key.bytes)]
  | .delegate key => [(104, key.bytes)]

/-- All that a scan wants. -/
def wanted (rt : Runtime) (group : PublicKey) (query : AccountQuery) : List (Nat × Bytes) :=
  (0, accountDiscriminator rt "FermiAccount") :: (8, group.bytes) :: query.wants

variable {query : AccountQuery}

/-- A node takes the filters of a scan. -/
theorem accepted_wanted : Accepted (query.wanted rt group) := by
  have hdiscriminator := length_accountDiscriminator rt "FermiAccount"
  have hgroup := group.size
  unfold wanted
  cases query with
  | all =>
    refine ⟨by simp [wants], ?_⟩
    simp only [wants, List.forall_mem_cons, List.not_mem_nil, false_imp_iff, implies_true, and_true]
    omega
  | owner key | legacyOwner key | delegate key =>
    have hkey := key.size
    refine ⟨by simp [wants], ?_⟩
    simp only [wants, List.forall_mem_cons, List.not_mem_nil, false_imp_iff, implies_true, and_true]
    omega

theorem scan_eq (hcoder : client.coder.Lawful rt) : query.scan client group =
    client.connection.getProgramAccounts client.programId (filtersOf (query.wanted rt group)) >>=
      List.mapM fun account => client.getMangoAccountFromAi account.1 (some account.2) := by
  cases query with
  | all =>
    unfold scan getAllMangoAccounts scanFermiAccounts
    rw [hcoder.memcmp]
    rfl
  | owner key =>
    unfold scan getFermiAccountsForOwner scanFermiAccounts
    rw [hcoder.memcmp]
    rfl
  | legacyOwner key =>
    unfold scan getMangoAccountsForOwner scanFermiAccounts
    rw [hcoder.memcmp]
    rfl
  | delegate key =>
    unfold scan getMangoAccountsForDelegate scanFermiAccounts
    rw [hcoder.memcmp]
    rfl

theorem eq_of_bytes {key key' : PublicKey} : key.bytes = key'.bytes ↔ key = key' :=
  ⟨Bytes32.ext, congrArg Bytes32.bytes⟩

/-- Bytes are the wanted ones exactly if the fields are. -/
theorem wanted_iff (h : FieldsAt rt data account) :
    HasBytes data (query.wanted rt group) ↔ account.group = group ∧ query.Selects account := by
  unfold HasBytes wanted
  rw [List.forall_mem_cons, List.forall_mem_cons, length_accountDiscriminator, List.drop_zero,
    and_iff_right h.discriminator, group.size, h.group, eq_of_bytes]
  refine and_congr_right fun _ => ?_
  cases query with
  | all => exact iff_of_true (fun _ hwant => (List.not_mem_nil hwant).elim) trivial
  | owner key | legacyOwner key =>
    rw [wants, List.forall_mem_singleton, key.size, h.owner, eq_of_bytes]
    rfl
  | delegate key =>
    rw [wants, List.forall_mem_singleton, key.size, h.delegate, eq_of_bytes]
    rfl

theorem publicKeys_eq {entries : List (PublicKey × AccountInfo)} (hcoder : client.coder.Lawful rt)
    (h : List.Forall₂ (fun entry account =>
      client.getMangoAccountFromAi entry.1 (some entry.2) = .ok account) entries accounts) :
    accounts.map (fun account => account.publicKey) = entries.map Prod.fst := by
  induction h with
  | nil => rfl
  | cons hdecode _ ih =>
    rw [List.map_cons, List.map_cons, ih]
    exact congrArg (· :: _)
      (FieldsAt.of_decode hcoder (getMangoAccountFromAi_eq_ok.1 hdecode).2).1

section

variable (hcoder : client.coder.Lawful rt) (hnode : client.connection.Lawful)
include hcoder hnode

/-- A scan gives the accounts of the program whose fields are the wanted ones. -/
theorem mem_scan (h : query.scan client group = .ok accounts) :
    account ∈ accounts ↔ client.getFermiAccount account.publicKey = .ok account ∧
      account.group = group ∧ query.Selects account := by
  rw [scan_eq hcoder, Throws.bind_eq_ok] at h
  obtain ⟨found, hfound, h⟩ := h
  obtain ⟨-, hmem⟩ := hnode _ _ _ accepted_wanted hfound
  rw [Throws.mem_mapM h, getFermiAccount_eq_ok]
  constructor
  · rintro ⟨⟨key, info⟩, hlisted, hdecode⟩
    rw [getMangoAccountFromAi_eq_ok] at hdecode
    obtain ⟨rfl, hfields⟩ := FieldsAt.of_decode hcoder hdecode.2
    obtain ⟨hinfo, -, hbytes⟩ := (hmem _ _).1 hlisted
    exact ⟨⟨info, hinfo, hdecode⟩, (wanted_iff hfields).1 hbytes⟩
  · rintro ⟨⟨info, hinfo, hdecode⟩, hselected⟩
    obtain ⟨-, hfields⟩ := FieldsAt.of_decode hcoder hdecode.2
    have hlisted : (account.publicKey, info) ∈ found :=
      (hmem _ _).2 ⟨hinfo, hdecode.1, (wanted_iff hfields).2 hselected⟩
    exact ⟨_, hlisted, getMangoAccountFromAi_eq_ok.2 hdecode⟩

/-- A scan gives no account twice. -/
theorem nodup_scan (h : query.scan client group = .ok accounts) :
    (accounts.map fun account => account.publicKey).Nodup := by
  rw [scan_eq hcoder, Throws.bind_eq_ok] at h
  obtain ⟨found, hfound, h⟩ := h
  rw [publicKeys_eq hcoder (Throws.mapM_eq_ok.1 h)]
  exact (hnode _ _ _ accepted_wanted hfound).1

/-- A scan that the node answers succeeds if the Fermi accounts of the program can be read one by
one. -/
theorem exists_scan (hanswers : client.connection.Answers) (h : client.Readable rt) :
    ∃ accounts, query.scan client group = .ok accounts := by
  obtain ⟨found, hfound⟩ := hanswers client.programId (query.wanted rt group) accepted_wanted
  obtain ⟨-, hmem⟩ := hnode _ _ _ accepted_wanted hfound
  rw [scan_eq hcoder, hfound]
  refine Throws.exists_mapM fun entry hentry => ?_
  obtain ⟨hinfo, howner, hbytes⟩ := (hmem entry.1 entry.2).1 hentry
  have hdiscriminator := hbytes _ List.mem_cons_self
  rw [length_accountDiscriminator, List.drop_zero] at hdiscriminator
  obtain ⟨account, haccount⟩ := h entry.1 entry.2 hinfo howner hdiscriminator
  unfold getFermiAccount at haccount
  rw [hinfo] at haccount
  exact ⟨account, haccount⟩

end

end AccountQuery

/-! ## Lookups -/

theorem getFermiAccountForOwner_eq_some {accountNum : Option JsNumber}
    (hcoder : client.coder.Lawful rt) :
    client.getFermiAccountForOwner rt group owner accountNum = .ok (some account) ↔
      findFermiV1AccountPda rt client.programId group owner accountNum = .ok account.publicKey ∧
        client.getFermiAccount account.publicKey = .ok account ∧
        account.group = group ∧ account.owner = owner ∧
        JsNumber.int account.accountNum = accountNum.getD (.int 0) := by
  unfold getFermiAccountForOwner
  rw [Throws.bind_eq_ok]
  constructor
  · rintro ⟨pk, hpk, h⟩
    cases hinfo : client.connection.getAccountInfo pk with
    | none =>
      rw [hinfo] at h
      cases h
    | some info =>
      simp only [hinfo, Throws.bind_eq_ok, Throws.throwIf_eq_ok, exists_const, Throws.pure_eq_ok,
        not_or, not_not, Option.some_inj] at h
      obtain ⟨account', hread, hidentity, rfl⟩ := h
      obtain ⟨rfl, -⟩ := FieldsAt.of_decode hcoder (getMangoAccountFromAi_eq_ok.1 hread).2
      refine ⟨hpk, ?_, hidentity⟩
      unfold getFermiAccount
      rw [hinfo]
      exact hread
  · rintro ⟨hpk, hread, hidentity⟩
    refine ⟨account.publicKey, hpk, ?_⟩
    obtain ⟨info, hinfo, hdecode⟩ := getFermiAccount_eq_ok.1 hread
    simp only [hinfo, Throws.bind_eq_ok, Throws.throwIf_eq_ok,
      exists_const, Throws.pure_eq_ok, not_or, not_not, Option.some_inj]
    exact ⟨account, getMangoAccountFromAi_eq_ok.2 hdecode, hidentity, rfl⟩

theorem getFermiAccountForOwner_eq_none {accountNum : Option JsNumber} :
    client.getFermiAccountForOwner rt group owner accountNum = .ok none ↔
      ∃ pk, findFermiV1AccountPda rt client.programId group owner accountNum = .ok pk ∧
        client.connection.getAccountInfo pk = none := by
  unfold getFermiAccountForOwner
  rw [Throws.bind_eq_ok]
  refine exists_congr fun pk => and_congr_right fun _ => ?_
  cases hinfo : client.connection.getAccountInfo pk with
  | none => exact iff_of_true rfl rfl
  | some info =>
    refine iff_of_false ?_ (fun h => by cases h)
    simp only [Throws.bind_eq_ok, Throws.pure_eq_ok, reduceCtorEq, and_false, exists_false,
      not_false_iff]

/-- **Scans and lookups find the same accounts**, with any node and any coder that do what is
documented of them. -/
theorem accounts_found (hcoder : client.coder.Lawful rt) (hnode : client.connection.Lawful) :
    (∀ (query : AccountQuery) accounts, query.scan client group = .ok accounts →
      (accounts.map fun account => account.publicKey).Nodup ∧
      ∀ account, account ∈ accounts ↔
        client.getFermiAccount account.publicKey = .ok account ∧
          account.group = group ∧ query.Selects account) ∧
    (client.connection.Answers → client.Readable rt → ∀ query : AccountQuery,
      ∃ accounts, query.scan client group = .ok accounts) ∧
    ∀ owner accountNum accounts, client.getFermiAccountsForOwner group owner = .ok accounts →
      (∀ account,
        client.getFermiAccountForOwner rt group owner accountNum = .ok (some account) ↔
          account ∈ accounts ∧ JsNumber.int account.accountNum = accountNum.getD (.int 0) ∧
          findFermiV1AccountPda rt client.programId group owner accountNum =
            .ok account.publicKey) ∧
      (client.getFermiAccountForOwner rt group owner accountNum = .ok none ↔
        ∃ pk, findFermiV1AccountPda rt client.programId group owner accountNum = .ok pk ∧
          client.connection.getAccountInfo pk = none) := by
  refine ⟨fun query accounts h => ⟨query.nodup_scan hcoder hnode h, fun account =>
      query.mem_scan hcoder hnode h⟩,
    fun hanswers h query => query.exists_scan hcoder hnode hanswers h,
    fun owner accountNum accounts h => ⟨fun account => ?_, getFermiAccountForOwner_eq_none⟩⟩
  rw [getFermiAccountForOwner_eq_some hcoder,
    @AccountQuery.mem_scan rt client group account accounts (.owner owner) hcoder hnode h]
  constructor
  · rintro ⟨hpk, hread, hgroup, howner, hnum⟩
    exact ⟨⟨hread, hgroup, howner⟩, hnum, hpk⟩
  · rintro ⟨⟨hread, hgroup, howner⟩, hnum, hpk⟩
    exact ⟨hpk, hread, hgroup, howner, hnum⟩

end

/-! ## A recorded account -/

namespace RecordedAccount

open TriggerOrders.Recorded (group)
open RecordedCancel (programId)

def owner : PublicKey :=
  ⟨[164, 207, 198, 109, 79, 25, 133, 32, 78, 170, 168, 82, 37, 193, 57, 56,
    18, 163, 229, 207, 213, 202, 226, 40, 253, 209, 159, 148, 173, 31, 218, 20], rfl⟩

def address : PublicKey :=
  ⟨[83, 246, 46, 150, 1, 95, 147, 107, 47, 85, 20, 27, 169, 207, 65, 131,
    141, 222, 154, 33, 113, 228, 22, 52, 38, 178, 0, 127, 40, 0, 213, 124], rfl⟩

def discriminatorHash : Digest :=
  ⟨[245, 36, 51, 8, 90, 127, 231, 244, 155, 164, 244, 212, 201, 4, 48, 129,
    8, 251, 133, 173, 95, 0, 26, 81, 176, 50, 132, 237, 187, 120, 122, 23], rfl⟩

/-- SHA-256 and the program address on the recorded data. -/
def runtime : Runtime :=
  .ofTables [(Buffer.ofAscii "account:FermiAccount", discriminatorHash)] []
    [([Buffer.ofAscii "FermiAccount", group.bytes, owner.bytes, leBytes 4 0], address)]

/-- The account number 0 of the owner, without positions. -/
def info : AccountInfo where
  owner := programId
  data := discriminatorHash.bytes.take 8 ++ group.bytes ++ owner.bytes ++ List.replicate 448 0

def account : FermiAccount where
  publicKey := address
  tokens := []
  serum3 := []
  openbookV2 := some []
  group := group
  owner := owner
  delegate := PublicKey.default
  accountNum := 0

/-- A node that holds this account and an account of another program. -/
def chain : Chain where
  accounts := [(owner, ⟨PublicKey.default, []⟩), (address, info)]
  nodup := by
    rw [List.map_cons, List.map_cons, List.map_nil, List.nodup_cons, List.mem_singleton]
    exact ⟨by decide, List.nodup_singleton _⟩

def client : FermiV1AccountClient where
  connection := chain.connection
  programId := programId
  coder := .documented runtime

set_option maxRecDepth 8000 in
theorem readable : client.Readable runtime := by
  intro key info' hinfo howner _
  have hinfo : chain.accounts.lookup key = some info' := hinfo
  rw [lookup_eq_some_iff_mem chain.nodup] at hinfo
  rcases List.mem_pair.1 hinfo with heq | heq
  · cases heq
    exact absurd howner (by decide)
  · cases heq
    exact ⟨account, rfl⟩

end RecordedAccount

set_option maxRecDepth 8000 in
open TriggerOrders.Recorded (group) in
open RecordedAccount in
theorem accounts_found_recorded : ∃ accounts,
    client.getFermiAccountsForOwner group owner = .ok accounts ∧ account ∈ accounts := by
  obtain ⟨-, hreadable, hlookup⟩ := @accounts_found runtime client group
    (FermiAccountCoder.documented_lawful runtime) Chain.connection_lawful
  obtain ⟨accounts, hscan⟩ := hreadable Chain.connection_answers readable (.owner owner)
  have hfound : client.getFermiAccountForOwner runtime group owner none =
      .ok (some account) := rfl
  exact ⟨accounts, hscan, (((hlookup owner none accounts hscan).1 account).1 hfound).1⟩

end FermiSdk
