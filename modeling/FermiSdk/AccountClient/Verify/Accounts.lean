import FermiSdk.AccountClient
import FermiSdk.Lib.Fields

/-!
# What is documented of a node and of the coder

A node answers a scan with the accounts whose bytes are the wanted ones
(`ScanConnection.Lawful`), and the coder reads the fields of an account where the description has them
(`FermiAccountCoder.Lawful`). The offsets that the client writes out are those of the fields that it
means (`FieldsAt.of_decode`).
-/

namespace FermiSdk

open FermiSdk.Lib

/-! ## The node -/

/-- The data have the wanted bytes at their offsets. -/
def HasBytes (data : Bytes) (wants : List (Nat × Bytes)) : Prop :=
  ∀ want ∈ wants, (data.drop want.1).take want.2.length = want.2

instance (data : Bytes) (wants : List (Nat × Bytes)) : Decidable (HasBytes data wants) :=
  inferInstanceAs (Decidable (∀ want ∈ wants, _))

/-- What a node takes: at most four filters of at most 128 bytes each. -/
structure Accepted (wants : List (Nat × Bytes)) : Prop where
  count : wants.length ≤ 4
  size : ∀ want ∈ wants, want.2.length ≤ 128

/-- The filters that say what is wanted. -/
def filtersOf (wants : List (Nat × Bytes)) : List MemcmpFilter :=
  wants.map fun want => ⟨want.1, Base58.encode want.2⟩

/-- What is documented of the answer to a scan: the accounts of the program that have the wanted bytes,
each of them once, as a single read has them. -/
def ScanConnection.Lawful (connection : ScanConnection) : Prop :=
  ∀ programId wants found, Accepted wants →
    connection.getProgramAccounts programId (filtersOf wants) = .ok found →
    (found.map Prod.fst).Nodup ∧ ∀ key info, (key, info) ∈ found ↔
      connection.getAccountInfo key = some info ∧ info.owner = programId ∧ HasBytes info.data wants

/-- The node answers every scan that it takes. -/
def ScanConnection.Answers (connection : ScanConnection) : Prop :=
  ∀ programId wants, Accepted wants →
    ∃ found, connection.getProgramAccounts programId (filtersOf wants) = .ok found

/-! ## The coder -/

/-- The keys that the client compares, with their bytes. -/
def FermiAccount.entries (account : FermiAccount) : List (String × Bytes) := [
  ("group", account.group.bytes), ("owner", account.owner.bytes),
  ("delegate", account.delegate.bytes)]

/-- What is documented of the coder: it wants the discriminator of the account type in front, and of an
account that it decodes it gives the fields. -/
structure FermiAccountCoder.Lawful (rt : Runtime) (coder : FermiAccountCoder) : Prop where
  memcmp : coder.memcmp = ⟨0, Base58.encode (accountDiscriminator rt "FermiAccount")⟩
  decode : ∀ pk data account, coder.decode pk data = .ok account →
    account.publicKey = pk ∧ data.take 8 = accountDiscriminator rt "FermiAccount" ∧
    ∀ entry ∈ account.entries, Fields.read fermiAccountFields (data.drop 8) entry.1 = entry.2

/-! ## The offsets of the fields -/

/-- The bytes that are scanned for, by their offsets. -/
structure FieldsAt (rt : Runtime) (data : Bytes) (account : FermiAccount) : Prop where
  discriminator : data.take 8 = accountDiscriminator rt "FermiAccount"
  group : (data.drop 8).take 32 = account.group.bytes
  owner : (data.drop 40).take 32 = account.owner.bytes
  delegate : (data.drop 104).take 32 = account.delegate.bytes

/-- A field is read where the fields before it end. -/
theorem read_field {before after : List (String × Nat)} {name : String} {width : Nat}
    (data : Bytes) (hfields : fermiAccountFields = before ++ (name, width) :: after)
    (hname : name ∉ before.map Prod.fst) :
    Fields.read fermiAccountFields (data.drop 8) name =
      (data.drop (8 + Fields.size before)).take width := by
  rw [hfields, Fields.read_append hname, List.drop_drop]

theorem FieldsAt.of_decode {rt : Runtime} {coder : FermiAccountCoder} {pk : PublicKey}
    {data : Bytes} {account : FermiAccount} (hcoder : coder.Lawful rt)
    (h : coder.decode pk data = .ok account) : account.publicKey = pk ∧ FieldsAt rt data account := by
  obtain ⟨hpk, hdiscriminator, hentries⟩ := hcoder.decode pk data account h
  simp only [FermiAccount.entries, List.forall_mem_cons] at hentries
  obtain ⟨hgroup, howner, hdelegate, -⟩ := hentries
  rw [@read_field [] _ "group" 32 data rfl List.not_mem_nil] at hgroup
  rw [@read_field [("group", 32)] _ "owner" 32 data rfl (by simp)] at howner
  rw [@read_field [("group", 32), ("owner", 32), ("name", 32)] _ "delegate" 32 data rfl
    (by simp)] at hdelegate
  exact ⟨hpk, hdiscriminator, hgroup, howner, hdelegate⟩

end FermiSdk
