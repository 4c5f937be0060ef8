import FermiSdk.Addresses
import FermiSdk.Context
import FermiSdk.Lib.Base58

/-!
# Accounts of the core program

`src/accountClient.ts`: the layout of Fermi accounts, and the requests by which the client finds them.
Of a decoded account the model has the fields that the SDK reads.

The connection to a node and the coder of anchor are parameters. What is documented of them is said
where results rest on it (`ScanConnection.Lawful`, `FermiAccountCoder.Lawful`).
-/

namespace FermiSdk

open FermiSdk.Lib

/-! ## The account type -/

/-- The fields of `fermiAccount` in `idl/fermi_v1.ts` before its lists. -/
def fermiAccountFields : List (String × Nat) := [
  ("group", 32), ("owner", 32), ("name", 32), ("delegate", 32), ("accountNum", 4),
  ("beingLiquidated", 1), ("inHealthRegion", 1), ("bump", 1), ("sequenceNumber", 1),
  ("netDeposits", 8), ("perpSpotTransfers", 8), ("healthRegionBeginInitHealth", 8),
  ("frozenUntil", 8), ("buybackFeesAccruedCurrent", 8), ("buybackFeesAccruedPrevious", 8),
  ("buybackFeesExpiryTimestamp", 8), ("nextTokenConditionalSwapId", 8), ("temporaryDelegate", 32),
  ("temporaryDelegateExpiry", 8), ("lastCollateralFeeCharge", 8), ("reserved", 152),
  ("headerVersion", 1), ("padding3", 7)]

/-- `MangoAccount` with the fields that the client adds. -/
structure FermiAccount extends FermiV1Account where
  group : PublicKey
  owner : PublicKey
  delegate : PublicKey
  accountNum : Int

/-! ## What the client reads through -/

/-- Bytes that the data of an account have to have at an offset. -/
structure MemcmpFilter where
  offset : Nat
  /-- The wanted bytes in base58. -/
  bytes : String

/-- What the client calls of the connection to a node. -/
structure ScanConnection extends Connection where
  getProgramAccounts : (programId : PublicKey) → (filters : List MemcmpFilter) →
    Throws (List (PublicKey × AccountInfo))

/-- What the client calls of the coder that anchor makes from the description of the program. -/
structure FermiAccountCoder where
  /-- `accounts.memcmp('fermiAccount')`. -/
  memcmp : MemcmpFilter
  /-- `MangoAccount.from(pk, accounts.decode('fermiAccount', data))`. -/
  decode : (pk : PublicKey) → (data : Bytes) → Throws FermiAccount

/-! ## The client -/

/-- A client of one program, which reads with that program's coder. -/
structure FermiV1AccountClient where
  connection : ScanConnection
  programId : PublicKey
  coder : FermiAccountCoder

namespace FermiV1AccountClient

variable (rt : Runtime) (client : FermiV1AccountClient)

/-- The account that was read at `pk`, if it was there and is the program's. -/
def getMangoAccountFromAi (pk : PublicKey) (ai : Option AccountInfo) : Throws FermiAccount :=
  match ai.filter fun ai => ai.owner = client.programId with
  | none => throw s!"Fermi account {pk.toBase58} is missing or has the wrong program owner"
  | some ai => client.coder.decode pk ai.data

/-- One account, by its key. -/
def getFermiAccount (pk : PublicKey) : Throws FermiAccount :=
  client.getMangoAccountFromAi pk (client.connection.getAccountInfo pk)

/-- The account of an owner with a number, which is looked for at the address derived from both. -/
def getFermiAccountForOwner (group owner : PublicKey) (accountNum : Option JsNumber) :
    Throws (Option FermiAccount) := do
  let pk ← findFermiV1AccountPda rt client.programId group owner accountNum
  match client.connection.getAccountInfo pk with
  | none => pure none
  | some ai =>
    let account ← client.getMangoAccountFromAi pk (some ai)
    throwIf (account.group ≠ group ∨ account.owner ≠ owner ∨
        JsNumber.int account.accountNum ≠ accountNum.getD (.int 0))
      "Fermi account does not match the requested group, owner and account number"
    pure (some account)

/-- The accounts of a group that pass the filters, without `loadSerum3Oo`. Every account that the
node returns has to be readable. -/
def scanFermiAccounts (group : PublicKey) (filters : List MemcmpFilter) :
    Throws (List FermiAccount) := do
  let accounts ← client.connection.getProgramAccounts client.programId
    ([client.coder.memcmp, ⟨8, group.toBase58⟩] ++ filters)
  accounts.mapM fun account => client.getMangoAccountFromAi account.1 (some account.2)

/-- The owner stands behind the discriminator and the group. -/
def getFermiAccountsForOwner (group owner : PublicKey) : Throws (List FermiAccount) :=
  client.scanFermiAccounts group [⟨40, owner.toBase58⟩]

/-- The older name. -/
def getMangoAccountsForOwner (group owner : PublicKey) : Throws (List FermiAccount) :=
  client.scanFermiAccounts group [⟨40, owner.toBase58⟩]

/-- The delegate stands behind the owner and the name. -/
def getMangoAccountsForDelegate (group delegate : PublicKey) : Throws (List FermiAccount) :=
  client.scanFermiAccounts group [⟨104, delegate.toBase58⟩]

/-- All accounts of a group. -/
def getAllMangoAccounts (group : PublicKey) : Throws (List FermiAccount) :=
  client.scanFermiAccounts group []

end FermiV1AccountClient

end FermiSdk
