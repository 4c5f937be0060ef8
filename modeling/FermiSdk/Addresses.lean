import FermiSdk.Flp.Client
import FermiSdk.Intents.Messages

/-!
# Derived addresses

`findFermiV1AccountPda` of `src/accountClient.ts`, and the derivations of `src/flp/index.ts` that the
vault clients do not use themselves. A program address is derived from seeds; where a derivation
checks its arguments, its seeds have a definition of their own.
-/

namespace FermiSdk

open FermiSdk.Lib

/-- The seeds of `findFermiV1AccountPda`. -/
def fermiV1AccountSeeds (group owner : PublicKey) (accountNum : JsNumber) :
    Throws (List Bytes) := do
  throwIf (!accountNum.isIntegerIn 0 0xffffffff) "accountNum must be an unsigned 32-bit integer"
  let num := leBytes 4 (← accountNum.toBigInt).toNat
  pure [Buffer.ofAscii "FermiAccount", group.bytes, owner.bytes, num]

/-- The seeds of `deriveFermiAccount`. -/
def vaultFermiAccountSeeds (group authority : PublicKey) (vaultId : JsNumber) :
    Throws (List Bytes) := do
  let _ ← unsigned (.number vaultId) 2
  pure [Buffer.ofAscii "FermiAccount", group.bytes, authority.bytes, ← unsigned (.number vaultId) 4]

/-- The seeds of the vault itself. -/
def vaultSeeds (group : PublicKey) (vaultId : JsNumber) : Throws (List Bytes) := do
  pure [Buffer.ofAscii "flp-vault", group.bytes, ← unsigned (.number vaultId) 2]

/-- The addresses that a vault is created with. -/
structure DerivedVaultAddresses where
  vault : PublicKey
  authority : PublicKey
  shareMint : PublicKey
  depositEscrow : PublicKey
  redemptionEscrow : PublicKey

section

variable (rt : Runtime)

/-- The account of an owner by its number, which is 0 if it is left out. -/
def findFermiV1AccountPda (programId group owner : PublicKey) (accountNum : Option JsNumber) :
    Throws PublicKey := do
  rt.findProgramAddressSync (← fermiV1AccountSeeds group owner (accountNum.getD (.int 0))) programId

/-- The vault from the group and its id, the rest from the vault. -/
def deriveVaultAddresses (programId group : PublicKey) (vaultId : JsNumber) :
    Throws DerivedVaultAddresses := do
  let derive (seeds : List Bytes) := rt.findProgramAddressSync seeds programId
  let vault ← derive (← vaultSeeds group vaultId)
  pure {
    vault := vault
    authority := ← derive [Buffer.ofAscii "flp-authority", vault.bytes]
    shareMint := ← derive [Buffer.ofAscii "flp-shares", vault.bytes]
    depositEscrow :=
      ← derive [Buffer.ofAscii "flp-escrow", vault.bytes, Buffer.ofAscii "dep"]
    redemptionEscrow :=
      ← derive [Buffer.ofAscii "flp-escrow", vault.bytes, Buffer.ofAscii "red"] }

/-- The record of a user. -/
def deriveDepositor (programId vault user : PublicKey) : Throws PublicKey :=
  rt.findProgramAddressSync [Buffer.ofAscii "flp-user", vault.bytes, user.bytes] programId

/-- The core account of a vault, which is one of its authority. The id is checked to fit two bytes
and written with four. -/
def deriveFermiAccount (coreProgramId group authority : PublicKey) (vaultId : JsNumber) :
    Throws PublicKey := do
  rt.findProgramAddressSync (← vaultFermiAccountSeeds group authority vaultId) coreProgramId

end

end FermiSdk
