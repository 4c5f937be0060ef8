import FermiSdk.Flp.Builders

/-!
# The pricing context

`src/flpContext.ts`: the accounts that the pricing of a vault needs, read from the core program. The
client of the core program is a parameter, down to the values that are read of what it returns. The
check that the fee recipient of the vault is a key always passes here.
-/

namespace FermiSdk

open FermiSdk.Lib

/-- A bank of the core program. -/
structure CoreBank where
  publicKey : PublicKey
  vault : PublicKey
  oracle : PublicKey

/-- A group of the core program, of which only the bank of a mint is asked. -/
structure CoreGroup where
  getFirstBankByMint : PublicKey → Throws CoreBank

/-- What is compared of the core account of the vault. -/
structure CoreAccount where
  group : PublicKey
  owner : PublicKey

/-- What is used of `FermiV1AccountClient`. -/
structure CoreClient where
  programId : PublicKey
  getFermiAccount : PublicKey → Throws CoreAccount
  getGroup : PublicKey → Throws CoreGroup
  buildHealthRemainingAccounts : CoreGroup → List CoreAccount → List CoreBank →
    Throws (List PublicKey)

/-- What the builders take: `health` where they append the queues themselves, and `pricingHealth`
where they do not. -/
structure FlpPricingContext where
  group : CoreGroup
  account : CoreAccount
  health : List AccountMeta
  pricingHealth : List AccountMeta
  accounts : List (String × PublicKey)
  pricingAccounts : List (String × PublicKey)

/-- The accounts of a flow, for an authority, a bank and the accounts of fees and idle tokens. -/
def flowEntries (state : VaultState) (coreProgram authority : PublicKey) (bank : CoreBank)
    (feeShareAccount idleAccount : PublicKey) : List (String × PublicKey) := [
  ("authority", authority),
  ("fermi.group", state.group),
  ("fermi.fermiAccount", state.fermiAccount),
  ("fermi.quoteBank", bank.publicKey),
  ("fermi.quoteBankVault", bank.vault),
  ("fermi.quoteOracle", bank.oracle),
  ("fermi.fermiProgram", coreProgram),
  ("fermi.tokenProgram", TOKEN_PROGRAM_ID),
  ("feeShareAccount", feeShareAccount),
  ("idleAccount", idleAccount),
  ("shareMint", state.shareMint),
  ("token2022Program", TOKEN_2022_PROGRAM_ID),
  ("systemProgram", PublicKey.default)]

/-- The entries under the prefix of the group `pricing`. -/
def pricingEntries (entries : List (String × PublicKey)) : List (String × PublicKey) :=
  (entries.filter fun entry => entry.1 ≠ "systemProgram").map fun entry =>
    ("pricing." ++ entry.1, entry.2)

/-- The context, and the client with the queues it has learnt. -/
def buildFlpPricingContext (rt : Runtime) (spl : SplToken) (core : CoreClient)
    (client : FlpV4Client) (vault : PublicKey) (state : VaultState) :
    Throws (FlpPricingContext × FlpV4Client) := do
  let account ← core.getFermiAccount state.fermiAccount
  let authority ← deriveAuthority rt client.programId vault
  throwIf (account.group ≠ state.group ∨ account.owner ≠ authority)
    "FLP core account does not match the vault group and authority"
  let group ← core.getGroup state.group
  let bank ← group.getFirstBankByMint state.quoteMint
  throwIf (bank.publicKey ≠ state.quoteBank) "FLP quote bank does not match the group"
  let keys ← core.buildHealthRemainingAccounts group [account] [bank]
  let health := keys.map fun pubkey => { pubkey, isSigner := false, isWritable := false }
  let feeShareAccount ← spl.getAssociatedTokenAddressSync state.shareMint state.feeRecipient
    TOKEN_2022_PROGRAM_ID
  let idleAccount ← spl.getAssociatedTokenAddressSync state.quoteMint authority TOKEN_PROGRAM_ID
  let accounts := flowEntries state core.programId authority bank feeShareAccount idleAccount
  let (pricingHealth, client') := client.withEventQueues rt health
  pure ({
    group, account, health, pricingHealth, accounts
    pricingAccounts := pricingEntries accounts }, client')

end FermiSdk
