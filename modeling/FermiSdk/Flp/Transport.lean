import FermiSdk.JsString
import FermiSdk.Solana

/-!
# Transport of FLP instructions

The transaction sizes that `src/flp/index.ts` computes without serialising, its decoder of base58
texts, and the choice of a transaction format that follows from the sizes. The message compiler and
the compute budget instructions of web3.js are parameters (`Web3`).
-/

namespace FermiSdk

open FermiSdk.Lib

/-! ## Base58 -/

namespace JsString

/-- The first code unit of a pair. -/
def isHighSurrogate (u : UInt16) : Bool := 0xd800 ≤ u && u ≤ 0xdbff

/-- The second code unit of a pair. -/
def isLowSurrogate (u : UInt16) : Bool := 0xdc00 ≤ u && u ≤ 0xdfff

/-- The texts that `for (const c of text)` goes through: a surrogate pair or one code unit each. -/
def codePoints : JsString → List JsString
  | [] => []
  | [u] => [[u]]
  | u :: v :: rest =>
    if isHighSurrogate u && isLowSurrogate v then [u, v] :: codePoints rest
    else [u] :: codePoints (v :: rest)

/-- `text.indexOf(search)`, with `none` for -1. -/
def indexOf (text search : JsString) : Option Nat :=
  (List.range (text.length + 1)).find? fun i => search.isPrefixOf (text.drop i)

end JsString

namespace Flp

/-- The alphabet, in the order of the digits. -/
def BASE58 : JsString :=
  JsString.ofString "123456789ABCDEFGHJKLMNPQRSTUVWXYZabcdefghijkmnopqrstuvwxyz"

/-- One turn of the loop over the characters. -/
def bs58Step (n : Nat) (c : JsString) : Throws Nat :=
  match BASE58.indexOf c with
  | none => throw "Invalid base58"
  | some digit => pure (n * 58 + digit)

/-- The digits are read as one number; each `1` in front is a zero byte. -/
def bs58Decode (text : JsString) : Throws Bytes := do
  let n ← text.codePoints.foldlM bs58Step 0
  let bytes := (Numeral.digits 256 n).map UInt8.ofNat
  let ones := text.codePoints.takeWhile fun c => c = JsString.ofChar '1'
  pure (List.replicate ones.length 0 ++ bytes)

/-! ## Compiled messages -/

/-- The counts from which the privileges of the accounts follow. -/
structure MessageHeader where
  numRequiredSignatures : Nat
  numReadonlySignedAccounts : Nat
  numReadonlyUnsignedAccounts : Nat
  deriving DecidableEq

/-- A compiled instruction, with its data in base58. -/
structure CompiledInstruction where
  programIdIndex : Nat
  accounts : List Nat
  data : JsString
  deriving DecidableEq

/-- A legacy message, with its blockhash in base58. -/
structure Message where
  header : MessageHeader
  accountKeys : List PublicKey
  recentBlockhash : String
  instructions : List CompiledInstruction
  deriving DecidableEq

/-- The functions of web3.js that the sizes rest on. -/
structure Web3 where
  /-- `new TransactionMessage({ payerKey, recentBlockhash, instructions }).compileToLegacyMessage()`. -/
  compileToLegacyMessage :
    (payerKey : PublicKey) → (recentBlockhash : String) →
      (instructions : List TransactionInstruction) → Throws Message
  /-- `ComputeBudgetProgram.setComputeUnitLimit`. -/
  setComputeUnitLimit : (units : Nat) → TransactionInstruction
  /-- `ComputeBudgetProgram.setComputeUnitPrice`. -/
  setComputeUnitPrice : (microLamports : Nat) → TransactionInstruction

/-! ## Sizes -/

/-- Legacy transaction packet limit. -/
def LEGACY_PACKET_BYTES : Nat := 1232

/-- SIMD-0385 v1 transaction limits. -/
def V1_TRANSACTION_BYTES : Nat := 4096

/-- The addresses that a v1 transaction may have. -/
def V1_MAX_ADDRESSES : Nat := 64

/-- Unique addresses of one transaction: the fee payer, every program id and every account. -/
def uniqueAddressCount (instructions : List TransactionInstruction) (payer : Option PublicKey) :
    Nat :=
  let keys := payer.toList ++ instructions.flatMap fun ix => ix.programId :: ix.keys.map (·.pubkey)
  (keys.map PublicKey.toBase58).eraseDups.length

section

variable (web3 : Web3)

/-- Any blockhash will do for a size. -/
def compileLegacy (instructions : List TransactionInstruction) (payer : PublicKey) :
    Throws Message :=
  web3.compileToLegacyMessage payer PublicKey.default.toBase58 instructions

/-- The bytes of a length, as messages write it. -/
def compactU16Bytes (value : Nat) : Nat :=
  if value < 0x80 then 1 else if value < 0x4000 then 2 else 3

/-- What one instruction adds to a legacy transaction. -/
def legacyInstructionBytes (bytes : Nat) (ix : CompiledInstruction) : Throws Nat := do
  let data := (← bs58Decode ix.data).length
  pure (bytes + (1 + compactU16Bytes ix.accounts.length + ix.accounts.length +
    compactU16Bytes data + data))

/-- Serialized size as one legacy transaction, signatures included. -/
def legacyTransactionBytes (instructions : List TransactionInstruction) (payer : PublicKey) :
    Throws Nat := do
  let message ← compileLegacy web3 instructions payer
  let signatures := message.header.numRequiredSignatures
  let bytes := compactU16Bytes signatures + 64 * signatures + 3 +
    compactU16Bytes message.accountKeys.length + 32 * message.accountKeys.length + 32 +
    compactU16Bytes message.instructions.length
  message.instructions.foldlM legacyInstructionBytes bytes

/-- What one instruction adds to a v1 transaction. -/
def v1InstructionBytes (bytes : Nat) (ix : CompiledInstruction) : Throws Nat := do
  pure (bytes + (4 + ix.accounts.length + (← bs58Decode ix.data).length))

/-- Serialized size as one SIMD-0385 v1 transaction. -/
def v1TransactionBytes (instructions : List TransactionInstruction) (payer : PublicKey) :
    Throws Nat := do
  let message ← compileLegacy web3 instructions payer
  let bytes := 1 + 3 + 4 + 32 + 1 + 1 + 32 * message.accountKeys.length + 4 * 5
  let bytes ← message.instructions.foldlM v1InstructionBytes bytes
  pure (bytes + 64 * message.header.numRequiredSignatures)

/-- The instructions that a wallet adds. Their values do not matter for the size. -/
def computeBudgetInstructions : List TransactionInstruction :=
  [web3.setComputeUnitLimit 1400000, web3.setComputeUnitPrice 1]

/-- Whether a packet fits, and by what it would not. -/
structure PacketFit where
  fits : Bool
  bytes : Nat
  addresses : Nat

/-- Whether user instructions fit one legacy packet. -/
def fitsLegacyPacket (instructions : List TransactionInstruction) (payer : PublicKey)
    (computeBudget : Bool) : Throws PacketFit := do
  let all := if computeBudget then computeBudgetInstructions web3 ++ instructions else instructions
  let bytes ← legacyTransactionBytes web3 all payer
  pure {
    fits := bytes ≤ LEGACY_PACKET_BYTES
    bytes
    addresses := uniqueAddressCount all (some payer) }

/-- The two formats that an operator may send. -/
inductive TransactionFormat where
  | legacy
  | v1
  deriving DecidableEq

/-- Operator packets: a legacy transaction when it fits, otherwise a v1 transaction. -/
def operatorTransactionFormat (instructions : List TransactionInstruction) (payer : PublicKey) :
    Throws TransactionFormat := do
  if (← fitsLegacyPacket web3 instructions payer true).fits then
    return .legacy
  let addresses := uniqueAddressCount instructions (some payer)
  let bytes ← v1TransactionBytes web3 instructions payer
  throwIf (addresses > V1_MAX_ADDRESSES ∨ bytes > V1_TRANSACTION_BYTES)
    (s!"Operator packet needs {addresses} addresses and {bytes} bytes; v1 allows " ++
      s!"{V1_MAX_ADDRESSES} and {V1_TRANSACTION_BYTES}")
  pure .v1

end

end Flp

end FermiSdk
