import FermiSdk.Flp.Verify.Base58Text
import FermiSdk.Intents.Verify.Preimages
import FermiSdk.Lib.CompactU16

/-!
# The legacy packet size is that of the wire form

`transaction` is the wire form of a legacy transaction, as a codec, and `WireMessage.compiled` is
how web3.js holds a message: its blockhash and the data of its instructions as base58 texts. The
computed size adds up what each part takes on the wire (`legacyTransactionBytes_eq_length`).
-/

namespace FermiSdk.Flp

open FermiSdk.Lib

/-! ## The wire form -/

structure WireInstruction where
  programIdIndex : Nat
  accounts : List Nat
  data : Bytes

structure WireMessage where
  header : MessageHeader
  accountKeys : List PublicKey
  recentBlockhash : Bytes32
  instructions : List WireInstruction

structure WireTransaction where
  /-- 64 bytes each. -/
  signatures : List { bytes : Bytes // bytes.length = 64 }
  message : WireMessage

/-- A number in one byte. -/
def byte : Codec Nat where
  Valid n := n < 256
  encode n := [UInt8.ofNat n]
  decode bs := bs.head?.map fun b => (b.toNat, bs.tail)
  decode_encode {n} h rest := by
    have hbyte : (UInt8.ofNat n).toNat = n := by
      rw [UInt8.toNat_ofNat']
      omega
    rw [List.singleton_append, List.head?_cons, Option.map_some, hbyte, List.tail_cons]

/-- A byte of data. -/
def dataByte : Codec UInt8 :=
  byte.imap UInt8.ofNat UInt8.toNat fun _ => UInt8.ofNat_toNat

def instruction : Codec WireInstruction :=
  (byte.pair <| (CompactU16.counted byte).pair (CompactU16.counted dataByte)).imap
    (fun ⟨programIdIndex, accounts, data⟩ => { programIdIndex, accounts, data })
    (fun ix => ⟨ix.programIdIndex, ix.accounts, ix.data⟩) (fun _ => rfl)

def header : Codec MessageHeader :=
  (byte.pair <| byte.pair byte).imap
    (fun ⟨numRequiredSignatures, numReadonlySignedAccounts, numReadonlyUnsignedAccounts⟩ =>
      { numRequiredSignatures, numReadonlySignedAccounts, numReadonlyUnsignedAccounts })
    (fun h =>
      ⟨h.numRequiredSignatures, h.numReadonlySignedAccounts, h.numReadonlyUnsignedAccounts⟩)
    (fun _ => rfl)

def message : Codec WireMessage :=
  (header.pair <| (CompactU16.counted Intents.key).pair <| Intents.key.pair <|
    CompactU16.counted instruction).imap
    (fun ⟨header, accountKeys, recentBlockhash, instructions⟩ =>
      { header, accountKeys, recentBlockhash, instructions })
    (fun m => ⟨m.header, m.accountKeys, m.recentBlockhash, m.instructions⟩) (fun _ => rfl)

/-- The wire form of a legacy transaction. -/
def transaction : Codec WireTransaction :=
  ((CompactU16.counted (.fixed 64)).pair message).imap
    (fun ⟨signatures, message⟩ => { signatures, message })
    (fun tx => ⟨tx.signatures, tx.message⟩) (fun _ => rfl)

/-! ## The compiled form -/

def WireInstruction.compiled (ix : WireInstruction) : CompiledInstruction where
  programIdIndex := ix.programIdIndex
  accounts := ix.accounts
  data := JsString.ofString (Base58.encode ix.data)

/-- The message as web3.js compiles it. -/
def WireMessage.compiled (m : WireMessage) : Message where
  header := m.header
  accountKeys := m.accountKeys
  recentBlockhash := PublicKey.toBase58 m.recentBlockhash
  instructions := m.instructions.map WireInstruction.compiled

/-- All counts and lengths are below 2^16. -/
structure WireMessage.Counts (m : WireMessage) : Prop where
  signatures : m.header.numRequiredSignatures < 2 ^ 16
  accountKeys : m.accountKeys.length < 2 ^ 16
  instructions : m.instructions.length < 2 ^ 16
  accounts : ∀ ix ∈ m.instructions, ix.accounts.length < 2 ^ 16
  data : ∀ ix ∈ m.instructions, ix.data.length < 2 ^ 16

/-! ## Lengths -/

/-- Values of one length each take that length times their number. -/
theorem length_flatMap_encode {α : Type} {c : Codec α} {k : Nat} (h : ∀ a, (c.encode a).length = k)
    (l : List α) : (l.flatMap c.encode).length = k * l.length := by
  induction l with
  | nil => rfl
  | cons a l ih =>
    rw [List.flatMap_cons, List.length_append, h, ih, List.length_cons, Nat.mul_succ, Nat.add_comm]

/-- The threshold rule is the length of a compact length. -/
theorem compactU16Bytes_eq {n : Nat} (h : n < 2 ^ 16) :
    compactU16Bytes n = (CompactU16.codec.encode n).length :=
  (CompactU16.length_encode h).symm

/-- Values of one length each, with their count in front. -/
theorem length_counted {α : Type} {c : Codec α} {k : Nat} (h : ∀ a, (c.encode a).length = k)
    {l : List α} (hl : l.length < 2 ^ 16) :
    ((CompactU16.counted c).encode l).length = compactU16Bytes l.length + k * l.length := by
  rw [compactU16Bytes_eq hl, ← length_flatMap_encode h, ← List.length_append]
  rfl

theorem length_instruction {ix : WireInstruction} (haccounts : ix.accounts.length < 2 ^ 16)
    (hdata : ix.data.length < 2 ^ 16) :
    (instruction.encode ix).length =
      1 + compactU16Bytes ix.accounts.length + ix.accounts.length +
        compactU16Bytes ix.data.length + ix.data.length := by
  have hparts : instruction.encode ix = byte.encode ix.programIdIndex ++
      ((CompactU16.counted byte).encode ix.accounts ++
        (CompactU16.counted dataByte).encode ix.data) := rfl
  have hindex : (byte.encode ix.programIdIndex).length = 1 := rfl
  rw [hparts, List.length_append, List.length_append, hindex,
    length_counted (k := 1) (fun _ => rfl) haccounts, length_counted (k := 1) (fun _ => rfl) hdata]
  omega

/-- The loop over the instructions adds up what they take on the wire. -/
theorem foldlM_legacyInstructionBytes {l : List WireInstruction}
    (haccounts : ∀ ix ∈ l, ix.accounts.length < 2 ^ 16)
    (hdata : ∀ ix ∈ l, ix.data.length < 2 ^ 16) (n : Nat) :
    (l.map WireInstruction.compiled).foldlM legacyInstructionBytes n =
      .ok (n + (l.flatMap instruction.encode).length) := by
  induction l generalizing n with
  | nil => rfl
  | cons ix l ih =>
    have hlength :=
      length_instruction (haccounts ix List.mem_cons_self) (hdata ix List.mem_cons_self)
    have hstep : legacyInstructionBytes n ix.compiled =
        .ok (n + (instruction.encode ix).length) := by
      rw [legacyInstructionBytes, WireInstruction.compiled, bs58Decode_ofString_encode, hlength]
      rfl
    rw [List.map_cons, List.foldlM_cons, hstep, Throws.ok_bind,
      ih (fun x hx => haccounts x (List.mem_cons_of_mem _ hx)) fun x hx =>
        hdata x (List.mem_cons_of_mem _ hx),
      List.flatMap_cons, List.length_append, Nat.add_assoc]

/-- What a transaction takes on the wire, part by part. -/
theorem length_transaction {tx : WireTransaction} (hcounts : tx.message.Counts)
    (hsignatures : tx.signatures.length = tx.message.header.numRequiredSignatures) :
    (transaction.encode tx).length =
      compactU16Bytes tx.message.header.numRequiredSignatures +
        64 * tx.message.header.numRequiredSignatures + 3 +
        compactU16Bytes tx.message.accountKeys.length + 32 * tx.message.accountKeys.length + 32 +
        compactU16Bytes tx.message.instructions.length +
        (tx.message.instructions.flatMap instruction.encode).length := by
  have hparts : transaction.encode tx = (CompactU16.counted (.fixed 64)).encode tx.signatures ++
      (header.encode tx.message.header ++
        ((CompactU16.counted Intents.key).encode tx.message.accountKeys ++
          (Intents.key.encode tx.message.recentBlockhash ++
            (CompactU16.codec.encode tx.message.instructions.length ++
              tx.message.instructions.flatMap instruction.encode)))) := rfl
  have hheader : (header.encode tx.message.header).length = 3 := rfl
  have hblockhash : (Intents.key.encode tx.message.recentBlockhash).length = 32 :=
    tx.message.recentBlockhash.size
  rw [hparts]
  simp only [List.length_append]
  rw [hheader, hblockhash, length_counted (fun s => s.2) (hsignatures ▸ hcounts.signatures),
    length_counted (fun key => key.size) hcounts.accountKeys,
    compactU16Bytes_eq hcounts.instructions, hsignatures]
  omega

/-- **The computed size of a legacy transaction is the length of its wire form.** -/
theorem legacyTransactionBytes_eq_length {web3 : Web3} {instructions : List TransactionInstruction}
    {payer : PublicKey} {tx : WireTransaction}
    (hcompile : compileLegacy web3 instructions payer = .ok tx.message.compiled)
    (hcounts : tx.message.Counts)
    (hsignatures : tx.signatures.length = tx.message.header.numRequiredSignatures) :
    legacyTransactionBytes web3 instructions payer = .ok (transaction.encode tx).length := by
  rw [legacyTransactionBytes, hcompile, Throws.ok_bind, length_transaction hcounts hsignatures]
  dsimp only [WireMessage.compiled]
  rw [foldlM_legacyInstructionBytes hcounts.accounts hcounts.data, List.length_map]

/-- A payer and its program, with an instruction that carries leading zeros. -/
def smallMessage : WireMessage where
  header := ⟨1, 0, 1⟩
  accountKeys := [⟨List.replicate 32 11, rfl⟩, ⟨List.replicate 32 12, rfl⟩]
  recentBlockhash := PublicKey.default
  instructions := [{ programIdIndex := 1, accounts := [0], data := [0, 0, 5] }]

def smallPayer : PublicKey := ⟨List.replicate 32 11, rfl⟩

/-- The instruction of `smallMessage` before it is compiled. -/
def smallInstruction : TransactionInstruction where
  programId := ⟨List.replicate 32 12, rfl⟩
  keys := [{ pubkey := smallPayer, isSigner := true, isWritable := true }]
  data := [0, 0, 5]

/-- `ComputeBudget111111111111111111111111111111`. -/
def COMPUTE_BUDGET_PROGRAM_ID : PublicKey :=
  ⟨[3, 6, 70, 111, 229, 33, 23, 50, 255, 236, 173, 186, 114, 195, 155, 231,
    188, 140, 229, 187, 197, 247, 18, 107, 44, 67, 155, 58, 64, 0, 0, 0], rfl⟩

/-- web3.js, with a compiler that knows one message. -/
def smallWeb3 : Web3 where
  compileToLegacyMessage payerKey recentBlockhash instructions :=
    if payerKey = smallPayer ∧ recentBlockhash = PublicKey.default.toBase58 ∧
        instructions = [smallInstruction] then
      pure smallMessage.compiled
    else throw "unknown message"
  setComputeUnitLimit units :=
    { programId := COMPUTE_BUDGET_PROGRAM_ID, keys := [], data := 2 :: leBytes 4 units }
  setComputeUnitPrice microLamports :=
    { programId := COMPUTE_BUDGET_PROGRAM_ID, keys := [], data := 3 :: leBytes 8 microLamports }

/-- `smallMessage` with its signature. -/
def smallTransaction : WireTransaction where
  signatures := [⟨List.replicate 64 13, rfl⟩]
  message := smallMessage

theorem legacyTransactionBytes_small :
    legacyTransactionBytes smallWeb3 [smallInstruction] smallPayer = .ok 173 := by
  have hcompile : compileLegacy smallWeb3 [smallInstruction] smallPayer =
      .ok smallTransaction.message.compiled := by
    simp only [compileLegacy, smallWeb3, and_self, if_true]
    rfl
  have hcounts : smallTransaction.message.Counts := by
    constructor <;> decide
  have hsize : (transaction.encode smallTransaction).length = 173 := rfl
  rw [← hsize]
  exact legacyTransactionBytes_eq_length hcompile hcounts rfl

/-! ## The format of operator packets -/

/-- What an operator packet of a format is within. -/
def WithinLimits (web3 : Web3) (instructions : List TransactionInstruction) (payer : PublicKey) :
    TransactionFormat → Prop
  | .legacy => ∃ bytes,
      legacyTransactionBytes web3 (computeBudgetInstructions web3 ++ instructions) payer =
        .ok bytes ∧ bytes ≤ LEGACY_PACKET_BYTES
  | .v1 => uniqueAddressCount instructions (some payer) ≤ V1_MAX_ADDRESSES ∧ ∃ bytes,
      v1TransactionBytes web3 instructions payer = .ok bytes ∧ bytes ≤ V1_TRANSACTION_BYTES

/-- **The format of an operator packet holds the packet.** -/
theorem withinLimits_of_format {web3 : Web3} {instructions : List TransactionInstruction}
    {payer : PublicKey} {format : TransactionFormat}
    (h : operatorTransactionFormat web3 instructions payer = .ok format) :
    WithinLimits web3 instructions payer format := by
  simp only [operatorTransactionFormat, fitsLegacyPacket, if_true, Throws.bind_eq_ok,
    Throws.pure_eq_ok] at h
  obtain ⟨fit, ⟨bytes, hbytes, rfl⟩, h⟩ := h
  dsimp only at h
  split at h
  · next hfits =>
    rw [Throws.pure_eq_ok] at h
    subst h
    exact ⟨bytes, hbytes, of_decide_eq_true hfits⟩
  · simp only [Throws.bind_eq_ok, Throws.pure_eq_ok, Throws.throwIf_eq_ok, exists_const] at h
    obtain ⟨size, hsize, hlimits, rfl⟩ := h
    push Not at hlimits
    exact ⟨hlimits.1, size, hsize, hlimits.2⟩

end FermiSdk.Flp
