import FermiSdk.NumberText
import FermiSdk.Lib.Base58

/-!
# Keys, accounts and instructions

The types of web3.js that the SDK handles, and the third-party functions it calls (`Runtime`):
SHA-256, detached Ed25519 signatures, program address derivation and the builder of Ed25519
instructions. What the SDK does never depends on how these are computed.
-/

namespace FermiSdk

open FermiSdk.Lib

/-- 32 bytes. -/
structure Bytes32 where
  bytes : Bytes
  size : bytes.length = 32
  deriving DecidableEq

/-- An address on the chain. -/
abbrev PublicKey := Bytes32

/-- A SHA-256 hash. -/
abbrev Digest := Bytes32

@[ext] theorem Bytes32.ext {a b : Bytes32} (h : a.bytes = b.bytes) : a = b := by
  cases a
  cases b
  cases h
  rfl

namespace PublicKey

/-- `PublicKey.default`, the system program. -/
def default : PublicKey := ⟨List.replicate 32 0, rfl⟩

/-- The text of a key. -/
def toBase58 (key : PublicKey) : String := Base58.encode key.bytes

/-- `new PublicKey(text)`. -/
def ofBase58 (text : String) : Option PublicKey :=
  (Base58.decode text).bind fun bytes =>
    if h : bytes.length = 32 then some ⟨bytes, h⟩ else none

@[simp] theorem ofBase58_toBase58 (key : PublicKey) : ofBase58 (toBase58 key) = some key := by
  rw [ofBase58, toBase58, Base58.decode_encode, Option.bind_some, dif_pos key.size]

/-- `new PublicKey(bytes)` of 32 bytes. -/
def ofBytes (bytes : Bytes) : Throws PublicKey :=
  if h : bytes.length = 32 then pure ⟨bytes, h⟩ else throw "Invalid public key input"

theorem ofBytes_eq_ok {bytes : Bytes} {key : PublicKey} :
    ofBytes bytes = .ok key ↔ key.bytes = bytes := by
  unfold ofBytes
  constructor
  · intro h
    split at h
    · cases h
      rfl
    · cases h
  · rintro rfl
    exact dif_pos key.size

end PublicKey

/-- An account of an instruction, with its privileges. -/
structure AccountMeta where
  pubkey : PublicKey
  isSigner : Bool
  isWritable : Bool
  deriving DecidableEq

/-- A call of a program. -/
structure TransactionInstruction where
  programId : PublicKey
  keys : List AccountMeta
  data : Bytes
  deriving DecidableEq

/-- A wallet. A secret key has 64 bytes, the last 32 of which are the public key. -/
structure Keypair where
  publicKey : PublicKey
  secretKey : Bytes

/-- What a node says of an account. -/
structure AccountInfo where
  owner : PublicKey
  data : Bytes

/-- The accounts that a `Connection` reads. -/
structure Connection where
  getAccountInfo : PublicKey → Option AccountInfo

/-- `Sysvar1nstructions1111111111111111111111111`. -/
def SYSVAR_INSTRUCTIONS_PUBKEY : PublicKey :=
  ⟨[6, 167, 213, 23, 24, 123, 209, 102, 53, 218, 212, 4, 85, 253, 194, 192,
    193, 36, 198, 143, 33, 86, 117, 165, 219, 186, 203, 95, 8, 0, 0, 0], rfl⟩

/-- The third-party functions the SDK calls. -/
structure Runtime where
  /-- `createHash('sha256').update(data).digest()`. -/
  sha256 : Bytes → Digest
  /-- `nacl.sign.detached(message, secretKey)`, for a secret key of 64 bytes. -/
  sign : (message secretKey : Bytes) → Bytes
  /-- `nacl.sign.detached.verify(message, signature, key)`, for a signature of 64 bytes. -/
  verify : (message signature : Bytes) → PublicKey → Bool
  /-- `PublicKey.findProgramAddressSync(seeds, programId)[0]`. -/
  findProgramAddressSync : (seeds : List Bytes) → (programId : PublicKey) → Throws PublicKey
  /-- `Ed25519Program.createInstructionWithPublicKey`. -/
  createInstructionWithPublicKey :
    (publicKey message signature : Bytes) → Throws TransactionInstruction

/-- A runtime that knows finitely many hashes, signatures and program addresses, for evaluating the
SDK's functions on given inputs. Signatures are listed with their message, secret and public key. -/
def Runtime.ofTables (hashes : List (Bytes × Digest))
    (signatures : List (Bytes × Bytes × PublicKey × Bytes))
    (addresses : List (List Bytes × PublicKey)) : Runtime where
  sha256 data := (hashes.lookup data).getD PublicKey.default
  sign message secretKey :=
    ((signatures.find? fun s => s.1 = message ∧ s.2.1 = secretKey).map fun s => s.2.2.2).getD []
  verify message signature key :=
    signatures.any fun s => s.1 = message ∧ s.2.2.1 = key ∧ s.2.2.2 = signature
  findProgramAddressSync seeds _ :=
    match addresses.lookup seeds with
    | some address => pure address
    | none => throw "Unable to find a viable program address nonce"
  createInstructionWithPublicKey publicKey message signature := do
    throwIf (publicKey.length ≠ 32) "Public Key must be 32 bytes"
    throwIf (signature.length ≠ 64) "Signature must be 64 bytes"
    pure {
      programId := PublicKey.default
      keys := []
      data := publicKey ++ signature ++ message }

end FermiSdk
