import FermiSdk.Addresses
import FermiSdk.Intents.Verify.Preimages

/-!
# Derived addresses never alias

Seeds are concatenated without lengths, so a derivation is told apart by its tag, by its length or by
what it ends with. `Derivation` is a derivation of the SDK with its arguments. Its concatenated seeds
are a tag, the arguments in fixed widths and an ending (`concat_seeds`); two of different kinds
differ in one of these (`tag_suffix_eq`), and the widths make the arguments of one kind
unambiguous, so that equal concatenations come from one derivation (`addresses_never_alias`).
-/

namespace FermiSdk

open FermiSdk.Lib FermiSdk.Intents

/-! ## Checked integers -/

theorem checkUnsigned_eq_ok {value : BigNumberish} {bits : Nat} {unsafeText rangeText : String}
    {n : Int} :
    checkUnsigned value bits unsafeText rangeText = .ok n ↔
      toBigInt value = .ok n ∧ 0 ≤ n ∧ n < 2 ^ bits := by
  cases value with
  | bigint m =>
    simp only [checkUnsigned, Throws.bind_eq_ok, Throws.throwIf_eq_ok, exists_const,
      Throws.pure_eq_ok, toBigInt_bigint, Except.ok.injEq, not_or, not_lt, not_le]
    constructor
    · rintro ⟨_, rfl, ⟨h0, h1⟩, rfl⟩
      exact ⟨rfl, h0, h1⟩
    · rintro ⟨rfl, h0, h1⟩
      exact ⟨m, rfl, ⟨h0, h1⟩, rfl⟩
  | number x =>
    simp only [checkUnsigned, Throws.bind_eq_ok, Throws.throwIf_eq_ok, exists_const,
      Throws.pure_eq_ok, toBigInt_number_eq_ok, JsNumber.toBigInt_eq_ok, not_or, not_lt, not_le,
      Bool.not_eq_true', Bool.not_eq_false]
    constructor
    · rintro ⟨hs, m, rfl, ⟨h0, h1⟩, rfl⟩
      exact ⟨⟨rfl, hs⟩, h0, h1⟩
    · rintro ⟨⟨rfl, hs⟩, h0, h1⟩
      exact ⟨hs, n, rfl, ⟨h0, h1⟩, rfl⟩

theorem unsigned_eq_ok {value : BigNumberish} {w : Nat} {bs : Bytes} :
    unsigned value w = .ok bs ↔
      ∃ n, toBigInt value = .ok n ∧ (Codec.uint w).Encodes n bs := by
  have hpow : (2 : Int) ^ (8 * w) = 256 ^ w := by
    rw [pow_mul]
    norm_num
  simp only [unsigned, Throws.bind_eq_ok, Throws.pure_eq_ok, checkUnsigned_eq_ok, hpow]
  constructor
  · rintro ⟨n, ⟨hn, h0, h1⟩, rfl⟩
    exact ⟨n, hn, ⟨h0, h1⟩, rfl⟩
  · rintro ⟨n, hn, ⟨h0, h1⟩, rfl⟩
    exact ⟨n, ⟨hn, h0, h1⟩, rfl⟩

/-- An accepted `number` is the integer it encodes. -/
theorem unsigned_number_eq_ok {x : JsNumber} {w : Nat} {bs : Bytes}
    (h : unsigned (.number x) w = .ok bs) : ∃ n, x = .int n ∧ (Codec.uint w).Encodes n bs := by
  obtain ⟨n, hn, henc⟩ := unsigned_eq_ok.1 h
  exact ⟨n, (toBigInt_number_eq_ok.1 hn).1, henc⟩

theorem fermiV1AccountSeeds_eq_ok {group owner : PublicKey} {accountNum : JsNumber}
    {s : List Bytes} :
    fermiV1AccountSeeds group owner accountNum = .ok s ↔
      ∃ n num, accountNum = .int n ∧ (Codec.uint 4).Encodes n num ∧
        s = [Buffer.ofAscii "FermiAccount", group.bytes, owner.bytes, num] := by
  have hrange : ∀ n : Int, (0 ≤ n ∧ n ≤ 0xffffffff) ↔ (Codec.uint 4).Valid n := fun n =>
    and_congr_right fun _ => by omega
  rw [fermiV1AccountSeeds, JsNumber.checked_bind_eq_ok]
  constructor
  · rintro ⟨n, rfl, hn, h⟩
    exact ⟨n, _, rfl, ⟨(hrange n).1 hn, rfl⟩, (Throws.pure_eq_ok.1 h).symm⟩
  · rintro ⟨n, _, rfl, ⟨hn, rfl⟩, rfl⟩
    exact ⟨n, rfl, (hrange n).2 hn, rfl⟩

/-! ## Derivations -/

/-- The derivations of the SDK: four of the core program, nine of the vault program. -/
inductive Derivation where
  | fermiAccount (group owner : PublicKey) (accountNum : JsNumber)
  | queueAuthorityState (group : PublicKey)
  | executionQueueV5 (group : PublicKey) (marketIndex : JsNumber)
  | executionQueueV5Direct (group : PublicKey) (marketIndex : JsNumber)
  | vault (group : PublicKey) (vaultId : JsNumber)
  | authority (vault : PublicKey)
  | shareMint (vault : PublicKey)
  | depositEscrow (vault : PublicKey)
  | redemptionEscrow (vault : PublicKey)
  | depositor (vault user : PublicKey)
  | epoch (vault : PublicKey) (epoch : Int)
  | recoveryTargets (vault : PublicKey)
  | fundingWindow (vault : PublicKey)
  deriving DecidableEq

namespace Derivation

def seeds : Derivation → Throws (List Bytes)
  | .fermiAccount group owner accountNum => fermiV1AccountSeeds group owner accountNum
  | .queueAuthorityState group => pure (executionQueueAuthorityStateSeeds group)
  | .executionQueueV5 group marketIndex => executionQueueV5Seeds group marketIndex
  | .executionQueueV5Direct group marketIndex => executionQueueV5DirectSeeds group marketIndex
  | .vault group vaultId => vaultSeeds group vaultId
  | .authority v => pure [Buffer.ofAscii "flp-authority", v.bytes]
  | .shareMint v => pure [Buffer.ofAscii "flp-shares", v.bytes]
  | .depositEscrow v => pure [Buffer.ofAscii "flp-escrow", v.bytes, Buffer.ofAscii "dep"]
  | .redemptionEscrow v =>
    pure [Buffer.ofAscii "flp-escrow", v.bytes, Buffer.ofAscii "red"]
  | .depositor v user => pure [Buffer.ofAscii "flp-user", v.bytes, user.bytes]
  | .epoch v n => do
    pure [Buffer.ofAscii "flp-epoch", v.bytes, ← unsigned (.bigint n) 8]
  | .recoveryTargets v => pure [Buffer.ofAscii "flp-recovery", v.bytes]
  | .fundingWindow v => pure [Buffer.ofAscii "funding_window", v.bytes]

/-- The address of a derivation under a program. -/
def address (rt : Runtime) (programId : PublicKey) (d : Derivation) : Throws PublicKey := do
  rt.findProgramAddressSync (← d.seeds) programId

/-! ## Layouts -/

def tag : Derivation → Bytes
  | .fermiAccount _ _ _ => Buffer.ofAscii "FermiAccount"
  | .queueAuthorityState _ => Buffer.ofAscii "queue-authority"
  | .executionQueueV5 _ _ => Buffer.ofAscii "execution-queue-v5"
  | .executionQueueV5Direct _ _ => Buffer.ofAscii "execution-queue-v5-direct"
  | .vault _ _ => Buffer.ofAscii "flp-vault"
  | .authority _ => Buffer.ofAscii "flp-authority"
  | .shareMint _ => Buffer.ofAscii "flp-shares"
  | .depositEscrow _ => Buffer.ofAscii "flp-escrow"
  | .redemptionEscrow _ => Buffer.ofAscii "flp-escrow"
  | .depositor _ _ => Buffer.ofAscii "flp-user"
  | .epoch _ _ => Buffer.ofAscii "flp-epoch"
  | .recoveryTargets _ => Buffer.ofAscii "flp-recovery"
  | .fundingWindow _ => Buffer.ofAscii "funding_window"

def suffix : Derivation → Bytes
  | .depositEscrow _ => Buffer.ofAscii "dep"
  | .redemptionEscrow _ => Buffer.ofAscii "red"
  | _ => []

/-- The number of bytes of the arguments. -/
def width : Derivation → Nat
  | .fermiAccount _ _ _ => 68
  | .executionQueueV5 _ _ => 34
  | .executionQueueV5Direct _ _ => 34
  | .vault _ _ => 34
  | .depositor _ _ => 64
  | .epoch _ _ => 40
  | _ => 32

/-- Bytes encode the arguments: keys, and an integer in its width. -/
def Body : Derivation → Bytes → Prop
  | .fermiAccount group owner accountNum, b =>
    ∃ n, accountNum = .int n ∧ (key.pair (key.pair (Codec.uint 4))).Encodes (group, owner, n) b
  | .queueAuthorityState group, b => key.Encodes group b
  | .executionQueueV5 group marketIndex, b =>
    ∃ n, marketIndex = .int n ∧ (key.pair (Codec.uint 2)).Encodes (group, n) b
  | .executionQueueV5Direct group marketIndex, b =>
    ∃ n, marketIndex = .int n ∧ (key.pair (Codec.uint 2)).Encodes (group, n) b
  | .vault group vaultId, b =>
    ∃ n, vaultId = .int n ∧ (key.pair (Codec.uint 2)).Encodes (group, n) b
  | .authority v, b => key.Encodes v b
  | .shareMint v, b => key.Encodes v b
  | .depositEscrow v, b => key.Encodes v b
  | .redemptionEscrow v, b => key.Encodes v b
  | .depositor v user, b => (key.pair key).Encodes (v, user) b
  | .epoch v n, b => (key.pair (Codec.uint 8)).Encodes (v, n) b
  | .recoveryTargets v, b => key.Encodes v b
  | .fundingWindow v, b => key.Encodes v b

/-- Two derivations have the same tag and ending, or differ in length, or their tags start
differently, or their endings differ. -/
theorem apart (d e : Derivation) :
    d.tag = e.tag ∧ d.suffix = e.suffix ∨
      d.tag.length + (d.width + d.suffix.length) ≠ e.tag.length + (e.width + e.suffix.length) ∨
      ¬ d.tag <+: e.tag ∧ ¬ e.tag <+: d.tag ∨
      d.suffix.length = e.suffix.length ∧ d.suffix ≠ e.suffix := by
  cases d <;> cases e <;> simp only [tag, suffix, width] <;> decide

/-- The tag and the ending tell the kinds apart that their lengths do not. -/
theorem tag_suffix_eq {d e : Derivation} {b c : Bytes} (hb : b.length = d.width)
    (hc : c.length = e.width) (h : d.tag ++ (b ++ d.suffix) = e.tag ++ (c ++ e.suffix)) :
    d.tag = e.tag ∧ d.suffix = e.suffix := by
  rcases apart d e with heq | hlen | htags | ⟨hslen, hne⟩
  · exact heq
  · have := congrArg List.length h
    simp only [List.length_append, hb, hc] at this
    exact absurd this hlen
  · exact absurd h (ne_of_tags htags.1 htags.2)
  · rw [← List.append_assoc, ← List.append_assoc] at h
    exact absurd (List.append_inj' h hslen).2 hne

theorem length_key (k : PublicKey) : (key.encode k).length = 32 := k.size

theorem Body.length_eq {d : Derivation} {b : Bytes} (h : d.Body b) : b.length = d.width := by
  cases d with
  | fermiAccount | executionQueueV5 | executionQueueV5Direct | vault =>
    obtain ⟨n, -, -, rfl⟩ := h
    simp [Codec.pair, Codec.uint, length_key, width]
  | queueAuthorityState | authority | shareMint | depositEscrow | redemptionEscrow
  | recoveryTargets | fundingWindow =>
    obtain ⟨-, rfl⟩ := h
    exact length_key _
  | depositor | epoch =>
    obtain ⟨-, rfl⟩ := h
    simp [Codec.pair, Codec.uint, length_key, width]

/-- The arguments of one kind are unambiguous. -/
theorem Body.inj {d e : Derivation} {b : Bytes} (htag : d.tag = e.tag)
    (hsuffix : d.suffix = e.suffix) (hd : d.Body b) (he : e.Body b) : d = e := by
  cases d <;> cases e <;> first
    | exact absurd htag (by simp only [tag]; decide)
    | exact absurd hsuffix (by simp only [suffix]; decide)
    | skip
  case fermiAccount.fermiAccount =>
    obtain ⟨n, rfl, hn⟩ := hd
    obtain ⟨m, rfl, hm⟩ := he
    cases hn.inj hm
    rfl
  case depositor.depositor =>
    cases Codec.Encodes.inj hd he
    rfl
  case epoch.epoch =>
    cases Codec.Encodes.inj hd he
    rfl
  case executionQueueV5.executionQueueV5 | executionQueueV5Direct.executionQueueV5Direct |
      vault.vault =>
    obtain ⟨n, rfl, hn⟩ := hd
    obtain ⟨m, rfl, hm⟩ := he
    cases hn.inj hm
    rfl
  all_goals
    cases Codec.Encodes.inj hd he
    rfl

/-- The concatenated seeds are the tag, the arguments and the ending. -/
theorem concat_seeds {d : Derivation} {s : List Bytes} (h : d.seeds = .ok s) :
    ∃ b, d.Body b ∧ Buffer.concat s = d.tag ++ (b ++ d.suffix) := by
  cases d with
  | fermiAccount group owner accountNum =>
    obtain ⟨n, _, rfl, ⟨hv, rfl⟩, rfl⟩ := fermiV1AccountSeeds_eq_ok.1 h
    exact ⟨_, ⟨n, rfl, ⟨trivial, trivial, hv⟩, rfl⟩, by simp [tag, suffix, Codec.pair, key]⟩
  | executionQueueV5 group marketIndex =>
    simp only [seeds, executionQueueV5Seeds, Throws.bind_eq_ok, Throws.pure_eq_ok] at h
    obtain ⟨_, hm, rfl⟩ := h
    obtain ⟨n, rfl, hv, rfl⟩ := u16ToLe_eq_ok.1 hm
    exact ⟨_, ⟨n, rfl, ⟨trivial, hv⟩, rfl⟩, by
      simp [tag, suffix, Codec.pair, key, EXECUTION_QUEUE_V5_SEED]⟩
  | executionQueueV5Direct group marketIndex =>
    simp only [seeds, executionQueueV5DirectSeeds, Throws.bind_eq_ok, Throws.pure_eq_ok] at h
    obtain ⟨_, hm, rfl⟩ := h
    obtain ⟨n, rfl, hv, rfl⟩ := u16ToLe_eq_ok.1 hm
    exact ⟨_, ⟨n, rfl, ⟨trivial, hv⟩, rfl⟩, by
      simp [tag, suffix, Codec.pair, key, EXECUTION_QUEUE_V5_DIRECT_SEED]⟩
  | vault group vaultId =>
    simp only [seeds, vaultSeeds, Throws.bind_eq_ok, Throws.pure_eq_ok] at h
    obtain ⟨_, hm, rfl⟩ := h
    obtain ⟨n, rfl, hv, rfl⟩ := unsigned_number_eq_ok hm
    exact ⟨_, ⟨n, rfl, ⟨trivial, hv⟩, rfl⟩, by simp [tag, suffix, Codec.pair, key]⟩
  | epoch v n =>
    simp only [seeds, Throws.bind_eq_ok, Throws.pure_eq_ok] at h
    obtain ⟨_, hm, rfl⟩ := h
    obtain ⟨m, hn, hv, rfl⟩ := unsigned_eq_ok.1 hm
    cases hn
    exact ⟨_, ⟨⟨trivial, hv⟩, rfl⟩, by simp [tag, suffix, Codec.pair, key]⟩
  | depositor v user =>
    cases Throws.pure_eq_ok.1 h
    exact ⟨_, ⟨⟨trivial, trivial⟩, rfl⟩, by simp [tag, suffix, Codec.pair, key]⟩
  | queueAuthorityState | authority | shareMint | depositEscrow | redemptionEscrow
  | recoveryTargets | fundingWindow =>
    cases Throws.pure_eq_ok.1 h
    exact ⟨_, ⟨trivial, rfl⟩, by
      simp [tag, suffix, key, executionQueueAuthorityStateSeeds]⟩

end Derivation

/-! ## The SDK's addresses -/

/-- Seeds of `deriveFermiAccount` are those of `findFermiV1AccountPda` for the same number. -/
theorem vaultFermiAccountSeeds_eq {group authority : PublicKey} {vaultId : JsNumber}
    {s : List Bytes} (h : vaultFermiAccountSeeds group authority vaultId = .ok s) :
    (Derivation.fermiAccount group authority vaultId).seeds = .ok s := by
  simp only [vaultFermiAccountSeeds, Throws.bind_eq_ok, Throws.pure_eq_ok] at h
  obtain ⟨-, -, num, hnum, rfl⟩ := h
  obtain ⟨n, rfl, henc⟩ := unsigned_number_eq_ok hnum
  exact fermiV1AccountSeeds_eq_ok.2 ⟨n, num, rfl, henc, rfl⟩

/-- Every address function of the SDK returns the address of a derivation. -/
theorem sdk_derivations (rt : Runtime) (programId : PublicKey) :
    (∀ group owner accountNum, findFermiV1AccountPda rt programId group owner accountNum =
      (Derivation.fermiAccount group owner (accountNum.getD (.int 0))).address rt programId) ∧
    (∀ group, findExecutionQueueAuthorityStatePda rt programId group =
      (Derivation.queueAuthorityState group).address rt programId) ∧
    (∀ group marketIndex, findExecutionQueueV5Pda rt programId group marketIndex =
      (Derivation.executionQueueV5 group marketIndex).address rt programId) ∧
    (∀ group marketIndex, findExecutionQueueV5DirectPda rt programId group marketIndex =
      (Derivation.executionQueueV5Direct group marketIndex).address rt programId) ∧
    (∀ group vaultId, deriveVaultAddresses rt programId group vaultId = do
      let vault ← (Derivation.vault group vaultId).address rt programId
      pure {
        vault := vault
        authority := ← (Derivation.authority vault).address rt programId
        shareMint := ← (Derivation.shareMint vault).address rt programId
        depositEscrow := ← (Derivation.depositEscrow vault).address rt programId
        redemptionEscrow := ← (Derivation.redemptionEscrow vault).address rt programId }) ∧
    (∀ vault user, deriveDepositor rt programId vault user =
      (Derivation.depositor vault user).address rt programId) ∧
    (∀ vault epoch, deriveEpoch rt programId vault (.bigint epoch) =
      (Derivation.epoch vault epoch).address rt programId) ∧
    (∀ vault, deriveRecoveryTargets rt programId vault =
      (Derivation.recoveryTargets vault).address rt programId) ∧
    (∀ vault, deriveFundingWindow rt programId vault =
      (Derivation.fundingWindow vault).address rt programId) ∧
    ∀ group authority vaultId address,
      deriveFermiAccount rt programId group authority vaultId = .ok address →
        (Derivation.fermiAccount group authority vaultId).address rt programId = .ok address := by
  refine ⟨fun _ _ _ => rfl, fun _ => rfl, fun _ _ => rfl, fun _ _ => rfl, fun group vaultId => ?_,
    fun _ _ => rfl, fun vault epoch => ?_, fun _ => rfl, fun _ => rfl, ?_⟩
  · simp only [deriveVaultAddresses, Derivation.address, Derivation.seeds, bind_assoc, pure_bind]
  · simp only [deriveEpoch, Derivation.address, Derivation.seeds, bind_assoc, pure_bind]
  · intro group authority vaultId address h
    simp only [deriveFermiAccount, Throws.bind_eq_ok] at h
    obtain ⟨s, hs, haddress⟩ := h
    simp only [Derivation.address, Throws.bind_eq_ok]
    exact ⟨s, vaultFermiAccountSeeds_eq hs, haddress⟩

/-- **Derived addresses never alias.** Derivations with accepted arguments have equal concatenated
seeds only if they are one derivation with the same arguments; and `deriveFermiAccount` has the
seeds of `findFermiV1AccountPda`. -/
theorem addresses_never_alias :
    (∀ (d e : Derivation) (s t : List Bytes), d.seeds = .ok s → e.seeds = .ok t →
      Buffer.concat s = Buffer.concat t → d = e) ∧
    ∀ (group authority : PublicKey) (vaultId : JsNumber) (s : List Bytes),
      vaultFermiAccountSeeds group authority vaultId = .ok s →
        fermiV1AccountSeeds group authority vaultId = .ok s := by
  refine ⟨fun d e s t hd he h => ?_, fun _ _ _ _ h => vaultFermiAccountSeeds_eq h⟩
  obtain ⟨b, hb, hs⟩ := Derivation.concat_seeds hd
  obtain ⟨c, hc, ht⟩ := Derivation.concat_seeds he
  rw [hs, ht] at h
  obtain ⟨htag, hsuffix⟩ := Derivation.tag_suffix_eq hb.length_eq hc.length_eq h
  rw [htag, hsuffix, List.append_cancel_left_eq, List.append_cancel_right_eq] at h
  exact Derivation.Body.inj htag hsuffix hb (h ▸ hc)

/-- Vault 300 of one group has the account with the number 300; and the queues of one market, where
one tag starts with the other, have different seeds. -/
theorem addresses_never_alias_at_vault :
    fermiV1AccountSeeds PublicKey.default SYSVAR_INSTRUCTIONS_PUBKEY (.int 300) =
      .ok [Buffer.ofAscii "FermiAccount", PublicKey.default.bytes,
        SYSVAR_INSTRUCTIONS_PUBKEY.bytes, [44, 1, 0, 0]] ∧
    Buffer.concat [EXECUTION_QUEUE_V5_SEED, PublicKey.default.bytes, [2, 0]] ≠
      Buffer.concat [EXECUTION_QUEUE_V5_DIRECT_SEED, PublicKey.default.bytes, [2, 0]] := by
  refine ⟨addresses_never_alias.2 _ _ _ _ rfl, fun h => ?_⟩
  have heq := addresses_never_alias.1 (.executionQueueV5 PublicKey.default (.int 2))
    (.executionQueueV5Direct PublicKey.default (.int 2)) _ _ rfl rfl h
  cases heq

end FermiSdk
