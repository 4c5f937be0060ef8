import FermiSdk.Intents.Verify.Payload
import FermiSdk.TriggerOrders

/-!
# Hashed preimages are unambiguous

Six builders hash a concatenation of a domain text, keys and integers. `SignedMessage` is what such
a concatenation says: the builder and the fields after the builder's defaults. Its encoding is
injective (`SignedMessage.encode_inj`): each builder's body is a codec, and no domain text starts
another. Each builder hashes the encoding of its input's message (`SignedInput.preimage_message`), so
that equal preimages come from the same builder and the same fields (`preimages_unambiguous`).
-/

namespace FermiSdk.Intents

open FermiSdk.Lib FermiSdk.TriggerOrders

/-! ## Formats -/

/-- A key. -/
def key : Codec PublicKey where
  Valid _ := True
  encode k := k.bytes
  decode bs :=
    if h : (bs.take 32).length = 32 then some (⟨bs.take 32, h⟩, bs.drop 32) else none
  decode_encode {k} _ rest := by
    have htake : (k.bytes ++ rest).take 32 = k.bytes := List.take_left' k.size
    have hdrop : (k.bytes ++ rest).drop 32 = rest := List.drop_left' k.size
    simp only [htake, hdrop, k.size, dite_true]

def accountMeta : Codec AccountMeta :=
  (key.pair (bool.pair bool)).imap (fun ⟨pubkey, isSigner, isWritable⟩ =>
    { pubkey, isSigner, isWritable }) (fun a => ⟨a.pubkey, a.isSigner, a.isWritable⟩)
    (fun _ => rfl)

/-- Whom and what an intent is for. -/
structure IntentTarget where
  group : PublicKey
  fermiAccount : PublicKey
  userOwner : PublicKey
  kind : Int
  targetKind : Int
  marketIndex : Int
  deriving DecidableEq

def intentTarget : Codec IntentTarget :=
  (key.pair <| key.pair <| key.pair <| (Codec.uint 1).pair <| (Codec.uint 1).pair <|
    Codec.uint 2).imap
  (fun ⟨group, fermiAccount, userOwner, kind, targetKind, marketIndex⟩ =>
    { group, fermiAccount, userOwner, kind, targetKind, marketIndex })
  (fun t => ⟨t.group, t.fermiAccount, t.userOwner, t.kind, t.targetKind, t.marketIndex⟩)
  (fun _ => rfl)

structure UserIntentV3 where
  target : IntentTarget
  payloadHash : Bytes
  accountsHash : Bytes
  minExecuteSlot : Int
  expiresAtSlot : Int
  clientOrderId : Int
  deriving DecidableEq

def userIntentV3 : Codec UserIntentV3 :=
  (intentTarget.pair <| (Codec.raw 32).pair <| (Codec.raw 32).pair <| (Codec.uint 8).pair <|
    (Codec.uint 8).pair <| Codec.uint 8).imap
  (fun ⟨target, payloadHash, accountsHash, minExecuteSlot, expiresAtSlot, clientOrderId⟩ =>
    { target, payloadHash, accountsHash, minExecuteSlot, expiresAtSlot, clientOrderId })
  (fun m => ⟨m.target, m.payloadHash, m.accountsHash, m.minExecuteSlot, m.expiresAtSlot,
    m.clientOrderId⟩)
  (fun _ => rfl)

structure DirectIntent where
  target : IntentTarget
  payloadHash : Bytes
  accountsHash : Bytes
  expiresAtSlot : Int
  nonce : Int
  deriving DecidableEq

def directIntent : Codec DirectIntent :=
  (intentTarget.pair <| (Codec.raw 32).pair <| (Codec.raw 32).pair <| (Codec.uint 8).pair <|
    Codec.uint 8).imap
  (fun ⟨target, payloadHash, accountsHash, expiresAtSlot, nonce⟩ =>
    { target, payloadHash, accountsHash, expiresAtSlot, nonce })
  (fun m => ⟨m.target, m.payloadHash, m.accountsHash, m.expiresAtSlot, m.nonce⟩)
  (fun _ => rfl)

structure TermsMessage where
  group : PublicKey
  fermiAccount : PublicKey
  marketIndex : Int
  kind : Int
  direction : Int
  triggerPriceLots : Int
  ocoGroup : Int
  expiryTs : Int
  salt : Int
  deriving DecidableEq

/-- Between the market and the kind stands the version, after the direction two zero bytes. -/
def termsMessage : Codec TermsMessage :=
  (key.pair <| key.pair <| (Codec.uint 2).pair <| (Codec.const [1]).pair <|
    (Codec.uint 1).pair <| (Codec.uint 1).pair <| (Codec.const [0, 0]).pair <|
    (Codec.sint 8).pair <| (Codec.uint 8).pair <| (Codec.uint 8).pair <| Codec.uint 8).imap
  (fun ⟨group, fermiAccount, marketIndex, (), kind, direction, (), triggerPriceLots, ocoGroup,
      expiryTs, salt⟩ =>
    { group, fermiAccount, marketIndex, kind, direction, triggerPriceLots, ocoGroup, expiryTs,
      salt })
  (fun m => ⟨m.group, m.fermiAccount, m.marketIndex, (), m.kind, m.direction, (),
    m.triggerPriceLots, m.ocoGroup, m.expiryTs, m.salt⟩)
  (fun _ => rfl)

structure CancelMessage where
  group : PublicKey
  fermiAccount : PublicKey
  signer : PublicKey
  issuedAtMs : Int
  scope : Int
  marketIndex : Int
  ocoGroup : Int
  clientOrderIds : List Int
  deriving DecidableEq

def cancelMessage : Codec CancelMessage :=
  (key.pair <| key.pair <| key.pair <| (Codec.uint 8).pair <| (Codec.uint 1).pair <|
    (Codec.uint 2).pair <| (Codec.uint 8).pair <| (Codec.uint 8).counted 2).imap
  (fun ⟨group, fermiAccount, signer, issuedAtMs, scope, marketIndex, ocoGroup, clientOrderIds⟩ =>
    { group, fermiAccount, signer, issuedAtMs, scope, marketIndex, ocoGroup, clientOrderIds })
  (fun m => ⟨m.group, m.fermiAccount, m.signer, m.issuedAtMs, m.scope, m.marketIndex, m.ocoGroup,
    m.clientOrderIds⟩)
  (fun _ => rfl)

/-! ## The six messages -/

/-- A builder and the fields it hashes. -/
inductive SignedMessage where
  | userIntentV2 (target : IntentTarget) (payloadHash : Bytes)
  | userIntentV3 (message : UserIntentV3)
  | userNonce (target : IntentTarget) (nonce : Int)
  | directIntent (message : DirectIntent)
  | triggerTerms (message : TermsMessage)
  | triggerCancel (message : CancelMessage)
  deriving DecidableEq

namespace SignedMessage

/-- The domain text. -/
def tag : SignedMessage → Bytes
  | .userIntentV2 _ _ => Buffer.ofAscii "mango-v4-user-intent-v2"
  | .userIntentV3 _ => Buffer.ofAscii "mango-v5-user-intent-v2"
  | .userNonce _ _ => Buffer.ofAscii "mango-v5-user-nonce-v1"
  | .directIntent _ => Buffer.ofAscii "mango-v5-direct-intent-v1"
  | .triggerTerms _ => Buffer.ofAscii "fermi-trigger-terms-v1"
  | .triggerCancel _ => Buffer.ofAscii "fermi-trigger-cancel-v1"

def body : SignedMessage → Bytes
  | .userIntentV2 target payloadHash => (intentTarget.pair (Codec.raw 32)).encode (target, payloadHash)
  | .userIntentV3 message => Intents.userIntentV3.encode message
  | .userNonce target nonce => (intentTarget.pair (Codec.uint 8)).encode (target, nonce)
  | .directIntent message => Intents.directIntent.encode message
  | .triggerTerms message => termsMessage.encode message
  | .triggerCancel message => cancelMessage.encode message

def encode (m : SignedMessage) : Bytes := m.tag ++ m.body

/-- Every field fits its width. -/
def Valid : SignedMessage → Prop
  | .userIntentV2 target payloadHash => (intentTarget.pair (Codec.raw 32)).Valid (target, payloadHash)
  | .userIntentV3 message => Intents.userIntentV3.Valid message
  | .userNonce target nonce => (intentTarget.pair (Codec.uint 8)).Valid (target, nonce)
  | .directIntent message => Intents.directIntent.Valid message
  | .triggerTerms message => termsMessage.Valid message
  | .triggerCancel message => cancelMessage.Valid message

/-- No domain text starts another. -/
theorem tag_eq_of_starts (m n : SignedMessage) : m.tag <+: n.tag → m.tag = n.tag := by
  cases m <;> cases n <;> simp only [tag] <;> decide

/-- Messages of different builders have different encodings. -/
theorem tag_eq_of_encode_eq {m n : SignedMessage} (h : m.encode = n.encode) : m.tag = n.tag := by
  by_contra hne
  exact ne_of_tags (fun hp => hne (tag_eq_of_starts m n hp))
    (fun hp => hne (tag_eq_of_starts n m hp).symm) h

/-- **The encoding says which message it is.** -/
theorem encode_inj {m n : SignedMessage} (hm : m.Valid) (hn : n.Valid)
    (h : m.encode = n.encode) : m = n := by
  have htag := tag_eq_of_encode_eq h
  have hbody : m.body = n.body := by
    unfold encode at h
    rw [htag] at h
    exact List.append_cancel_left h
  cases m <;> cases n <;> first
    | exact absurd htag (by simp only [tag]; decide)
    | skip
  case userIntentV2.userIntentV2 =>
    rw [userIntentV2.injEq, ← Prod.mk.injEq]
    exact Codec.encode_inj _ hm hn hbody
  case userIntentV3.userIntentV3 => rw [Intents.userIntentV3.encode_inj hm hn hbody]
  case userNonce.userNonce =>
    rw [userNonce.injEq, ← Prod.mk.injEq]
    exact Codec.encode_inj _ hm hn hbody
  case directIntent.directIntent => rw [Intents.directIntent.encode_inj hm hn hbody]
  case triggerTerms.triggerTerms => rw [termsMessage.encode_inj hm hn hbody]
  case triggerCancel.triggerCancel => rw [cancelMessage.encode_inj hm hn hbody]

end SignedMessage

/-! ## What each builder hashes -/

/-- The inputs of the six builders. -/
inductive SignedInput where
  | userIntentV2 (params : PerpUserIntentMessageV2Params)
  | userIntentV3 (params : PerpUserIntentMessageV3Params)
  | userNonce (params : UserNonceReplayHashParams)
  | directIntent (params : DirectIntentMessageParams)
  | triggerTerms (group fermiAccount : PublicKey) (index : JsNumber) (terms : TriggerTerms)
  | triggerCancel (params : TriggerCancelParams)

def IntentTarget.of (group fermiAccount userOwner : PublicKey) (kind marketIndex : JsNumber) :
    Throws IntentTarget := do
  pure { group, fermiAccount, userOwner, kind := ← kind.toBigInt, targetKind := 0
         marketIndex := ← marketIndex.toBigInt }

section

variable (rt : Runtime)

def UserIntentV3.of (params : PerpUserIntentMessageV3Params) : Throws UserIntentV3 := do
  pure {
    target := ← IntentTarget.of params.group params.fermiAccount params.userOwner
      (params.kind.getD (.int 0)) params.marketIndex
    payloadHash := (rt.sha256 params.payload).bytes
    accountsHash := params.accountsHash
    minExecuteSlot := ← toBigInt (params.minExecuteSlot.getD (.bigint 0))
    expiresAtSlot := ← toBigInt (params.expiresAtSlot.getD (.bigint 0))
    clientOrderId := ← toBigInt params.clientOrderId }

def DirectIntent.of (params : DirectIntentMessageParams) : Throws DirectIntent := do
  pure {
    target := ← IntentTarget.of params.group params.fermiAccount params.userOwner params.kind
      params.marketIndex
    payloadHash := params.payloadHash
    accountsHash := params.accountsHash
    expiresAtSlot := ← toBigInt params.expiresAtSlot
    nonce := ← toBigInt params.nonce }

def TermsMessage.of (group fermiAccount : PublicKey) (index : JsNumber) (terms : TriggerTerms) :
    Throws TermsMessage := do
  pure {
    group, fermiAccount
    marketIndex := ← index.toBigInt
    kind := ← terms.kind.toBigInt
    direction := ← terms.direction.toBigInt
    triggerPriceLots := terms.triggerPriceLots
    ocoGroup := terms.ocoGroup
    expiryTs := terms.expiryTs
    salt := terms.salt }

def CancelMessage.of (params : TriggerCancelParams) : Throws CancelMessage := do
  pure {
    group := params.group
    fermiAccount := params.fermiAccount
    signer := params.signer
    issuedAtMs := params.issuedAtMs
    scope := params.scope.toNumber
    marketIndex := ← (params.marketIndex.getD (.int 0xffff)).toBigInt
    ocoGroup := params.ocoGroup.getD 0
    clientOrderIds := params.clientOrderIds.getD [] }

namespace SignedInput

/-- The bytes the builder hashes. -/
def preimage : SignedInput → Throws Bytes
  | .userIntentV2 params => perpUserIntentPreimageV2 rt params
  | .userIntentV3 params => perpUserIntentPreimageV3 rt params
  | .userNonce params => userNonceReplayPreimage params
  | .directIntent params => directIntentPreimage params
  | .triggerTerms group fermiAccount index terms => triggerTermsBytes group fermiAccount index terms
  | .triggerCancel params => triggerCancelPreimage params

/-- The builder and the input's fields: an absent kind, slot or group is 0, an absent market of a
cancellation is 0xffff, an absent list of ids is empty. -/
def message : SignedInput → Throws SignedMessage
  | .userIntentV2 params => do
    pure (.userIntentV2
      (← IntentTarget.of params.group params.fermiAccount params.userOwner
        (params.kind.getD (.int 0)) params.marketIndex)
      (rt.sha256 params.payload).bytes)
  | .userIntentV3 params => do pure (.userIntentV3 (← UserIntentV3.of rt params))
  | .userNonce params => do
    pure (.userNonce
      (← IntentTarget.of params.group params.fermiAccount params.userOwner params.kind
        params.marketIndex)
      (← toBigInt params.nonce))
  | .directIntent params => do pure (.directIntent (← DirectIntent.of params))
  | .triggerTerms group fermiAccount index terms => do
    pure (.triggerTerms (← TermsMessage.of group fermiAccount index terms))
  | .triggerCancel params => do pure (.triggerCancel (← CancelMessage.of params))

end SignedInput

/-- An absent slot is the number 0 in the builders and the bigint 0 here. -/
theorem absent_eq {value : Option BigNumberish} {n : Int}
    (h : toBigInt (value.getD (.number (.int 0))) = .ok n) :
    toBigInt (value.getD (.bigint 0)) = .ok n := by
  cases value <;> exact h

/-- The part that all four intents share, after the domain text. -/
theorem target_of_bytes (group fermiAccount userOwner : PublicKey) {kind marketIndex : JsNumber}
    {b₁ b₂ b₃ : Bytes} (hkind : u8 kind = .ok b₁)
    (htarget : u8 UserIntentTargetKind.PerpMarket.toNumber = .ok b₂)
    (hmarket : u16ToLe marketIndex = .ok b₃) :
    ∃ t, IntentTarget.of group fermiAccount userOwner kind marketIndex = .ok t ∧
      intentTarget.Valid t ∧ ∀ tag rest,
        Buffer.concat (tag :: group.bytes :: fermiAccount.bytes :: userOwner.bytes :: b₁ :: b₂ ::
          b₃ :: rest) = tag ++ (intentTarget.encode t ++ Buffer.concat rest) := by
  obtain ⟨k, rfl, hk, rfl⟩ := u8_eq_ok.1 hkind
  obtain ⟨_, ⟨⟩, h0, rfl⟩ := u8_eq_ok.1 htarget
  obtain ⟨m, rfl, hm, rfl⟩ := u16ToLe_eq_ok.1 hmarket
  refine ⟨⟨group, fermiAccount, userOwner, k, 0, m⟩, rfl,
    ⟨trivial, trivial, trivial, hk, h0, hm⟩, ?_⟩
  intro tag rest
  have henc : intentTarget.encode ⟨group, fermiAccount, userOwner, k, 0, m⟩ =
      group.bytes ++ (fermiAccount.bytes ++ (userOwner.bytes ++ ((Codec.uint 1).encode k ++
        ((Codec.uint 1).encode 0 ++ (Codec.uint 2).encode m)))) := rfl
  simp only [henc, Buffer.concat_cons, List.append_assoc]

variable {rt}

theorem perpUserIntentPreimageV2_message {params : PerpUserIntentMessageV2Params} {bs : Bytes}
    (h : perpUserIntentPreimageV2 rt params = .ok bs) :
    ∃ m, (SignedInput.userIntentV2 params).message rt = .ok m ∧ m.Valid ∧ bs = m.encode := by
  simp only [perpUserIntentPreimageV2, Throws.bind_eq_ok, Throws.pure_eq_ok] at h
  obtain ⟨_, hkind, _, htarget, _, hmarket, rfl⟩ := h
  obtain ⟨t, ht, hv, henc⟩ := target_of_bytes params.group params.fermiAccount params.userOwner
    hkind htarget hmarket
  refine ⟨.userIntentV2 t (rt.sha256 params.payload).bytes, ?_, ⟨hv, (rt.sha256 _).size⟩, ?_⟩
  · simp only [SignedInput.message, Throws.bind_eq_ok, Throws.pure_eq_ok]
    exact ⟨t, ht, rfl⟩
  · simp only [henc, Buffer.concat_cons, Buffer.concat_nil, List.append_nil]
    rfl

theorem perpUserIntentPreimageV3_message {params : PerpUserIntentMessageV3Params} {bs : Bytes}
    (h : perpUserIntentPreimageV3 rt params = .ok bs) :
    ∃ m, UserIntentV3.of rt params = .ok m ∧ userIntentV3.Valid m ∧
      bs = (SignedMessage.userIntentV3 m).encode := by
  simp only [perpUserIntentPreimageV3, Throws.bind_eq_ok, Throws.throwIf_eq_ok, exists_const,
    Throws.pure_eq_ok, not_not, u64ToLe_eq_ok] at h
  obtain ⟨hlen, _, hkind, _, htarget, _, hmarket, _, ⟨minSlot, hmin, vmin, rfl⟩,
    _, ⟨expires, hexp, vexp, rfl⟩, _, ⟨id, hid, vid, rfl⟩, rfl⟩ := h
  obtain ⟨t, ht, hv, henc⟩ := target_of_bytes params.group params.fermiAccount params.userOwner
    hkind htarget hmarket
  refine ⟨⟨t, (rt.sha256 params.payload).bytes, params.accountsHash, minSlot, expires, id⟩, ?_,
    ⟨hv, (rt.sha256 _).size, hlen, vmin, vexp, vid⟩, ?_⟩
  · simp only [UserIntentV3.of, Throws.bind_eq_ok, Throws.pure_eq_ok]
    exact ⟨t, ht, minSlot, absent_eq hmin, expires, absent_eq hexp, id, hid, rfl⟩
  · simp only [henc, Buffer.concat_cons, Buffer.concat_nil, List.append_nil]
    rfl

theorem userNonceReplayPreimage_message {params : UserNonceReplayHashParams} {bs : Bytes}
    (h : userNonceReplayPreimage params = .ok bs) :
    ∃ m, (SignedInput.userNonce params).message rt = .ok m ∧ m.Valid ∧ bs = m.encode := by
  simp only [userNonceReplayPreimage, Throws.bind_eq_ok, Throws.pure_eq_ok, u64ToLe_eq_ok] at h
  obtain ⟨_, hkind, _, htarget, _, hmarket, _, ⟨nonce, hn, vn, rfl⟩, rfl⟩ := h
  obtain ⟨t, ht, hv, henc⟩ := target_of_bytes params.group params.fermiAccount params.userOwner
    hkind htarget hmarket
  refine ⟨.userNonce t nonce, ?_, ⟨hv, vn⟩, ?_⟩
  · simp only [SignedInput.message, Throws.bind_eq_ok, Throws.pure_eq_ok]
    exact ⟨t, ht, nonce, hn, rfl⟩
  · simp only [henc, Buffer.concat_cons, Buffer.concat_nil, List.append_nil]
    rfl

theorem directIntentPreimage_message {params : DirectIntentMessageParams} {bs : Bytes}
    (h : directIntentPreimage params = .ok bs) :
    ∃ m, DirectIntent.of params = .ok m ∧ directIntent.Valid m ∧
      bs = (SignedMessage.directIntent m).encode := by
  simp only [directIntentPreimage, Throws.bind_eq_ok, Throws.throwIf_eq_ok, exists_const,
    Throws.pure_eq_ok, not_not, u64ToLe_eq_ok] at h
  obtain ⟨hpay, hacc, _, hkind, _, htarget, _, hmarket, _, ⟨expires, hexp, vexp, rfl⟩,
    _, ⟨nonce, hn, vn, rfl⟩, rfl⟩ := h
  obtain ⟨t, ht, hv, henc⟩ := target_of_bytes params.group params.fermiAccount params.userOwner
    hkind htarget hmarket
  refine ⟨⟨t, params.payloadHash, params.accountsHash, expires, nonce⟩, ?_,
    ⟨hv, hpay, hacc, vexp, vn⟩, ?_⟩
  · simp only [DirectIntent.of, Throws.bind_eq_ok, Throws.pure_eq_ok]
    exact ⟨t, ht, expires, hexp, nonce, hn, rfl⟩
  · simp only [henc, Buffer.concat_cons, Buffer.concat_nil, List.append_nil]
    rfl

theorem flag_of_mem {x : JsNumber} (h : x ∈ [JsNumber.int 0, JsNumber.int 1]) :
    ∃ n, x = .int n ∧ (n = 0 ∨ n = 1) := by
  rcases List.mem_pair.1 h with rfl | rfl
  · exact ⟨0, rfl, .inl rfl⟩
  · exact ⟨1, rfl, .inr rfl⟩

theorem triggerTermsBytes_message {group fermiAccount : PublicKey} {index : JsNumber}
    {terms : TriggerTerms} {bs : Bytes}
    (h : triggerTermsBytes group fermiAccount index terms = .ok bs) :
    ∃ m, TermsMessage.of group fermiAccount index terms = .ok m ∧ termsMessage.Valid m ∧
      bs = (SignedMessage.triggerTerms m).encode := by
  simp only [triggerTermsBytes, Throws.bind_eq_ok, Throws.throwIf_eq_ok, exists_const,
    Throws.pure_eq_ok, marketIndex_eq_ok, integer_eq_ok, JsNumber.toBigInt_eq_ok, u64_eq_ok,
    not_or, not_not] at h
  obtain ⟨⟨n, rfl, hn0, hn1⟩, ⟨hkind, hdir⟩, price, ⟨⟨hp0, hp1⟩, rfl⟩, _, ⟨-, rfl⟩,
    _, hindex, k, hk, d, hd, _, ⟨voco, rfl⟩, _, ⟨vexp, rfl⟩, _, ⟨vsalt, rfl⟩, rfl⟩ := h
  obtain ⟨vn, rfl⟩ := u16_int_eq_ok.1 hindex
  obtain ⟨_, hk', vk⟩ := flag_of_mem hkind
  obtain ⟨_, hd', vd⟩ := flag_of_mem hdir
  obtain rfl := JsNumber.int.inj (hk.symm.trans hk')
  obtain rfl := JsNumber.int.inj (hd.symm.trans hd')
  refine ⟨⟨group, fermiAccount, n, k, d, terms.triggerPriceLots, terms.ocoGroup, terms.expiryTs,
    terms.salt⟩, ?_, ?_, ?_⟩
  · simp only [TermsMessage.of, Throws.bind_eq_ok, Throws.pure_eq_ok, JsNumber.toBigInt_eq_ok]
    exact ⟨n, rfl, k, hk, d, hd, rfl⟩
  · have hkv : (Codec.uint 1).Valid k := by rcases vk with rfl | rfl <;> decide
    have hdv : (Codec.uint 1).Valid d := by rcases vd with rfl | rfl <;> decide
    exact ⟨trivial, trivial, vn, trivial, hkv, hdv, trivial,
      valid_i64.2 ⟨le_trans (by decide) hp0, hp1⟩, voco, vexp, vsalt⟩
  · have hflags : Buffer.ofInts [1, k, d, 0, 0] =
        [1] ++ ((Codec.uint 1).encode k ++ ((Codec.uint 1).encode d ++ [0, 0])) := by
      rcases vk with rfl | rfl <;> rcases vd with rfl | rfl <;> decide
    simp only [hflags, Buffer.concat_cons, Buffer.concat_nil, List.append_nil, List.append_assoc]
    rfl

theorem mapM_u64 {ids : List Int} {parts : List Bytes} (h : ids.mapM u64 = .ok parts) :
    (∀ n ∈ ids, (Codec.uint 8).Valid n) ∧
      Buffer.concat parts = ids.flatMap (Codec.uint 8).encode := by
  have hparts := Throws.mapM_eq_ok.1 h
  induction hparts with
  | nil => exact ⟨by simp, rfl⟩
  | cons hhead _ ih =>
    obtain ⟨hv, rfl⟩ := u64_eq_ok.1 hhead
    obtain ⟨hvs, hcat⟩ := ih (Throws.mapM_eq_ok.2 ‹_›)
    exact ⟨List.forall_mem_cons.2 ⟨hv, hvs⟩, by rw [Buffer.concat_cons, hcat, List.flatMap_cons]⟩

theorem triggerCancelPreimage_message {params : TriggerCancelParams} {bs : Bytes}
    (h : triggerCancelPreimage params = .ok bs) :
    ∃ m, CancelMessage.of params = .ok m ∧ cancelMessage.Valid m ∧
      bs = (SignedMessage.triggerCancel m).encode := by
  simp only [triggerCancelPreimage, Throws.bind_eq_ok, Throws.throwIf_eq_ok, exists_const,
    Throws.pure_eq_ok, u64_eq_ok, not_or, not_lt, gt_iff_lt] at h
  obtain ⟨⟨hlen, -⟩, -, _, hcheck, _, ⟨vissued, rfl⟩, _, hmarket, _, ⟨voco, rfl⟩,
    _, hcount, parts, hparts, rfl⟩ := h
  obtain ⟨n, hn⟩ : ∃ n, params.marketIndex.getD (.int 0xffff) = .int n := by
    cases hm : params.marketIndex with
    | none => exact ⟨_, rfl⟩
    | some index =>
      rw [hm] at hcheck
      obtain ⟨n, rfl, -⟩ := marketIndex_eq_ok.1 hcheck
      exact ⟨n, rfl⟩
  rw [hn] at hmarket
  obtain ⟨vmarket, rfl⟩ := u16_int_eq_ok.1 hmarket
  obtain ⟨vcount, rfl⟩ := u16_int_eq_ok.1 hcount
  obtain ⟨vids, hids⟩ := mapM_u64 hparts
  refine ⟨⟨params.group, params.fermiAccount, params.signer, params.issuedAtMs,
    params.scope.toNumber, n, params.ocoGroup.getD 0, params.clientOrderIds.getD []⟩, ?_, ?_, ?_⟩
  · simp only [CancelMessage.of, Throws.bind_eq_ok, Throws.pure_eq_ok, JsNumber.toBigInt_eq_ok]
    exact ⟨n, hn, rfl⟩
  · have vscope : (Codec.uint 1).Valid params.scope.toNumber := by
      cases params.scope <;> decide
    exact ⟨trivial, trivial, trivial, vissued, vscope, vmarket, voco, vcount.2, vids⟩
  · have hscope : Buffer.ofInts [params.scope.toNumber] =
        (Codec.uint 1).encode params.scope.toNumber := by
      cases params.scope <;> decide
    simp only [hscope, hids, Buffer.concat_append, Buffer.concat_cons, Buffer.concat_nil,
      List.append_nil, List.append_assoc]
    rfl

/-- Every builder hashes the encoding of its input's message. -/
theorem SignedInput.preimage_message {input : SignedInput} {bs : Bytes}
    (h : input.preimage rt = .ok bs) :
    ∃ m, input.message rt = .ok m ∧ m.Valid ∧ bs = m.encode := by
  cases input with
  | userIntentV2 params => exact perpUserIntentPreimageV2_message h
  | userIntentV3 params =>
    obtain ⟨m, hm, hv, rfl⟩ := perpUserIntentPreimageV3_message h
    exact ⟨.userIntentV3 m, Throws.bind_eq_ok.2 ⟨m, hm, rfl⟩, hv, rfl⟩
  | userNonce params => exact userNonceReplayPreimage_message h
  | directIntent params =>
    obtain ⟨m, hm, hv, rfl⟩ := directIntentPreimage_message h
    exact ⟨.directIntent m, Throws.bind_eq_ok.2 ⟨m, hm, rfl⟩, hv, rfl⟩
  | triggerTerms group fermiAccount index terms =>
    obtain ⟨m, hm, hv, rfl⟩ := triggerTermsBytes_message h
    exact ⟨.triggerTerms m, Throws.bind_eq_ok.2 ⟨m, hm, rfl⟩, hv, rfl⟩
  | triggerCancel params =>
    obtain ⟨m, hm, hv, rfl⟩ := triggerCancelPreimage_message h
    exact ⟨.triggerCancel m, Throws.bind_eq_ok.2 ⟨m, hm, rfl⟩, hv, rfl⟩

end

/-! ## Account lists -/

theorem accountBytes_eq (account : AccountMeta) :
    accountBytes account = accountMeta.encode account := by
  obtain ⟨pubkey, s, w⟩ := account
  cases s <;> cases w <;> rfl

theorem executionQueueAccountsPreimage_injective :
    Function.Injective executionQueueAccountsPreimage := by
  intro l m h
  have hne : ∀ a, accountMeta.encode a ≠ [] := fun a hnil => by
    have := congrArg List.length hnil
    rw [← accountBytes_eq, accountBytes, List.length_append, a.pubkey.size] at this
    simp at this
  simp only [executionQueueAccountsPreimage, funext accountBytes_eq] at h
  exact accountMeta.flatMap_encode_inj hne (fun _ _ => ⟨trivial, trivial, trivial⟩)
    (fun _ _ => ⟨trivial, trivial, trivial⟩) h

/-! ## No preimage means two things -/

/-- **Hashed preimages are unambiguous and domain separated.** Two accepted inputs of any two of the
six builders with equal preimages are inputs of one builder with equal fields, defaults filled in;
and account lists with equal preimages are equal. -/
theorem preimages_unambiguous (rt : Runtime) :
    (∀ (i j : SignedInput) (bs : Bytes), i.preimage rt = .ok bs → j.preimage rt = .ok bs →
      ∃ m, i.message rt = .ok m ∧ j.message rt = .ok m) ∧
    (∀ l m : List AccountMeta,
      executionQueueAccountsPreimage l = executionQueueAccountsPreimage m → l = m) := by
  refine ⟨fun i j bs hi hj => ?_, fun l m h => executionQueueAccountsPreimage_injective h⟩
  obtain ⟨m, hm, vm, hbs⟩ := SignedInput.preimage_message hi
  obtain ⟨n, hn, vn, hbs'⟩ := SignedInput.preimage_message hj
  obtain rfl := SignedMessage.encode_inj vm vn (hbs.symm.trans hbs')
  exact ⟨m, hm, hn⟩

/-- A cancellation of everything, with the optional fields left out and with their defaults given. -/
theorem preimages_unambiguous_at_cancel :
    ∃ m,
      (SignedInput.triggerCancel ⟨PublicKey.default, PublicKey.default, SYSVAR_INSTRUCTIONS_PUBKEY,
        1790000000000, .all, none, none, none⟩).message (.ofTables [] [] []) = .ok m ∧
      (SignedInput.triggerCancel ⟨PublicKey.default, PublicKey.default, SYSVAR_INSTRUCTIONS_PUBKEY,
        1790000000000, .all, some [], some 0, none⟩).message (.ofTables [] [] []) = .ok m :=
  (preimages_unambiguous (.ofTables [] [] [])).1 _ _ _ rfl rfl

end FermiSdk.Intents
