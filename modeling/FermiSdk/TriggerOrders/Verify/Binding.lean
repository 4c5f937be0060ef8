import FermiSdk.Intents.Verify.Accounts
import FermiSdk.Intents.Verify.Preimages
import Mathlib.Data.Set.Function

/-!
# A trigger-order signature authorises one order

A request is returned only for a leg whose terms hash to its client order id and whose intent hashes
to its intent hash, with a signature over that hash or its hex text (`LegChecks`). So two requests
with one signature have one intent hash; as the hashed encodings are unambiguous, they have one
intent, hence one payload, one account list and one client order id, and through that id one set of
terms (`signature_authorises_one_order`).
-/

namespace FermiSdk.TriggerOrders

open FermiSdk.Lib FermiSdk.Intents

/-! ## The hexadecimal text of a hash -/

/-- The value of a hexadecimal digit. -/
def digitValue (d : UInt8) : UInt8 := if d < 58 then d - 48 else d - 87

/-- A byte as two hexadecimal digits. -/
def hexByte : Codec UInt8 where
  Valid _ := True
  encode b := [hexText.hexDigit (b / 16), hexText.hexDigit (b % 16)]
  decode
    | x :: y :: rest => some (digitValue x * 16 + digitValue y, rest)
    | _ => none
  decode_encode {b} _ rest := by
    have h : ∀ n < 256, digitValue (hexText.hexDigit (UInt8.ofNat n / 16)) * 16 +
        digitValue (hexText.hexDigit (UInt8.ofNat n % 16)) = UInt8.ofNat n := by decide +kernel
    have hb := h b.toNat b.toNat_lt
    rw [UInt8.ofNat_toNat] at hb
    simp only [List.cons_append, List.nil_append, hb]

theorem hexText_injective : Function.Injective hexText := fun _ _ h =>
  hexByte.flatMap_encode_inj (fun _ => by simp [hexByte]) (fun _ _ => trivial)
    (fun _ _ => trivial) h

theorem length_hexText (hash : Bytes) : (hexText hash).length = 2 * hash.length := by
  induction hash with
  | nil => rfl
  | cons b hash ih =>
    rw [hexText, List.flatMap_cons, List.length_append, List.length_cons]
    unfold hexText at ih
    rw [ih, List.length_cons, List.length_cons, List.length_nil]
    omega

/-! ## What a request checks -/

variable {rt : Runtime}

/-- A signature of a hash: over its bytes or over its hexadecimal text. -/
def SignedHash (rt : Runtime) (hash signature : Bytes) (signer : PublicKey) : Prop :=
  rt.verify hash signature signer ∨ rt.verify (hexText hash) signature signer

theorem assertSignature_eq_ok {hash signature : Bytes} {signer : PublicKey} {u : Unit} :
    assertSignature rt hash signature signer = .ok u ↔
      signature.length = 64 ∧ SignedHash rt hash signature signer := by
  simp only [assertSignature, Throws.throwIf_eq_ok, SignedHash, not_or, not_not, Bool.not_eq_true',
    Bool.not_eq_false, Bool.or_eq_true]

/-- If a key's signature fits one message only, it fits one hash only, in either form. -/
theorem SignedHash.unique
    (hverify : ∀ key s m m', rt.verify m s key → rt.verify m' s key → m = m')
    {a b : Bytes} {s : Bytes} {key : PublicKey} (ha : a.length = 32) (hb : b.length = 32)
    (h : SignedHash rt a s key) (h' : SignedHash rt b s key) : a = b := by
  have hne : ∀ {x y : Bytes}, x.length = 32 → y.length = 32 → x ≠ hexText y := by
    rintro x y hx hy rfl
    rw [length_hexText] at hx
    omega
  rcases h with h | h <;> rcases h' with h' | h'
  · exact hverify _ _ _ _ h h'
  · exact absurd (hverify _ _ _ _ h h') (hne ha hb)
  · exact absurd (hverify _ _ _ _ h' h) (hne hb ha)
  · exact hexText_injective (hverify _ _ _ _ h h')

/-- The bytes of a leg's terms. -/
def legTermsBytes (leg : SlTpLeg) : Throws Bytes :=
  triggerTermsBytes leg.params.group leg.params.fermiAccount leg.params.marketIndex leg.terms

/-- The bytes of a leg's account list. -/
def legAccountsBytes (leg : SlTpLeg) : Bytes :=
  executionQueueAccountsPreimage (accountsForCtmEnqueue leg.params.group leg.params.executionQueue
    leg.params.remainingAccounts)

/-- The bytes of a leg's intent. -/
def legIntentBytes (rt : Runtime) (leg : SlTpLeg) : Throws Bytes :=
  perpUserIntentPreimageV3 rt (legIntentParams rt leg.params leg.payload leg.clientOrderId)

/-- The first eight bytes of a hash, as the terms commitment takes them. -/
def shortHash (rt : Runtime) (bytes : Bytes) : Int := readBigUInt64LE (rt.sha256 bytes).bytes 0

/-- What holds of a leg that a request is returned for. -/
structure LegChecks (rt : Runtime) (leg : SlTpLeg) (signature termsBytes intentBytes : Bytes) :
    Prop where
  terms : legTermsBytes leg = .ok termsBytes
  commitment : shortHash rt termsBytes = leg.clientOrderId
  intent : legIntentBytes rt leg = .ok intentBytes
  intentHash : (rt.sha256 intentBytes).bytes = leg.intentHash
  signed : SignedHash rt leg.intentHash signature leg.params.signer

theorem triggerOrderRequest_checks {leg : SlTpLeg} {signature : Bytes} {fee : String}
    {req : SubmitIntentRequest} (h : triggerOrderRequest rt leg signature fee = .ok req) :
    req = legRequest leg signature fee ∧
      ∃ termsBytes intentBytes, LegChecks rt leg signature termsBytes intentBytes := by
  simp only [triggerOrderRequest, triggerTermsCommitment, buildPerpUserIntentMessageV3,
    Throws.bind_eq_ok, Throws.throwIf_eq_ok, exists_const, Throws.pure_eq_ok, not_or, not_not,
    assertSignature_eq_ok] at h
  obtain ⟨_, ⟨t, ht, rfl⟩, ⟨hc, -⟩, _, ⟨i, hi, rfl⟩, hh, ⟨-, hs⟩, rfl⟩ := h
  exact ⟨rfl, t, i, ht, hc, hi, hh, hs⟩

/-! ## From equal hashes to equal orders -/

/-- What an intent says about the leg it was built for. -/
structure IntentOf (rt : Runtime) (leg : SlTpLeg) (m : UserIntentV3) : Prop where
  group : m.target.group = leg.params.group
  fermiAccount : m.target.fermiAccount = leg.params.fermiAccount
  marketIndex : leg.params.marketIndex = .int m.target.marketIndex
  payloadHash : m.payloadHash = (rt.sha256 leg.payload).bytes
  accountsHash : m.accountsHash = (rt.sha256 (legAccountsBytes leg)).bytes
  clientOrderId : m.clientOrderId = leg.clientOrderId

theorem intentOf_leg {leg : SlTpLeg} {bs : Bytes} (h : legIntentBytes rt leg = .ok bs) :
    ∃ m, IntentOf rt leg m ∧ userIntentV3.Valid m ∧ bs = (SignedMessage.userIntentV3 m).encode := by
  obtain ⟨m, hm, hv, rfl⟩ := perpUserIntentPreimageV3_message h
  simp only [UserIntentV3.of, IntentTarget.of, legIntentParams, Throws.bind_eq_ok,
    Throws.pure_eq_ok, JsNumber.toBigInt_eq_ok] at hm
  obtain ⟨_, ⟨_, -, _, hmarket, rfl⟩, _, -, _, -, _, hid, rfl⟩ := hm
  exact ⟨_, ⟨rfl, rfl, hmarket, rfl, rfl, (Throws.pure_eq_ok.1 hid).symm⟩, hv, rfl⟩

theorem terms_of_bytes_eq {leg leg' : SlTpLeg} {bs : Bytes} (h : legTermsBytes leg = .ok bs)
    (h' : legTermsBytes leg' = .ok bs) : leg.terms = leg'.terms := by
  obtain ⟨m, hm, hv, rfl⟩ := triggerTermsBytes_message h
  obtain ⟨n, hn, hv', he⟩ := triggerTermsBytes_message h'
  obtain rfl := SignedMessage.triggerTerms.inj (SignedMessage.encode_inj hv hv' he)
  simp only [TermsMessage.of, Throws.bind_eq_ok, Throws.pure_eq_ok, JsNumber.toBigInt_eq_ok]
    at hm hn
  obtain ⟨_, -, _, hk, _, hd, rfl⟩ := hm
  obtain ⟨_, -, _, hk', _, hd', he⟩ := hn
  simp only [TermsMessage.mk.injEq] at he
  obtain ⟨-, -, -, rfl, rfl, hprice, hoco, hexp, hsalt⟩ := he
  exact TriggerTerms.ext (hk.trans hk'.symm) (hd.trans hd'.symm) hprice.symm hoco.symm hexp.symm
    hsalt.symm

/-- Two requests for the same order: every field the keeper acts on agrees, and so do the keys of
the accounts and their effective flags. -/
structure SameOrder (r r' : SubmitIntentRequest) : Prop where
  group : r.group = r'.group
  market : r.market = r'.market
  target_index : r.target_index = r'.target_index
  payload : r.payload = r'.payload
  user_owner : r.user_owner = r'.user_owner
  mango_account : r.mango_account = r'.mango_account
  client_order_id : r.client_order_id = r'.client_order_id
  trigger_order : r.trigger_order = r'.trigger_order
  min_execute_slot : r.min_execute_slot = r'.min_execute_slot
  expires_at_slot : r.expires_at_slot = r'.expires_at_slot
  intent_version : r.intent_version = r'.intent_version
  keys : r.remaining_accounts.map (·.pubkey) = r'.remaining_accounts.map (·.pubkey)
  effectiveAccounts : ∃ l, r.effectiveAccounts = some l ∧ r'.effectiveAccounts = some l

theorem effectiveAccounts_legRequest (leg : SlTpLeg) (signature : Bytes) (fee : String) :
    (legRequest leg signature fee).effectiveAccounts =
      some (accountsForCtmEnqueue leg.params.group leg.params.executionQueue
        leg.params.remainingAccounts) :=
  effectiveAccounts_of_wire rfl rfl rfl

/-- The effective list has the keys of the list, in order. -/
theorem keys_of_effective_eq {leg leg' : SlTpLeg}
    (h : accountsForCtmEnqueue leg.params.group leg.params.executionQueue
        leg.params.remainingAccounts =
      accountsForCtmEnqueue leg'.params.group leg'.params.executionQueue
        leg'.params.remainingAccounts) :
    leg.params.remainingAccounts.map (·.pubkey) = leg'.params.remainingAccounts.map (·.pubkey) := by
  rw [accountsForCtmEnqueue_eq, accountsForCtmEnqueue_eq] at h
  have := congrArg (List.map (·.pubkey)) h
  rwa [List.map_map, List.map_map] at this

/-- The requests of two legs with one signer, intent and terms are for the same order. -/
theorem sameOrder_legRequest {L L' : SlTpLeg} {m : UserIntentV3} (hm : IntentOf rt L m)
    (hn : IntentOf rt L' m) (hsigner : L'.params.signer = L.params.signer)
    (hpayload : L.payload = L'.payload) (hterms : L.terms = L'.terms)
    (haccounts : accountsForCtmEnqueue L.params.group L.params.executionQueue
        L.params.remainingAccounts =
      accountsForCtmEnqueue L'.params.group L'.params.executionQueue L'.params.remainingAccounts)
    (s s' : Bytes) (fee fee' : String) :
    SameOrder (legRequest L s fee) (legRequest L' s' fee') := by
  have hgroup := hm.group.symm.trans hn.group
  have haccount := hm.fermiAccount.symm.trans hn.fermiAccount
  have hmarket := hm.marketIndex.trans hn.marketIndex.symm
  have hid := hm.clientOrderId.symm.trans hn.clientOrderId
  have hkeys := congrArg (List.map PublicKey.toBase58) (keys_of_effective_eq haccounts)
  exact {
    group := congrArg PublicKey.toBase58 hgroup
    market := congrArg toString hmarket
    target_index := congrArg some hmarket
    payload := hpayload
    user_owner := congrArg PublicKey.toBase58 hsigner.symm
    mango_account := congrArg PublicKey.toBase58 haccount
    client_order_id := congrArg (some ∘ toString) hid
    trigger_order := congrArg (some ∘ wireTerms) hterms
    min_execute_slot := rfl
    expires_at_slot := rfl
    intent_version := rfl
    keys := by
      simpa only [legRequest, List.map_map, Function.comp_def, toRelayerAccountMeta] using hkeys
    effectiveAccounts := ⟨_, effectiveAccounts_legRequest L s fee,
      haccounts ▸ effectiveAccounts_legRequest L' s' fee'⟩ }

/-- The byte strings hashed for a leg: its payload, its accounts and its intent. -/
def hashedBytes (rt : Runtime) (leg : SlTpLeg) : List Bytes :=
  leg.payload :: legAccountsBytes leg :: (legIntentBytes rt leg).toOption.toList

/-- The byte strings hashed for a leg's commitment. -/
def committedBytes (leg : SlTpLeg) : List Bytes := (legTermsBytes leg).toOption.toList

/-- **A trigger-order signature authorises one order.** Let SHA-256 be injective on what is hashed
for two legs of one signer, its first eight bytes on what is hashed for their commitments, and let a
signature verify for at most one message of a key. If one signature passes for both legs, their
requests are for the same order. Neither leg needs to come from the builder. -/
theorem signature_authorises_one_order {L L' : SlTpLeg} {s : Bytes} {fee fee' : String}
    {r r' : SubmitIntentRequest}
    (hsha : Set.InjOn rt.sha256 {bs | bs ∈ hashedBytes rt L ++ hashedBytes rt L'})
    (hshort : Set.InjOn (shortHash rt) {bs | bs ∈ committedBytes L ++ committedBytes L'})
    (hverify : ∀ key s m m', rt.verify m s key → rt.verify m' s key → m = m')
    (hsigner : L'.params.signer = L.params.signer)
    (hr : triggerOrderRequest rt L s fee = .ok r)
    (hr' : triggerOrderRequest rt L' s fee' = .ok r') : SameOrder r r' := by
  obtain ⟨rfl, t, i, hL⟩ := triggerOrderRequest_checks hr
  obtain ⟨rfl, t', i', hL'⟩ := triggerOrderRequest_checks hr'
  have hash_inj : ∀ {a b}, a ∈ hashedBytes rt L → b ∈ hashedBytes rt L' →
      (rt.sha256 a).bytes = (rt.sha256 b).bytes → a = b := fun ha hb h =>
    hsha (List.mem_append_left _ ha) (List.mem_append_right _ hb) (Bytes32.ext h)
  -- one signature, one intent hash, one intent
  have hsigned := hL'.signed
  rw [hsigner] at hsigned
  have hhash : L.intentHash = L'.intentHash :=
    SignedHash.unique hverify (hL.intentHash ▸ (rt.sha256 i).size)
      (hL'.intentHash ▸ (rt.sha256 i').size) hL.signed hsigned
  have hintent : i = i' := by
    refine hash_inj ?_ ?_ (hL.intentHash.trans (hhash.trans hL'.intentHash.symm))
    · simp [hashedBytes, hL.intent, Except.toOption]
    · simp [hashedBytes, hL'.intent, Except.toOption]
  obtain ⟨m, hm, hv, he⟩ := intentOf_leg hL.intent
  obtain ⟨n, hn, hv', he'⟩ := intentOf_leg hL'.intent
  obtain rfl : m = n := SignedMessage.userIntentV3.inj
    (SignedMessage.encode_inj hv hv' (he.symm.trans (hintent.trans he')))
  -- one intent, one payload, one account list, one id, one set of terms
  have hpayload : L.payload = L'.payload :=
    hash_inj (by simp [hashedBytes]) (by simp [hashedBytes])
      (hm.payloadHash.symm.trans hn.payloadHash)
  have haccounts := executionQueueAccountsPreimage_injective
    (hash_inj (a := legAccountsBytes L) (b := legAccountsBytes L') (by simp [hashedBytes])
      (by simp [hashedBytes]) (hm.accountsHash.symm.trans hn.accountsHash))
  have hid : L.clientOrderId = L'.clientOrderId := hm.clientOrderId.symm.trans hn.clientOrderId
  have hterms : L.terms = L'.terms := by
    have ht : t = t' := by
      refine hshort ?_ ?_ (hL.commitment.trans (hid.trans hL'.commitment.symm))
      · simp [committedBytes, hL.terms, Except.toOption]
      · simp [committedBytes, hL'.terms, Except.toOption]
    exact terms_of_bytes_eq hL.terms (ht ▸ hL'.terms)
  exact sameOrder_legRequest hm hn hsigner hpayload hterms haccounts s s fee fee'

/-! ## The recorded leg

The stop-loss leg of the intake fixture, signed by the key with seed `7, 7, …`. -/

namespace Recorded

def group : PublicKey :=
  ⟨[26, 47, 220, 226, 105, 214, 85, 253, 61, 116, 118, 201, 2, 79, 125, 146, 160, 81, 42, 133,
    167, 92, 53, 76, 35, 233, 184, 206, 102, 47, 149, 41], rfl⟩

def executionQueue : PublicKey :=
  ⟨[7, 103, 213, 223, 109, 246, 104, 63, 191, 28, 83, 21, 62, 0, 96, 146, 255, 237, 255, 195,
    157, 16, 227, 39, 18, 109, 51, 3, 60, 225, 51, 10], rfl⟩

def fermiAccount : PublicKey :=
  ⟨[130, 125, 42, 64, 120, 102, 95, 68, 146, 89, 176, 110, 111, 250, 92, 57, 151, 92, 220, 65,
    212, 126, 116, 184, 149, 52, 87, 227, 140, 246, 246, 220], rfl⟩

def signer : PublicKey :=
  ⟨[234, 74, 108, 99, 226, 156, 82, 10, 190, 245, 80, 123, 19, 46, 197, 249, 149, 71, 118, 174,
    190, 190, 123, 146, 66, 30, 234, 105, 20, 70, 210, 44], rfl⟩

def market : PublicKey :=
  ⟨[120, 16, 220, 184, 31, 27, 125, 6, 155, 16, 76, 54, 57, 138, 168, 153, 228, 125, 144, 89,
    18, 252, 127, 120, 225, 162, 2, 232, 102, 244, 93, 122], rfl⟩

def termsHash : PublicKey :=
  ⟨[88, 95, 214, 120, 205, 19, 68, 188, 220, 190, 100, 187, 29, 75, 219, 106, 40, 79, 145, 33,
    31, 109, 83, 83, 91, 104, 210, 74, 101, 212, 253, 33], rfl⟩

def payloadHash : PublicKey :=
  ⟨[96, 42, 12, 16, 170, 156, 9, 24, 112, 67, 23, 63, 134, 140, 2, 70, 127, 167, 45, 107, 230,
    169, 168, 231, 218, 237, 221, 206, 169, 14, 222, 78], rfl⟩

def accountsHash : PublicKey :=
  ⟨[97, 44, 101, 3, 189, 143, 231, 92, 86, 195, 24, 113, 252, 196, 238, 218, 49, 81, 150, 133,
    35, 160, 153, 151, 242, 214, 63, 224, 251, 49, 70, 40], rfl⟩

def intentHash : PublicKey :=
  ⟨[253, 124, 72, 103, 110, 5, 120, 109, 209, 226, 94, 196, 226, 174, 56, 47, 99, 43, 19, 147,
    24, 97, 134, 245, 175, 1, 63, 193, 164, 204, 207, 102], rfl⟩

def payload : Bytes :=
  [1, 0, 0, 0, 1, 36, 113, 1, 0, 0, 0, 0, 0, 255, 255, 255, 255, 255, 255, 255, 127, 255, 255,
    255, 255, 255, 255, 255, 127, 88, 95, 214, 120, 205, 19, 68, 188, 1, 0, 1, 128, 59, 177,
    106, 0, 0, 0, 0, 10]

def signature : Bytes :=
  [213, 250, 109, 63, 82, 40, 111, 89, 248, 203, 142, 8, 223, 215, 47, 156, 163, 87, 110, 55,
    113, 100, 94, 96, 4, 114, 63, 156, 254, 49, 75, 85, 247, 249, 160, 64, 175, 97, 165, 178,
    245, 242, 52, 110, 153, 75, 252, 210, 183, 50, 204, 228, 170, 140, 50, 195, 67, 35, 33, 154,
    201, 14, 4, 5]

def params : SlTpParams where
  group := group
  executionQueue := executionQueue
  marketIndex := .int 2
  fermiAccount := fermiAccount
  signer := signer
  remainingAccounts := [⟨group, false, false⟩, ⟨fermiAccount, false, true⟩,
    ⟨signer, false, false⟩, ⟨market, false, true⟩]
  position := .long
  size := .all
  stopLossPriceLots := none
  takeProfitPriceLots := none
  slippageBps := .int 0
  expiryTs := 1790000000
  oraclePriceLots := none

def leg : SlTpLeg where
  kind := .StopLoss
  terms := ⟨.StopLoss, .AtOrBelow, 95000, 1234605616436508552, 1790000000, 723685415333072913⟩
  clientOrderId := 13565989750763315032
  payload := payload
  intentHash := intentHash.bytes
  params := params

/-- The leg with another queue and with the group listed as writable. -/
def changed : SlTpLeg :=
  { leg with params := { params with
      executionQueue := PublicKey.default
      remainingAccounts := [⟨group, false, true⟩, ⟨fermiAccount, false, true⟩,
        ⟨signer, false, false⟩, ⟨market, false, true⟩] } }

def termsBytes : Bytes :=
  Buffer.ofAscii "fermi-trigger-terms-v1" ++ group.bytes ++ fermiAccount.bytes ++
    [2, 0, 1, 0, 1, 0, 0] ++ leBytes 8 95000 ++ leBytes 8 1234605616436508552 ++
    leBytes 8 1790000000 ++ leBytes 8 723685415333072913

def accountsBytes : Bytes :=
  group.bytes ++ [0, 1] ++ fermiAccount.bytes ++ [0, 1] ++ signer.bytes ++ [0, 0] ++
    market.bytes ++ [0, 1]

def intentBytes : Bytes :=
  Buffer.ofAscii "mango-v5-user-intent-v2" ++ group.bytes ++ fermiAccount.bytes ++ signer.bytes ++
    [0, 0, 2, 0] ++ payloadHash.bytes ++ accountsHash.bytes ++ List.replicate 16 0 ++
    leBytes 8 13565989750763315032

/-- SHA-256 and Ed25519 on the recorded data. -/
def runtime : Runtime :=
  .ofTables
    [(termsBytes, termsHash), (payload, payloadHash), (accountsBytes, accountsHash),
      (intentBytes, intentHash)]
    [(intentHash.bytes, [], signer, signature)] []

theorem runtime_verify (key : PublicKey) (s m m' : Bytes) (h : runtime.verify m s key)
    (h' : runtime.verify m' s key) : m = m' := by
  simp only [runtime, Runtime.ofTables, List.any_cons, List.any_nil, Bool.or_false,
    decide_eq_true_eq] at h h'
  exact h.1.symm.trans h'.1

set_option maxRecDepth 8000 in
/-- The builder returns the recorded leg. -/
example : buildTriggerOrderLeg runtime params .StopLoss 95000
    ⟨some 1234605616436508552, some 723685415333072913, some 94500⟩ [] = .ok (some leg) := rfl

end Recorded

open Recorded in
/-- The recorded signature, on the recorded leg and on the leg with another queue. -/
theorem signature_authorises_one_order_recorded :
    SameOrder (legRequest leg signature "AUTO") (legRequest changed signature "1000") := by
  have hsha : ∀ x ∈ hashedBytes runtime leg ++ hashedBytes runtime changed,
      ∀ y ∈ hashedBytes runtime leg ++ hashedBytes runtime changed,
        runtime.sha256 x = runtime.sha256 y → x = y := by decide +kernel
  have hshort : ∀ x ∈ committedBytes leg ++ committedBytes changed,
      ∀ y ∈ committedBytes leg ++ committedBytes changed,
        shortHash runtime x = shortHash runtime y → x = y := by decide +kernel
  exact @signature_authorises_one_order runtime leg changed signature "AUTO" "1000" _ _
    (fun x hx y hy => hsha x hx y hy) (fun x hx y hy => hshort x hx y hy) runtime_verify rfl
    rfl rfl

end FermiSdk.TriggerOrders
