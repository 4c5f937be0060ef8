import FermiSdk.TriggerOrders.Verify.Binding

/-!
# What the leg builder returns

`buildTriggerOrderLeg` checks its input (`Accepted`), then draws a salt whose commitment is not zero
and builds payload and intent (`drawLeg`). A returned leg is described by `LegSpec`. What follows the
checks throws on no accepted input whose remaining fields are in range (`drawLeg_total`).
-/

namespace FermiSdk.TriggerOrders

open FermiSdk.Lib FermiSdk.Intents

/-! ## The checks -/

/-- A long is closed with an ask. -/
def isAsk (params : SlTpParams) : Bool := params.position = .long

def legDirection (params : SlTpParams) (kind : TriggerKind) : TriggerDirection :=
  if isAsk params = decide (kind = TriggerKind.StopLoss) then TriggerDirection.AtOrBelow
  else TriggerDirection.AtOrAbove

/-- The limit price, for a slippage of `bps`. -/
def legLimit (params : SlTpParams) (triggerPriceLots : Int) (options : LegOptions) (bps : Int) :
    Int :=
  options.limitPriceLots.getD (slippageLimit (isAsk params) triggerPriceLots bps)

/-- The oracle price, if given, is in range and does not meet the trigger yet. -/
def OracleAllows (params : SlTpParams) (kind : TriggerKind) (triggerPriceLots : Int) : Prop :=
  ∀ oracle, params.oraclePriceLots = some oracle →
    (1 ≤ oracle ∧ oracle ≤ I64_MAX) ∧
      triggerAlreadyMet (legDirection params kind) triggerPriceLots oracle = false

/-- What the builder checks before it draws a salt. -/
structure Accepted (params : SlTpParams) (kind : TriggerKind) (triggerPriceLots : Int)
    (options : LegOptions) (bps : Int) : Prop where
  market : ∃ n, params.marketIndex = .int n ∧ 0 ≤ n ∧ n < 0xffff
  size : ∀ lots, params.size = .lots lots → 1 ≤ lots ∧ lots ≤ I64_MAX
  slippage : params.slippageBps = .int bps
  slippage_range : 0 ≤ bps ∧ bps ≤ 9999
  trigger : 1 ≤ triggerPriceLots ∧ triggerPriceLots ≤ I64_MAX
  oracle : OracleAllows params kind triggerPriceLots
  limit : 1 ≤ legLimit params triggerPriceLots options bps ∧
    legLimit params triggerPriceLots options bps ≤ I64_MAX
  marketable : if isAsk params then legLimit params triggerPriceLots options bps ≤ triggerPriceLots
    else triggerPriceLots ≤ legLimit params triggerPriceLots options bps

def legTerms (params : SlTpParams) (kind : TriggerKind) (triggerPriceLots : Int)
    (options : LegOptions) (salt : Int) : TriggerTerms where
  kind := kind
  direction := legDirection params kind
  triggerPriceLots := triggerPriceLots
  ocoGroup := options.ocoGroup.getD 0
  expiryTs := params.expiryTs
  salt := salt

def legFields (params : SlTpParams) (limit clientOrderId expiryTs : Int) :
    PerpPlaceOrderV2Fields where
  side := if isAsk params then .ask else .bid
  priceLots := .bigint limit
  maxBaseLots := .bigint (match params.size with | .all => I64_MAX | .lots size => size)
  maxQuoteLots := .bigint I64_MAX
  clientOrderId := .bigint clientOrderId
  orderType := .immediateOrCancel
  selfTradeBehavior := .decrementTake
  reduceOnly := true
  expiryTimestamp := .number (.int expiryTs)
  limit := .int 10

section

variable (rt : Runtime)

/-- The part of the builder after the commitment: payload and intent. -/
def finishLeg (params : SlTpParams) (kind : TriggerKind) (limit : Int) :
    Option (TriggerTerms × Int) → Throws (Option SlTpLeg)
  | none => pure none
  | some (terms, clientOrderId) => do
    let expiryTs ← integer params.expiryTs MAX_SAFE_INTEGER "expiryTs" 1
    let payload ← encodePerpPlaceOrderV2QueuePayload
      (legFields params limit clientOrderId expiryTs)
    let message ← buildPerpUserIntentMessageV3 rt (legIntentParams rt params payload clientOrderId)
    pure (some {
      kind, terms, clientOrderId, payload
      intentHash := message.userIntentMessage.bytes, params })

/-- The commitment of a leg with a given salt. -/
def legCommitment (params : SlTpParams) (terms : TriggerTerms) : Throws Int :=
  triggerTermsCommitment rt params.group params.fermiAccount params.marketIndex terms

/-- The part of the builder after the checks. -/
def drawLeg (params : SlTpParams) (kind : TriggerKind) (triggerPriceLots : Int)
    (options : LegOptions) (limit : Int) (draws : List UInt64) : Throws (Option SlTpLeg) :=
  match options.salt.map (fun salt => (salt, draws)) <|>
      draws.head?.map (fun draw => ((draw.toNat : Int), draws.tail)) with
  | none => pure none
  | some (salt, draws) => do
    let terms := legTerms params kind triggerPriceLots options salt
    let clientOrderId ← legCommitment rt params terms
    let drawn ← resampleSalt rt params terms clientOrderId draws
    finishLeg rt params kind limit drawn

end

variable {rt : Runtime} {params : SlTpParams} {kind : TriggerKind} {triggerPriceLots : Int}
  {options : LegOptions} {draws : List UInt64}

theorem checkSize_eq_ok {size : Size} {u : Unit} :
    checkSize size = .ok u ↔ ∀ lots, size = .lots lots → 1 ≤ lots ∧ lots ≤ I64_MAX := by
  cases size with
  | all => simp [checkSize]
  | lots n => simp [checkSize]

theorem checkOracle_eq_ok {direction : TriggerDirection} {oracle : Option Int} {u : Unit} :
    checkOracle direction triggerPriceLots oracle = .ok u ↔
      ∀ o, oracle = some o → (1 ≤ o ∧ o ≤ I64_MAX) ∧
        triggerAlreadyMet direction triggerPriceLots o = false := by
  cases oracle with
  | none => simp [checkOracle]
  | some o => simp [checkOracle]

theorem marketable_iff {ask : Bool} {limit trigger : Int} :
    (¬ if ask then limit > trigger else limit < trigger) ↔
      if ask then limit ≤ trigger else trigger ≤ limit := by
  cases ask <;> simp

/-- The builder is its checks followed by the drawing of a leg. -/
theorem buildTriggerOrderLeg_eq_ok {r : Option SlTpLeg} :
    buildTriggerOrderLeg rt params kind triggerPriceLots options draws = .ok r ↔
      ∃ bps, Accepted params kind triggerPriceLots options bps ∧
        drawLeg rt params kind triggerPriceLots options
          (legLimit params triggerPriceLots options bps) draws = .ok r := by
  simp only [buildTriggerOrderLeg, Throws.bind_eq_ok, Throws.throwIf_eq_ok, exists_const,
    marketIndex_eq_ok, checkSize_eq_ok, checkOracle_eq_ok, integer_eq_ok, JsNumber.toBigInt_eq_ok,
    Bool.not_eq_true', Bool.not_eq_false, JsNumber.isIntegerIn_iff]
  constructor
  · rintro ⟨hmarket, hsize, ⟨bps, hbps, hrange⟩, _, ⟨htrigger, -⟩, horacle, _, hint, _,
      ⟨hlimit, -⟩, hmarketable, h⟩
    cases hbps.symm.trans hint
    exact ⟨bps, ⟨hmarket, hsize, hbps, hrange, htrigger, horacle, hlimit,
      marketable_iff.1 hmarketable⟩, h⟩
  · rintro ⟨bps, hacc, h⟩
    exact ⟨hacc.market, hacc.size, ⟨bps, hacc.slippage, hacc.slippage_range⟩, _,
      ⟨hacc.trigger, rfl⟩, hacc.oracle, bps, hacc.slippage, _, ⟨hacc.limit, rfl⟩,
      marketable_iff.2 hacc.marketable, h⟩

/-! ## A returned leg -/

/-- What a returned leg fixes. -/
structure LegSpec (rt : Runtime) (params : SlTpParams) (kind : TriggerKind) (triggerPriceLots : Int)
    (options : LegOptions) (limit : Int) (leg : SlTpLeg) : Prop where
  params_eq : leg.params = params
  kind_eq : leg.kind = kind
  terms_eq : leg.terms = legTerms params kind triggerPriceLots options leg.terms.salt
  commitment : legCommitment rt params leg.terms = .ok leg.clientOrderId
  clientOrderId_ne_zero : leg.clientOrderId ≠ 0
  expiry : 1 ≤ params.expiryTs ∧ params.expiryTs ≤ MAX_SAFE_INTEGER
  payload : encodePerpPlaceOrderV2QueuePayload
    (legFields params limit leg.clientOrderId params.expiryTs) = .ok leg.payload
  intent : ∃ message,
    buildPerpUserIntentMessageV3 rt (legIntentParams rt params leg.payload leg.clientOrderId) =
      .ok message ∧ leg.intentHash = message.userIntentMessage.bytes

/-- The salts drawn change nothing but the salt, and the last one has a commitment other than
zero. -/
theorem resampleSalt_spec {terms terms' : TriggerTerms} {id id' : Int}
    (hid : legCommitment rt params terms = .ok id)
    (h : resampleSalt rt params terms id draws = .ok (some (terms', id'))) :
    legCommitment rt params terms' = .ok id' ∧ id' ≠ 0 ∧
      terms' = { terms with salt := terms'.salt } := by
  induction draws generalizing terms id with
  | nil =>
    simp only [resampleSalt, Throws.pure_eq_ok, Option.ite_none_left_eq_some, Option.some.injEq,
      Prod.mk.injEq] at h
    obtain ⟨hne, rfl, rfl⟩ := h
    exact ⟨hid, hne, rfl⟩
  | cons draw draws ih =>
    rw [resampleSalt] at h
    split at h
    · simp only [Throws.bind_eq_ok] at h
      obtain ⟨id₁, hid₁, h⟩ := h
      obtain ⟨hid', hne, hterms⟩ :=
        @ih { terms with salt := draw.toNat } id₁ hid₁ h
      exact ⟨hid', hne, hterms⟩
    · simp only [Throws.pure_eq_ok, Option.some.injEq, Prod.mk.injEq] at h
      obtain ⟨rfl, rfl⟩ := h
      exact ⟨hid, by assumption, rfl⟩

theorem finishLeg_spec {limit : Int} {terms : TriggerTerms} {id : Int} {leg : SlTpLeg}
    (h : finishLeg rt params kind limit (some (terms, id)) = .ok (some leg))
    (hid : legCommitment rt params terms = .ok id) (hne : id ≠ 0)
    (hterms : terms = legTerms params kind triggerPriceLots options terms.salt) :
    LegSpec rt params kind triggerPriceLots options limit leg := by
  simp only [finishLeg, Throws.bind_eq_ok, Throws.pure_eq_ok, integer_eq_ok,
    Option.some.injEq] at h
  obtain ⟨_, ⟨hexpiry, rfl⟩, payload, hpayload, message, hmessage, rfl⟩ := h
  exact ⟨rfl, rfl, hterms, hid, hne, hexpiry, hpayload, message, hmessage, rfl⟩

theorem drawLeg_spec {limit : Int} {leg : SlTpLeg}
    (h : drawLeg rt params kind triggerPriceLots options limit draws = .ok (some leg)) :
    LegSpec rt params kind triggerPriceLots options limit leg := by
  unfold drawLeg at h
  split at h
  · cases Throws.pure_eq_ok.1 h
  · simp only [Throws.bind_eq_ok] at h
    obtain ⟨id, hid, drawn, hdrawn, h⟩ := h
    cases drawn with
    | none => cases Throws.pure_eq_ok.1 h
    | some drawn =>
      obtain ⟨terms, id'⟩ := drawn
      obtain ⟨hid', hne, hterms⟩ := resampleSalt_spec hid hdrawn
      exact finishLeg_spec h hid' hne hterms

/-- A leg that the builder returns passed the checks and is as they say. -/
theorem buildTriggerOrderLeg_spec {leg : SlTpLeg}
    (h : buildTriggerOrderLeg rt params kind triggerPriceLots options draws = .ok (some leg)) :
    ∃ bps, Accepted params kind triggerPriceLots options bps ∧
      LegSpec rt params kind triggerPriceLots options
        (legLimit params triggerPriceLots options bps) leg := by
  obtain ⟨bps, hacc, hdraw⟩ := buildTriggerOrderLeg_eq_ok.1 h
  exact ⟨bps, hacc, drawLeg_spec hdraw⟩

/-- The order in a leg's payload. -/
def legOrder (params : SlTpParams) (limit clientOrderId : Int) : PlaceOrder where
  side := if isAsk params then .ask else .bid
  priceLots := limit
  maxBaseLots := match params.size with | .all => I64_MAX | .lots size => size
  maxQuoteLots := I64_MAX
  clientOrderId := clientOrderId
  orderType := .immediateOrCancel
  selfTradeBehavior := .decrementTake
  reduceOnly := true
  expiryTimestamp := params.expiryTs
  limit := 10

/-- The payload is the encoding of that order. -/
theorem legPayload_eq {limit id : Int} {bs : Bytes}
    (h : encodePerpPlaceOrderV2QueuePayload (legFields params limit id params.expiryTs) =
      .ok bs) :
    placeOrder.Valid (legOrder params limit id) ∧
      bs = payload .PerpPlaceOrderV2 (placeOrder.encode (legOrder params limit id)) := by
  obtain ⟨o, ho, hv, rfl⟩ := encodePlaceOrder_eq_ok.1 h
  have heq : o = legOrder params limit id := by
    have hexpiry := (toBigInt_number_eq_ok.1 ho.expiryTimestamp).1
    obtain ⟨side, price, base, quote, coid, type, stp, reduce, expiry, lim⟩ := o
    obtain ⟨h1, h2, h3, h4, h5, h6, h7, h8, -, h10⟩ := ho
    simp only [legFields, toBigInt_bigint, Except.ok.injEq, JsNumber.int.injEq] at *
    subst h1 h2 h3 h4 h5 h6 h7 h8 h10 hexpiry
    rfl
  exact ⟨heq ▸ hv, heq ▸ rfl⟩

end FermiSdk.TriggerOrders
