import FermiSdk.Intents.Verify.Payload
import FermiSdk.Lib.Rounding
import FermiSdk.TriggerOrders.Verify.Legs

/-!
# The limit of a trigger leg is its slippage bound

Without an explicit limit and with its other fields in range (`InRange`) the builder rejects only an
oracle price and a computed limit: what follows these two checks throws nothing (`drawLeg_total`),
so the builder is the two checks and the drawing of a leg (`buildTriggerOrderLeg_eq`). The computed
limit is the slippage bound rounded down for an ask and up for a bid (`slippageLimit_exact`), on the
marketable side of the trigger price.
-/

namespace FermiSdk.TriggerOrders

open FermiSdk.Lib FermiSdk.Intents

/-! ## The slippage bound -/

/-- The limit of a position's leg: the slippage bound, rounded towards the trader's loss by less
than one lot. -/
def ExactLimit (position : Position) (triggerPriceLots bps limit : Int) : Prop :=
  match position with
  | .long => 10000 * limit ≤ triggerPriceLots * (10000 - bps) ∧
      triggerPriceLots * (10000 - bps) < 10000 * (limit + 1) ∧ limit ≤ triggerPriceLots
  | .short => 10000 * (limit - 1) < triggerPriceLots * (10000 + bps) ∧
      triggerPriceLots * (10000 + bps) ≤ 10000 * limit ∧ triggerPriceLots ≤ limit

theorem slippageLimit_ask {triggerPriceLots bps : Int} (htrigger : 1 ≤ triggerPriceLots)
    (hbps : 0 ≤ bps ∧ bps ≤ 9999) :
    ExactLimit .long triggerPriceLots bps (slippageLimit true triggerPriceLots bps) := by
  have hle : triggerPriceLots * (10000 - bps) ≤ triggerPriceLots * 10000 :=
    Int.mul_le_mul_of_nonneg_left (by omega) (by omega)
  have hnonneg : 0 ≤ triggerPriceLots * (10000 - bps) := Int.mul_nonneg (by omega) (by omega)
  have hdown := Rounding.div_mul_le (triggerPriceLots * (10000 - bps)) (b := 10000) (by decide)
  have hup := Rounding.lt_div_succ_mul (triggerPriceLots * (10000 - bps)) (b := 10000) (by decide)
  simp only [ExactLimit, slippageLimit, if_true, Rounding.tdiv_eq_div hnonneg]
  omega

theorem slippageLimit_bid {triggerPriceLots bps : Int} (htrigger : 1 ≤ triggerPriceLots)
    (hbps : 0 ≤ bps ∧ bps ≤ 9999) :
    ExactLimit .short triggerPriceLots bps (slippageLimit false triggerPriceLots bps) := by
  have hle : triggerPriceLots * 10000 ≤ triggerPriceLots * (10000 + bps) :=
    Int.mul_le_mul_of_nonneg_left (by omega) (by omega)
  have hnonneg : 0 ≤ triggerPriceLots * (10000 + bps) + 9999 := by omega
  have hdown := Rounding.div_mul_le (triggerPriceLots * (10000 + bps) + 9999) (b := 10000)
    (by decide)
  have hup := (Rounding.le_ceil_iff (a := triggerPriceLots * (10000 + bps)) (d := 10000)
    (by decide)).1 (Int.le_refl _)
  simp only [ExactLimit, slippageLimit, Bool.false_eq_true, if_false,
    Rounding.tdiv_eq_div hnonneg]
  omega

theorem slippageLimit_exact (params : SlTpParams) {triggerPriceLots bps : Int}
    (htrigger : 1 ≤ triggerPriceLots) (hbps : 0 ≤ bps ∧ bps ≤ 9999) :
    ExactLimit params.position triggerPriceLots bps
      (slippageLimit (isAsk params) triggerPriceLots bps) := by
  rw [isAsk]
  cases params.position with
  | long => exact slippageLimit_ask htrigger hbps
  | short => exact slippageLimit_bid htrigger hbps

/-! ## Inputs in range -/

/-- Every field but the oracle price is in range, and no limit is given. -/
structure InRange (params : SlTpParams) (kind : TriggerKind) (triggerPriceLots : Int)
    (options : LegOptions) (bps : Int) : Prop where
  market : ∃ n, params.marketIndex = .int n ∧ 0 ≤ n ∧ n < 0xffff
  kind : kind ∈ [TriggerKind.StopLoss, TriggerKind.TakeProfit]
  size : ∀ lots, params.size = .lots lots → 1 ≤ lots ∧ lots ≤ I64_MAX
  slippage : params.slippageBps = .int bps
  slippage_range : 0 ≤ bps ∧ bps ≤ 9999
  trigger : 1 ≤ triggerPriceLots ∧ triggerPriceLots ≤ I64_MAX
  expiry : 1 ≤ params.expiryTs ∧ params.expiryTs ≤ MAX_SAFE_INTEGER
  ocoGroup : ∀ group, options.ocoGroup = some group → 0 ≤ group ∧ group ≤ U64_MAX
  salt : ∀ salt, options.salt = some salt → 0 ≤ salt ∧ salt ≤ U64_MAX
  limit : options.limitPriceLots = none

/-- The salts the builder tries, in order. -/
def triedSalts (options : LegOptions) (draws : List UInt64) : List Int :=
  options.salt.toList ++ draws.map fun draw => (draw.toNat : Int)

section

variable {rt : Runtime} {params : SlTpParams} {kind : TriggerKind} {triggerPriceLots bps : Int}
  {options : LegOptions} {draws : List UInt64}

theorem valid_draw (draw : UInt64) : (Codec.uint 8).Valid (draw.toNat : Int) := by
  have h := draw.toNat_lt
  exact ⟨by omega, by omega⟩

theorem commitment_range {group account : PublicKey} {index : JsNumber} {terms : TriggerTerms}
    {id : Int} (h : triggerTermsCommitment rt group account index terms = .ok id) :
    (Codec.uint 8).Valid id := by
  simp only [triggerTermsCommitment, Throws.bind_eq_ok, Throws.pure_eq_ok] at h
  obtain ⟨bytes, -, rfl⟩ := h
  have hlt := leNat_lt (((rt.sha256 bytes).bytes.drop 0).take 8)
  have hpow := Nat.pow_le_pow_right (n := 256) (by decide)
    (List.length_take_le 8 ((rt.sha256 bytes).bytes.drop 0))
  exact ⟨Int.natCast_nonneg _, by rw [readBigUInt64LE]; omega⟩

theorem direction_mem (params : SlTpParams) (kind : TriggerKind) :
    legDirection params kind ∈ [TriggerDirection.AtOrAbove, TriggerDirection.AtOrBelow] := by
  rw [legDirection]
  split <;> simp

theorem expiry_u64 (h : InRange params kind triggerPriceLots options bps) :
    1 ≤ params.expiryTs ∧ params.expiryTs ≤ U64_MAX := by
  have := h.expiry
  simp only [MAX_SAFE_INTEGER, U64_MAX] at *
  omega

/-- Terms in range are encoded. -/
theorem triggerTermsBytes_total (group account : PublicKey) {terms : TriggerTerms} {n : Int}
    (hn : 0 ≤ n ∧ n < 0xffff) (hkind : terms.kind ∈ [TriggerKind.StopLoss, TriggerKind.TakeProfit])
    (hdir : terms.direction ∈ [TriggerDirection.AtOrAbove, TriggerDirection.AtOrBelow])
    (hprice : 1 ≤ terms.triggerPriceLots ∧ terms.triggerPriceLots ≤ I64_MAX)
    (hexpiry : 1 ≤ terms.expiryTs ∧ terms.expiryTs ≤ U64_MAX)
    (hoco : (Codec.uint 8).Valid terms.ocoGroup) (hsalt : (Codec.uint 8).Valid terms.salt) :
    ∃ bytes, triggerTermsBytes group account (.int n) terms = .ok bytes := by
  obtain ⟨k, hk, -⟩ := flag_of_mem hkind
  obtain ⟨d, hd, -⟩ := flag_of_mem hdir
  have hu16 : u16 (.int n) = .ok ((Codec.uint 2).encode n) :=
    u16_int_eq_ok.2 ⟨⟨hn.1, by omega⟩, rfl⟩
  simp only [triggerTermsBytes, Throws.bind_eq_ok, Throws.throwIf_eq_ok, exists_const,
    Throws.pure_eq_ok, marketIndex_eq_ok, integer_eq_ok, u64_eq_ok, JsNumber.toBigInt_eq_ok,
    not_or, not_not]
  exact ⟨_, ⟨n, rfl, hn⟩, ⟨hkind, hdir⟩, _, ⟨hprice, rfl⟩, _, ⟨hexpiry, rfl⟩, _, hu16, k, hk, d, hd,
    _, ⟨hoco, rfl⟩, _, ⟨valid_u64.2 (by omega), rfl⟩, _, ⟨hsalt, rfl⟩, rfl⟩

/-- The terms of a leg with a salt in range have a commitment. -/
theorem legCommitment_total (rt : Runtime) (h : InRange params kind triggerPriceLots options bps)
    {salt : Int} (hsalt : (Codec.uint 8).Valid salt) :
    ∃ id, legCommitment rt params (legTerms params kind triggerPriceLots options salt) =
      .ok id := by
  obtain ⟨n, hn, hrange⟩ := h.market
  have hoco : (Codec.uint 8).Valid (options.ocoGroup.getD 0) := by
    cases hoco : options.ocoGroup with
    | none => exact ⟨by decide, by decide⟩
    | some group => exact valid_u64.2 (h.ocoGroup group hoco)
  have hterms : ∃ bytes, triggerTermsBytes params.group params.fermiAccount (.int n)
      (legTerms params kind triggerPriceLots options salt) = .ok bytes :=
    triggerTermsBytes_total params.group params.fermiAccount hrange h.kind
      (direction_mem params kind) h.trigger (expiry_u64 h) hoco hsalt
  obtain ⟨bytes, hbytes⟩ := hterms
  rw [legCommitment, triggerTermsCommitment, hn, hbytes]
  exact ⟨_, rfl⟩

/-- The loop ends, with a commitment that is not zero unless every salt's is. -/
theorem resampleSalt_total (draws : List UInt64)
    (h : InRange params kind triggerPriceLots options bps) {salt id : Int}
    (hid : legCommitment rt params (legTerms params kind triggerPriceLots options salt) = .ok id) :
    ∃ drawn, resampleSalt rt params (legTerms params kind triggerPriceLots options salt) id draws =
        .ok drawn ∧
      (∀ terms id', drawn = some (terms, id') → (Codec.uint 8).Valid id') ∧
      (drawn = none ↔ id = 0 ∧ ∀ draw ∈ draws, legCommitment rt params
        (legTerms params kind triggerPriceLots options draw.toNat) = .ok 0) := by
  induction draws generalizing salt id with
  | nil =>
    refine ⟨_, rfl, ?_, by simp⟩
    intro terms id' heq
    simp only [Option.ite_none_left_eq_some, Option.some.injEq, Prod.mk.injEq] at heq
    exact heq.2.2 ▸ commitment_range hid
  | cons draw draws ih =>
    rw [resampleSalt]
    by_cases hzero : id = 0
    · obtain ⟨id₁, hid₁⟩ := legCommitment_total rt h (valid_draw draw)
      obtain ⟨drawn, hdrawn, hvalid, hnone⟩ := ih hid₁
      refine ⟨drawn, ?_, hvalid, ?_⟩
      · rw [if_pos hzero, Throws.bind_eq_ok]
        exact ⟨id₁, hid₁, hdrawn⟩
      · rw [hnone, List.forall_mem_cons, hid₁, Except.ok.injEq]
        simp only [hzero, true_and]
    · refine ⟨_, if_neg hzero, ?_, by simp [hzero]⟩
      intro terms id' heq
      simp only [Option.some.injEq, Prod.mk.injEq] at heq
      exact heq.2 ▸ commitment_range hid

theorem legMessage_total (rt : Runtime) (h : InRange params kind triggerPriceLots options bps)
    (bs : Bytes) {id : Int} (hid : (Codec.uint 8).Valid id) :
    ∃ message, buildPerpUserIntentMessageV3 rt (legIntentParams rt params bs id) = .ok message := by
  obtain ⟨n, hn, hn0, hn1⟩ := h.market
  simp only [buildPerpUserIntentMessageV3, perpUserIntentPreimageV3, Throws.bind_eq_ok,
    Throws.throwIf_eq_ok, exists_const, Throws.pure_eq_ok, u8_eq_ok, u16ToLe_eq_ok, u64ToLe_eq_ok,
    not_not]
  exact ⟨_, _, ⟨Bytes32.size _, _, ⟨0, rfl, by decide, rfl⟩, _, ⟨0, rfl, by decide, rfl⟩, _,
    ⟨n, hn, ⟨hn0, by omega⟩, rfl⟩, _, ⟨0, rfl, by decide, rfl⟩, _, ⟨0, rfl, by decide, rfl⟩, _,
    ⟨id, rfl, hid, rfl⟩, rfl⟩, rfl⟩

/-- With a commitment and a limit in range, payload and intent are built. -/
theorem finishLeg_total (rt : Runtime) (h : InRange params kind triggerPriceLots options bps)
    (terms : TriggerTerms) {limit id : Int} (hlimit : 1 ≤ limit ∧ limit ≤ I64_MAX)
    (hid : (Codec.uint 8).Valid id) :
    ∃ leg, finishLeg rt params kind limit (some (terms, id)) = .ok (some leg) := by
  have hi64 : ∀ {m : Int}, 1 ≤ m ∧ m ≤ I64_MAX → (Codec.sint 8).Valid m := by
    intro m hm
    simp only [I64_MAX] at hm
    exact ⟨by omega, by omega⟩
  have hmax : (Codec.sint 8).Valid I64_MAX := hi64 (by decide)
  have hsize : (Codec.sint 8).Valid (legOrder params limit id).maxBaseLots := by
    rw [legOrder]
    cases hsize : params.size with
    | all => exact hmax
    | lots n => exact hi64 (h.size n hsize)
  have hten : (Codec.uint 1).Valid 10 := by decide
  have hexpiry := expiry_u64 h
  have hsafe : (JsNumber.int params.expiryTs).isSafeInteger = true := by
    have := h.expiry
    rw [JsNumber.isSafeInteger_int]
    omega
  have hpayload : ∃ bs, encodePerpPlaceOrderV2QueuePayload
      (legFields params limit id params.expiryTs) = .ok bs :=
    ⟨_, encodePlaceOrder_eq_ok.2 ⟨legOrder params limit id,
      ⟨rfl, rfl, rfl, rfl, rfl, rfl, rfl, rfl, toBigInt_number_eq_ok.2 ⟨rfl, hsafe⟩, rfl⟩,
      ⟨trivial, hi64 hlimit, hsize, hmax, hid, trivial, trivial, trivial,
        valid_u64.2 ⟨by simp only [legOrder]; omega, hexpiry.2⟩, hten⟩, rfl⟩⟩
  obtain ⟨bs, hbs⟩ := hpayload
  obtain ⟨message, hmessage⟩ := legMessage_total rt h bs hid
  simp only [finishLeg, Throws.bind_eq_ok, integer_eq_ok, Throws.pure_eq_ok]
  exact ⟨_, _, ⟨h.expiry, rfl⟩, bs, hbs, message, hmessage, rfl⟩

/-- **What follows the checks throws nothing**: a leg is returned unless every salt tried has the
commitment zero. -/
theorem drawLeg_total (rt : Runtime) (draws : List UInt64)
    (h : InRange params kind triggerPriceLots options bps) {limit : Int}
    (hlimit : 1 ≤ limit ∧ limit ≤ I64_MAX) :
    ∃ r, drawLeg rt params kind triggerPriceLots options limit draws = .ok r ∧
      (r = none ↔ ∀ salt ∈ triedSalts options draws,
        legCommitment rt params (legTerms params kind triggerPriceLots options salt) = .ok 0) := by
  have hfrom : ∀ {salt : Int} (draws : List UInt64), (Codec.uint 8).Valid salt →
      ∃ r, (do
        let clientOrderId ← legCommitment rt params
          (legTerms params kind triggerPriceLots options salt)
        let drawn ← resampleSalt rt params (legTerms params kind triggerPriceLots options salt)
          clientOrderId draws
        finishLeg rt params kind limit drawn) = .ok r ∧
      (r = none ↔ ∀ s ∈ salt :: draws.map fun draw => (draw.toNat : Int),
        legCommitment rt params (legTerms params kind triggerPriceLots options s) = .ok 0) := by
    intro salt draws hsalt
    obtain ⟨id, hid⟩ := legCommitment_total rt h hsalt
    obtain ⟨drawn, hdrawn, hvalid, hnone⟩ := resampleSalt_total draws h hid
    simp only [Throws.bind_eq_ok]
    rw [List.forall_mem_cons, hid, Except.ok.injEq, List.forall_mem_map, ← hnone]
    cases drawn with
    | none => exact ⟨none, ⟨id, rfl, none, hdrawn, rfl⟩, by simp⟩
    | some drawn =>
      obtain ⟨leg, hleg⟩ := finishLeg_total rt h drawn.1 hlimit (hvalid drawn.1 drawn.2 rfl)
      exact ⟨some leg, ⟨id, rfl, some drawn, hdrawn, hleg⟩, by simp⟩
  unfold drawLeg triedSalts
  cases hsalt : options.salt with
  | some salt => exact hfrom draws (valid_u64.2 (h.salt salt hsalt))
  | none =>
    cases draws with
    | nil => exact ⟨none, rfl, by simp⟩
    | cons draw draws => exact hfrom draws (valid_draw draw)

/-! ## The builder on such inputs -/

/-- The limit the builder computes. -/
def computedLimit (params : SlTpParams) (triggerPriceLots bps : Int) : Int :=
  slippageLimit (isAsk params) triggerPriceLots bps

/-- On inputs in range the builder is two checks and the drawing of a leg. -/
theorem buildTriggerOrderLeg_eq (h : InRange params kind triggerPriceLots options bps) :
    buildTriggerOrderLeg rt params kind triggerPriceLots options draws = (do
      checkOracle (legDirection params kind) triggerPriceLots params.oraclePriceLots
      let _ ← integer (computedLimit params triggerPriceLots bps) I64_MAX "limitPriceLots" 1
      drawLeg rt params kind triggerPriceLots options
        (computedLimit params triggerPriceLots bps) draws) := by
  have hmarket : marketIndex params.marketIndex = .ok () := marketIndex_eq_ok.2 h.market
  have hsize : checkSize params.size = .ok () := checkSize_eq_ok.2 h.size
  have hslippage : params.slippageBps.isIntegerIn 0 9999 = true :=
    JsNumber.isIntegerIn_iff.2 ⟨bps, h.slippage, h.slippage_range⟩
  have htrigger : integer triggerPriceLots I64_MAX "triggerPriceLots" 1 = .ok triggerPriceLots :=
    integer_eq_ok.2 ⟨h.trigger, rfl⟩
  have hbps : params.slippageBps.toBigInt = .ok bps := JsNumber.toBigInt_eq_ok.2 h.slippage
  have hmarketable : ¬ if isAsk params then computedLimit params triggerPriceLots bps >
      triggerPriceLots else computedLimit params triggerPriceLots bps < triggerPriceLots := by
    have hexact := slippageLimit_exact params h.trigger.1 h.slippage_range
    rw [marketable_iff]
    rw [computedLimit]
    cases hposition : params.position <;> simp_all [isAsk, ExactLimit]
  rw [buildTriggerOrderLeg, hmarket, hsize, Throws.throwIf_of_not (by simp [hslippage]), htrigger,
    hbps, h.limit]
  simp only [Throws.ok_bind, Option.getD_none]
  change _ = (checkOracle _ _ _ >>= _)
  refine bind_congr fun _ => bind_congr fun _ => ?_
  exact (congrArg (· >>= _) (Throws.throwIf_of_not hmarketable)).trans rfl

/-! ## The limit is the bound -/

/-- At or below for the stop loss of a long and the take profit of a short. -/
def closingDirection (position : Position) (kind : TriggerKind) : TriggerDirection :=
  if (position = .long ∧ kind = .StopLoss) ∨ (position = .short ∧ kind = .TakeProfit) then
    .AtOrBelow
  else .AtOrAbove

/-- What the builder rejects of the inputs in range. -/
def Rejected (params : SlTpParams) (kind : TriggerKind) (triggerPriceLots bps : Int) : Prop :=
  (∃ oracle, params.oraclePriceLots = some oracle ∧
    (¬ (1 ≤ oracle ∧ oracle ≤ I64_MAX) ∨
      triggerAlreadyMet (closingDirection params.position kind) triggerPriceLots oracle)) ∨
  ¬ (1 ≤ computedLimit params triggerPriceLots bps ∧
    computedLimit params triggerPriceLots bps ≤ I64_MAX)

/-- Side, price and direction of a leg. -/
structure BoundedLeg (params : SlTpParams) (kind : TriggerKind) (triggerPriceLots bps : Int)
    (leg : SlTpLeg) : Prop where
  order : ∃ order, decodeQueuePayload leg.payload = some (.placeOrder order) ∧
    order.side = (match params.position with | .long => .ask | .short => .bid) ∧
    order.priceLots = computedLimit params triggerPriceLots bps ∧
    ExactLimit params.position triggerPriceLots bps order.priceLots
  direction : leg.terms.direction = closingDirection params.position kind

theorem legDirection_eq (params : SlTpParams)
    (hkind : kind ∈ [TriggerKind.StopLoss, TriggerKind.TakeProfit]) :
    legDirection params kind = closingDirection params.position kind := by
  rw [legDirection, closingDirection, isAsk]
  rcases List.mem_pair.1 hkind with rfl | rfl <;> cases hposition : params.position <;> simp <;>
    decide

theorem rejected_iff (h : InRange params kind triggerPriceLots options bps) :
    ¬ Rejected params kind triggerPriceLots bps ↔
      OracleAllows params kind triggerPriceLots ∧
        1 ≤ computedLimit params triggerPriceLots bps ∧
        computedLimit params triggerPriceLots bps ≤ I64_MAX := by
  rw [Rejected, OracleAllows, legDirection_eq params h.kind, not_or, not_not, not_exists]
  refine and_congr_left' (forall_congr' fun oracle => ?_)
  rw [not_and, not_or, not_not, Bool.not_eq_true]

/-- The inputs in range that are not rejected are those for which the builder returns. -/
theorem returns_iff (h : InRange params kind triggerPriceLots options bps) :
    (∃ r, buildTriggerOrderLeg rt params kind triggerPriceLots options draws = .ok r) ↔
      ¬ Rejected params kind triggerPriceLots bps := by
  rw [rejected_iff h, buildTriggerOrderLeg_eq h]
  simp only [Throws.bind_eq_ok, integer_eq_ok, checkOracle_eq_ok, exists_const]
  constructor
  · rintro ⟨_, horacle, _, ⟨hlimit, -⟩, -⟩
    exact ⟨horacle, hlimit⟩
  · rintro ⟨horacle, hlimit⟩
    obtain ⟨r, hr, -⟩ := drawLeg_total rt draws h hlimit
    exact ⟨r, horacle, _, ⟨hlimit, rfl⟩, hr⟩

theorem built_leg_bounded (h : InRange params kind triggerPriceLots options bps) {leg : SlTpLeg}
    (hbuild : buildTriggerOrderLeg rt params kind triggerPriceLots options draws =
      .ok (some leg)) : BoundedLeg params kind triggerPriceLots bps leg := by
  obtain ⟨bps', hacc, hspec⟩ := buildTriggerOrderLeg_spec hbuild
  obtain rfl : bps' = bps := JsNumber.int.inj (hacc.slippage.symm.trans h.slippage)
  obtain ⟨hvalid, hpayload⟩ := legPayload_eq hspec.payload
  have hlimit : legLimit params triggerPriceLots options bps' =
      computedLimit params triggerPriceLots bps' := by
    rw [legLimit, h.limit]
    rfl
  have hside : (if isAsk params then QueueSide.ask else .bid) =
      (match params.position with | .long => .ask | .short => .bid) := by
    rw [isAsk]
    cases params.position <;> rfl
  refine ⟨⟨_, hpayload ▸ decode_placeOrder hvalid, hside, hlimit, ?_⟩, ?_⟩
  · rw [legOrder, hlimit]
    exact slippageLimit_exact params h.trigger.1 h.slippage_range
  · rw [hspec.terms_eq, ← legDirection_eq params h.kind]
    rfl

/-- The texts of the errors on inputs in range. -/
theorem error_texts (h : InRange params kind triggerPriceLots options bps) {e : String}
    (herr : buildTriggerOrderLeg rt params kind triggerPriceLots options draws = .error e) :
    e ∈ ["oraclePriceLots is out of range; use bigint",
      "trigger is already met by the oracle price",
      "limitPriceLots is out of range; use bigint"] := by
  rw [buildTriggerOrderLeg_eq h] at herr
  simp only [Throws.bind_eq_error] at herr
  rcases herr with horacle | ⟨_, -, hlimit | ⟨_, hlimit, hdraw⟩⟩
  · cases ho : params.oraclePriceLots with
    | none =>
      rw [ho] at horacle
      cases horacle
    | some oracle =>
      simp only [ho, checkOracle, integer, Throws.bind_eq_error, Throws.throwIf_eq_error] at horacle
      rcases horacle with (⟨-, rfl⟩ | ⟨_, -, hpure⟩) | ⟨_, -, -, rfl⟩
      · decide
      · cases hpure
      · decide
  · simp only [integer, Throws.bind_eq_error, Throws.throwIf_eq_error] at hlimit
    rcases hlimit with ⟨-, rfl⟩ | ⟨_, -, hpure⟩
    · decide
    · cases hpure
  · obtain ⟨r, hr, -⟩ := drawLeg_total rt draws h (integer_eq_ok.1 hlimit).1
    cases hr.symm.trans hdraw

/-- **The limit of a leg is exactly the slippage bound, and nothing else is rejected.** On inputs in
range without an explicit limit the builder throws exactly for an oracle price out of range or
meeting the trigger and for a computed limit out of range, never because the limit is not
marketable; otherwise it returns a leg as soon as a salt has a commitment other than zero, with the
side of the position's close, the exact limit and the direction of the trigger. -/
theorem limit_is_slippage_bound (h : InRange params kind triggerPriceLots options bps) :
    ((∃ e, buildTriggerOrderLeg rt params kind triggerPriceLots options draws = .error e) ↔
      Rejected params kind triggerPriceLots bps) ∧
    (¬ Rejected params kind triggerPriceLots bps →
      (∃ salt ∈ triedSalts options draws, legCommitment rt params
        (legTerms params kind triggerPriceLots options salt) ≠ .ok 0) →
      ∃ leg, buildTriggerOrderLeg rt params kind triggerPriceLots options draws =
        .ok (some leg)) ∧
    (∀ leg, buildTriggerOrderLeg rt params kind triggerPriceLots options draws = .ok (some leg) →
      BoundedLeg params kind triggerPriceLots bps leg) ∧
    buildTriggerOrderLeg rt params kind triggerPriceLots options draws ≠
      .error "IOC limit is not marketable at the trigger" := by
  refine ⟨Throws.throws_iff_of_ok_iff (returns_iff h), ?_, fun leg => built_leg_bounded h, ?_⟩
  · rintro hallowed ⟨salt, hsalt, hne⟩
    obtain ⟨horacle, hlimit⟩ := (rejected_iff h).1 hallowed
    obtain ⟨r, hr, hnone⟩ := drawLeg_total rt draws h hlimit
    cases r with
    | none => exact absurd (hnone.1 rfl salt hsalt) hne
    | some leg =>
      refine ⟨leg, ?_⟩
      rw [buildTriggerOrderLeg_eq h]
      simp only [Throws.bind_eq_ok, integer_eq_ok, checkOracle_eq_ok, exists_const]
      exact ⟨horacle, _, ⟨hlimit, rfl⟩, hr⟩
  · intro herr
    have hmem := error_texts h herr
    revert hmem
    decide

end

set_option maxRecDepth 8000 in
/-- The recorded stop loss without its explicit limit, at an oracle price above the trigger. -/
theorem limit_is_slippage_bound_recorded :
    ∃ leg, buildTriggerOrderLeg Recorded.runtime
        { Recorded.params with oraclePriceLots := some 95001 } .StopLoss 95000
        ⟨some 1234605616436508552, some 723685415333072913, none⟩ [] = .ok (some leg) :=
  (@limit_is_slippage_bound Recorded.runtime { Recorded.params with oraclePriceLots := some 95001 }
    .StopLoss 95000 0 ⟨some 1234605616436508552, some 723685415333072913, none⟩ []
    { market := ⟨2, rfl, by decide, by decide⟩
      kind := by decide
      size := by rintro _ ⟨⟩
      slippage := rfl
      slippage_range := by decide
      trigger := by decide
      expiry := by decide
      ocoGroup := by rintro _ ⟨⟩; decide
      salt := by rintro _ ⟨⟩; decide
      limit := rfl }).2.1
    (by rintro (⟨_, ⟨⟩, h⟩ | h) <;> revert h <;> decide)
    ⟨723685415333072913, by decide, by decide +kernel⟩

end FermiSdk.TriggerOrders
