import FermiSdk.TriggerOrders.Verify.Legs

/-!
# When both legs of a bracket can be met

A long's stop loss is met at or below its price and its take profit at or above its own, so one price
meets both exactly if the take profit is not above the stop loss; for a short the other way round.
The builder does not compare the two prices. An oracle price, which must meet neither leg, lies
strictly between them and so puts them in order (`bracket_met_together`); without one an inverted
bracket is accepted.
-/

namespace FermiSdk.TriggerOrders

open FermiSdk.Lib FermiSdk.Intents

/-- An oracle price meets a leg's trigger. -/
def SlTpLeg.Met (leg : SlTpLeg) (oracle : Int) : Prop :=
  triggerAlreadyMet leg.terms.direction leg.terms.triggerPriceLots oracle = true

instance (leg : SlTpLeg) (oracle : Int) : Decidable (leg.Met oracle) :=
  inferInstanceAs (Decidable (_ = true))

/-- The prices of a bracket are not in the order that its position asks for. -/
def Inverted (params : SlTpParams) : Prop :=
  ∃ stop take, params.stopLossPriceLots = some stop ∧ params.takeProfitPriceLots = some take ∧
    match params.position with
    | .long => take ≤ stop
    | .short => stop ≤ take

theorem triggerAlreadyMet_below {trigger oracle : Int} :
    triggerAlreadyMet .AtOrBelow trigger oracle = true ↔ oracle ≤ trigger := by
  simp [triggerAlreadyMet]

theorem triggerAlreadyMet_above {trigger oracle : Int} :
    triggerAlreadyMet .AtOrAbove trigger oracle = true ↔ trigger ≤ oracle := by
  have hne : TriggerDirection.AtOrAbove ≠ TriggerDirection.AtOrBelow := by decide
  simp [triggerAlreadyMet, hne]

/-! ## Triggers by position and kind -/

section

variable {params : SlTpParams} {price oracle : Int}

/-- A stop loss is met when the price has moved against the position. -/
theorem stopLoss_met : triggerAlreadyMet (legDirection params .StopLoss) price oracle = true ↔
    match params.position with
    | .long => oracle ≤ price
    | .short => price ≤ oracle := by
  cases hposition : params.position with
  | long => simp [legDirection, isAsk, hposition, triggerAlreadyMet_below]
  | short => simp [legDirection, isAsk, hposition, triggerAlreadyMet_above]

/-- A take profit is met when the price has moved with the position. -/
theorem takeProfit_met : triggerAlreadyMet (legDirection params .TakeProfit) price oracle = true ↔
    match params.position with
    | .long => price ≤ oracle
    | .short => oracle ≤ price := by
  have hne : TriggerKind.TakeProfit ≠ TriggerKind.StopLoss := by decide
  cases hposition : params.position with
  | long => simp [legDirection, isAsk, hposition, hne, triggerAlreadyMet_above]
  | short => simp [legDirection, isAsk, hposition, hne, triggerAlreadyMet_below]

/-- Some price meets both triggers exactly if the prices are not in order. -/
theorem both_met_iff {stop take : Int} :
    (∃ p, triggerAlreadyMet (legDirection params .StopLoss) stop p = true ∧
      triggerAlreadyMet (legDirection params .TakeProfit) take p = true) ↔
      match params.position with
      | .long => take ≤ stop
      | .short => stop ≤ take := by
  simp only [stopLoss_met, takeProfit_met]
  cases params.position with
  | long => exact ⟨fun ⟨_, hs, ht⟩ => ht.trans hs, fun h => ⟨stop, le_rfl, h⟩⟩
  | short => exact ⟨fun ⟨_, hs, ht⟩ => hs.trans ht, fun h => ⟨stop, le_rfl, h⟩⟩

/-- A price that meets neither trigger shows that they are in order. -/
theorem not_both_met_of_neither {stop take : Int}
    (hstop : triggerAlreadyMet (legDirection params .StopLoss) stop oracle = false)
    (htake : triggerAlreadyMet (legDirection params .TakeProfit) take oracle = false) :
    ¬ ∃ p, triggerAlreadyMet (legDirection params .StopLoss) stop p = true ∧
      triggerAlreadyMet (legDirection params .TakeProfit) take p = true := by
  rw [both_met_iff]
  rw [← Bool.not_eq_true, stopLoss_met] at hstop
  rw [← Bool.not_eq_true, takeProfit_met] at htake
  cases hposition : params.position <;> simp only [hposition] at * <;> omega

end

/-! ## The legs of a bracket -/

section

variable {rt : Runtime} {params : SlTpParams} {draws : BracketDraws}

/-- One leg of a bracket: the trigger is the price asked for and the oracle price allows it. -/
theorem buildWanted_cons {ocoGroup price : Int} {kind : TriggerKind} {ds : List UInt64}
    {wanted : List (TriggerKind × Int × List UInt64)} {legs : List SlTpLeg}
    (h : buildWanted rt params ocoGroup ((kind, price, ds) :: wanted) = .ok (some legs)) :
    ∃ leg rest, legs = leg :: rest ∧ buildWanted rt params ocoGroup wanted = .ok (some rest) ∧
      (∀ p, leg.Met p ↔ triggerAlreadyMet (legDirection params kind) price p = true) ∧
      OracleAllows params kind price := by
  simp only [buildWanted, Throws.bind_eq_ok] at h
  obtain ⟨built, hbuilt, h⟩ := h
  cases built with
  | none => cases Throws.pure_eq_ok.1 h
  | some leg =>
    simp only [Throws.bind_eq_ok, Throws.pure_eq_ok, Option.map_eq_some_iff] at h
    obtain ⟨_, hrest, rest, rfl, rfl⟩ := h
    obtain ⟨bps, hacc, hspec⟩ := buildTriggerOrderLeg_spec hbuilt
    refine ⟨leg, rest, rfl, hrest, fun p => ?_, hacc.oracle⟩
    rw [SlTpLeg.Met, hspec.terms_eq]
    rfl

theorem buildWanted_nil {ocoGroup : Int} {legs : List SlTpLeg}
    (h : buildWanted rt params ocoGroup [] = .ok (some legs)) : legs = [] := by
  cases h
  rfl

/-- Two legs are a stop loss and a take profit. -/
theorem buildSlTpLegs_two {a b : SlTpLeg}
    (h : buildSlTpLegs rt params draws = .ok (some [a, b])) :
    ∃ stop take, params.stopLossPriceLots = some stop ∧ params.takeProfitPriceLots = some take ∧
      (∀ p, a.Met p ↔ triggerAlreadyMet (legDirection params .StopLoss) stop p = true) ∧
      (∀ p, b.Met p ↔ triggerAlreadyMet (legDirection params .TakeProfit) take p = true) ∧
      OracleAllows params .StopLoss stop ∧ OracleAllows params .TakeProfit take := by
  simp only [buildSlTpLegs, Throws.bind_eq_ok, Throws.throwIf_eq_ok, exists_const] at h
  obtain ⟨-, h⟩ := h
  generalize (if (wantedLegs params draws).length > 1 then
    if draws.ocoGroup = 0 then (1 : Int) else draws.ocoGroup.toNat else 0) = ocoGroup at h
  rw [wantedLegs] at h
  cases hstop : params.stopLossPriceLots with
  | none =>
    rw [hstop] at h
    cases htake : params.takeProfitPriceLots with
    | none =>
      rw [htake] at h
      cases buildWanted_nil h
    | some take =>
      rw [htake] at h
      obtain ⟨leg, rest, hlegs, hrest, -⟩ := buildWanted_cons h
      rw [buildWanted_nil hrest] at hlegs
      cases hlegs
  | some stop =>
    rw [hstop] at h
    cases htake : params.takeProfitPriceLots with
    | none =>
      rw [htake] at h
      obtain ⟨leg, rest, hlegs, hrest, -⟩ := buildWanted_cons h
      rw [buildWanted_nil hrest] at hlegs
      cases hlegs
    | some take =>
      rw [htake] at h
      obtain ⟨leg, rest, hlegs, hrest, hmet, hallows⟩ := buildWanted_cons h
      obtain ⟨leg', rest', hlegs', hrest', hmet', hallows'⟩ := buildWanted_cons hrest
      rw [buildWanted_nil hrest'] at hlegs'
      subst hlegs'
      cases hlegs
      exact ⟨stop, take, rfl, rfl, hmet, hmet', hallows, hallows'⟩

/-- **Two legs can be met together exactly if their prices are inverted**, and never if an oracle
price was given. -/
theorem bracket_met_together {a b : SlTpLeg}
    (h : buildSlTpLegs rt params draws = .ok (some [a, b])) :
    (params.oraclePriceLots ≠ none → ¬ ∃ p, a.Met p ∧ b.Met p) ∧
      ((∃ p, a.Met p ∧ b.Met p) ↔ Inverted params) := by
  obtain ⟨stop, take, hstop, htake, ha, hb, hallowsStop, hallowsTake⟩ := buildSlTpLegs_two h
  simp only [ha, hb]
  constructor
  · intro hgiven
    obtain ⟨oracle, horacle⟩ := Option.ne_none_iff_exists'.1 hgiven
    exact not_both_met_of_neither (hallowsStop oracle horacle).2 (hallowsTake oracle horacle).2
  · rw [both_met_iff]
    constructor
    · intro horder
      exact ⟨stop, take, hstop, htake, horder⟩
    · rintro ⟨stop', take', hstop', htake', horder⟩
      cases hstop.symm.trans hstop'
      cases htake.symm.trans htake'
      exact horder

end

/-! ## An inverted bracket

A long with its stop loss at 95000 and its take profit at 90000, on the recorded accounts. -/

namespace InvertedLong

open Recorded

def stopLossPayloadHash : Digest :=
  ⟨[160, 126, 143, 167, 93, 154, 168, 124, 76, 169, 204, 241, 193, 231, 94, 187, 43, 99, 12, 222,
    173, 205, 120, 182, 14, 215, 186, 174, 211, 183, 127, 101], rfl⟩

def stopLossIntentHash : Digest :=
  ⟨[178, 44, 199, 167, 161, 82, 18, 160, 27, 154, 19, 18, 151, 95, 137, 1, 223, 44, 143, 43, 62,
    73, 79, 42, 90, 209, 251, 33, 166, 38, 207, 4], rfl⟩

def takeProfitTermsHash : Digest :=
  ⟨[234, 58, 63, 127, 43, 56, 229, 183, 218, 49, 212, 41, 75, 17, 214, 128, 118, 185, 249, 233,
    244, 127, 123, 218, 182, 217, 40, 137, 217, 145, 46, 115], rfl⟩

def takeProfitPayloadHash : Digest :=
  ⟨[125, 70, 236, 71, 131, 124, 221, 220, 189, 138, 57, 85, 104, 13, 65, 224, 239, 155, 32, 87,
    110, 222, 157, 242, 179, 101, 104, 102, 55, 90, 207, 40], rfl⟩

def takeProfitIntentHash : Digest :=
  ⟨[166, 105, 184, 201, 153, 222, 27, 251, 57, 213, 37, 103, 135, 224, 24, 29, 116, 213, 208, 212,
    201, 54, 237, 17, 11, 141, 138, 29, 155, 78, 24, 222], rfl⟩

def termsBytes (kind direction : UInt8) (price salt : Nat) : Bytes :=
  Buffer.ofAscii "fermi-trigger-terms-v1" ++ group.bytes ++ fermiAccount.bytes ++
    [2, 0, 1, kind, direction, 0, 0] ++ leBytes 8 price ++ leBytes 8 1234605616436508552 ++
    leBytes 8 1790000000 ++ leBytes 8 salt

def legPayload (price clientOrderId : Nat) : Bytes :=
  [1, 0, 0, 0, 1] ++ leBytes 8 price ++ leBytes 8 (2 ^ 63 - 1) ++ leBytes 8 (2 ^ 63 - 1) ++
    leBytes 8 clientOrderId ++ [1, 0, 1] ++ leBytes 8 1790000000 ++ [10]

def intentBytes (payloadHash : Digest) (clientOrderId : Nat) : Bytes :=
  Buffer.ofAscii "mango-v5-user-intent-v2" ++ group.bytes ++ fermiAccount.bytes ++ signer.bytes ++
    [0, 0, 2, 0] ++ payloadHash.bytes ++ accountsHash.bytes ++ List.replicate 16 0 ++
    leBytes 8 clientOrderId

/-- SHA-256 on what is hashed for the two legs. -/
def runtime : Runtime :=
  .ofTables
    [(termsBytes 0 1 95000 723685415333072913, termsHash),
      (legPayload 95000 13565989750763315032, stopLossPayloadHash),
      (accountsBytes, accountsHash),
      (intentBytes stopLossPayloadHash 13565989750763315032, stopLossIntentHash),
      (termsBytes 1 0 90000 723685415333072914, takeProfitTermsHash),
      (legPayload 90000 13251059238077151978, takeProfitPayloadHash),
      (intentBytes takeProfitPayloadHash 13251059238077151978, takeProfitIntentHash)]
    [] []

def params : SlTpParams :=
  { Recorded.params with stopLossPriceLots := some 95000, takeProfitPriceLots := some 90000 }

def draws : BracketDraws where
  ocoGroup := 1234605616436508552
  stopLoss := [723685415333072913]
  takeProfit := [723685415333072914]

def stopLoss : SlTpLeg where
  kind := .StopLoss
  terms := ⟨.StopLoss, .AtOrBelow, 95000, 1234605616436508552, 1790000000, 723685415333072913⟩
  clientOrderId := 13565989750763315032
  payload := legPayload 95000 13565989750763315032
  intentHash := stopLossIntentHash.bytes
  params := params

def takeProfit : SlTpLeg where
  kind := .TakeProfit
  terms := ⟨.TakeProfit, .AtOrAbove, 90000, 1234605616436508552, 1790000000, 723685415333072914⟩
  clientOrderId := 13251059238077151978
  payload := legPayload 90000 13251059238077151978
  intentHash := takeProfitIntentHash.bytes
  params := params

end InvertedLong

set_option maxRecDepth 8000 in
open InvertedLong in
/-- Both legs are returned, and the price 92000 meets both. -/
theorem inverted_bracket_accepted :
    buildSlTpLegs runtime params draws = .ok (some [stopLoss, takeProfit]) ∧
      stopLoss.Met 92000 ∧ takeProfit.Met 92000 :=
  ⟨rfl, by decide, by decide⟩

set_option maxRecDepth 8000 in
open InvertedLong in
/-- That price exists because the bracket is inverted. -/
theorem bracket_met_together_inverted :
    (∃ p, stopLoss.Met p ∧ takeProfit.Met p) ↔ Inverted params :=
  (@bracket_met_together runtime params draws stopLoss takeProfit rfl).2

end FermiSdk.TriggerOrders
