import FermiSdk.Js
import FermiSdk.Lib.Rounding

/-!
# Share and payout arithmetic

`src/flp/math.ts`, and `batchPayout` of `src/flp/v4.ts`: the integer arithmetic that prices vault
shares, quotes deposits and pays withdrawals. Quantities are bigints in native units, so `Int`,
and division truncates (`Int.tdiv`). Every function throws on a value outside the width the
on-chain program gives it.

Each function is followed by the one statement of what its success means (`…_eq_ok`); the
verification uses these and never unfolds the functions.
-/

namespace FermiSdk.Flp

open FermiSdk.Lib

/-- Native units that are added to the assets and to the supply in normal pricing. -/
def VIRTUAL_ASSETS : Int := 1000000
def VIRTUAL_SHARES : Int := 1000000

/-- A price has twelve decimals. -/
def PRICE_SCALE : Int := 1000000000000

/-- The widths of the on-chain program. -/
def U64_MAX : Int := 2 ^ 64 - 1
def U128_MAX : Int := 2 ^ 128 - 1

/-! ## Checked values -/

/-- Passes the value on. -/
def u64 (n : Int) : Throws Int := do
  throwIf (n < 0 ∨ n > U64_MAX) "Expected u64"
  pure n

/-- A net asset value may be negative. -/
def navI64 (n : Int) : Throws Int := do
  throwIf (n < -2 ^ 63 ∨ n ≥ 2 ^ 63) "Expected i64 NAV"
  pure n

/-- A rate out of 10000. -/
def feeRate (bps : JsNumber) : Throws Int := do
  throwIf (!bps.isIntegerIn 0 10000) "Invalid fee bps"
  bps.toBigInt

@[simp] theorem u64_eq_ok {n m : Int} : u64 n = .ok m ↔ 0 ≤ n ∧ n ≤ U64_MAX ∧ n = m := by
  simp [u64, and_assoc]

@[simp] theorem navI64_eq_ok {n m : Int} :
    navI64 n = .ok m ↔ -2 ^ 63 ≤ n ∧ n < 2 ^ 63 ∧ n = m := by
  simp [navI64, and_assoc]

theorem feeRate_eq_ok {bps : JsNumber} {n : Int} :
    feeRate bps = .ok n ↔ bps = .int n ∧ 0 ≤ n ∧ n ≤ 10000 :=
  JsNumber.checked_eq_ok

/-! ## Ratios -/

/-- Quote over shares or shares over quote. No function makes one of zero denominator. -/
structure ShareRatio where
  numerator : Int
  denominator : Int
  deriving DecidableEq

/-- The supply that prices are made with: burnt withdrawal shares and unclaimed deposit shares count
too. -/
def pricingSupply (mintSupply owedUnmintedShares lockedShares : Int) : Throws Int := do
  u64 ((← u64 mintSupply) + (← u64 owedUnmintedShares) + (← u64 lockedShares))

/-- Shares for quote. A vault with shares needs a positive upper value. -/
def depositRatio (supply navHigh : Int) : Throws ShareRatio := do
  let _ ← u64 supply
  let _ ← navI64 navHigh
  throwIf ((navHigh ≤ 0 ∧ supply ≠ 0) ∨ navHigh + VIRTUAL_ASSETS ≤ 0) "Vault insolvent"
  pure { numerator := supply + VIRTUAL_SHARES, denominator := navHigh + VIRTUAL_ASSETS }

/-- Quote for shares, by the lower value; nothing if that is not positive. -/
def withdrawRatio (supply navLow : Int) : Throws ShareRatio := do
  let _ ← u64 supply
  let _ ← navI64 navLow
  pure { numerator := if navLow ≤ 0 then 0 else navLow + VIRTUAL_ASSETS,
         denominator := supply + VIRTUAL_SHARES }

/-- Recovery pays real assets against real supply, without virtual offsets. -/
def recoveryWithdrawRatio (supply navLow : Int) : Throws ShareRatio := do
  let _ ← u64 supply
  let _ ← navI64 navLow
  throwIf (supply = 0 ∨ navLow < 0) "Vault insolvent"
  pure { numerator := navLow, denominator := supply }

theorem pricingSupply_eq_ok {mintSupply owedUnmintedShares lockedShares supply : Int} :
    pricingSupply mintSupply owedUnmintedShares lockedShares = .ok supply ↔
      0 ≤ mintSupply ∧ 0 ≤ owedUnmintedShares ∧ 0 ≤ lockedShares ∧ supply ≤ U64_MAX ∧
        mintSupply + owedUnmintedShares + lockedShares = supply := by
  simp only [pricingSupply, Throws.bind_eq_ok, u64_eq_ok]
  constructor
  · rintro ⟨_, ⟨hmint, -, rfl⟩, _, ⟨howed, -, rfl⟩, _, ⟨hlocked, -, rfl⟩, -, hle, rfl⟩
    exact ⟨hmint, howed, hlocked, hle, rfl⟩
  · rintro ⟨hmint, howed, hlocked, hle, rfl⟩
    exact ⟨_, ⟨hmint, by omega, rfl⟩, _, ⟨howed, by omega, rfl⟩, _, ⟨hlocked, by omega, rfl⟩,
      by omega, hle, rfl⟩

/-- A claim mints owed shares, and a request for a withdrawal locks shares of the mint: prices stay
as they are. -/
theorem pricingSupply_moved {mint owed locked mint' owed' locked' supply : Int}
    (hnonneg : 0 ≤ mint' ∧ 0 ≤ owed' ∧ 0 ≤ locked')
    (hmoved : mint' + owed' + locked' = mint + owed + locked)
    (h : pricingSupply mint owed locked = .ok supply) :
    pricingSupply mint' owed' locked' = .ok supply := by
  obtain ⟨-, -, -, hle, hsupply⟩ := pricingSupply_eq_ok.1 h
  exact pricingSupply_eq_ok.2 ⟨hnonneg.1, hnonneg.2.1, hnonneg.2.2, hle, hmoved.trans hsupply⟩

theorem depositRatio_eq_ok {supply navHigh : Int} {r : ShareRatio} :
    depositRatio supply navHigh = .ok r ↔
      (0 ≤ supply ∧ supply ≤ U64_MAX) ∧ (-2 ^ 63 ≤ navHigh ∧ navHigh < 2 ^ 63) ∧
        (supply ≠ 0 → 0 < navHigh) ∧ 0 < navHigh + VIRTUAL_ASSETS ∧
        r = ⟨supply + VIRTUAL_SHARES, navHigh + VIRTUAL_ASSETS⟩ := by
  simp only [depositRatio, Throws.bind_eq_ok, u64_eq_ok, navI64_eq_ok, Throws.throwIf_eq_ok,
    exists_const, Throws.pure_eq_ok]
  constructor
  · rintro ⟨_, ⟨h0, h1, -⟩, _, ⟨h2, h3, -⟩, hsolvent, rfl⟩
    refine ⟨⟨h0, h1⟩, ⟨h2, h3⟩, fun hs => ?_, ?_, rfl⟩ <;> by_contra hc <;>
      exact hsolvent (by omega)
  · rintro ⟨⟨h0, h1⟩, ⟨h2, h3⟩, hs, hp, rfl⟩
    refine ⟨_, ⟨h0, h1, rfl⟩, _, ⟨h2, h3, rfl⟩, ?_, rfl⟩
    rintro (⟨hn, hz⟩ | hn)
    · exact absurd (hs hz) (by omega)
    · omega

theorem withdrawRatio_eq_ok {supply navLow : Int} {r : ShareRatio} :
    withdrawRatio supply navLow = .ok r ↔
      (0 ≤ supply ∧ supply ≤ U64_MAX) ∧ (-2 ^ 63 ≤ navLow ∧ navLow < 2 ^ 63) ∧
        r = ⟨if navLow ≤ 0 then 0 else navLow + VIRTUAL_ASSETS, supply + VIRTUAL_SHARES⟩ := by
  simp only [withdrawRatio, Throws.bind_eq_ok, u64_eq_ok, navI64_eq_ok, Throws.pure_eq_ok]
  constructor
  · rintro ⟨_, ⟨h0, h1, -⟩, _, ⟨h2, h3, -⟩, rfl⟩
    exact ⟨⟨h0, h1⟩, ⟨h2, h3⟩, rfl⟩
  · rintro ⟨⟨h0, h1⟩, ⟨h2, h3⟩, rfl⟩
    exact ⟨_, ⟨h0, h1, rfl⟩, _, ⟨h2, h3, rfl⟩, rfl⟩

/-- A ratio whose use on `amount` stays within the program's widths. -/
structure RatioFits (amount : Int) (ratio : ShareRatio) : Prop where
  amount_nonneg : 0 ≤ amount
  amount_le : amount ≤ U64_MAX
  numerator_nonneg : 0 ≤ ratio.numerator
  numerator_le : ratio.numerator ≤ U128_MAX
  denominator_pos : 0 < ratio.denominator
  denominator_le : ratio.denominator ≤ U128_MAX
  product_le : amount * ratio.numerator ≤ U128_MAX

theorem RatioFits.product_nonneg {amount : Int} {ratio : ShareRatio} (h : RatioFits amount ratio) :
    0 ≤ amount * ratio.numerator :=
  Int.mul_nonneg h.amount_nonneg h.numerator_nonneg

/-- The product is what the program computes in 128 bits. -/
def applyRatioFloor (amount : Int) (ratio : ShareRatio) : Throws Int := do
  let _ ← u64 amount
  throwIf (ratio.numerator < 0 ∨ ratio.denominator ≤ 0 ∨ ratio.numerator > U128_MAX ∨
      ratio.denominator > U128_MAX ∨ amount * ratio.numerator > U128_MAX)
    "Invalid or overflowing u128 ratio"
  u64 ((amount * ratio.numerator).tdiv ratio.denominator)

/-- What success of `applyRatioFloor` means: the widths hold and the result is the quotient
rounded down. -/
theorem applyRatioFloor_eq_ok {amount g : Int} {ratio : ShareRatio} :
    applyRatioFloor amount ratio = .ok g ↔
      RatioFits amount ratio ∧ g = amount * ratio.numerator / ratio.denominator ∧
        g ≤ U64_MAX := by
  simp only [applyRatioFloor, Throws.bind_eq_ok, u64_eq_ok, Throws.throwIf_eq_ok, exists_const]
  constructor
  · rintro ⟨_, ⟨h0, h1, -⟩, hw, hg0, hg1, rfl⟩
    have fits : RatioFits amount ratio :=
      ⟨h0, h1, by omega, by omega, by omega, by omega, by omega⟩
    rw [Rounding.tdiv_eq_div fits.product_nonneg] at hg1 ⊢
    exact ⟨fits, rfl, hg1⟩
  · rintro ⟨fits, rfl, hg⟩
    have hnum := fits.numerator_nonneg
    have hnum' := fits.numerator_le
    have hden := fits.denominator_pos
    have hden' := fits.denominator_le
    have hprod := fits.product_le
    rw [Rounding.tdiv_eq_div fits.product_nonneg]
    exact ⟨_, ⟨fits.amount_nonneg, fits.amount_le, rfl⟩, by omega,
      Rounding.div_nonneg fits.product_nonneg hden, hg, rfl⟩

/-! ## Price, quote and payout -/

/-- The price of a share, for display: it is the only function that shows insolvency as zero. -/
def priceE12 (nav supply : Int) : Throws Int := do
  let _ ← navI64 nav
  let _ ← u64 supply
  let assets := nav + VIRTUAL_ASSETS
  pure (if assets ≤ 0 then 0 else (assets * PRICE_SCALE).tdiv (supply + VIRTUAL_SHARES))

theorem priceE12_eq_ok {nav supply p : Int} :
    priceE12 nav supply = .ok p ↔
      (-2 ^ 63 ≤ nav ∧ nav < 2 ^ 63) ∧ (0 ≤ supply ∧ supply ≤ U64_MAX) ∧
        p = if nav + VIRTUAL_ASSETS ≤ 0 then 0
          else (nav + VIRTUAL_ASSETS) * PRICE_SCALE / (supply + VIRTUAL_SHARES) := by
  simp only [priceE12, Throws.bind_eq_ok, u64_eq_ok, navI64_eq_ok, Throws.pure_eq_ok]
  have hdiv : 0 < nav + VIRTUAL_ASSETS →
      ((nav + VIRTUAL_ASSETS) * PRICE_SCALE).tdiv (supply + VIRTUAL_SHARES) =
        (nav + VIRTUAL_ASSETS) * PRICE_SCALE / (supply + VIRTUAL_SHARES) := fun hpos =>
    Rounding.tdiv_eq_div (Int.mul_nonneg (by omega) (by decide)) _
  constructor
  · rintro ⟨_, ⟨h0, h1, -⟩, _, ⟨h2, h3, -⟩, rfl⟩
    refine ⟨⟨h0, h1⟩, ⟨h2, h3⟩, ?_⟩
    split
    · rfl
    · exact hdiv (by omega)
  · rintro ⟨⟨h0, h1⟩, ⟨h2, h3⟩, rfl⟩
    refine ⟨_, ⟨h0, h1, rfl⟩, _, ⟨h2, h3, rfl⟩, ?_⟩
    split
    · rfl
    · exact hdiv (by omega)

/-- What a deposit would cost and give. -/
structure DepositQuote where
  amount : Int
  fee : Int
  net : Int
  shares : Int
  deriving DecidableEq

/-- Fee is rounded up before minting shares; minShares is still enforced on chain. -/
def quoteDeposit (amount supply navHigh : Int) (depositFeeBps : JsNumber) :
    Throws DepositQuote := do
  let _ ← u64 amount
  let fee := (amount * (← feeRate depositFeeBps) + 9999).tdiv 10000
  let net := amount - fee
  pure { amount, fee, net, shares := ← applyRatioFloor net (← depositRatio supply navHigh) }

/-- What a withdrawal pays, before and after the fee. -/
structure Payout where
  shares : Int
  gross : Int
  fee : Int
  net : Int
  deriving DecidableEq

/-- Individual withdrawal claims round their fee up (batch funding rounds it down). -/
def claimPayout (shares : Int) (ratio : ShareRatio) (withdrawFeeBps : JsNumber) :
    Throws Payout := do
  let gross ← applyRatioFloor shares ratio
  let fee := (gross * (← feeRate withdrawFeeBps) + 9999).tdiv 10000
  pure { shares, gross, fee, net := gross - fee }

/-- Exact integer payout arithmetic of a whole batch. -/
def batchPayout (shares numerator denominator : Int) (feeBps : JsNumber) : Throws Payout := do
  throwIf (shares < 0 ∨ numerator < 0 ∨ denominator < 0) "Negative payout input"
  throwIf (denominator = 0 ∨ !feeBps.isIntegerIn 0 10000) "Invalid payout ratio or fee"
  throwIf (numerator > U128_MAX ∨ denominator > U128_MAX ∨ shares * numerator > U128_MAX)
    "Payout ratio exceeds u128"
  let gross := (shares * numerator).tdiv denominator
  throwIf (gross > U64_MAX ∨ shares > U64_MAX) "Payout exceeds u64"
  let fee := (gross * (← feeBps.toBigInt)).tdiv 10000
  pure { shares, gross, fee, net := gross - fee }

/-- A fee rounded up, at the rate `bps` out of 10000. -/
theorem ceilFee_eq {x bps : Int} (hx : 0 ≤ x) (hb : 0 ≤ bps) :
    (x * bps + 9999).tdiv 10000 = (x * bps + (10000 - 1)) / 10000 :=
  Rounding.tdiv_eq_div (Int.add_nonneg (Int.mul_nonneg hx hb) (by decide)) _

theorem quoteDeposit_eq_ok {amount supply navHigh : Int} {bps : JsNumber} {q : DepositQuote} :
    quoteDeposit amount supply navHigh bps = .ok q ↔
      ∃ n r, (0 ≤ amount ∧ amount ≤ U64_MAX) ∧ feeRate bps = .ok n ∧
        depositRatio supply navHigh = .ok r ∧ applyRatioFloor q.net r = .ok q.shares ∧
        q.amount = amount ∧ q.fee = (amount * n + (10000 - 1)) / 10000 ∧
        q.net = amount - q.fee := by
  simp only [quoteDeposit, Throws.bind_eq_ok, u64_eq_ok, Throws.pure_eq_ok]
  constructor
  · rintro ⟨_, ⟨h0, h1, -⟩, n, hn, r, hr, s, hs, rfl⟩
    exact ⟨n, r, ⟨h0, h1⟩, hn, hr, hs, rfl, ceilFee_eq h0 (feeRate_eq_ok.1 hn).2.1, rfl⟩
  · rintro ⟨n, r, ⟨h0, h1⟩, hn, hr, hs, ha, hf, hnet⟩
    obtain ⟨a, f, t, s⟩ := q
    simp only at hs ha hf hnet
    have hfee := ceilFee_eq h0 (feeRate_eq_ok.1 hn).2.1
    subst ha hnet
    rw [← hfee] at hf
    subst hf
    exact ⟨_, ⟨h0, h1, rfl⟩, n, hn, r, hr, s, hs, rfl⟩

theorem claimPayout_eq_ok {shares : Int} {ratio : ShareRatio} {bps : JsNumber} {p : Payout} :
    claimPayout shares ratio bps = .ok p ↔
      ∃ n, applyRatioFloor shares ratio = .ok p.gross ∧ feeRate bps = .ok n ∧
        p.shares = shares ∧ p.fee = (p.gross * n + (10000 - 1)) / 10000 ∧
        p.net = p.gross - p.fee := by
  have hgross : ∀ {g}, applyRatioFloor shares ratio = .ok g → 0 ≤ g := fun h => by
    obtain ⟨fits, rfl, -⟩ := applyRatioFloor_eq_ok.1 h
    exact Rounding.div_nonneg fits.product_nonneg fits.denominator_pos
  simp only [claimPayout, Throws.bind_eq_ok, Throws.pure_eq_ok]
  constructor
  · rintro ⟨g, hg, n, hn, rfl⟩
    exact ⟨n, hg, hn, rfl, ceilFee_eq (hgross hg) (feeRate_eq_ok.1 hn).2.1, rfl⟩
  · rintro ⟨n, hg, hn, hs, hf, hnet⟩
    obtain ⟨s, g, f, t⟩ := p
    simp only at hg hs hf hnet
    rw [← ceilFee_eq (hgross hg) (feeRate_eq_ok.1 hn).2.1] at hf
    subst hs hf hnet
    exact ⟨g, hg, n, hn, rfl⟩

/-- `batchPayout` accepts exactly the ratios and fee rates a claim is paid at, and rounds its fee
down. -/
theorem batchPayout_eq_ok {shares numerator denominator : Int} {bps : JsNumber} {p : Payout} :
    batchPayout shares numerator denominator bps = .ok p ↔
      ∃ n, applyRatioFloor shares ⟨numerator, denominator⟩ = .ok p.gross ∧ feeRate bps = .ok n ∧
        p.shares = shares ∧ p.fee = p.gross * n / 10000 ∧ p.net = p.gross - p.fee := by
  simp only [batchPayout, Throws.bind_eq_ok, Throws.throwIf_eq_ok, exists_const,
    Throws.pure_eq_ok, JsNumber.toBigInt_eq_ok, feeRate_eq_ok, applyRatioFloor_eq_ok]
  constructor
  · rintro ⟨hneg, hrate, hwide, hgross, n, rfl, rfl⟩
    have hn : 0 ≤ n ∧ n ≤ 10000 := by simpa [JsNumber.isIntegerIn] using fun h => hrate (.inr h)
    have fits : RatioFits shares ⟨numerator, denominator⟩ :=
      ⟨by omega, by omega, show 0 ≤ numerator by omega, show numerator ≤ U128_MAX by omega,
        show 0 < denominator by omega, show denominator ≤ U128_MAX by omega,
        show shares * numerator ≤ U128_MAX by omega⟩
    have e := Rounding.tdiv_eq_div fits.product_nonneg denominator
    have hg := Rounding.div_nonneg fits.product_nonneg fits.denominator_pos
    dsimp only at e hg ⊢
    refine ⟨n, ⟨fits, e, by omega⟩, ⟨rfl, hn⟩, rfl, ?_, rfl⟩
    rw [e]
    exact Rounding.tdiv_eq_div (Int.mul_nonneg hg hn.1) _
  · rintro ⟨n, ⟨fits, hg, hle⟩, ⟨rfl, hn⟩, hs, hf, hnet⟩
    obtain ⟨s, g, f, t⟩ := p
    obtain ⟨h0, h1, h2, h3, h4, h5, h6⟩ := id fits
    have e := Rounding.tdiv_eq_div fits.product_nonneg denominator
    dsimp only at *
    subst hs hnet
    have hg0 : 0 ≤ g := hg ▸ Rounding.div_nonneg fits.product_nonneg h4
    have hfee := Rounding.tdiv_eq_div (Int.mul_nonneg hg0 hn.1) 10000
    have hrate : (JsNumber.int n).isIntegerIn 0 10000 = true :=
      JsNumber.isIntegerIn_iff.2 ⟨n, rfl, hn⟩
    rw [e, ← hg, hf]
    refine ⟨by omega, ?_, by omega, by omega, n, rfl, by rw [hfee]⟩
    rw [hrate]
    simp only [Bool.not_true, Bool.false_eq_true, or_false]
    omega

end FermiSdk.Flp
