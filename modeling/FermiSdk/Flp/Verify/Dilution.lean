import FermiSdk.Flp.Math
import FermiSdk.Lib.Pool
import Mathlib.Data.Rat.Cast.Order
import Mathlib.Tactic.Positivity

/-!
# No operation dilutes the remaining holders

A vault is its share supply and its true NAV. It runs by deposits, priced at some NAV at or above
the true one, and withdrawals, priced at some NAV at or below it (`Vault.Step`). Its assets and
shares, each with the virtual offset, are a pool (`Vault.pool`); a step from a state with positive
assets is a fair change of that pool (`Vault.Step.fair`), so that the price per share never
decreases over a run (`no_dilution`). A deposit that is withdrawn at once returns at most what it
bought, and for a solvent vault loses less than a share's price and one unit (`round_trip`).
-/

namespace FermiSdk.Flp

open FermiSdk.Lib

/-! ## What a deposit and a withdrawal do -/

theorem fee_nonneg {x n : Int} (hx : 0 ≤ x) (hn : 0 ≤ n) : 0 ≤ (x * n + (10000 - 1)) / 10000 :=
  Rounding.div_nonneg (Int.add_nonneg (Int.mul_nonneg hx hn) (by decide)) (by decide)

/-- What a successful deposit quote fixes: the minted shares are the net at the high price, rounded
down, and the net is at most the amount. -/
structure DepositSpec (supply navHigh : Int) (q : DepositQuote) : Prop where
  supply_nonneg : 0 ≤ supply
  assets_pos : 0 < navHigh + VIRTUAL_ASSETS
  net_nonneg : 0 ≤ q.net
  net_le : q.net ≤ q.amount
  shares_eq : q.shares = q.net * (supply + VIRTUAL_SHARES) / (navHigh + VIRTUAL_ASSETS)

theorem quoteDeposit_spec {amount supply navHigh : Int} {bps : JsNumber} {q : DepositQuote}
    (h : quoteDeposit amount supply navHigh bps = .ok q) :
    DepositSpec supply navHigh q ∧ q.amount = amount := by
  obtain ⟨n, r, ⟨h0, -⟩, hn, hr, hs, ha, hf, hnet⟩ := quoteDeposit_eq_ok.1 h
  obtain ⟨-, hrate⟩ := feeRate_eq_ok.1 hn
  obtain ⟨⟨hsup, -⟩, -, -, hpos, rfl⟩ := depositRatio_eq_ok.1 hr
  obtain ⟨fits, hshares, -⟩ := applyRatioFloor_eq_ok.1 hs
  have hfee : 0 ≤ q.fee := hf ▸ fee_nonneg h0 hrate.1
  exact ⟨⟨hsup, hpos, fits.amount_nonneg, by omega, hshares⟩, ha⟩

namespace DepositSpec

variable {supply navHigh : Int} {q : DepositQuote} (h : DepositSpec supply navHigh q)

include h

theorem base_pos : 0 < supply + VIRTUAL_SHARES :=
  Int.add_pos_of_nonneg_of_pos h.supply_nonneg (by decide)

theorem shares_nonneg : 0 ≤ q.shares :=
  h.shares_eq ▸ Rounding.div_nonneg (Int.mul_nonneg h.net_nonneg (Int.le_of_lt h.base_pos))
    h.assets_pos

/-- The minted shares are worth at most the net at the high price. -/
theorem shares_mul_le :
    q.shares * (navHigh + VIRTUAL_ASSETS) ≤ q.net * (supply + VIRTUAL_SHARES) :=
  h.shares_eq ▸ Rounding.div_mul_le _ h.assets_pos

/-- One more share would be worth more than the net at the high price. -/
theorem lt_succ_shares_mul :
    q.net * (supply + VIRTUAL_SHARES) < (q.shares + 1) * (navHigh + VIRTUAL_ASSETS) :=
  h.shares_eq ▸ Rounding.lt_div_succ_mul _ h.assets_pos

end DepositSpec

/-- What a successful withdrawal fixes: the gross is the shares at the low price, rounded down,
and nothing when the low NAV is not positive. -/
structure WithdrawSpec (supply navLow : Int) (p : Payout) : Prop where
  supply_nonneg : 0 ≤ supply
  shares_nonneg : 0 ≤ p.shares
  gross_eq : p.gross =
    p.shares * (if navLow ≤ 0 then 0 else navLow + VIRTUAL_ASSETS) / (supply + VIRTUAL_SHARES)
  net_le : p.net ≤ p.gross

theorem claimPayout_spec {supply navLow shares : Int} {r : ShareRatio} {bps : JsNumber}
    {p : Payout} (hr : withdrawRatio supply navLow = .ok r)
    (h : claimPayout shares r bps = .ok p) : WithdrawSpec supply navLow p ∧ p.shares = shares := by
  obtain ⟨⟨hsup, -⟩, -, rfl⟩ := withdrawRatio_eq_ok.1 hr
  obtain ⟨n, hg, hn, rfl, hf, hnet⟩ := claimPayout_eq_ok.1 h
  obtain ⟨fits, hgross, -⟩ := applyRatioFloor_eq_ok.1 hg
  have hg0 : 0 ≤ p.gross :=
    hgross ▸ Rounding.div_nonneg fits.product_nonneg fits.denominator_pos
  have hfee : 0 ≤ p.fee := hf ▸ fee_nonneg hg0 (feeRate_eq_ok.1 hn).2.1
  exact ⟨⟨hsup, fits.amount_nonneg, hgross, by omega⟩, rfl⟩

namespace WithdrawSpec

variable {supply navLow : Int} {p : Payout} (h : WithdrawSpec supply navLow p)

include h

theorem base_pos : 0 < supply + VIRTUAL_SHARES :=
  Int.add_pos_of_nonneg_of_pos h.supply_nonneg (by decide)

/-- The gross is worth at most the shares at any price at or above the low one, as long as that
price is not negative. -/
theorem gross_mul_le {nav : Int} (hnav : navLow ≤ nav) (hpos : 0 ≤ nav + VIRTUAL_ASSETS) :
    p.gross * (supply + VIRTUAL_SHARES) ≤ p.shares * (nav + VIRTUAL_ASSETS) := by
  have hle : (if navLow ≤ 0 then 0 else navLow + VIRTUAL_ASSETS) ≤ nav + VIRTUAL_ASSETS := by
    split <;> omega
  calc p.gross * (supply + VIRTUAL_SHARES)
      ≤ p.shares * (if navLow ≤ 0 then 0 else navLow + VIRTUAL_ASSETS) := by
        rw [h.gross_eq]
        exact Rounding.div_mul_le _ h.base_pos
    _ ≤ p.shares * (nav + VIRTUAL_ASSETS) := Int.mul_le_mul_of_nonneg_left hle h.shares_nonneg

/-- One unit more than the gross is worth more than the shares at a positive low price. -/
theorem lt_succ_gross_mul (hpos : 0 < navLow) :
    p.shares * (navLow + VIRTUAL_ASSETS) < (p.gross + 1) * (supply + VIRTUAL_SHARES) := by
  rw [h.gross_eq, if_neg (by omega)]
  exact Rounding.lt_div_succ_mul _ h.base_pos

end WithdrawSpec

/-! ## Runs of a vault -/

/-- A vault's share supply and its true NAV. -/
structure Vault where
  supply : Int
  nav : Int

namespace Vault

/-- The exact ratio behind the price of a share, virtual offsets included. -/
def pool (v : Vault) : Pool ℚ :=
  { assets := ((v.nav + VIRTUAL_ASSETS : Int) : ℚ),
    shares := ((v.supply + VIRTUAL_SHARES : Int) : ℚ) }

theorem pool_assets (v : Vault) : v.pool.assets = ((v.nav + VIRTUAL_ASSETS : Int) : ℚ) := rfl

theorem pool_shares (v : Vault) : v.pool.shares = ((v.supply + VIRTUAL_SHARES : Int) : ℚ) := rfl

/-- One deposit or withdrawal in which no call throws. -/
inductive Step : Vault → Vault → Prop
  | deposit {v : Vault} {navHigh amount : Int} {bps : JsNumber} {q : DepositQuote}
      (hnav : v.nav ≤ navHigh) (hq : quoteDeposit amount v.supply navHigh bps = .ok q) :
      Step v ⟨v.supply + q.shares, v.nav + q.net⟩
  | withdraw {v : Vault} {navLow shares : Int} {bps : JsNumber} {r : ShareRatio} {p : Payout}
      (hnav : navLow ≤ v.nav) (hshares : shares ≤ v.supply)
      (hr : withdrawRatio v.supply navLow = .ok r) (hp : claimPayout shares r bps = .ok p) :
      Step v ⟨v.supply - shares, v.nav - p.gross⟩

/-- A run of a vault: any number of deposits and withdrawals. -/
abbrev Run : Vault → Vault → Prop := Relation.ReflTransGen Step

/-- A step starts and ends with a supply the program can hold. -/
theorem Step.supply_nonneg {v w : Vault} (h : Step v w) : 0 ≤ v.supply ∧ 0 ≤ w.supply := by
  cases h with
  | deposit _ hq =>
    obtain ⟨hs, -⟩ := quoteDeposit_spec hq
    exact ⟨hs.supply_nonneg, Int.add_nonneg hs.supply_nonneg hs.shares_nonneg⟩
  | withdraw _ hle hr hp =>
    obtain ⟨hs, rfl⟩ := claimPayout_spec hr hp
    exact ⟨hs.supply_nonneg, Int.sub_nonneg.2 hle⟩

theorem shares_pos {v : Vault} (h : 0 ≤ v.supply) : 0 < v.pool.shares := by
  rw [pool_shares]
  exact_mod_cast Int.add_pos_of_nonneg_of_pos h (by decide)

/-- A step from positive assets is a fair change of the pool: deposits mint at or above the price,
withdrawals pay at or below it. -/
theorem Step.fair {v w : Vault} (h : Step v w) (hpos : 0 < v.nav + VIRTUAL_ASSETS) :
    Pool.Fair v.pool w.pool := by
  cases h with
  | @deposit navHigh amount bps q hnav hq =>
    obtain ⟨hs, -⟩ := quoteDeposit_spec hq
    have hcross : q.shares * (v.nav + VIRTUAL_ASSETS) ≤ q.net * (v.supply + VIRTUAL_SHARES) :=
      (Int.mul_le_mul_of_nonneg_left (by omega) hs.shares_nonneg).trans hs.shares_mul_le
    have e : pool ⟨v.supply + q.shares, v.nav + q.net⟩ =
        ⟨v.pool.assets + (q.net : ℚ), v.pool.shares + (q.shares : ℚ)⟩ := by
      simp only [pool, Pool.mk.injEq]
      push_cast
      exact ⟨by ring, by ring⟩
    rw [e]
    refine .issue _ (by exact_mod_cast hs.shares_nonneg) ?_
    rw [pool_assets, pool_shares]
    exact_mod_cast hcross
  | @withdraw navLow shares bps r p hnav hle hr hp =>
    obtain ⟨hs, rfl⟩ := claimPayout_spec hr hp
    have hcross := hs.gross_mul_le hnav (Int.le_of_lt hpos)
    have e : pool ⟨v.supply - p.shares, v.nav - p.gross⟩ =
        ⟨v.pool.assets - (p.gross : ℚ), v.pool.shares - (p.shares : ℚ)⟩ := by
      simp only [pool, Pool.mk.injEq]
      push_cast
      exact ⟨by ring, by ring⟩
    rw [e]
    refine .redeem _ ?_ ?_
    · rw [pool_shares]
      exact_mod_cast Int.lt_of_le_of_lt hle (Int.lt_add_of_pos_right _ (by decide))
    · rw [pool_assets, pool_shares]
      exact_mod_cast hcross

/-- A step does not take the assets from positive to nonpositive: a withdrawal pays at most its
share of them, and some share remains (the virtual ones). -/
theorem Step.assets_pos {v w : Vault} (h : Step v w) (hpos : 0 < v.nav + VIRTUAL_ASSETS) :
    0 < w.nav + VIRTUAL_ASSETS := by
  obtain ⟨hv, hw⟩ := h.supply_nonneg
  have hprice := (h.fair hpos).price_le (shares_pos hv)
  rw [Pool.price_le_iff (shares_pos hv) (shares_pos hw)] at hprice
  have hva : 0 < v.pool.assets := by
    rw [pool_assets]
    exact_mod_cast hpos
  have hprod : 0 < w.pool.assets * v.pool.shares :=
    (mul_pos hva (shares_pos hw)).trans_le hprice
  have : 0 < w.pool.assets := pos_of_mul_pos_left hprod (shares_pos hv).le
  rw [pool_assets] at this
  exact_mod_cast this

/-- A run from positive assets is a run of fair changes. -/
theorem Run.fair {v w : Vault} (h : Run v w) (hpos : 0 < v.nav + VIRTUAL_ASSETS) :
    Relation.ReflTransGen Pool.Fair v.pool w.pool ∧ 0 < w.nav + VIRTUAL_ASSETS := by
  induction h with
  | refl => exact ⟨.refl, hpos⟩
  | tail _ hstep ih => exact ⟨ih.1.tail (hstep.fair ih.2), hstep.assets_pos ih.2⟩

/-- A run either does nothing or starts and ends with a supply the program can hold. -/
theorem Run.supply_nonneg {v w : Vault} (h : Run v w) : v = w ∨ 0 ≤ v.supply ∧ 0 ≤ w.supply := by
  rcases h.cases_head with rfl | ⟨c, hfirst, hrest⟩
  · exact .inl rfl
  · refine .inr ⟨hfirst.supply_nonneg.1, ?_⟩
    rcases hrest.cases_tail with rfl | ⟨d, -, hlast⟩
    · exact hfirst.supply_nonneg.2
    · exact hlast.supply_nonneg.2

/-- The exact ratio never decreases over a run from positive assets. -/
theorem Run.price_le {v w : Vault} (h : Run v w) (hpos : 0 < v.nav + VIRTUAL_ASSETS) :
    v.pool.price ≤ w.pool.price := by
  rcases h.supply_nonneg with rfl | ⟨hv, -⟩
  · exact le_refl _
  · exact (Pool.price_le_of_fair_run (shares_pos hv) (h.fair hpos).1).1

theorem priceE12_nonneg {nav supply p : Int} (h : priceE12 nav supply = .ok p) : 0 ≤ p := by
  obtain ⟨-, ⟨hsup, -⟩, rfl⟩ := priceE12_eq_ok.1 h
  split
  · exact Int.le_refl 0
  · exact Rounding.div_nonneg (Int.mul_nonneg (by omega) (by decide))
      (Int.add_pos_of_nonneg_of_pos hsup (by decide))

/-- The fixed-point price is ordered as the exact ratio. -/
theorem priceE12_le {v w : Vault} {p p' : Int} (hv : 0 < v.nav + VIRTUAL_ASSETS)
    (hw : 0 < w.nav + VIRTUAL_ASSETS) (hp : priceE12 v.nav v.supply = .ok p)
    (hp' : priceE12 w.nav w.supply = .ok p') (hle : v.pool.price ≤ w.pool.price) : p ≤ p' := by
  obtain ⟨-, ⟨hsv, -⟩, rfl⟩ := priceE12_eq_ok.1 hp
  obtain ⟨-, ⟨hsw, -⟩, rfl⟩ := priceE12_eq_ok.1 hp'
  rw [Pool.price_le_iff (shares_pos hsv) (shares_pos hsw)] at hle
  have hcross : (v.nav + VIRTUAL_ASSETS) * (w.supply + VIRTUAL_SHARES) ≤
      (w.nav + VIRTUAL_ASSETS) * (v.supply + VIRTUAL_SHARES) := by
    simp only [pool_assets, pool_shares] at hle
    exact_mod_cast hle
  rw [if_neg (by omega), if_neg (by omega)]
  refine Rounding.div_le_div_of_cross (Int.add_pos_of_nonneg_of_pos hsv (by decide))
    (Int.add_pos_of_nonneg_of_pos hsw (by decide)) ?_
  have := Int.mul_le_mul_of_nonneg_right hcross (show 0 ≤ PRICE_SCALE by decide)
  linarith [this]

end Vault

/-- **No operation dilutes the remaining holders.** Over any run of deposits priced at or above the
true NAV and withdrawals priced at or below it, in which no call throws, the fixed-point price never
decreases, and from positive assets neither does the exact ratio. -/
theorem no_dilution {v w : Vault} (h : Vault.Run v w) :
    (∀ p p', priceE12 v.nav v.supply = .ok p → priceE12 w.nav w.supply = .ok p' → p ≤ p') ∧
      (0 < v.nav + VIRTUAL_ASSETS → v.pool.price ≤ w.pool.price) := by
  refine ⟨fun p p' hp hp' => ?_, h.price_le⟩
  by_cases hpos : 0 < v.nav + VIRTUAL_ASSETS
  · exact Vault.priceE12_le hpos (h.fair hpos).2 hp hp' (h.price_le hpos)
  · -- an insolvent vault has price 0, and no price is below 0
    have hz : p = 0 := by
      rw [(priceE12_eq_ok.1 hp).2.2, if_pos (by omega)]
    exact hz ▸ Vault.priceE12_nonneg hp'

/-- A deposit at a marked-up NAV and a withdrawal at a marked-down one, from 1 000 000 shares over
3 000 000 units. -/
theorem no_dilution_at_two_steps :
    (∀ p p', priceE12 3000000 1000000 = .ok p → priceE12 3009706 1004729 = .ok p' → p ≤ p') ∧
      (0 < 3000000 + VIRTUAL_ASSETS →
        (Vault.mk 1000000 3000000).pool.price ≤ (Vault.mk 1004729 3009706).pool.price) :=
  @no_dilution ⟨1000000, 3000000⟩ ⟨1004729, 3009706⟩
    ((Relation.ReflTransGen.single
      (@Vault.Step.deposit ⟨1000000, 3000000⟩ 3100000 10000 (.int 100) ⟨10000, 100, 9900, 4829⟩
        (by decide) rfl)).tail
      (@Vault.Step.withdraw ⟨1004829, 3009900⟩ 2900000 100 (.int 0) ⟨3900000, 2004829⟩
        ⟨100, 194, 0, 194⟩ (by decide) (by decide) rfl rfl))

/-! ## A deposit withdrawn at once -/

section RoundTrip

variable {supply navLow navHigh : Int} {q : DepositQuote} {p : Payout}
  (hq : DepositSpec supply navHigh q)
  (hp : WithdrawSpec (supply + q.shares) (navLow + q.net) p) (hshares : p.shares = q.shares)

include hq hp hshares

/-- Redeeming at a NAV no higher than the one the shares were minted at returns at most the net
deposit. -/
theorem gross_le_net (hnav : navLow ≤ navHigh) : p.gross ≤ q.net := by
  have hm := hq.shares_nonneg
  have hn := hq.net_nonneg
  have hpaid := hp.gross_mul_le (show navLow + q.net ≤ navHigh + q.net by omega)
    (by linarith [hq.assets_pos])
  have hminted := hq.shares_mul_le
  rw [hshares] at hpaid
  refine Int.le_of_mul_le_mul_right ?_ hp.base_pos
  calc p.gross * (supply + q.shares + VIRTUAL_SHARES)
      ≤ q.shares * (navHigh + q.net + VIRTUAL_ASSETS) := hpaid
    _ = q.shares * (navHigh + VIRTUAL_ASSETS) + q.net * q.shares := by ring
    _ ≤ q.net * (supply + VIRTUAL_SHARES) + q.net * q.shares := by linarith
    _ = q.net * (supply + q.shares + VIRTUAL_SHARES) := by ring

/-- With one NAV for both, the loss stays below the price of a share and one unit. -/
theorem net_lt_gross (hnav : navLow = navHigh) (hpos : 0 < navHigh) :
    q.net * (supply + VIRTUAL_SHARES) <
      (p.gross + 1) * (supply + VIRTUAL_SHARES) + (navHigh + VIRTUAL_ASSETS) := by
  have hm := hq.shares_nonneg
  have hn := hq.net_nonneg
  have hminted := hq.lt_succ_shares_mul
  have hpaid := hp.lt_succ_gross_mul (by omega)
  rw [hshares, hnav] at hpaid
  by_contra hc
  rw [not_lt] at hc
  -- such a loss leaves the gross below the net, and then redeeming one unit more was possible
  have hlt : p.gross + 1 ≤ q.net := by
    refine Int.le_of_mul_le_mul_right ?_ hq.base_pos
    linarith [hq.assets_pos]
  have hprod := Int.mul_le_mul_of_nonneg_right hlt hm
  linarith [mul_add (p.gross + 1) (supply + VIRTUAL_SHARES) q.shares,
    mul_add q.shares (navHigh + VIRTUAL_ASSETS) q.net, mul_comm q.shares q.net,
    add_mul q.shares 1 (navHigh + VIRTUAL_ASSETS),
    show (p.gross + 1) * (supply + q.shares + VIRTUAL_SHARES) =
      (p.gross + 1) * (supply + VIRTUAL_SHARES + q.shares) by ring,
    show q.shares * (navHigh + q.net + VIRTUAL_ASSETS) =
      q.shares * (navHigh + VIRTUAL_ASSETS + q.net) by ring]

end RoundTrip

/-- **A deposit withdrawn at once never makes money and loses at most rounding.** The withdrawal
returns at most the net deposit; with one positive NAV for both, the loss stays below the price of a
share and one unit. -/
theorem round_trip {supply navLow navHigh amount : Int} {depositBps withdrawBps : JsNumber}
    {q : DepositQuote} {r : ShareRatio} {p : Payout} (hnav : navLow ≤ navHigh)
    (hq : quoteDeposit amount supply navHigh depositBps = .ok q)
    (hr : withdrawRatio (supply + q.shares) (navLow + q.net) = .ok r)
    (hp : claimPayout q.shares r withdrawBps = .ok p) :
    (p.net ≤ p.gross ∧ p.gross ≤ q.net ∧ q.net ≤ amount) ∧
      (navLow = navHigh → 0 < navHigh → 0 < q.net →
        (p.gross + 1) * (supply + VIRTUAL_SHARES) + (navHigh + VIRTUAL_ASSETS) >
          q.net * (supply + VIRTUAL_SHARES)) := by
  obtain ⟨hdep, rfl⟩ := quoteDeposit_spec hq
  obtain ⟨hwith, hshares⟩ := claimPayout_spec hr hp
  exact ⟨⟨hwith.net_le, gross_le_net hdep hwith hshares hnav, hdep.net_le⟩,
    fun heq hpos _ => net_lt_gross hdep hwith hshares heq hpos⟩

/-- A deposit of 10 000 units at a fee of 1 % buys 4949 shares, which redeem for 9898 of the 9900
net units. -/
theorem round_trip_at_one_percent :
    ((9898 : Int) ≤ 9898 ∧ (9898 : Int) ≤ 9900 ∧ (9900 : Int) ≤ 10000) ∧
      ((3000001 : Int) = 3000001 → (0 : Int) < 3000001 → (0 : Int) < 9900 →
        (9898 + 1) * (1000000 + VIRTUAL_SHARES) + (3000001 + VIRTUAL_ASSETS) >
          9900 * (1000000 + VIRTUAL_SHARES)) :=
  @round_trip 1000000 3000001 3000001 10000 (.int 100) (.int 0) ⟨10000, 100, 9900, 4949⟩
    ⟨4009901, 2004949⟩ ⟨4949, 9898, 0, 9898⟩ (by decide) rfl rfl rfl

end FermiSdk.Flp
