import Mathlib.Algebra.Order.Field.Basic
import Mathlib.Logic.Relation
import Mathlib.Tactic.FieldSimp
import Mathlib.Tactic.Linarith
import Mathlib.Tactic.Ring

/-!
# Pools of assets held through shares

A pool has assets and outstanding shares, over any ordered field. A change of the pool is *fair* to
the holders who stay when shares are issued at or above the price of a share, or redeemed at or
below it (`Pool.Fair`). A fair change never lowers the price (`Fair.price_le`), hence no run of
them does (`price_le_of_fair_run`).
-/

namespace FermiSdk.Lib

/-- Assets, and the shares that divide them. -/
structure Pool (K : Type) where
  assets : K
  shares : K

namespace Pool

variable {K : Type} [Field K] [LinearOrder K] [IsStrictOrderedRing K]

/-- What one share is worth. -/
def price (p : Pool K) : K := p.assets / p.shares

/-- A change that does not dilute the holders who stay. -/
inductive Fair : Pool K → Pool K → Prop
  | issue (p : Pool K) {paid minted : K} (hm : 0 ≤ minted)
      (h : minted * p.assets ≤ paid * p.shares) :
      Fair p ⟨p.assets + paid, p.shares + minted⟩
  | redeem (p : Pool K) {paid burned : K} (hb : burned < p.shares)
      (h : paid * p.shares ≤ burned * p.assets) :
      Fair p ⟨p.assets - paid, p.shares - burned⟩

theorem price_le_iff {p q : Pool K} (hp : 0 < p.shares) (hq : 0 < q.shares) :
    p.price ≤ q.price ↔ p.assets * q.shares ≤ q.assets * p.shares := by
  unfold price
  rw [div_le_div_iff₀ hp hq]

theorem Fair.shares_pos {p q : Pool K} (hp : 0 < p.shares) (h : Fair p q) : 0 < q.shares := by
  cases h with
  | issue hm _ => exact add_pos_of_pos_of_nonneg hp hm
  | redeem hb _ => exact sub_pos.2 hb

/-- A fair change never lowers the price. -/
theorem Fair.price_le {p q : Pool K} (hp : 0 < p.shares) (h : Fair p q) : p.price ≤ q.price := by
  rw [price_le_iff hp (h.shares_pos hp)]
  cases h with
  | issue _ h => linarith [mul_add p.assets p.shares, add_mul p.assets, mul_comm p.assets]
  | redeem _ h => linarith [mul_sub p.assets p.shares, sub_mul p.assets, mul_comm p.assets]

/-- **No run of fair changes lowers the price.** -/
theorem price_le_of_fair_run {p q : Pool K} (hp : 0 < p.shares)
    (h : Relation.ReflTransGen Fair p q) : p.price ≤ q.price ∧ 0 < q.shares := by
  induction h with
  | refl => exact ⟨le_refl _, hp⟩
  | tail _ hstep ih => exact ⟨ih.1.trans (hstep.price_le ih.2), hstep.shares_pos ih.2⟩

end Pool

end FermiSdk.Lib
