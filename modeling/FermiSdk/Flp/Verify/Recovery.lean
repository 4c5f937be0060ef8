import FermiSdk.Flp.Math
import FermiSdk.Lib.Pool
import Mathlib.Algebra.Order.Ring.Int
import Mathlib.Data.Rat.Cast.Order

/-!
# Recovery redemptions conserve assets

In recovery a vault pays its real assets against its real supply, one redemption after another
(`redeemEach`). A redemption pays its part of the assets rounded down, so that it never lowers the
price of a share (`Priced`), and the last one pays all that is left. A vault that starts with assets
and supply within the widths of the arithmetic stays so (`Solvent`), so that no check ever fires
while shares are left.
-/

namespace FermiSdk.Flp

open FermiSdk.Lib

/-- A vault in recovery: its real assets and its real supply. -/
structure Recovery where
  assets : Int
  supply : Int
  deriving DecidableEq

/-- One redemption: what it pays, and the vault after it. -/
def redeem (v : Recovery) (shares : Int) : Throws (Int × Recovery) := do
  let paid ← applyRatioFloor shares (← recoveryWithdrawRatio v.supply v.assets)
  pure (paid, { assets := v.assets - paid, supply := v.supply - shares })

/-- Redemptions one after another: what they pay, and the vault after them. -/
def redeemEach : List Int → Recovery → Throws (List Int × Recovery)
  | [], v => pure ([], v)
  | shares :: rest, v => do
    let first ← redeem v shares
    let others ← redeemEach rest first.2
    pure (first.1 :: others.1, others.2)

namespace Recovery

/-- What one share is worth. -/
def price (v : Recovery) : Rat := Pool.price { assets := (v.assets : Rat), shares := v.supply }

/-- Assets and supply are within the widths of the arithmetic, and without supply there are no
assets. -/
structure Solvent (v : Recovery) : Prop where
  assets_nonneg : 0 ≤ v.assets
  assets_lt : v.assets < 2 ^ 63
  supply_nonneg : 0 ≤ v.supply
  supply_le : v.supply ≤ U64_MAX
  drained : v.supply = 0 → v.assets = 0

/-- A share is worth at least what it was worth in `start`. -/
def Priced (start v : Recovery) : Prop := start.assets * v.supply ≤ v.assets * start.supply

variable {start v w : Recovery} {shares paid : Int}

theorem price_le (hstart : 0 < start.supply) (hv : 0 < v.supply) (h : Priced start v) :
    start.price ≤ v.price := by
  have hcross : (start.assets : Rat) * v.supply ≤ v.assets * start.supply := by exact_mod_cast h
  have hstart : (0 : Rat) < start.supply := by exact_mod_cast hstart
  have hv : (0 : Rat) < v.supply := by exact_mod_cast hv
  exact (Pool.price_le_iff hstart hv).2 hcross

/-! ## One redemption -/

/-- Part of the assets is paid. -/
theorem paid_bounds (h : Solvent v) (hpos : 0 < v.supply) (h0 : 0 ≤ shares)
    (hle : shares ≤ v.supply) :
    0 ≤ shares * v.assets / v.supply ∧ shares * v.assets / v.supply ≤ v.assets := by
  have hassets := h.assets_nonneg
  refine ⟨Rounding.div_nonneg (Int.mul_nonneg h0 hassets) hpos, ?_⟩
  have := Int.mul_le_mul_of_nonneg_right hle hassets
  rw [← Int.lt_add_one_iff, Rounding.div_lt_iff hpos, Int.add_mul, Int.mul_comm v.assets]
  omega

/-- A redemption of shares that are there pays their part, rounded down. -/
theorem redeem_eq (h : Solvent v) (hpos : 0 < v.supply) (h0 : 0 ≤ shares)
    (hle : shares ≤ v.supply) :
    redeem v shares = .ok (shares * v.assets / v.supply,
      { assets := v.assets - shares * v.assets / v.supply, supply := v.supply - shares }) := by
  have hassets := h.assets_nonneg
  have hassets' := h.assets_lt
  have hsupply := h.supply_le
  have hratio : recoveryWithdrawRatio v.supply v.assets =
      .ok { numerator := v.assets, denominator := v.supply } := by
    simp only [recoveryWithdrawRatio, Throws.bind_eq_ok, u64_eq_ok, navI64_eq_ok,
      Throws.throwIf_eq_ok, exists_const, Throws.pure_eq_ok]
    exact ⟨_, ⟨h.supply_nonneg, hsupply, rfl⟩, _, ⟨by omega, hassets', rfl⟩, by omega, trivial⟩
  have hfloor : applyRatioFloor shares { numerator := v.assets, denominator := v.supply } =
      .ok (shares * v.assets / v.supply) := by
    have hproduct : shares * v.assets ≤ U64_MAX * 2 ^ 63 :=
      Int.mul_le_mul (hle.trans hsupply) hassets'.le hassets (by decide)
    have hpaid := (paid_bounds h hpos h0 hle).2
    rw [applyRatioFloor_eq_ok]
    simp only [U64_MAX] at *
    have fits : RatioFits shares { numerator := v.assets, denominator := v.supply } := {
      amount_nonneg := h0
      amount_le := by simp only [U64_MAX]; omega
      numerator_nonneg := hassets
      numerator_le := by simp only [U128_MAX]; omega
      denominator_pos := hpos
      denominator_le := by simp only [U128_MAX]; omega
      product_le := by simp only [U128_MAX]; omega }
    exact ⟨fits, trivial, by omega⟩
  simp only [redeem, hratio, hfloor, Throws.ok_bind]
  rfl

/-- Without supply a redemption throws. -/
theorem supply_pos_of_redeem (h : Solvent v) (hredeem : redeem v shares = .ok (paid, w)) :
    0 < v.supply := by
  simp only [redeem, recoveryWithdrawRatio, Throws.bind_eq_ok, Throws.throwIf_eq_ok,
    exists_const] at hredeem
  obtain ⟨_, ⟨_, -, _, -, hsolvent, -⟩, -⟩ := hredeem
  have := h.supply_nonneg
  omega

/-- What a redemption keeps. -/
theorem Solvent.of_redeem (h : Solvent v) (h0 : 0 ≤ shares) (hle : shares ≤ v.supply)
    (hredeem : redeem v shares = .ok (paid, w)) : Solvent w := by
  have hpos := supply_pos_of_redeem h hredeem
  rw [redeem_eq h hpos h0 hle] at hredeem
  cases hredeem
  have hassets := h.assets_lt
  have hsupply := h.supply_le
  obtain ⟨hnonneg, hpaid⟩ := paid_bounds h hpos h0 hle
  constructor
  case drained =>
    intro hall
    dsimp only at hall ⊢
    have heq : shares = v.supply := by omega
    rw [heq, Int.mul_ediv_cancel_left _ hpos.ne']
    omega
  all_goals
    dsimp only
    omega

/-- A redemption does not lower the price of a share. -/
theorem Priced.of_redeem (hpriced : Priced start v) (h : Solvent v) (hstart : 0 ≤ start.supply)
    (h0 : 0 ≤ shares) (hle : shares ≤ v.supply) (hredeem : redeem v shares = .ok (paid, w)) :
    Priced start w := by
  have hpos := supply_pos_of_redeem h hredeem
  rw [redeem_eq h hpos h0 hle] at hredeem
  cases hredeem
  unfold Priced at *
  dsimp only
  have hdown := Rounding.div_mul_le (shares * v.assets) hpos
  refine Int.le_of_mul_le_mul_right ?_ hpos
  calc start.assets * (v.supply - shares) * v.supply
      = start.assets * v.supply * (v.supply - shares) := by ring
    _ ≤ v.assets * start.supply * (v.supply - shares) :=
        Int.mul_le_mul_of_nonneg_right hpriced (by omega)
    _ = (v.assets * v.supply - shares * v.assets) * start.supply := by ring
    _ ≤ (v.assets * v.supply - shares * v.assets / v.supply * v.supply) * start.supply :=
        Int.mul_le_mul_of_nonneg_right (by omega) hstart
    _ = (v.assets - shares * v.assets / v.supply) * start.supply * v.supply := by ring

/-- A redemption pays at least what the shares were worth in `start`, rounded down. -/
theorem Priced.le_paid (hpriced : Priced start v) (h : Solvent v) (hstart : 0 < start.supply)
    (h0 : 0 ≤ shares) (hle : shares ≤ v.supply) (hredeem : redeem v shares = .ok (paid, w)) :
    shares * start.assets / start.supply ≤ paid := by
  have hpos := supply_pos_of_redeem h hredeem
  rw [redeem_eq h hpos h0 hle] at hredeem
  cases hredeem
  apply Rounding.div_le_div_of_cross hstart hpos
  rw [Int.mul_assoc, Int.mul_assoc]
  exact Int.mul_le_mul_of_nonneg_left hpriced h0

/-! ## Runs -/

/-- What a run of redemptions keeps and pays. -/
structure Redeemed (start v : Recovery) (shares payments : List Int) (w : Recovery) : Prop where
  solvent : Solvent w
  priced : Priced start w
  end_eq : w = { assets := v.assets - payments.sum, supply := v.supply - shares.sum }
  paid : List.Forall₂ (fun s paid => s * start.assets / start.supply ≤ paid) shares payments

/-- **Redemptions conserve the assets and never lower the price**, in any order. -/
theorem redeemEach_spec (hstart : 0 < start.supply) {shares payments : List Int}
    (h : Solvent v) (hpriced : Priced start v) (h0 : ∀ s ∈ shares, 0 ≤ s)
    (hle : shares.sum ≤ v.supply) (hrun : redeemEach shares v = .ok (payments, w)) :
    Redeemed start v shares payments w := by
  induction shares generalizing v payments with
  | nil =>
    cases hrun
    refine ⟨h, hpriced, ?_, .nil⟩
    simp
  | cons s rest ih =>
    have hs := h0 s (by simp)
    have hrest : ∀ x ∈ rest, 0 ≤ x := fun x hx => h0 x (by simp [hx])
    have hsum := List.sum_nonneg hrest
    rw [List.sum_cons] at hle
    simp only [redeemEach, Throws.bind_eq_ok, Throws.pure_eq_ok] at hrun
    obtain ⟨⟨paid, u⟩, hredeem, ⟨others, w'⟩, hothers, heq⟩ := hrun
    cases heq
    have hlast := hpriced.le_paid h hstart hs (by omega) hredeem
    have hsolvent := h.of_redeem hs (by omega) hredeem
    have hpriced' := hpriced.of_redeem h hstart.le hs (by omega) hredeem
    have hu : u = { assets := v.assets - paid, supply := v.supply - s } := by
      rw [redeem_eq h (supply_pos_of_redeem h hredeem) hs (by omega)] at hredeem
      cases hredeem
      rfl
    subst hu
    have hspec := ih hsolvent hpriced' hrest (by dsimp only; omega) hothers
    refine ⟨hspec.solvent, hspec.priced, ?_, .cons hlast hspec.paid⟩
    rw [hspec.end_eq, List.sum_cons, List.sum_cons]
    simp only [Recovery.mk.injEq]
    omega

/-- Redemptions that leave shares succeed. -/
theorem redeemEach_total {shares : List Int} (h : Solvent v) (h0 : ∀ s ∈ shares, 0 ≤ s)
    (hlt : shares.sum < v.supply) : ∃ payments w, redeemEach shares v = .ok (payments, w) := by
  induction shares generalizing v with
  | nil => exact ⟨[], v, rfl⟩
  | cons s rest ih =>
    have hs := h0 s (by simp)
    have hrest : ∀ x ∈ rest, 0 ≤ x := fun x hx => h0 x (by simp [hx])
    have hsum := List.sum_nonneg hrest
    rw [List.sum_cons] at hlt
    have hredeem := redeem_eq h (by omega) hs (by omega)
    obtain ⟨payments, w, hothers⟩ :=
      ih (h.of_redeem hs (by omega) hredeem) hrest (by dsimp only; omega)
    refine ⟨s * v.assets / v.supply :: payments, w, ?_⟩
    simp only [redeemEach, hredeem, hothers, Throws.ok_bind]
    rfl

theorem redeemEach_append {before after : List Int} :
    redeemEach (before ++ after) v = (do
      let first ← redeemEach before v
      let others ← redeemEach after first.2
      pure (first.1 ++ others.1, others.2)) := by
  induction before generalizing v with
  | nil => simp [redeemEach]
  | cons s before ih => simp [redeemEach, ih]

/-- A run that ends with shares started with some. -/
theorem supply_pos_of_redeemEach {shares payments : List Int} (h : Solvent v)
    (hrun : redeemEach shares v = .ok (payments, w)) (hpos : 0 < w.supply) : 0 < v.supply := by
  cases shares with
  | nil =>
    cases hrun
    exact hpos
  | cons s rest =>
    simp only [redeemEach, Throws.bind_eq_ok] at hrun
    obtain ⟨⟨paid, u⟩, hredeem, -⟩ := hrun
    exact supply_pos_of_redeem h hredeem

/-- No redemption throws while shares are left. -/
theorem redeemEach_concat_total {before : List Int} {s : Int} (h : Solvent v)
    (h0 : ∀ x ∈ before ++ [s], 0 ≤ x) (hle : (before ++ [s]).sum ≤ v.supply)
    (hlt : before.sum < v.supply) :
    ∃ payments w, redeemEach (before ++ [s]) v = .ok (payments, w) := by
  have hbefore : ∀ x ∈ before, 0 ≤ x := fun x hx => h0 x (by simp [hx])
  have hs := h0 s (by simp)
  rw [List.sum_append, List.sum_singleton] at hle
  obtain ⟨payments, u, hrun⟩ := redeemEach_total h hbefore hlt
  have hpriced : Priced v v := Int.le_refl _
  have hspec := redeemEach_spec (by have := List.sum_nonneg hbefore; omega) h hpriced hbefore
    hlt.le hrun
  have hsupply : u.supply = v.supply - before.sum := by rw [hspec.end_eq]
  have hredeem := redeem_eq hspec.solvent (by omega) hs (by omega)
  refine ⟨payments ++ [s * u.assets / u.supply],
    { assets := u.assets - s * u.assets / u.supply, supply := u.supply - s }, ?_⟩
  rw [redeemEach_append]
  simp only [hrun, redeemEach, hredeem, Throws.ok_bind]
  rfl

end Recovery

open Recovery

/-- **Recovery redemptions conserve assets and are fair in any order.** While shares are left no
redemption throws; the payments are what the assets lose, and never more than there were; every
redeemer receives at least the share's part of the assets at the start, rounded down; nothing is
left when all shares are redeemed; and the price of a share never decreases. -/
theorem recovery_conserves (start : Recovery) (shares : List Int)
    (hassets : 0 ≤ start.assets ∧ start.assets < 2 ^ 63)
    (hsupply : 0 < start.supply ∧ start.supply ≤ U64_MAX) (hshares : ∀ s ∈ shares, 0 ≤ s)
    (htotal : shares.sum ≤ start.supply) :
    (∀ before s after, shares = before ++ s :: after → before.sum < start.supply →
      ∃ payments w, redeemEach (before ++ [s]) start = .ok (payments, w)) ∧
    (∀ payments w, redeemEach shares start = .ok (payments, w) →
      payments.sum ≤ start.assets ∧
      w = { assets := start.assets - payments.sum, supply := start.supply - shares.sum } ∧
      List.Forall₂ (fun s paid => s * start.assets / start.supply ≤ paid) shares payments ∧
      (shares.sum = start.supply → w.assets = 0)) ∧
    (∀ before after payments payments' v w, shares = before ++ after →
      redeemEach before start = .ok (payments, v) → redeemEach after v = .ok (payments', w) →
      0 < w.supply → v.price ≤ w.price) := by
  have hstart : Solvent start :=
    ⟨hassets.1, hassets.2, hsupply.1.le, hsupply.2, fun h => absurd h hsupply.1.ne'⟩
  have hpriced : Priced start start := Int.le_refl _
  refine ⟨?_, ?_, ?_⟩
  · intro before s after heq hlt
    have hmem : ∀ x ∈ before ++ [s], x ∈ shares := by
      intro x hx
      rw [heq]
      simp only [List.mem_append, List.mem_cons, List.not_mem_nil, or_false] at hx ⊢
      tauto
    have hafter : 0 ≤ after.sum := List.sum_nonneg fun x hx => hshares x (by simp [heq, hx])
    refine redeemEach_concat_total hstart (fun x hx => hshares x (hmem x hx)) ?_ hlt
    rw [heq, List.sum_append, List.sum_cons] at htotal
    rw [List.sum_append, List.sum_singleton]
    omega
  · intro payments w hrun
    have hspec := redeemEach_spec hsupply.1 hstart hpriced hshares htotal hrun
    have hnonneg := hspec.solvent.assets_nonneg
    have hend := hspec.end_eq
    subst hend
    dsimp only at hnonneg
    refine ⟨by omega, rfl, hspec.paid, fun hall => hspec.solvent.drained ?_⟩
    dsimp only
    omega
  · intro before after payments payments' v w heq hbefore hafter hpos
    have hbefore0 : ∀ x ∈ before, 0 ≤ x := fun x hx => hshares x (by simp [heq, hx])
    have hafter0 : ∀ x ∈ after, 0 ≤ x := fun x hx => hshares x (by simp [heq, hx])
    have hsum := List.sum_nonneg hafter0
    rw [heq, List.sum_append] at htotal
    have hspec := redeemEach_spec hsupply.1 hstart hpriced hbefore0 (by omega) hbefore
    have hle : after.sum ≤ v.supply := by
      rw [hspec.end_eq]
      dsimp only
      omega
    have hvpos : 0 < v.supply := supply_pos_of_redeemEach hspec.solvent hafter hpos
    have hrun := redeemEach_spec hvpos hspec.solvent (Int.le_refl _) hafter0 hle hafter
    exact price_le hvpos hpos hrun.priced

/-- 1000 units for 7 shares, redeemed as 3, 2 and 2. -/
theorem recovery_conserves_at_three :
    redeemEach [3, 2, 2] { assets := 1000, supply := 7 } =
        .ok ([428, 286, 286], { assets := 0, supply := 0 }) ∧
      [428, 286, 286].sum ≤ (1000 : Int) := by
  have hrun : redeemEach [3, 2, 2] { assets := 1000, supply := 7 } =
      .ok ([428, 286, 286], { assets := 0, supply := 0 }) := by decide
  have hspec := recovery_conserves { assets := 1000, supply := 7 } [3, 2, 2]
    (by decide) (by decide) (by decide) (by decide)
  exact ⟨hrun, (hspec.2.1 _ _ hrun).1⟩

end FermiSdk.Flp
