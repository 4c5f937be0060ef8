import FermiSdk.Flp.Math
import Mathlib.Algebra.BigOperators.Ring.Finset

/-!
# A funded batch covers its claims

A withdrawal batch is funded once, with `batchPayout` of its total shares; each member is later
paid with `claimPayout` of its own shares. Both apply the ratio rounded down, but the batch rounds
its fee down and each claim rounds its fee up.

* `batch_claim_agree`: on one input both throw or both succeed with the same gross, and the claim's
  fee is the batch's, plus one unless the fee is exact.
* `batch_funds_claims`: the batch's net covers the claims' nets, for every division of the batch.
-/

namespace FermiSdk.Flp

open FermiSdk.Lib

/-! ## One payout -/

/-- The claim for `shares` at a ratio and a fee rate, when nothing throws. -/
def claimAt (ratio : ShareRatio) (rate shares : Int) : Payout :=
  let gross := shares * ratio.numerator / ratio.denominator
  let fee := (gross * rate + (10000 - 1)) / 10000
  { shares, gross, fee, net := gross - fee }

theorem claimPayout_eq_claimAt {shares rate : Int} {ratio : ShareRatio}
    (fits : RatioFits shares ratio) (hle : shares * ratio.numerator / ratio.denominator ≤ U64_MAX)
    (hrate : 0 ≤ rate ∧ rate ≤ 10000) :
    claimPayout shares ratio (.int rate) = .ok (claimAt ratio rate shares) :=
  claimPayout_eq_ok.2
    ⟨rate, applyRatioFloor_eq_ok.2 ⟨fits, rfl, hle⟩, feeRate_eq_ok.2 ⟨rfl, hrate⟩, rfl, rfl, rfl⟩

/-- A batch payout and the claim of the same shares succeed together. -/
theorem batch_ok_iff_claim_ok (shares : Int) (ratio : ShareRatio) (bps : JsNumber) :
    (∃ b, batchPayout shares ratio.numerator ratio.denominator bps = .ok b) ↔
      ∃ c, claimPayout shares ratio bps = .ok c := by
  simp only [batchPayout_eq_ok, claimPayout_eq_ok]
  constructor
  · rintro ⟨b, n, hg, hn, -, -, -⟩
    exact ⟨claimAt ratio n shares, n, by rwa [(applyRatioFloor_eq_ok.1 hg).2.1] at hg, hn,
      rfl, rfl, rfl⟩
  · rintro ⟨c, n, hg, hn, -, -, -⟩
    exact ⟨⟨shares, c.gross, c.gross * n / 10000, c.gross - c.gross * n / 10000⟩, n, hg, hn,
      rfl, rfl, rfl⟩

/-- On one input, batch funding and the claim both throw, or both succeed with one gross and fees
that differ by the rounding of the fee. -/
theorem batch_claim_agree (shares : Int) (ratio : ShareRatio) (bps : JsNumber) :
    (∃ e, batchPayout shares ratio.numerator ratio.denominator bps = .error e) ∧
        (∃ e, claimPayout shares ratio bps = .error e) ∨
      ∃ b c n, batchPayout shares ratio.numerator ratio.denominator bps = .ok b ∧
        claimPayout shares ratio bps = .ok c ∧ bps = .int n ∧ c.gross = b.gross ∧
        c.fee = b.fee + if (10000 : Int) ∣ b.gross * n then 0 else 1 := by
  have hiff := batch_ok_iff_claim_ok shares ratio bps
  by_cases hb : ∃ b, batchPayout shares ratio.numerator ratio.denominator bps = .ok b
  · obtain ⟨b, hb⟩ := hb
    obtain ⟨c, hc⟩ := hiff.1 ⟨b, hb⟩
    obtain ⟨n, hbg, hn, -, hbf, -⟩ := batchPayout_eq_ok.1 hb
    obtain ⟨m, hcg, hm, -, hcf, -⟩ := claimPayout_eq_ok.1 hc
    obtain ⟨rfl, -⟩ := feeRate_eq_ok.1 hn
    cases (feeRate_eq_ok.1 hm).1
    have hgross : c.gross = b.gross := Except.ok.inj (hcg.symm.trans hbg)
    refine .inr ⟨b, c, n, hb, hc, rfl, hgross, ?_⟩
    rw [hcf, hbf, hgross, Rounding.ceil_eq _ (by decide)]
  · exact .inl ⟨Throws.throws_iff.2 hb, Throws.throws_iff.2 (hiff.not.1 hb)⟩

/-! ## A batch and its claims -/

/-- A ratio that fits a batch fits every smaller claim. -/
theorem RatioFits.of_le {s total : Int} {ratio : ShareRatio} (h : RatioFits total ratio)
    (h0 : 0 ≤ s) (hs : s ≤ total) : RatioFits s ratio :=
  { h with
    amount_nonneg := h0
    amount_le := hs.trans h.amount_le
    product_le := (Int.mul_le_mul_of_nonneg_right hs h.numerator_nonneg).trans h.product_le }

/-- The claims' nets are at most the net the batch is funded with: rounding down each gross and up
each fee loses more than rounding the batch's gross and fee down. -/
theorem sum_claimAt_net_le {ratio : ShareRatio} (hden : 0 < ratio.denominator) {rate : Int}
    (hrate : rate ≤ 10000) (amounts : List Int) :
    ((amounts.map (claimAt ratio rate)).map Payout.net).sum ≤
      amounts.sum * ratio.numerator / ratio.denominator -
        amounts.sum * ratio.numerator / ratio.denominator * rate / 10000 := by
  set grosses := amounts.map (fun s => s * ratio.numerator / ratio.denominator) with hgrosses
  set total := amounts.sum * ratio.numerator / ratio.denominator
  have hnet : ((amounts.map (claimAt ratio rate)).map Payout.net).sum =
      grosses.sum - (grosses.map (fun g => (g * rate + (10000 - 1)) / 10000)).sum := by
    rw [hgrosses, List.map_map, List.map_map]
    induction amounts with
    | nil => rfl
    | cons s l ih =>
      simp only [List.map_cons, List.sum_cons, ih, Function.comp_apply, claimAt]
      ring
  have hfee : grosses.sum * rate / 10000 ≤
      (grosses.map (fun g => (g * rate + (10000 - 1)) / 10000)).sum := by
    refine le_trans ?_ (Rounding.ceil_sum_le (d := 10000) (by decide) rate grosses)
    exact Int.ediv_le_ediv (by decide) (by omega)
  have hgross : grosses.sum ≤ total := Rounding.sum_mul_div_le hden ratio.numerator amounts
  have := Rounding.sub_mul_div_mono (d := 10000) (by decide) rate hrate hgross
  omega

theorem claims_of_batch {ratio : ShareRatio} {bps : JsNumber} {b : Payout} {amounts : List Int}
    (hnn : ∀ s ∈ amounts, 0 ≤ s)
    (hb : batchPayout amounts.sum ratio.numerator ratio.denominator bps = .ok b) :
    ∃ claims, List.Forall₂ (fun s c => claimPayout s ratio bps = .ok c) amounts claims ∧
      (claims.map Payout.net).sum ≤ b.net := by
  obtain ⟨n, hg, hn, -, hfee, hnet⟩ := batchPayout_eq_ok.1 hb
  obtain ⟨rfl, hrate⟩ := feeRate_eq_ok.1 hn
  obtain ⟨fits, hgross, hle⟩ := applyRatioFloor_eq_ok.1 hg
  refine ⟨amounts.map (claimAt ratio n), ?_, ?_⟩
  · rw [List.forall₂_map_right_iff, List.forall₂_same]
    intro s hs
    have hsum : s ≤ amounts.sum := List.single_le_sum hnn s hs
    have hfits := fits.of_le (hnn s hs) hsum
    refine claimPayout_eq_claimAt hfits (le_trans ?_ hle) hrate
    rw [hgross]
    exact Int.ediv_le_ediv fits.denominator_pos
      (Int.mul_le_mul_of_nonneg_right hsum fits.numerator_nonneg)
  · rw [hnet, hfee, hgross]
    exact sum_claimAt_net_le fits.denominator_pos hrate.2 amounts

/-- **Batch funding covers the individual claims**: whenever a batch can be funded, each of its
claims can be paid and the claims' nets sum to at most the batch's net. On every single input the
two functions agree up to the rounding of the fee. -/
theorem batch_funds_claims (ratio : ShareRatio) (bps : JsNumber) :
    (∀ (amounts : List ℕ) (b : Payout),
      batchPayout (amounts.sum : ℕ) ratio.numerator ratio.denominator bps = .ok b →
        ∃ claims : List Payout,
          List.Forall₂ (fun (s : ℕ) c => claimPayout s ratio bps = .ok c) amounts claims ∧
            (claims.map Payout.net).sum ≤ b.net) ∧
      ∀ shares : Int,
        (∃ e, batchPayout shares ratio.numerator ratio.denominator bps = .error e) ∧
            (∃ e, claimPayout shares ratio bps = .error e) ∨
          ∃ b c n, batchPayout shares ratio.numerator ratio.denominator bps = .ok b ∧
            claimPayout shares ratio bps = .ok c ∧ bps = .int n ∧ c.gross = b.gross ∧
            c.fee = b.fee + if (10000 : Int) ∣ b.gross * n then 0 else 1 := by
  refine ⟨fun amounts b hb => ?_, fun shares => batch_claim_agree shares ratio bps⟩
  have hcast : ((amounts.sum : ℕ) : Int) = (amounts.map (fun s : ℕ => (s : Int))).sum :=
    Nat.cast_list_sum amounts
  rw [hcast] at hb
  have hnn : ∀ s ∈ amounts.map (fun s : ℕ => (s : Int)), 0 ≤ s := by
    intro s hs
    obtain ⟨n, -, rfl⟩ := List.mem_map.1 hs
    exact Int.natCast_nonneg n
  obtain ⟨claims, hclaims, hle⟩ := claims_of_batch hnn hb
  exact ⟨claims, List.forall₂_map_left_iff.1 hclaims, hle⟩

/-- A batch of 101 shares at 200/3 and 1% is funded with 6666; its claims of 40 and 61 shares
are paid 2639 and 4025. -/
theorem batch_funds_claims_at_two_claims :
    ∃ claims : List Payout,
      List.Forall₂ (fun (s : ℕ) c => claimPayout s ⟨200, 3⟩ (.int 100) = .ok c) [40, 61] claims ∧
        (claims.map Payout.net).sum ≤ 6666 :=
  (batch_funds_claims ⟨200, 3⟩ (.int 100)).1 [40, 61] ⟨101, 6733, 67, 6666⟩ rfl

end FermiSdk.Flp
