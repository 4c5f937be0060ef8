import FermiSdk.Flp.Verify.Dilution

/-!
# Splitting a deposit never helps

A deposit may be made in parts, each quoted at the supply and NAV the parts before it leave
(`quoteEach`). Every part rounds its fee up, so that the parts pay at least the fee of the whole
(`quoteEach_totals`). Every part rounds its shares down, and the parts are a run of a vault whose
true NAV is the one they are priced at; no such run lowers the price of a share, so the parts buy
shares at or above the price of the first (`quoteEach_shares_mul_le`).
-/

namespace FermiSdk.Flp

open FermiSdk.Lib

/-! ## Deposits in sequence -/

/-- The quotes of deposits made one after another, each at the state the earlier ones leave. -/
def quoteEach (bps : JsNumber) : List Int → Int → Int → Throws (List DepositQuote)
  | [], _, _ => pure []
  | amount :: rest, supply, navHigh => do
    let quote ← quoteDeposit amount supply navHigh bps
    let quotes ← quoteEach bps rest (supply + quote.shares) (navHigh + quote.net)
    pure (quote :: quotes)

/-- The sum of one field of the quotes. -/
def total (field : DepositQuote → Int) (quotes : List DepositQuote) : Int :=
  (quotes.map field).sum

@[simp] theorem total_nil (field : DepositQuote → Int) : total field [] = 0 := rfl

@[simp] theorem total_cons (field : DepositQuote → Int) (q : DepositQuote)
    (l : List DepositQuote) : total field (q :: l) = field q + total field l := rfl

theorem quoteEach_cons_eq_ok {bps : JsNumber} {amount supply navHigh : Int} {rest : List Int}
    {quotes : List DepositQuote} :
    quoteEach bps (amount :: rest) supply navHigh = .ok quotes ↔
      ∃ quote tail, quoteDeposit amount supply navHigh bps = .ok quote ∧
        quoteEach bps rest (supply + quote.shares) (navHigh + quote.net) = .ok tail ∧
        quote :: tail = quotes := by
  simp only [quoteEach, Throws.bind_eq_ok, Throws.pure_eq_ok]
  constructor
  · rintro ⟨quote, hq, tail, ht, rfl⟩
    exact ⟨quote, tail, hq, ht, rfl⟩
  · rintro ⟨quote, tail, hq, ht, rfl⟩
    exact ⟨quote, hq, tail, ht, rfl⟩

/-! ## Fees and nets -/

/-- The parts' fees and nets add up: each fee is its amount's, rounded up, and the nets are what
the fees leave of the amounts. -/
theorem quoteEach_totals {rate : Int} {amounts : List Int} :
    ∀ {supply navHigh : Int} {quotes : List DepositQuote},
      quoteEach (.int rate) amounts supply navHigh = .ok quotes →
        total DepositQuote.fee quotes =
            (amounts.map (fun a => (a * rate + (10000 - 1)) / 10000)).sum ∧
          total DepositQuote.net quotes = amounts.sum - total DepositQuote.fee quotes := by
  induction amounts with
  | nil =>
    intro supply navHigh quotes h
    cases Throws.pure_eq_ok.1 h
    exact ⟨rfl, rfl⟩
  | cons amount rest ih =>
    intro supply navHigh quotes h
    obtain ⟨quote, tail, hq, ht, rfl⟩ := quoteEach_cons_eq_ok.1 h
    obtain ⟨n, r, -, hn, -, -, -, hfee, hnet⟩ := quoteDeposit_eq_ok.1 hq
    cases (feeRate_eq_ok.1 hn).1
    obtain ⟨hfees, hnets⟩ := ih ht
    simp only [total_cons, List.map_cons, List.sum_cons]
    omega

/-! ## Shares -/

/-- Deposits in sequence are a run of the vault whose true NAV is the one they are priced at. -/
theorem quoteEach_run {bps : JsNumber} {amounts : List Int} :
    ∀ {supply navHigh : Int} {quotes : List DepositQuote},
      quoteEach bps amounts supply navHigh = .ok quotes →
        Vault.Run ⟨supply, navHigh⟩
          ⟨supply + total DepositQuote.shares quotes, navHigh + total DepositQuote.net quotes⟩ := by
  induction amounts with
  | nil =>
    intro supply navHigh quotes h
    cases Throws.pure_eq_ok.1 h
    simp only [total_nil, Int.add_zero]
    exact .refl
  | cons amount rest ih =>
    intro supply navHigh quotes h
    obtain ⟨quote, tail, hq, ht, rfl⟩ := quoteEach_cons_eq_ok.1 h
    have hrun := ih ht
    simp only [total_cons, ← Int.add_assoc]
    exact .head (.deposit (le_refl _) hq) hrun

/-- The parts buy their shares at or above the price the first is quoted at. -/
theorem quoteEach_shares_mul_le {bps : JsNumber} {amounts : List Int} {supply navHigh : Int}
    {quotes : List DepositQuote} (h : quoteEach bps amounts supply navHigh = .ok quotes)
    (hsup : 0 ≤ supply) (hpos : 0 < navHigh + VIRTUAL_ASSETS) :
    total DepositQuote.shares quotes * (navHigh + VIRTUAL_ASSETS) ≤
      total DepositQuote.net quotes * (supply + VIRTUAL_SHARES) := by
  have hrun := quoteEach_run h
  have hprice := hrun.price_le hpos
  have hend : 0 ≤ supply + total DepositQuote.shares quotes := by
    rcases hrun.supply_nonneg with heq | hle
    · rw [Vault.mk.injEq] at heq
      omega
    · exact hle.2
  rw [Pool.price_le_iff (Vault.shares_pos hsup) (Vault.shares_pos hend)] at hprice
  simp only [Vault.pool_assets, Vault.pool_shares] at hprice
  have hcross : (navHigh + VIRTUAL_ASSETS) *
        (supply + total DepositQuote.shares quotes + VIRTUAL_SHARES) ≤
      (navHigh + total DepositQuote.net quotes + VIRTUAL_ASSETS) * (supply + VIRTUAL_SHARES) := by
    exact_mod_cast hprice
  linarith [hcross]

/-- **Splitting a deposit never helps.** When the parts of a deposit succeed one after another and
the whole succeeds at once from the same state, the parts pay at least the fee of the whole, deposit
at most its net and receive at most its shares. -/
theorem split_deposit_le {supply navHigh : Int} {bps : JsNumber} {amounts : List Int}
    {quotes : List DepositQuote} {q : DepositQuote}
    (hsplit : quoteEach bps amounts supply navHigh = .ok quotes)
    (hwhole : quoteDeposit amounts.sum supply navHigh bps = .ok q) :
    q.fee ≤ total DepositQuote.fee quotes ∧ total DepositQuote.net quotes ≤ q.net ∧
      total DepositQuote.shares quotes ≤ q.shares := by
  obtain ⟨n, -, -, hn, -, -, -, hfee, hnet⟩ := quoteDeposit_eq_ok.1 hwhole
  cases (feeRate_eq_ok.1 hn).1
  obtain ⟨hfees, hnets⟩ := quoteEach_totals hsplit
  have hceil : q.fee ≤ total DepositQuote.fee quotes := by
    rw [hfee, hfees]
    exact Rounding.ceil_sum_le (by decide) n amounts
  have hnet_le : total DepositQuote.net quotes ≤ q.net := by omega
  obtain ⟨spec, -⟩ := quoteDeposit_spec hwhole
  refine ⟨hceil, hnet_le, ?_⟩
  rw [spec.shares_eq, Rounding.le_div_iff spec.assets_pos]
  calc total DepositQuote.shares quotes * (navHigh + VIRTUAL_ASSETS)
      ≤ total DepositQuote.net quotes * (supply + VIRTUAL_SHARES) :=
        quoteEach_shares_mul_le hsplit spec.supply_nonneg spec.assets_pos
    _ ≤ q.net * (supply + VIRTUAL_SHARES) :=
        Int.mul_le_mul_of_nonneg_right hnet_le (Int.le_of_lt spec.base_pos)

/-- Three deposits of 1000 units at a fee of 0.07 % pay a fee of 3 and buy 1497 shares; 3000 units
at once pay 3 and buy 1498. -/
theorem split_deposit_le_at_three :
    (3 : Int) ≤ 3 ∧ (2997 : Int) ≤ 2997 ∧ (1497 : Int) ≤ 1498 :=
  @split_deposit_le 1000000 3000000 (.int 7) [1000, 1000, 1000]
    [⟨1000, 1, 999, 499⟩, ⟨1000, 1, 999, 499⟩, ⟨1000, 1, 999, 499⟩] ⟨3000, 3, 2997, 1498⟩ rfl rfl

end FermiSdk.Flp
