import FermiSdk.Flp.Verify.Extension
import Mathlib.Logic.Relation

/-!
# Staged parameter changes

A change of the parameters that no current LP can lose by waits the vault's timelock only; any other
waits at least an epoch and its cutoff. Staging a change in parts does not go around that: what a run
of such changes reaches, one such change reaches (`staged_run_favourable`).
-/

namespace FermiSdk

open FermiSdk.Lib

/-- What a staged change is compared with: the parameters in force, the funding window, and the
timing that applies next. -/
structure EffectiveParams where
  params : LegacyVaultParams
  equityWindowS : Option UInt32
  timing : ScheduledTiming
  deriving DecidableEq

namespace EffectiveParams

/-- What an LP pays at most: the fees and the minimums. -/
def costs (p : EffectiveParams) : Nat × Nat × Nat × Nat × Nat × Nat :=
  (p.params.mgmtFeeBps.toNat, p.params.perfFeeBps.toNat, p.params.depositFeeBps.toNat,
    p.params.withdrawFeeBps.toNat, p.params.minDeposit.toNat, p.params.minWithdrawShares.toNat)

/-- What a favourable change leaves as it is. -/
def terms (p : EffectiveParams) :
    Nat × Nat × Nat × Nat × Nat × Nat × Nat × Nat × Option UInt32 :=
  ((nextTiming p.params p.timing).1.toNat, (nextTiming p.params p.timing).2.toNat,
    p.params.timelockS.toNat, p.params.upnlHaircutBps.toNat,
    p.params.minPostWithdrawInitRatioBps.toNat, p.params.breakerDrawdownBps.toNat,
    p.params.breakerMinInitRatioBps.toNat, p.params.breakerWindowS.toNat, p.equityWindowS)

/-- The wait of a change that a current LP could lose by. -/
def parameterDelay (p : EffectiveParams) : Nat :=
  max (p.params.epochDurationS.toNat + p.params.requestCutoffS.toNat)
    (if p.timing.enabled then p.timing.epochDurationS.toNat + p.timing.requestCutoffS.toNat else 0)

/-- The parameters that stage `p` as it is, with a deposit cap. -/
def input (p : EffectiveParams) (window : UInt32) (tvlCap : Int) : VaultParamsInput where
  epochDurationS := .int (nextTiming p.params p.timing).1.toNat
  requestCutoffS := .int (nextTiming p.params p.timing).2.toNat
  timelockS := .int p.params.timelockS.toNat
  mgmtFeeBps := .int p.params.mgmtFeeBps.toNat
  perfFeeBps := .int p.params.perfFeeBps.toNat
  depositFeeBps := .int p.params.depositFeeBps.toNat
  withdrawFeeBps := .int p.params.withdrawFeeBps.toNat
  upnlHaircutBps := .int p.params.upnlHaircutBps.toNat
  minPostWithdrawInitRatioBps := .int p.params.minPostWithdrawInitRatioBps.toNat
  breakerDrawdownBps := .int p.params.breakerDrawdownBps.toNat
  breakerMinInitRatioBps := .int p.params.breakerMinInitRatioBps.toNat
  breakerWindowS := .int p.params.breakerWindowS.toNat
  tvlCap := tvlCap
  minDeposit := p.params.minDeposit.toNat
  minWithdrawShares := p.params.minWithdrawShares.toNat
  equityWindowS := .int window.toNat

/-- The parameters are the ones that were staged. -/
def Shows (p : EffectiveParams) (next : VaultParamsInput) : Prop :=
  ∃ window tvlCap, p.equityWindowS = some window ∧ next = p.input window tvlCap

/-- No current LP of a vault with the parameters `p` loses by those of `q`. -/
def NoWorse (q p : EffectiveParams) : Prop := q.costs ≤ p.costs ∧ q.terms = p.terms

variable {p q r : EffectiveParams} {next : VaultParamsInput}

theorem NoWorse.refl (p : EffectiveParams) : NoWorse p p := ⟨le_refl _, rfl⟩

theorem NoWorse.trans (h : NoWorse r q) (h' : NoWorse q p) : NoWorse r p :=
  ⟨h.1.trans h'.1, h.2.trans h'.2⟩

theorem atMost_int {m : Int} {n : Nat} : (JsNumber.int m).atMost n = true ↔ m ≤ n := by
  simp [JsNumber.atMost]

/-- The source's comparison says just that. -/
theorem favourableChange_iff (h : q.Shows next) :
    favourableChange p.params p.equityWindowS p.timing next = true ↔ NoWorse q p := by
  obtain ⟨window, tvlCap, hwindow, rfl⟩ := h
  have hsame : some (JsNumber.int window.toNat) =
      p.equityWindowS.map (fun window => .int window.toNat) ↔ some window = p.equityWindowS := by
    cases p.equityWindowS with
    | none => simp
    | some other =>
      rw [Option.map_some, Option.some_inj, Option.some_inj, JsNumber.int.injEq, Int.natCast_inj,
        UInt32.toNat_inj]
  simp only [favourableChange, input, NoWorse, costs, terms, Bool.and_eq_true, decide_eq_true_eq,
    atMost_int, Int.ofNat_le, JsNumber.int.injEq, Int.natCast_inj, hsame, Prod.mk_le_mk,
    Prod.mk.injEq, hwindow, and_assoc]

end EffectiveParams

/-! ## Runs of changes -/

/-- What a vault with its extension has in force. -/
def VaultState.effective (state : VaultState) (timing : ScheduledTiming) : EffectiveParams where
  params := state.params
  equityWindowS := state.equityWindowS
  timing := timing

section

variable {state state' : VaultState} {timing : ScheduledTiming} {next : VaultParamsInput}

theorem stagedParamsDelaySeconds_eq (h : state.scheduledTiming = some timing) :
    stagedParamsDelaySeconds state next = .ok (
      if favourableChange state.params state.equityWindowS timing next then
        state.params.timelockS.toNat
      else max state.params.timelockS.toNat (state.effective timing).parameterDelay) := by
  unfold stagedParamsDelaySeconds
  rw [if_neg (by rw [h]; exact Option.some_ne_none timing)]
  simp only [h, pure_bind, EffectiveParams.parameterDelay, VaultState.effective]
  split
  · rfl
  · rw [Nat.max_assoc]
    rfl

/-- The parameters of a vault are changed by a stage that takes the favourable branch. -/
def FavourableStage (state state' : VaultState) : Prop :=
  ∃ timing timing' next, state.scheduledTiming = some timing ∧
    state'.scheduledTiming = some timing' ∧
    favourableChange state.params state.equityWindowS timing next = true ∧
    (state'.effective timing').Shows next

/-- A change that waits less than the parameter delay takes the favourable branch. -/
theorem favourableChange_of_delay_lt {delay : Nat} (h : state.scheduledTiming = some timing)
    (hdelay : stagedParamsDelaySeconds state next = .ok delay)
    (hlt : delay < (state.effective timing).parameterDelay) :
    favourableChange state.params state.equityWindowS timing next = true := by
  rw [stagedParamsDelaySeconds_eq h, Except.ok.injEq] at hdelay
  by_contra hunfavourable
  rw [if_neg hunfavourable] at hdelay
  have hle := Nat.le_max_right state.params.timelockS.toNat (state.effective timing).parameterDelay
  omega

theorem favourableChange_effective {timing' : ScheduledTiming}
    (hshows : (state'.effective timing').Shows next) :
    favourableChange state.params state.equityWindowS timing next = true ↔
      (state'.effective timing').NoWorse (state.effective timing) :=
  @EffectiveParams.favourableChange_iff (state.effective timing) (state'.effective timing') next hshows

theorem noWorse_of_favourableStage {timing' : ScheduledTiming}
    (h : state.scheduledTiming = some timing) (h' : state'.scheduledTiming = some timing')
    (hstage : FavourableStage state state') :
    (state'.effective timing').NoWorse (state.effective timing) := by
  obtain ⟨timing₁, timing₂, next, h₁, h₂, hfavourable, hshows⟩ := hstage
  obtain rfl : timing = timing₁ := Option.some_inj.1 (h.symm.trans h₁)
  obtain rfl : timing' = timing₂ := Option.some_inj.1 (h'.symm.trans h₂)
  exact (favourableChange_effective hshows).1 hfavourable

/-- What one favourable stage cannot take from an LP, no run of them takes. -/
theorem noWorse_of_run {timing' : ScheduledTiming} (h : state.scheduledTiming = some timing)
    (h' : state'.scheduledTiming = some timing')
    (hrun : Relation.ReflTransGen FavourableStage state state') :
    (state'.effective timing').NoWorse (state.effective timing) := by
  induction hrun generalizing timing' with
  | refl =>
    obtain rfl : timing = timing' := Option.some_inj.1 (h.symm.trans h')
    exact EffectiveParams.NoWorse.refl _
  | tail _ hstage ih =>
    have hmiddle := hstage
    obtain ⟨timing₁, -, -, h₁, -⟩ := hmiddle
    exact (noWorse_of_favourableStage h₁ h' hstage).trans (ih h₁)

/-- **Splitting a change into favourable ones does not help.** After any run of changes that each
take the favourable branch, no fee and no minimum is higher and all else that concerns an LP is as it
was; and what the run reached, one change reaches that takes that branch and waits the timelock. -/
theorem staged_run_favourable {timing' : ScheduledTiming} (h : state.scheduledTiming = some timing)
    (h' : state'.scheduledTiming = some timing')
    (hrun : Relation.ReflTransGen FavourableStage state state') :
    (state'.effective timing').NoWorse (state.effective timing) ∧
    ∀ next, (state'.effective timing').Shows next →
      favourableChange state.params state.equityWindowS timing next = true ∧
      stagedParamsDelaySeconds state next = .ok state.params.timelockS.toNat := by
  have hrun := noWorse_of_run h h' hrun
  refine ⟨hrun, fun next hshows => ?_⟩
  have hfavourable := (favourableChange_effective hshows).2 hrun
  refine ⟨hfavourable, ?_⟩
  rw [stagedParamsDelaySeconds_eq h, if_pos hfavourable]

end

/-! ## A recorded run -/

namespace RecordedStages

open RecordedExtension

/-- Two cuts of the management fee, from 2% to 1%. -/
def stage (mgmtFeeBps : UInt16) : VaultState :=
  { state.extendedBy extension with params := { params with mgmtFeeBps } }

def timing : ScheduledTiming where
  enabled := true
  epochDurationS := 86400
  requestCutoffS := 3600

def next (mgmtFeeBps : UInt16) : VaultParamsInput :=
  ((stage mgmtFeeBps).effective timing).input MIN_EQUITY_WINDOW_S 0

/-- A cut of the fee waits 600 seconds, less than an epoch with its cutoff. -/
theorem favourableStage {fee fee' : UInt16}
    (hdelay : stagedParamsDelaySeconds (stage fee) (next fee') = .ok 600) :
    FavourableStage (stage fee) (stage fee') := by
  have hlt : 600 < ((stage fee).effective timing).parameterDelay := by
    show 600 < max (28800 + 1800) (86400 + 3600)
    decide
  exact ⟨timing, timing, next fee', rfl, rfl, favourableChange_of_delay_lt rfl hdelay hlt, _, _,
    rfl, rfl⟩

end RecordedStages

open RecordedStages in
theorem staged_run_favourable_recorded :
    stagedParamsDelaySeconds (stage 200) (next 100) = .ok 600 := by
  have hfirst : FavourableStage (stage 200) (stage 150) := favourableStage (by decide +kernel)
  have hsecond : FavourableStage (stage 150) (stage 100) := favourableStage (by decide +kernel)
  have hrun : Relation.ReflTransGen FavourableStage (stage 200) (stage 100) :=
    .tail (.single hfirst) hsecond
  exact ((staged_run_favourable rfl rfl hrun).2 (next 100) ⟨_, _, rfl, rfl⟩).2

end FermiSdk
