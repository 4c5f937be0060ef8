import Mathlib.Data.List.Basic

/-!
# Runs of a state machine

A machine takes an event in a state or refuses it. What holds at the start and is preserved by every
step holds after every run (`run_induction`), also of the state together with the events so far; and
what only the steps with a condition preserve holds after every run along the condition
(`Along.induction`). A run that leaves the condition ends in what leaving it brings about, if every
step preserves that (`run_of_not_along`).
-/

namespace FermiSdk.Lib

variable {σ ι : Type}

/-- The state after a run, if no event was refused. -/
def run (step : σ → ι → Option σ) : σ → List ι → Option σ
  | s, [] => some s
  | s, event :: events => (step s event).bind fun s' => run step s' events

/-- Every event of a run meets a condition in the state in which it is taken. -/
def Along (step : σ → ι → Option σ) (C : σ → ι → Prop) : σ → List ι → Prop
  | _, [] => True
  | s, event :: events => C s event ∧
    match step s event with
    | none => True
    | some s' => Along step C s' events

instance decidableAlong {step : σ → ι → Option σ} {C : σ → ι → Prop}
    [∀ s event, Decidable (C s event)] : ∀ s events, Decidable (Along step C s events)
  | _, [] => .isTrue trivial
  | s, event :: events =>
    @instDecidableAnd _ _ _ (match step s event with
      | none => .isTrue trivial
      | some s' => decidableAlong s' events)

variable {step : σ → ι → Option σ} {C : σ → ι → Prop} {I : List ι → σ → Prop}

/-- What every step along a condition preserves, every run along it preserves. -/
theorem Along.induction_from
    (hstep : ∀ past s event s', I past s → C s event → step s event = some s' →
      I (past ++ [event]) s')
    {events past : List ι} {s s' : σ} (hs : I past s) (halong : Along step C s events)
    (h : run step s events = some s') : I (past ++ events) s' := by
  induction events generalizing past s with
  | nil =>
    obtain rfl : s = s' := by simpa [run] using h
    rwa [List.append_nil]
  | cons event events ih =>
    obtain ⟨s₁, h₁, h⟩ := Option.bind_eq_some_iff.1 h
    obtain ⟨hevent, halong⟩ := halong
    rw [h₁] at halong
    rw [List.append_cons]
    exact ih (hstep past s event s₁ hs hevent h₁) halong h

theorem Along.induction
    (hstep : ∀ past s event s', I past s → C s event → step s event = some s' →
      I (past ++ [event]) s')
    {events : List ι} {s s' : σ} (hs : I [] s) (halong : Along step C s events)
    (h : run step s events = some s') : I events s' :=
  Along.induction_from hstep hs halong h

theorem along_true (step : σ → ι → Option σ) (s : σ) (events : List ι) :
    Along step (fun _ _ => True) s events := by
  induction events generalizing s with
  | nil => trivial
  | cons event events ih =>
    refine ⟨trivial, ?_⟩
    split
    · trivial
    · exact ih _

/-- **What every step preserves, every run preserves.** -/
theorem run_induction
    (hstep : ∀ past s event s', I past s → step s event = some s' → I (past ++ [event]) s')
    {events : List ι} {s s' : σ} (hs : I [] s) (h : run step s events = some s') : I events s' :=
  Along.induction (fun past s event s' hI _ => hstep past s event s' hI) hs
    (along_true step s events) h

theorem run_of_not_along {L : σ → Prop}
    (hleave : ∀ s event s', ¬ C s event → step s event = some s' → L s')
    (hstep : ∀ s event s', L s → step s event = some s' → L s')
    {events : List ι} {s s' : σ} (hnot : ¬ Along step C s events)
    (h : run step s events = some s') : L s' := by
  induction events generalizing s with
  | nil => exact absurd trivial hnot
  | cons event events ih =>
    obtain ⟨s₁, h₁, h⟩ := Option.bind_eq_some_iff.1 h
    rw [Along, h₁] at hnot
    by_cases hevent : C s event
    · exact ih (fun halong => hnot ⟨hevent, halong⟩) h
    · exact run_induction (I := fun _ => L) (fun _ s event s' => hstep s event s')
        (hleave s event s₁ hevent h₁) h

/-- The run of a machine that simulates another. -/
theorem run_map {τ : Type} {step' : τ → ι → Option τ} (f : σ → τ)
    (hstep : ∀ s event, (step s event).map f = step' (f s) event) {events : List ι} {s : σ} :
    (run step s events).map f = run step' (f s) events := by
  induction events generalizing s with
  | nil => rfl
  | cons event events ih =>
    rw [run, run, ← hstep]
    cases step s event with
    | none => rfl
    | some s' => exact ih

end FermiSdk.Lib
