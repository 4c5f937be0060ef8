import FermiSdk.Lib.Throws

/-!
# Programs over a state that may stop

A program returns a value or stops with an error, and leaves a state in either case: what it did
before it stopped is done. `Triple P m Q E` is its specification with two postconditions, `Q` for a
return and `E` for a stop; an invariant that is to survive a crash at any point is an `E`. There is
one rule for each way of building a program, and `runs_induction` for programs run one after
another, possibly along a condition on the inputs.
-/

namespace FermiSdk.Lib

/-- A program over a state. -/
def Prog (σ α : Type) : Type := σ → Throws α × σ

namespace Prog

variable {σ α β ι : Type}

instance : Monad (Prog σ) where
  pure a := fun s => (.ok a, s)
  bind m f := fun s =>
    match m s with
    | (.ok a, s') => f a s'
    | (.error e, s') => (.error e, s')

/-- A computation that does not use the state. -/
def lift (x : Throws α) : Prog σ α := fun s => (x, s)

/-- The state. -/
def get : Prog σ σ := fun s => (.ok s, s)

/-- The states after programs run one after another, each whatever became of those before. -/
def runs (m : ι → Prog σ α) (s : σ) (inputs : List ι) : σ :=
  inputs.foldl (fun s input => (m input s).2) s

/-- From a state with `P`, the program returns with `Q` or stops with `E`. -/
def Triple (P : σ → Prop) (m : Prog σ α) (Q : α → σ → Prop) (E : σ → Prop) : Prop :=
  ∀ s, P s → match m s with
    | (.ok a, s') => Q a s'
    | (.error _, s') => E s'

variable {P P' E : σ → Prop} {m : Prog σ α} {f : α → Prog σ β} {Q : α → σ → Prop}
  {R : β → σ → Prop}

theorem Triple.pure {a : α} (h : ∀ s, P s → Q a s) : Triple P (pure a) Q E := h

theorem Triple.bind (hm : Triple P m Q E) (hf : ∀ a, Triple (Q a) (f a) R E) :
    Triple P (m >>= f) R E := by
  intro s hs
  have hms := hm s hs
  show match (match m s with
    | (.ok a, s') => f a s'
    | (.error e, s') => (.error e, s')) with
    | (.ok b, s') => R b s'
    | (.error _, s') => E s'
  generalize m s = r at hms
  obtain ⟨_ | a, s'⟩ := r
  · exact hms
  · exact hf a s' hms

/-- After a computation that does not use the state. -/
theorem Triple.lift_bind {x : Throws α} (hok : ∀ a, x = .ok a → Triple P (f a) R E)
    (herror : ∀ s, P s → E s) : Triple P (lift x >>= f) R E := by
  intro s hs
  cases x with
  | error e => exact herror s hs
  | ok a => exact hok a rfl s hs

/-- After reading the state. -/
theorem Triple.get_bind {f : σ → Prog σ β}
    (h : ∀ s, P s → Triple (fun s' => s' = s) (f s) R E) : Triple P (get >>= f) R E :=
  fun s hs => h s hs s rfl

theorem Triple.mono {Q' : α → σ → Prop} {E' : σ → Prop} (h : Triple P m Q E)
    (hP : ∀ s, P' s → P s) (hQ : ∀ a s, Q a s → Q' a s) (hE : ∀ s, E s → E' s) :
    Triple P' m Q' E' := by
  intro s hs
  have hms := h s (hP s hs)
  generalize m s = r at hms ⊢
  obtain ⟨_ | a, s'⟩ := r
  · exact hE s' hms
  · exact hQ a s' hms

/-- Whether it returns or stops, the program leaves a state with `E`. -/
theorem Triple.final (h : Triple P m (fun _ => E) E) {s : σ} (hs : P s) : E (m s).2 := by
  have hms := h s hs
  generalize m s = r at hms ⊢
  obtain ⟨_ | a, s'⟩ := r
  · exact hms
  · exact hms

/-- Each input of a run satisfies a condition in the state that it meets. -/
def Along (C : σ → ι → Prop) (m : ι → Prog σ α) : σ → List ι → Prop
  | _, [] => True
  | s, input :: inputs => C s input ∧ Along C m (m input s).2 inputs

/-- What every program preserves under a condition, every run along the condition preserves. -/
theorem Along.induction {C : σ → ι → Prop} {I : σ → Prop} {m : ι → Prog σ α}
    (h : ∀ input s, C s input → I s → I (m input s).2) {inputs : List ι} {s : σ}
    (hrun : Along C m s inputs) (hs : I s) : I (runs m s inputs) := by
  induction inputs generalizing s with
  | nil => exact hs
  | cons input inputs ih =>
    obtain ⟨hinput, hrest⟩ := hrun
    exact ih hrest (h input s hinput hs)

theorem along_true {m : ι → Prog σ α} (s : σ) (inputs : List ι) :
    Along (fun _ _ => True) m s inputs := by
  induction inputs generalizing s with
  | nil => trivial
  | cons input inputs ih => exact ⟨trivial, ih _⟩

/-- What every program preserves, every run preserves. -/
theorem runs_induction {I : σ → Prop} {m : ι → Prog σ α}
    (h : ∀ input s, I s → I (m input s).2) {s : σ} (hs : I s) (inputs : List ι) :
    I (runs m s inputs) :=
  (along_true s inputs).induction (fun input s _ => h input s) hs

end Prog

end FermiSdk.Lib
