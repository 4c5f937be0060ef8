import Mathlib.Data.List.Basic

/-!
# Input in chunks

A machine that takes its input in chunks (`push`) and emits outputs. If pushing two chunks is pushing
their concatenation (`CutsFreely`), then what it emits and the state it reaches depend on the input
alone, not on where the input is cut (`feed_eq_of_flatten`).
-/

namespace FermiSdk.Lib

variable {σ ι ο γ : Type}

/-- Chunks one after another: the state reached, and all that was emitted. -/
def feed (push : σ → γ → σ × List ο) : σ → List γ → σ × List ο
  | s, [] => (s, [])
  | s, chunk :: chunks =>
    let first := push s chunk
    let others := feed push first.1 chunks
    (others.1, first.2 ++ others.2)

/-- Pushing two chunks is pushing their concatenation. -/
def CutsFreely (push : σ → List ι → σ × List ο) : Prop :=
  ∀ s a b, push s (a ++ b) = ((push (push s a).1 b).1, (push s a).2 ++ (push (push s a).1 b).2)

/-- What one chunk preserves, all chunks preserve. -/
theorem feed_induction {push : σ → γ → σ × List ο} {I : σ → Prop}
    (hpush : ∀ s chunk, I s → I (push s chunk).1) {s : σ} (hs : I s) (chunks : List γ) :
    I (feed push s chunks).1 := by
  induction chunks generalizing s with
  | nil => exact hs
  | cons chunk chunks ih => exact ih (hpush s chunk hs)

variable {push : σ → List ι → σ × List ο} {s : σ} {cuts cuts' : List (List ι)}

/-- Some chunks are one chunk. -/
theorem feed_eq_push (h : CutsFreely push) (hcuts : cuts ≠ []) :
    feed push s cuts = push s cuts.flatten := by
  induction cuts generalizing s with
  | nil => exact absurd rfl hcuts
  | cons chunk cuts ih =>
    by_cases hrest : cuts = []
    · subst hrest
      simp [feed]
    · rw [feed, ih hrest, List.flatten_cons, h]

/-- **The cuts do not matter.** -/
theorem feed_eq_of_flatten (h : CutsFreely push) (hcuts : cuts ≠ []) (hcuts' : cuts' ≠ [])
    (heq : cuts.flatten = cuts'.flatten) : feed push s cuts = feed push s cuts' := by
  rw [feed_eq_push h hcuts, feed_eq_push h hcuts', heq]

/-- Where an empty chunk does nothing, no chunks are an empty chunk. -/
theorem feed_eq_push_of_nil (h : CutsFreely push) (hs : push s [] = (s, [])) :
    feed push s cuts = push s cuts.flatten := by
  by_cases hcuts : cuts = []
  · subst hcuts
    exact hs.symm
  · exact feed_eq_push h hcuts

end FermiSdk.Lib
