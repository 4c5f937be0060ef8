import Mathlib.Data.List.Forall2
import Mathlib.Tactic.Common

/-!
# Computations that may throw

`Throws α` is a value or the text of the error that stopped the computation. The lemmas invert a
successful `do` block step by step: a sequence succeeds exactly when each of its steps does
(`bind_eq_ok`), and a guard lets it pass exactly when its condition fails (`throwIf_eq_ok`, with
`exists_const` for the unit it returns). They are `simp` lemmas, so that `simp only [f, …] at h`
turns a success of `f` into its conditions.
-/

namespace FermiSdk.Lib

/-- A computation that may throw, with the text of the thrown error. -/
abbrev Throws := Except String

/-- `if (c) throw new Error(e)`. -/
def throwIf (c : Prop) [Decidable c] (e : String) : Throws Unit :=
  if c then throw e else pure ()

namespace Throws

variable {α β : Type}

@[simp] theorem bind_eq_ok {x : Throws α} {f : α → Throws β} {b : β} :
    (x >>= f) = .ok b ↔ ∃ a, x = .ok a ∧ f a = .ok b := by
  cases x <;> simp [bind, Except.bind]

@[simp] theorem map_eq_ok {x : Throws α} {f : α → β} {b : β} :
    (f <$> x) = .ok b ↔ ∃ a, x = .ok a ∧ f a = b := by
  cases x <;> simp [Functor.map, Except.map]

@[simp] theorem pure_eq_ok {a b : α} : (pure a : Throws α) = .ok b ↔ a = b := by
  simp [pure, Except.pure]

@[simp] theorem throwIf_eq_ok {c : Prop} [Decidable c] {e : String} {u : Unit} :
    throwIf c e = .ok u ↔ ¬ c := by
  by_cases h : c <;> simp [throwIf, h]

@[simp] theorem ok_bind {a : α} {f : α → Throws β} : (Except.ok a >>= f) = f a := rfl

theorem throwIf_of_not {c : Prop} [Decidable c] {e : String} (h : ¬ c) : throwIf c e = .ok () :=
  if_neg h

@[simp] theorem bind_eq_error {x : Throws α} {f : α → Throws β} {e : String} :
    (x >>= f) = .error e ↔ x = .error e ∨ ∃ a, x = .ok a ∧ f a = .error e := by
  cases x <;> simp [bind, Except.bind]

@[simp] theorem throwIf_eq_error {c : Prop} [Decidable c] {e e' : String} :
    throwIf c e = .error e' ↔ c ∧ e = e' := by
  by_cases h : c <;> simp [throwIf, h, throw, throwThe, MonadExceptOf.throw, pure, Except.pure]

/-- A computation throws exactly when it has no value. -/
theorem throws_iff {x : Throws α} : (∃ e, x = .error e) ↔ ¬ ∃ a, x = .ok a := by
  cases x <;> simp

/-- A computation throws exactly under `p` if it has a value exactly without. -/
theorem throws_iff_of_ok_iff {x : Throws α} {p : Prop} (h : (∃ a, x = .ok a) ↔ ¬ p) :
    (∃ e, x = .error e) ↔ p := by
  rw [throws_iff, h, not_not]

/-- `mapM` succeeds exactly when it succeeds at every entry, with the values in order. -/
theorem mapM_eq_ok {f : α → Throws β} :
    ∀ {l : List α} {r : List β}, l.mapM f = .ok r ↔ List.Forall₂ (fun a b => f a = .ok b) l r
  | [], r => by
    rw [List.mapM_nil, pure_eq_ok, List.forall₂_nil_left_iff]
    exact eq_comm
  | a :: l, r => by
    rw [List.mapM_cons]
    simp only [bind_eq_ok, pure_eq_ok, mapM_eq_ok (l := l)]
    constructor
    · rintro ⟨b, hb, bs, hbs, rfl⟩
      exact .cons hb hbs
    · rintro (_ | ⟨hb, hbs⟩)
      exact ⟨_, hb, _, hbs, rfl⟩

/-- `mapM` succeeds if it succeeds at every entry. -/
theorem exists_mapM {f : α → Throws β} {l : List α} (h : ∀ a ∈ l, ∃ b, f a = .ok b) :
    ∃ r, l.mapM f = .ok r := by
  induction l with
  | nil => exact ⟨[], rfl⟩
  | cons a l ih =>
    obtain ⟨⟨b, hb⟩, hl⟩ := List.forall_mem_cons.1 h
    obtain ⟨r, hr⟩ := ih hl
    rw [List.mapM_cons, hb, hr]
    exact ⟨b :: r, rfl⟩

/-- `mapM` succeeds only if it succeeds at every entry. -/
theorem exists_of_mapM {f : α → Throws β} {l : List α} {r : List β} (h : l.mapM f = .ok r) :
    ∀ a ∈ l, ∃ b, f a = .ok b := by
  rw [mapM_eq_ok] at h
  induction h with
  | nil => exact fun _ ha => (List.not_mem_nil ha).elim
  | cons hb _ ih => exact List.forall_mem_cons.2 ⟨⟨_, hb⟩, ih⟩

/-- What `mapM` gives are the values at the entries. -/
theorem mem_mapM {f : α → Throws β} {l : List α} {r : List β} (h : l.mapM f = .ok r) {b : β} :
    b ∈ r ↔ ∃ a ∈ l, f a = .ok b := by
  rw [mapM_eq_ok] at h
  induction h with
  | nil => exact iff_of_false List.not_mem_nil (by simp)
  | @cons a b' l r hb _ ih =>
    rw [List.mem_cons, ih, List.exists_mem_cons_iff, hb, Except.ok.injEq]
    exact or_congr_left eq_comm

/-- What `mapM` throws is thrown at an entry. -/
theorem exists_of_mapM_eq_error {f : α → Throws β} {l : List α} {e : String}
    (h : l.mapM f = .error e) : ∃ a ∈ l, f a = .error e := by
  induction l with
  | nil => cases h
  | cons a l ih =>
    rw [List.mapM_cons] at h
    simp only [bind_eq_error] at h
    rcases h with h | ⟨_, -, h | ⟨_, -, h⟩⟩
    · exact ⟨a, List.mem_cons_self, h⟩
    · obtain ⟨a', ha', h⟩ := ih h
      exact ⟨a', List.mem_cons_of_mem a ha', h⟩
    · cases h

end Throws

end FermiSdk.Lib
