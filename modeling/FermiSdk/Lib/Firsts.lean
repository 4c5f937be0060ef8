import Mathlib.Data.List.Nodup
import Mathlib.Data.List.Sort
import Mathlib.Tactic.Common

/-!
# First occurrences, and sorting by distinct keys

`firsts` keeps the first value for each key that has not been seen: each key once
(`nodup_map_firsts`), in the order of the keys' first occurrences (`pairwise_idxOf_firsts`). A value
whose key occurs earlier makes no difference (`firsts_insert`).

A list whose keys are distinct has one order by key, whatever order it was in
(`insertionSort_eq_of_perm`).
-/

namespace FermiSdk.Lib

variable {α κ : Type}

section

variable [DecidableEq κ] (key : α → κ)

/-- The first value for each key, of those whose key is not in `seen`. -/
def firsts : List κ → List α → List α
  | _, [] => []
  | seen, a :: l => if key a ∈ seen then firsts seen l else a :: firsts (key a :: seen) l

variable {key} {seen : List κ} {l r : List α} {a : α} {k : κ}

theorem firsts_cons_of_mem (h : key a ∈ seen) : firsts key seen (a :: l) = firsts key seen l := by
  rw [firsts, if_pos h]

theorem firsts_cons_of_not_mem (h : key a ∉ seen) :
    firsts key seen (a :: l) = a :: firsts key (key a :: seen) l := by
  rw [firsts, if_neg h]

theorem firsts_sublist : (firsts key seen l).Sublist l := by
  induction l generalizing seen with
  | nil => exact .slnil
  | cons a l ih =>
    by_cases h : key a ∈ seen
    · rw [firsts_cons_of_mem h]
      exact ih.cons a
    · rw [firsts_cons_of_not_mem h]
      exact ih.cons_cons a

theorem mem_map_firsts : k ∈ (firsts key seen l).map key ↔ k ∈ l.map key ∧ k ∉ seen := by
  induction l generalizing seen with
  | nil => simp [firsts]
  | cons a l ih =>
    by_cases h : key a ∈ seen
    · rw [firsts_cons_of_mem h, ih, List.map_cons, List.mem_cons]
      constructor
      · rintro ⟨hl, hs⟩
        exact ⟨.inr hl, hs⟩
      · rintro ⟨rfl | hl, hs⟩
        · exact absurd h hs
        · exact ⟨hl, hs⟩
    · rw [firsts_cons_of_not_mem h, List.map_cons, List.map_cons, List.mem_cons, List.mem_cons, ih,
        List.mem_cons, not_or]
      constructor
      · rintro (rfl | ⟨hl, -, hs⟩)
        · exact ⟨.inl rfl, h⟩
        · exact ⟨.inr hl, hs⟩
      · rintro ⟨hl, hs⟩
        by_cases hk : k = key a
        · exact .inl hk
        · exact .inr ⟨hl.resolve_left hk, hk, hs⟩

/-- **Each key is kept once.** -/
theorem nodup_map_firsts : ((firsts key seen l).map key).Nodup := by
  induction l generalizing seen with
  | nil => exact List.nodup_nil
  | cons a l ih =>
    by_cases h : key a ∈ seen
    · rw [firsts_cons_of_mem h]
      exact ih
    · rw [firsts_cons_of_not_mem h, List.map_cons, List.nodup_cons, mem_map_firsts]
      exact ⟨fun hm => hm.2 (List.mem_cons_self ..), ih⟩

/-- **Keys are kept in the order of their first occurrences.** -/
theorem pairwise_idxOf_firsts (key : α → κ) (seen : List κ) (l : List α) :
    ((firsts key seen l).map key).Pairwise fun x y =>
      (l.map key).idxOf x < (l.map key).idxOf y := by
  induction l generalizing seen with
  | nil => exact .nil
  | cons a l ih =>
    -- a key kept from the tail is not the head's, so its index grows by one
    have hshift : ∀ {s : List κ}, key a ∈ s →
        ((firsts key s l).map key).Pairwise fun x y =>
          ((a :: l).map key).idxOf x < ((a :: l).map key).idxOf y := by
      intro s hs
      refine (ih s).imp_of_mem fun {x y} hx hy hlt => ?_
      have hxa : key a ≠ x := fun h => (mem_map_firsts.1 hx).2 (h ▸ hs)
      have hya : key a ≠ y := fun h => (mem_map_firsts.1 hy).2 (h ▸ hs)
      rw [List.map_cons, List.idxOf_cons_ne _ hxa, List.idxOf_cons_ne _ hya]
      exact Nat.succ_lt_succ hlt
    by_cases h : key a ∈ seen
    · rw [firsts_cons_of_mem h]
      exact hshift h
    · rw [firsts_cons_of_not_mem h, List.map_cons, List.map_cons, List.pairwise_cons]
      refine ⟨fun y hy => ?_, hshift (List.mem_cons_self ..)⟩
      have hya : key a ≠ y := fun heq => (mem_map_firsts.1 hy).2 (heq ▸ List.mem_cons_self ..)
      rw [List.idxOf_cons_self, List.idxOf_cons_ne _ hya]
      exact Nat.succ_pos _

/-- A value whose key has been seen before makes no difference. -/
theorem firsts_insert (h : key a ∈ seen ∨ key a ∈ l.map key) :
    firsts key seen (l ++ a :: r) = firsts key seen (l ++ r) := by
  induction l generalizing seen with
  | nil =>
    rcases h with h | h
    · exact firsts_cons_of_mem h
    · cases h
  | cons b l ih =>
    rw [List.cons_append, List.cons_append]
    rw [List.map_cons, List.mem_cons] at h
    by_cases hb : key b ∈ seen
    · rw [firsts_cons_of_mem hb, firsts_cons_of_mem hb, ih]
      rcases h with h | heq | h
      · exact .inl h
      · exact .inl (heq ▸ hb)
      · exact .inr h
    · rw [firsts_cons_of_not_mem hb, firsts_cons_of_not_mem hb, ih]
      rcases h with h | heq | h
      · exact .inl (List.mem_cons_of_mem _ h)
      · exact .inl (heq ▸ List.mem_cons_self ..)
      · exact .inr h

end

/-! ## Sorting -/

section

variable {key : α → Int} {l m : List α}

theorem pairwise_le_insertionSort (key : α → Int) (l : List α) :
    (l.insertionSort fun x y => key x ≤ key y).Pairwise fun x y => key x ≤ key y := by
  have : Std.Total fun x y : α => key x ≤ key y := ⟨fun x y => le_total (key x) (key y)⟩
  have : IsTrans α fun x y => key x ≤ key y := ⟨fun _ _ _ => le_trans⟩
  exact List.pairwise_insertionSort _ l

/-- **Distinct keys are sorted strictly.** -/
theorem pairwise_lt_insertionSort (h : (l.map key).Nodup) :
    (l.insertionSort fun x y => key x ≤ key y).Pairwise fun x y => key x < key y := by
  have hperm := List.perm_insertionSort (fun x y => key x ≤ key y) l
  have hne : (l.insertionSort fun x y => key x ≤ key y).Pairwise fun x y => key x ≠ key y :=
    List.pairwise_map.1 ((hperm.map key).nodup_iff.2 h)
  refine ((pairwise_le_insertionSort key l).and hne).imp fun {x y} h => ?_
  exact lt_of_le_of_ne h.1 h.2

/-- **The order of a list with distinct keys does not matter** once it is sorted. -/
theorem insertionSort_eq_of_perm (hp : l.Perm m) (h : (l.map key).Nodup) :
    l.insertionSort (fun x y => key x ≤ key y) = m.insertionSort fun x y => key x ≤ key y := by
  refine List.Perm.eq_of_pairwise (fun x y _ _ hxy hyx => ?_) (pairwise_lt_insertionSort h)
    (pairwise_lt_insertionSort ((hp.map key).nodup_iff.1 h)) ?_
  · exact absurd hxy (lt_asymm hyx)
  · exact (List.perm_insertionSort _ l).trans (hp.trans (List.perm_insertionSort _ m).symm)

end

end FermiSdk.Lib
