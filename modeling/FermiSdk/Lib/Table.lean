import Mathlib.Data.List.Nodup
import Mathlib.Tactic.Common

/-!
# Tables

A list whose keys are distinct has at most one entry for a key. What is found for a key, by `lookup`
in a list of pairs or by `find?` in a list of records, is then the entry that is listed for it.
-/

namespace FermiSdk.Lib

variable {α β κ : Type} [DecidableEq κ] {k : κ}

theorem key_of_find?_eq_some {key : α → κ} {l : List α} {a : α}
    (h : l.find? (fun b => key b = k) = some a) : key a = k := by
  have hholds := List.find?_some h
  exact of_decide_eq_true hholds

theorem find?_eq_some_iff_mem {key : α → κ} {l : List α} {a : α} (hnodup : (l.map key).Nodup) :
    l.find? (fun b => key b = k) = some a ↔ a ∈ l ∧ key a = k := by
  constructor
  · intro h
    exact ⟨List.mem_of_find?_eq_some h, key_of_find?_eq_some h⟩
  · rintro ⟨hmem, hkey⟩
    have hsome : (l.find? fun b => key b = k).isSome :=
      List.find?_isSome.2 ⟨a, hmem, decide_eq_true hkey⟩
    obtain ⟨b, hb⟩ := Option.isSome_iff_exists.1 hsome
    -- What is found has the same key, so it is the entry.
    have hsame := (key_of_find?_eq_some hb).trans hkey.symm
    rw [hb, List.inj_on_of_nodup_map hnodup (List.mem_of_find?_eq_some hb) hmem hsame]

theorem lookup_eq_some_iff_mem {l : List (κ × β)} {b : β} (hnodup : (l.map Prod.fst).Nodup) :
    l.lookup k = some b ↔ (k, b) ∈ l := by
  induction l with
  | nil => exact iff_of_false (fun h => by cases h) List.not_mem_nil
  | cons entry l ih =>
    rw [List.map_cons, List.nodup_cons] at hnodup
    rw [List.lookup_cons, List.mem_cons]
    by_cases h : k = entry.1
    · have hnotMem : (k, b) ∉ l := by
        intro hmem
        exact hnodup.1 (h ▸ List.mem_map_of_mem hmem)
      rw [or_iff_left hnotMem, Prod.ext_iff, and_iff_right h, h, beq_self_eq_true]
      exact Option.some_inj.trans eq_comm
    · have hne : (k, b) ≠ entry := by
        rintro rfl
        exact h rfl
      rw [beq_false_of_ne h]
      exact (ih hnodup.2).trans (or_iff_right hne).symm

end FermiSdk.Lib
