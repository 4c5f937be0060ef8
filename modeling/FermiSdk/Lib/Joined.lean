import Mathlib.Data.List.Basic
import Mathlib.Tactic.Common

/-!
# Flags joined by key

Entries with a key and a flag, where a key may occur many times. `joined` gives a key the flag that
any of its entries has. What is joined already stays as it is when joined again
(`joined_relabel`): giving each entry the joined flag of its key moves no flag to another key.
-/

namespace FermiSdk.Lib

variable {α κ : Type} [DecidableEq κ] (key : α → κ) (flag : α → Bool)

/-- Whether some entry with this key has the flag. -/
def joined (l : List α) (k : κ) : Bool := l.any fun a => key a = k ∧ flag a

variable {key flag} {l m : List α} {k : κ}

theorem joined_eq_true : joined key flag l k = true ↔ ∃ a ∈ l, key a = k ∧ flag a = true := by
  simp [joined]

@[simp] theorem joined_nil : joined key flag [] k = false := rfl

theorem joined_append : joined key flag (l ++ m) k = (joined key flag l k || joined key flag m k) :=
  List.any_append

/-- Entries without the flag join nothing. -/
theorem joined_append_of_unset (h : ∀ a ∈ m, flag a = false) :
    joined key flag (l ++ m) k = joined key flag l k := by
  have hm : joined key flag m k = false := by
    rw [Bool.eq_false_iff]
    intro hj
    obtain ⟨a, ha, -, hf⟩ := joined_eq_true.1 hj
    rw [h a ha] at hf
    cases hf
  rw [joined_append, hm, Bool.or_false]

/-- **Joining is idempotent**: entries relabelled with the joined flag of their key, next to the
entries `l` they were joined with, have the same joined flags. -/
theorem joined_relabel {f : α → α} (hkey : ∀ a ∈ m, key (f a) = key a)
    (hflag : ∀ a ∈ m, flag (f a) = joined key flag (l ++ m) (key a)) :
    joined key flag (l ++ m.map f) k = joined key flag (l ++ m) k := by
  rw [Bool.eq_iff_iff, joined_eq_true, joined_eq_true]
  constructor
  · rintro ⟨a, ha, rfl, hf⟩
    rcases List.mem_append.1 ha with hl | hm
    · exact ⟨a, List.mem_append_left _ hl, rfl, hf⟩
    · obtain ⟨b, hb, rfl⟩ := List.mem_map.1 hm
      rw [hflag b hb] at hf
      rw [hkey b hb]
      exact joined_eq_true.1 hf
  · rintro ⟨a, ha, rfl, hf⟩
    rcases List.mem_append.1 ha with hl | hm
    · exact ⟨a, List.mem_append_left _ hl, rfl, hf⟩
    · refine ⟨f a, List.mem_append_right _ (List.mem_map_of_mem hm), hkey a hm, ?_⟩
      rw [hflag a hm]
      exact joined_eq_true.2 ⟨a, ha, rfl, hf⟩

end FermiSdk.Lib
