import Mathlib.Data.List.Infix
import Mathlib.Tactic.Common

/-!
# Words that can be read from texts

Texts mention a word if one of them contains it. A text that is shorter than the word adds nothing
(`mentions_cons_of_short`), and a text put together with a character that is not in the word mentions
it only on one side of that character (`infix_append_cons_iff`).
-/

namespace FermiSdk.Lib

/-- One of the texts contains the word. -/
def Mentions (word : String) (texts : List String) : Prop :=
  ∃ text ∈ texts, word.toList <:+: text.toList

instance {word : String} {texts : List String} : Decidable (Mentions word texts) :=
  inferInstanceAs (Decidable (∃ text ∈ texts, word.toList <:+: text.toList))

variable {α : Type} {word front back text : String} {texts : List String} {sep : Char}

/-- A word without the character that starts a text in front of it ends there too. -/
theorem prefix_append_cons_iff {c : α} {s front back : List α} (hc : c ∉ s) :
    s <+: front ++ c :: back ↔ s <+: front := by
  refine ⟨fun h => ?_, fun h => h.trans (List.prefix_append _ _)⟩
  rcases List.prefix_or_prefix_of_prefix h (List.prefix_append front (c :: back)) with h' | h'
  · exact h'
  · obtain ⟨rest, rfl⟩ := h'
    rw [List.prefix_append_right_inj, List.prefix_cons_iff] at h
    rcases h with rfl | ⟨rest, rfl, -⟩
    · rw [List.append_nil]
    · exact absurd (List.mem_append_right _ List.mem_cons_self) hc

theorem infix_append_cons_iff {c : α} {s front back : List α} (hc : c ∉ s) :
    s <:+: front ++ c :: back ↔ s <:+: front ∨ s <:+: back := by
  induction front with
  | nil =>
    rw [List.nil_append, List.infix_cons_iff, List.infix_nil, List.prefix_cons_iff]
    refine or_congr_left (or_iff_left ?_)
    rintro ⟨rest, rfl, -⟩
    exact hc List.mem_cons_self
  | cons x front ih =>
    rw [List.cons_append, List.infix_cons_iff, List.infix_cons_iff, ih, ← List.cons_append,
      prefix_append_cons_iff hc, or_assoc]

@[simp] theorem mentions_nil : ¬ Mentions word [] := by
  rintro ⟨text, htext, -⟩
  cases htext

theorem mentions_cons :
    Mentions word (text :: texts) ↔ word.toList <:+: text.toList ∨ Mentions word texts := by
  unfold Mentions
  rw [List.exists_mem_cons_iff]

theorem not_infix_of_short (h : text.length < word.length) :
    ¬ word.toList <:+: text.toList := by
  intro hinfix
  have hle := hinfix.length_le
  rw [String.length_toList, String.length_toList] at hle
  omega

/-- A text that is shorter than the word does not contain it. -/
theorem mentions_cons_of_short (h : text.length < word.length) :
    Mentions word (text :: texts) ↔ Mentions word texts := by
  rw [mentions_cons, or_iff_right (not_infix_of_short h)]

/-- What stands in front of a separator is too short for the word. -/
theorem mentions_append_of_short (hsep : sep ∉ word.toList) (h : front.length < word.length) :
    Mentions word [front ++ String.singleton sep ++ back] ↔ Mentions word [back] := by
  have hlist : (front ++ String.singleton sep ++ back).toList =
      front.toList ++ sep :: back.toList := by
    simp
  rw [mentions_cons, mentions_cons, hlist, infix_append_cons_iff hsep,
    or_iff_right (not_infix_of_short h)]

end FermiSdk.Lib
