import Mathlib.Data.List.Nodup
import Mathlib.Tactic.Common

/-!
# Bounded walks along links

A linked queue as a reader sees it that trusts none of its links: an end mark, and for every element
with a usable record the element that the record links to. Links may form cycles or lead nowhere.

`walkFrom` reads at most `n` elements and gives up at an element without a usable record or seen
before. It returns exactly the first elements of the walk (`isPrefix_of_walkFrom`), and gives up
exactly when one of the first `n` positions blocks it (`walkFrom_eq_none_iff`).
-/

namespace FermiSdk.Lib

/-- A queue by its links, which may be wrong. -/
structure LinkedQueue (α : Type) where
  /-- The link that ends the queue. -/
  stop : α
  /-- What the record of an element links to, if the element has a usable record. -/
  link : α → Option α

namespace LinkedQueue

variable {α : Type} [DecidableEq α] (q : LinkedQueue α)

/-- The element at position `i` of the walk from `head`, if the walk gets there. -/
def walkAt (head : α) : Nat → Option α
  | 0 => if head = q.stop then none else some head
  | i + 1 => if head = q.stop then none else (q.link head).bind fun next => walkAt next i

/-- The walk cannot pass position `i`: the element there has no usable record, or has been there
before. -/
def BlockedAt (head : α) (i : Nat) : Prop :=
  ∃ a, q.walkAt head i = some a ∧ (q.link a = none ∨ ∃ j < i, q.walkAt head j = some a)

/-- `es` are the elements at the first positions of the walk from `head`: all of them distinct and
usable, at most `n`, and fewer only when the walk ends after them. -/
structure IsPrefix (n : Nat) (head : α) (es : List α) : Prop where
  length_le : es.length ≤ n
  walk : ∀ i < es.length, es[i]? = q.walkAt head i
  usable : ∀ a ∈ es, (q.link a).isSome
  nodup : es.Nodup
  ends : es.length < n → q.walkAt head es.length = none

/-- The walk from `head`, of at most `n` elements none of which is in `seen`. -/
def walkFrom : Nat → List α → α → Option (List α)
  | 0, _, _ => some []
  | n + 1, seen, head =>
    if head = q.stop then some []
    else if head ∈ seen then none
    else (q.link head).bind fun next => (walkFrom n (head :: seen) next).map (head :: ·)

variable {q} {n i : Nat} {seen es : List α} {head a : α}

@[simp] theorem walkAt_stop : q.walkAt q.stop i = none := by
  cases i <;> simp [walkAt]

theorem walkAt_zero (h : head ≠ q.stop) : q.walkAt head 0 = some head := by
  simp [walkAt, h]

theorem walkAt_succ (h : head ≠ q.stop) {next : α} (hn : q.link head = some next) :
    q.walkAt head (i + 1) = q.walkAt next i := by
  simp [walkAt, h, hn]

/-- The position after one whose element is `a`. -/
theorem walkAt_next {next : α} (h : q.walkAt head i = some a) (hn : q.link a = some next) :
    q.walkAt head (i + 1) = if next = q.stop then none else some next := by
  induction i generalizing head with
  | zero =>
    by_cases hstop : head = q.stop
    · simp [walkAt, hstop] at h
    · rw [walkAt_zero hstop] at h
      cases h
      rw [walkAt_succ hstop hn, walkAt]
  | succ i ih =>
    unfold walkAt at h
    split at h
    · cases h
    · rename_i hstop
      obtain ⟨b, hb, hi⟩ := Option.bind_eq_some_iff.1 h
      rw [walkAt_succ hstop hb]
      exact ih hi

/-- One step of a walk that returns. -/
theorem walkFrom_succ_eq_some :
    q.walkFrom (n + 1) seen head = some es ↔
      head = q.stop ∧ es = [] ∨ head ≠ q.stop ∧ head ∉ seen ∧ ∃ next rest,
        q.link head = some next ∧ q.walkFrom n (head :: seen) next = some rest ∧
          es = head :: rest := by
  rw [walkFrom]
  by_cases hstop : head = q.stop
  · simp [hstop, eq_comm]
  · by_cases hseen : head ∈ seen
    · simp [hstop, hseen]
    · rw [if_neg hstop, if_neg hseen]
      simp only [Option.bind_eq_some_iff, Option.map_eq_some_iff, hstop, hseen, false_and,
        false_or, ne_eq, not_false_eq_true, true_and, @eq_comm _ es, exists_and_left]

theorem disjoint_of_walkFrom (h : q.walkFrom n seen head = some es) :
    ∀ a ∈ es, a ∉ seen := by
  induction n generalizing seen head es with
  | zero =>
    cases h
    intro a ha
    cases ha
  | succ n ih =>
    obtain ⟨-, rfl⟩ | ⟨-, hseen, next, rest, -, hrest, rfl⟩ :=
      walkFrom_succ_eq_some.1 h
    · intro a ha
      cases ha
    · intro a ha
      cases ha with
      | head => exact hseen
      | tail _ ha =>
        intro hmem
        exact ih hrest a ha (List.mem_cons_of_mem _ hmem)

/-- What a walk returns is a prefix of the walk. -/
theorem isPrefix_of_walkFrom (h : q.walkFrom n seen head = some es) : q.IsPrefix n head es := by
  induction n generalizing seen head es with
  | zero =>
    cases h
    exact ⟨Nat.le_refl 0, nofun, nofun, List.nodup_nil, nofun⟩
  | succ n ih =>
    obtain ⟨rfl, rfl⟩ | ⟨hstop, -, next, rest, hnext, hrest, rfl⟩ :=
      walkFrom_succ_eq_some.1 h
    · exact ⟨Nat.zero_le _, nofun, nofun, List.nodup_nil, fun _ => walkAt_stop⟩
    · have hp := ih hrest
      refine ⟨Nat.succ_le_succ hp.length_le, ?walk, ?usable, ?nodup, ?ends⟩
      case walk =>
        intro i hi
        cases i with
        | zero => rw [walkAt_zero hstop, List.getElem?_cons_zero]
        | succ i =>
          rw [walkAt_succ hstop hnext, List.getElem?_cons_succ]
          exact hp.walk i (Nat.lt_of_succ_lt_succ hi)
      case usable =>
        intro a ha
        cases ha with
        | head => rw [hnext, Option.isSome_some]
        | tail _ ha => exact hp.usable a ha
      case nodup =>
        refine List.nodup_cons.2 ⟨?_, hp.nodup⟩
        intro hmem
        exact disjoint_of_walkFrom hrest head hmem List.mem_cons_self
      case ends =>
        intro hlt
        rw [List.length_cons, walkAt_succ hstop hnext]
        exact hp.ends (Nat.lt_of_succ_lt_succ hlt)

/-- Where a walk gives up. -/
theorem blocked_of_walkFrom (h : q.walkFrom n seen head = none) :
    ∃ i < n, ∃ a, q.walkAt head i = some a ∧
      (q.link a = none ∨ a ∈ seen ∨ ∃ j < i, q.walkAt head j = some a) := by
  induction n generalizing seen head with
  | zero => cases h
  | succ n ih =>
    unfold walkFrom at h
    split at h
    · cases h
    · rename_i hstop
      by_cases hseen : head ∈ seen
      · exact ⟨0, n.succ_pos, head, walkAt_zero hstop, .inr (.inl hseen)⟩
      · rw [if_neg hseen] at h
        cases hnext : q.link head with
        | none => exact ⟨0, n.succ_pos, head, walkAt_zero hstop, .inl hnext⟩
        | some next =>
          rw [hnext, Option.bind_some, Option.map_eq_none_iff] at h
          obtain ⟨i, hi, a, ha, hblocked⟩ := ih h
          refine ⟨i + 1, Nat.succ_lt_succ hi, a, by rwa [walkAt_succ hstop hnext], ?_⟩
          -- a repetition of the head is one of position 0
          rcases hblocked with hlink | hmem | ⟨j, hj, ha'⟩
          · exact .inl hlink
          · cases hmem with
            | head => exact .inr (.inr ⟨0, i.succ_pos, walkAt_zero hstop⟩)
            | tail _ hmem => exact .inr (.inl hmem)
          · exact .inr (.inr ⟨j + 1, Nat.succ_lt_succ hj, by rwa [walkAt_succ hstop hnext]⟩)

theorem walkAt_eq_none_of_le {k : Nat} (h : q.walkAt head k = none) (hk : k ≤ i) :
    q.walkAt head i = none := by
  induction k generalizing head i with
  | zero =>
    by_cases hstop : head = q.stop
    · rw [hstop, walkAt_stop]
    · rw [walkAt_zero hstop] at h
      cases h
  | succ k ih =>
    cases i with
    | zero => omega
    | succ i =>
      by_cases hstop : head = q.stop
      · rw [hstop, walkAt_stop]
      · cases hnext : q.link head with
        | none => simp [walkAt, hnext]
        | some next =>
          rw [walkAt_succ hstop hnext] at h ⊢
          exact ih h (Nat.le_of_succ_le_succ hk)

namespace IsPrefix

variable {b : α} (h : q.IsPrefix n head es)

include h

theorem walkAt_eq (ha : es[i]? = some a) : q.walkAt head i = some a := by
  rw [← h.walk i (List.getElem?_eq_some_iff.1 ha).1, ha]

theorem exists_link (ha : a ∈ es) : ∃ next, q.link a = some next :=
  Option.isSome_iff_exists.1 (h.usable a ha)

theorem head_eq (ha : es[0]? = some a) : a = head := by
  have h0 := h.walkAt_eq ha
  rw [walkAt, Option.ite_none_left_eq_some, Option.some_inj] at h0
  exact h0.2.symm

/-- Each element links to the one after it. -/
theorem link_eq (ha : es[i]? = some a) (hb : es[i + 1]? = some b) : q.link a = some b := by
  obtain ⟨next, hnext⟩ := h.exists_link (List.mem_of_getElem? ha)
  have hwalk := walkAt_next (h.walkAt_eq ha) hnext
  rw [h.walkAt_eq hb] at hwalk
  rw [hnext]
  exact (Option.ite_none_left_eq_some.1 hwalk.symm).2

/-- A prefix shorter than its bound is empty, or its last element links to the end. -/
theorem last_eq (hlt : es.length < n) :
    es = [] ∧ head = q.stop ∨ ∃ a, es.getLast? = some a ∧ q.link a = some q.stop := by
  have hend := h.ends hlt
  cases hlast : es.getLast? with
  | none =>
    rw [List.getLast?_eq_none_iff] at hlast
    subst hlast
    by_cases hstop : head = q.stop
    · exact .inl ⟨rfl, hstop⟩
    · rw [List.length_nil, walkAt_zero hstop] at hend
      cases hend
  | some a =>
    have ha : es[es.length - 1]? = some a := by
      rw [← List.getLast?_eq_getElem?, hlast]
    have hmem := List.mem_of_getElem? ha
    obtain ⟨next, hnext⟩ := h.exists_link hmem
    have hwalk := walkAt_next (h.walkAt_eq ha) hnext
    rw [Nat.sub_add_cancel (List.length_pos_of_mem hmem), hend] at hwalk
    refine .inr ⟨a, rfl, ?_⟩
    by_cases hstop : next = q.stop
    · rw [hnext, hstop]
    · rw [if_neg hstop] at hwalk
      cases hwalk

end IsPrefix

/-- No position before `n` blocks a walk that has a prefix of length `n`. -/
theorem IsPrefix.not_blocked (h : q.IsPrefix n head es) (hi : i < n) :
    ¬ q.BlockedAt head i := by
  rintro ⟨a, ha, hblocked⟩
  have hlt : i < es.length := by
    by_contra hge
    replace hge := Nat.le_of_not_lt hge
    rw [walkAt_eq_none_of_le (h.ends (Nat.lt_of_le_of_lt hge hi)) hge] at ha
    cases ha
  have hget := (h.walk i hlt).trans ha
  rcases hblocked with hlink | ⟨j, hj, ha'⟩
  · have := h.usable a (List.mem_of_getElem? hget)
    rw [hlink] at this
    cases this
  · have hget' := (h.walk j (Nat.lt_trans hj hlt)).trans ha'
    have := (List.nodup_iff_getElem?_ne_getElem?.1 h.nodup) j i hj hlt
    exact this (hget'.trans hget.symm)

/-- **A walk gives up exactly when one of its positions blocks it.** -/
theorem walkFrom_eq_none_iff :
    q.walkFrom n [] head = none ↔ ∃ i < n, q.BlockedAt head i := by
  constructor
  · intro h
    obtain ⟨i, hi, a, ha, hlink | hmem | hrep⟩ := blocked_of_walkFrom h
    · exact ⟨i, hi, a, ha, .inl hlink⟩
    · cases hmem
    · exact ⟨i, hi, a, ha, .inr hrep⟩
  · rintro ⟨i, hi, hblocked⟩
    cases h : q.walkFrom n [] head with
    | none => rfl
    | some es => exact absurd hblocked ((isPrefix_of_walkFrom h).not_blocked hi)

end LinkedQueue

end FermiSdk.Lib
