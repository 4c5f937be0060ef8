import Mathlib.Data.List.Basic
import Mathlib.Data.List.Infix

/-!
# A queue between a producer and an asynchronous consumer

Values that arrive while a call waits answer the call, others are queued; a call takes the oldest
queued value, or is told how the queue ended, or waits. There is one place for a waiting call, so a
call made while another one waits takes its place.

The queue is `Lossless` after any operations in any order: what was delivered and what is queued are
what arrived, in order; a call waits only while nothing is queued and the queue has not ended; and an
end is reported only when everything that had arrived was delivered. The history of the queue is
kept in `log`, which no operation reads.

Values may arrive after the end. If none arrives once the end was reported, none is delivered from
then on (`Settled`); if one does, it is delivered to a call that was to find the queue ended (`Late`).
-/

namespace FermiSdk.Lib

/-- The answer to a call for the next value. -/
inductive Answer (α ε : Type) where
  | value (a : α)
  | finished
  | failed (e : ε)
  deriving DecidableEq

/-- What happens at a queue: a value arrives, or a call (by its number) is answered. -/
inductive Occurrence (α ε : Type) where
  | produced (a : α)
  | answered (call : Nat) (answer : Answer α ε)
  deriving DecidableEq

/-- The queue, with a place for one waiting call. -/
structure AsyncQueue (α ε : Type) where
  queue : List α
  /-- The call that waits. -/
  waiter : Option Nat
  done : Bool
  error : Option ε
  /-- How many calls were made. -/
  calls : Nat
  log : List (Occurrence α ε)

namespace Answer

variable {α ε : Type}

/-- The end of a queue, by its error. -/
def ending : Option ε → Answer α ε
  | some e => .failed e
  | none => .finished

/-- An answer without a value. -/
def IsEnd : Answer α ε → Prop
  | .value _ => False
  | _ => True

theorem isEnd_ending (error : Option ε) : (ending error : Answer α ε).IsEnd := by
  cases error <;> trivial

end Answer

namespace Occurrence

variable {α ε : Type}

/-- The values that arrived. -/
def arrivals (log : List (Occurrence α ε)) : List α :=
  log.filterMap fun
    | .produced a => some a
    | .answered _ _ => none

/-- The values delivered to calls. -/
def deliveries (log : List (Occurrence α ε)) : List α :=
  log.filterMap fun
    | .answered _ (.value a) => some a
    | _ => none

/-- A call was told that the queue finished. -/
def endReported (log : List (Occurrence α ε)) : Bool :=
  log.any fun
    | .answered _ .finished => true
    | _ => false

/-- The values delivered after a call was told that the queue finished. -/
def lateDeliveries : List (Occurrence α ε) → List α
  | [] => []
  | .answered _ .finished :: later => deliveries later
  | _ :: later => lateDeliveries later

variable {log l : List (Occurrence α ε)} {a : α} {call : Nat} {answer : Answer α ε}

@[simp] theorem arrivals_append : arrivals (log ++ l) = arrivals log ++ arrivals l :=
  List.filterMap_append

@[simp] theorem deliveries_append : deliveries (log ++ l) = deliveries log ++ deliveries l :=
  List.filterMap_append

@[simp] theorem arrivals_nil : arrivals ([] : List (Occurrence α ε)) = [] := rfl

@[simp] theorem deliveries_nil : deliveries ([] : List (Occurrence α ε)) = [] := rfl

@[simp] theorem arrivals_produced : arrivals (.produced a :: l) = a :: arrivals l := rfl

@[simp] theorem arrivals_answered : arrivals (.answered call answer :: l) = arrivals l := rfl

@[simp] theorem deliveries_produced : deliveries (.produced a :: l) = deliveries l := rfl

@[simp] theorem deliveries_value :
    deliveries (.answered call (.value a) :: l) = a :: deliveries l := rfl

theorem deliveries_end (h : answer.IsEnd) :
    deliveries (.answered call answer :: l) = deliveries l := by
  cases answer with
  | value a => exact h.elim
  | finished => rfl
  | failed e => rfl

@[simp] theorem endReported_append :
    endReported (log ++ l) = (endReported log || endReported l) :=
  List.any_append

@[simp] theorem endReported_nil : endReported ([] : List (Occurrence α ε)) = false := rfl

@[simp] theorem endReported_produced : endReported (.produced a :: l) = endReported l := rfl

@[simp] theorem endReported_value :
    endReported (.answered call (.value a) :: l) = endReported l := rfl

@[simp] theorem lateDeliveries_nil : lateDeliveries ([] : List (Occurrence α ε)) = [] := rfl

@[simp] theorem lateDeliveries_produced :
    lateDeliveries (.produced a :: l) = lateDeliveries l := rfl

@[simp] theorem lateDeliveries_value :
    lateDeliveries (.answered call (.value a) :: l) = lateDeliveries l := rfl

/-- An answer without a value delivers nothing late. -/
theorem lateDeliveries_end (h : answer.IsEnd) : lateDeliveries [.answered call answer] = [] := by
  cases answer with
  | value a => rfl
  | finished => rfl
  | failed e => rfl

/-- After an end was reported, everything delivered is late. -/
@[simp] theorem lateDeliveries_append (log l : List (Occurrence α ε)) :
    lateDeliveries (log ++ l) =
      lateDeliveries log ++ if endReported log then deliveries l else lateDeliveries l := by
  induction log with
  | nil => rfl
  | cons occurrence log ih =>
    cases occurrence with
    | produced a => exact ih
    | answered call answer =>
      cases answer with
      | value a => exact ih
      | failed e => exact ih
      | finished => exact deliveries_append

end Occurrence

namespace AsyncQueue

open Occurrence

variable {α ε : Type}

/-- Nothing has happened. -/
def empty : AsyncQueue α ε where
  queue := []
  waiter := none
  done := false
  error := none
  calls := 0
  log := []

def record (q : AsyncQueue α ε) (occurrence : Occurrence α ε) : AsyncQueue α ε :=
  { q with log := q.log ++ [occurrence] }

/-- A value arrives. -/
def push (q : AsyncQueue α ε) (a : α) : AsyncQueue α ε :=
  let q := q.record (.produced a)
  match q.waiter with
  | some call => { q with waiter := none }.record (.answered call (.value a))
  | none => { q with queue := q.queue ++ [a] }

/-- The queue ends, with or without an error. Only the first end counts. -/
def finish (q : AsyncQueue α ε) (err : Option ε) : AsyncQueue α ε :=
  if q.done then q
  else
    let q := { q with done := true, error := err <|> q.error }
    match q.waiter with
    | some call => { q with waiter := none }.record (.answered call (.ending err))
    | none => q

/-- A call for the next value. -/
def next (q : AsyncQueue α ε) : AsyncQueue α ε :=
  let call := q.calls
  let q := { q with calls := call + 1 }
  match q.queue with
  | a :: queue => { q with queue }.record (.answered call (.value a))
  | [] =>
    if q.done then q.record (.answered call (.ending q.error))
    else { q with waiter := some call }

/-! ## The invariant -/

/-- Every end was reported when everything that had arrived was delivered. -/
def EndsSettled (log : List (Occurrence α ε)) : Prop :=
  ∀ past call answer, past ++ [.answered call answer] <+: log → answer.IsEnd →
    deliveries past = arrivals past

/-- The queue kept its promises so far. -/
structure Lossless (q : AsyncQueue α ε) : Prop where
  values : deliveries q.log ++ q.queue = arrivals q.log
  waiting : q.waiter.isSome → q.queue = [] ∧ q.done = false
  ends : EndsSettled q.log

theorem EndsSettled.append {log : List (Occurrence α ε)} {occurrence : Occurrence α ε}
    (h : EndsSettled log)
    (hlast : ∀ call answer, occurrence = .answered call answer → answer.IsEnd →
      deliveries log = arrivals log) : EndsSettled (log ++ [occurrence]) := by
  intro past call answer hprefix hend
  rcases List.prefix_concat_iff.1 hprefix with heq | hprefix
  · obtain ⟨rfl, hocc⟩ := List.append_inj' heq rfl
    exact hlast call answer (List.singleton_inj.1 hocc).symm hend
  · exact h past call answer hprefix hend

theorem lossless_empty : Lossless (empty : AsyncQueue α ε) where
  values := rfl
  waiting := nofun
  ends := by
    intro past call answer hprefix _
    exact absurd (List.prefix_nil.1 hprefix) (by simp)

section

variable {q : AsyncQueue α ε}

theorem Lossless.push (h : q.Lossless) (a : α) : (q.push a).Lossless := by
  have hproduced : EndsSettled (q.log ++ [.produced a]) := h.ends.append nofun
  have hvalues := h.values
  cases hwaiter : q.waiter with
  | none =>
    rw [AsyncQueue.push]
    simp only [record, hwaiter]
    exact ⟨by simp [← hvalues], nofun, hproduced⟩
  | some call =>
    obtain ⟨hqueue, -⟩ := h.waiting (by simp [hwaiter])
    rw [hqueue, List.append_nil] at hvalues
    rw [AsyncQueue.push]
    simp only [record, hwaiter]
    refine ⟨by simp [hvalues, hqueue], nofun, hproduced.append ?_⟩
    rintro _ _ ⟨⟩ hend
    exact hend.elim

theorem Lossless.finish (h : q.Lossless) (err : Option ε) : (q.finish err).Lossless := by
  rw [AsyncQueue.finish]
  split
  · exact h
  · cases hwaiter : q.waiter with
    | none => exact ⟨h.values, nofun, h.ends⟩
    | some call =>
      obtain ⟨hqueue, -⟩ := h.waiting (by simp [hwaiter])
      have hvalues := h.values
      rw [hqueue, List.append_nil] at hvalues
      refine ⟨?_, nofun, h.ends.append fun _ _ _ _ => hvalues⟩
      simp [record, hvalues, hqueue, deliveries_end (Answer.isEnd_ending err)]

theorem Lossless.next (h : q.Lossless) : q.next.Lossless := by
  have hvalues := h.values
  rw [AsyncQueue.next]
  cases hqueue : q.queue with
  | cons a queue =>
    rw [hqueue] at hvalues
    refine ⟨by simp [record, ← hvalues], ?_, h.ends.append ?_⟩
    · intro hwaiter
      rw [(h.waiting hwaiter).1] at hqueue
      cases hqueue
    · rintro _ _ ⟨⟩ hend
      exact hend.elim
  | nil =>
    rw [hqueue, List.append_nil] at hvalues
    cases hdone : q.done with
    | false => exact ⟨by simp [hvalues], fun _ => ⟨rfl, rfl⟩, h.ends⟩
    | true =>
      refine ⟨?_, ?_, h.ends.append fun _ _ _ _ => hvalues⟩
      · simp [record, hvalues, deliveries_end (Answer.isEnd_ending q.error)]
      · intro hwaiter
        exact absurd (h.waiting hwaiter).2 (by simp [hdone])

/-- Values that arrive one after another. -/
theorem Lossless.pushAll (h : q.Lossless) (values : List α) :
    (values.foldl AsyncQueue.push q).Lossless := by
  induction values generalizing q with
  | nil => exact h
  | cons a values ih => exact ih (h.push a)

/-! ## What each operation adds to the arrivals -/

@[simp] theorem arrivals_push (q : AsyncQueue α ε) (a : α) :
    arrivals (q.push a).log = arrivals q.log ++ [a] := by
  rw [AsyncQueue.push]
  cases hwaiter : q.waiter <;> simp [record, hwaiter]

@[simp] theorem arrivals_finish (q : AsyncQueue α ε) (err : Option ε) :
    arrivals (q.finish err).log = arrivals q.log := by
  rw [AsyncQueue.finish]
  split
  · rfl
  · cases hwaiter : q.waiter <;> simp [record]

@[simp] theorem arrivals_next (q : AsyncQueue α ε) : arrivals q.next.log = arrivals q.log := by
  rw [AsyncQueue.next]
  cases hqueue : q.queue with
  | cons a queue => simp [record]
  | nil => cases hdone : q.done <;> simp [record]

@[simp] theorem arrivals_pushAll (q : AsyncQueue α ε) (values : List α) :
    arrivals (values.foldl AsyncQueue.push q).log = arrivals q.log ++ values := by
  induction values generalizing q with
  | nil => simp
  | cons a values ih => simp [ih]

end

/-! ## After the end -/

/-- Once the end was reported, nothing is queued, and nothing was delivered since. -/
structure Settled (q : AsyncQueue α ε) : Prop where
  lossless : q.Lossless
  ended : endReported q.log = true → q.done = true ∧ q.queue = []
  noneLate : lateDeliveries q.log = []

/-- A value was delivered after the end was reported, or is about to be. -/
def Late (q : AsyncQueue α ε) : Prop :=
  lateDeliveries q.log ≠ [] ∨ endReported q.log = true ∧ q.queue ≠ []

theorem settled_empty : Settled (empty : AsyncQueue α ε) := ⟨lossless_empty, nofun, rfl⟩

section

variable {q : AsyncQueue α ε}

/-- An operation that answers with an end, or not at all, delivers nothing late. -/
theorem lateDeliveries_append_end {log : List (Occurrence α ε)} {call : Nat} {answer : Answer α ε}
    (hend : answer.IsEnd) : lateDeliveries (log ++ [.answered call answer]) = lateDeliveries log := by
  simp [deliveries_end hend, lateDeliveries_end hend]

theorem Settled.push (h : q.Settled) (hopen : endReported q.log = false) (a : α) :
    (q.push a).Settled := by
  have hlossless := h.lossless.push a
  have hnone := h.noneLate
  rw [AsyncQueue.push] at hlossless ⊢
  cases hwaiter : q.waiter <;> simp only [record, hwaiter] at hlossless ⊢
  all_goals
    refine ⟨hlossless, ?_, ?_⟩
    · simp [hopen]
    · simp [hopen, hnone]

theorem Settled.finish (h : q.Settled) (err : Option ε) : (q.finish err).Settled := by
  have hlossless := h.lossless.finish err
  rw [AsyncQueue.finish] at hlossless ⊢
  cases hdone : q.done with
  | true => exact h
  | false =>
    simp only [hdone, Bool.false_eq_true, if_false] at hlossless ⊢
    cases hwaiter : q.waiter with
    | none =>
      simp only [hwaiter] at hlossless ⊢
      exact ⟨hlossless, fun hended => ⟨rfl, (h.ended hended).2⟩, h.noneLate⟩
    | some call =>
      obtain ⟨hqueue, -⟩ := h.lossless.waiting (by simp [hwaiter])
      simp only [hwaiter] at hlossless ⊢
      refine ⟨hlossless, fun _ => ⟨rfl, hqueue⟩, ?_⟩
      rw [record, lateDeliveries_append_end (Answer.isEnd_ending err)]
      exact h.noneLate

theorem Settled.next (h : q.Settled) : q.next.Settled := by
  have hlossless := h.lossless.next
  rw [AsyncQueue.next] at hlossless ⊢
  cases hqueue : q.queue with
  | cons a queue =>
    have hopen : endReported q.log = false := by
      by_contra hended
      rw [Bool.not_eq_false] at hended
      rw [(h.ended hended).2] at hqueue
      cases hqueue
    simp only [hqueue, record] at hlossless ⊢
    refine ⟨hlossless, ?_, ?_⟩
    · simp [hopen]
    · simp [hopen, h.noneLate]
  | nil =>
    simp only [hqueue] at hlossless ⊢
    cases hdone : q.done with
    | true =>
      simp only [hdone, if_true, record] at hlossless ⊢
      refine ⟨hlossless, fun _ => ⟨rfl, rfl⟩, ?_⟩
      rw [lateDeliveries_append_end (Answer.isEnd_ending q.error)]
      exact h.noneLate
    | false =>
      simp only [hdone, Bool.false_eq_true, if_false] at hlossless ⊢
      refine ⟨hlossless, fun hended => ?_, h.noneLate⟩
      exact absurd (h.ended hended).1 (by simp [hdone])

/-! ## A value that arrives after the end was reported -/

theorem Late.of_push (hended : endReported q.log = true) (a : α) : (q.push a).Late := by
  rw [AsyncQueue.push]
  cases hwaiter : q.waiter with
  | some call =>
    left
    simp [record, hwaiter, hended]
  | none =>
    right
    simp [record, hwaiter, hended]

theorem Late.push (h : q.Late) (a : α) : (q.push a).Late := by
  rcases h with hlate | ⟨hended, -⟩
  · left
    rw [AsyncQueue.push]
    cases hwaiter : q.waiter <;> simp [record, hwaiter, hlate]
  · exact .of_push hended a

theorem Late.finish (h : q.Late) (err : Option ε) : (q.finish err).Late := by
  rw [AsyncQueue.finish]
  cases hdone : q.done with
  | true => exact h
  | false =>
    simp only [Bool.false_eq_true, if_false]
    cases hwaiter : q.waiter with
    | none => exact h
    | some call =>
      rcases h with hlate | ⟨hended, hqueue⟩
      · exact .inl (by simp [record, hlate])
      · exact .inr (by simp [record, hended, hqueue])

/-- The next call delivers it. -/
theorem Late.delivered (h : q.Late) : lateDeliveries q.next.log ≠ [] := by
  rw [AsyncQueue.next]
  cases hqueue : q.queue with
  | cons a queue =>
    rcases h with hlate | ⟨hended, -⟩
    · simp [record, hlate]
    · simp [record, hended]
  | nil =>
    rcases h with hlate | ⟨-, hnil⟩
    · cases hdone : q.done <;> simp [record, hlate]
    · exact absurd hqueue hnil

theorem Late.next (h : q.Late) : q.next.Late := .inl h.delivered

/-- Values that arrive one after another. -/
theorem Late.pushAll (h : q.Late) (values : List α) : (values.foldl AsyncQueue.push q).Late := by
  induction values generalizing q with
  | nil => exact h
  | cons a values ih => exact ih (h.push a)

theorem endReported_push (a : α) : endReported (q.push a).log = endReported q.log := by
  rw [AsyncQueue.push]
  cases hwaiter : q.waiter <;> simp [record, hwaiter]

theorem Settled.pushAll (h : q.Settled) {values : List α}
    (hopen : values ≠ [] → endReported q.log = false) :
    (values.foldl AsyncQueue.push q).Settled := by
  induction values generalizing q with
  | nil => exact h
  | cons a values ih =>
    have hopen := hopen (List.cons_ne_nil a values)
    exact ih (h.push hopen a) fun _ => (endReported_push a).trans hopen

theorem Late.of_pushAll (hended : endReported q.log = true) {values : List α} (h : values ≠ []) :
    (values.foldl AsyncQueue.push q).Late := by
  cases values with
  | nil => exact absurd rfl h
  | cons a values => exact (Late.of_push hended a).pushAll values

end

end AsyncQueue

end FermiSdk.Lib
