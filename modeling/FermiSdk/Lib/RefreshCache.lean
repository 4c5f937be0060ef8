import FermiSdk.Lib.Runs
import FermiSdk.Lib.Throws

/-!
# A cache that overlapping calls refresh

A call takes the time. If the call that the kept value answered is fresh by then, that value is
returned at once; otherwise the call asks, and is answered later, in any order among the calls that
wait. An answer that is accepted is returned and kept, together with the time at which its call was
made; any other answer fails the call and leaves what is kept.

`Served` says what a call returns, in terms of the events alone: what its own answer carries, or what
the last answer carried that was accepted before it. A run returns just that (`served_iff`).
-/

namespace FermiSdk.Lib.RefreshCache

variable {α ρ : Type}

/-- What became of a call. -/
inductive Call (α : Type) where
  | asked (time : Int)
  | returned (value : α)
  | failed (error : String)

/-- A call, or an answer to the call with this number. -/
inductive Event (ρ : Type) where
  | get (now : Int)
  | answer (i : Nat) (reply : ρ)

/-- What is kept, and the calls in the order in which they were made. -/
structure State (α : Type) where
  /-- The value that is kept, and the time of the call that it answered. -/
  cached : Option (Int × α)
  calls : List (Call α)

def State.empty : State α := ⟨none, []⟩

section

variable (fresh : Int → Int → Bool) (accept : ρ → Throws α)

/-- The value that is kept, if it is fresh. -/
def hit (cached : Option (Int × α)) (now : Int) : Option α :=
  (cached.filter fun kept => fresh kept.1 now).map (·.2)

/-- What a call does at first. -/
def callAt (cached : Option (Int × α)) (now : Int) : Call α :=
  match hit fresh cached now with
  | some value => .returned value
  | none => .asked now

/-- What becomes of a call that is answered. -/
def outcome (reply : ρ) : Call α :=
  match accept reply with
  | .ok value => .returned value
  | .error e => .failed e

/-- What an answer to a call that was made at a time brings about. -/
def answered (s : State α) (i : Nat) (time : Int) (reply : ρ) : State α where
  cached := ((accept reply).toOption.map fun value => (time, value)).or s.cached
  calls := s.calls.set i (outcome accept reply)

/-- One event. An answer to a call that does not wait is refused. -/
def step (s : State α) : Event ρ → Option (State α)
  | .get now => some { s with calls := s.calls ++ [callAt fresh s.cached now] }
  | .answer i reply =>
    match s.calls[i]? with
    | some (.asked time) => some (answered accept s i time reply)
    | _ => none

end

/-! ## What the events say -/

/-- The time of an event that is a call. -/
def Event.time? : Event ρ → Option Int
  | .get now => some now
  | .answer _ _ => none

/-- The times of the calls. -/
def times (events : List (Event ρ)) : List Int := events.filterMap Event.time?

section

variable (accept : ρ → Throws α)

/-- What an event adds to the accepted values, for the times of the calls before it. -/
def Event.value? (before : List Int) : Event ρ → Option (Int × α)
  | .get _ => none
  | .answer i reply => do
    pure (← before[i]?, ← (accept reply).toOption)

/-- The values that were accepted, in order, each with the time of the call that it answered. -/
def accepted (before : List Int) : List (Event ρ) → List (Int × α)
  | [] => []
  | event :: events =>
    (event.value? accept before).toList ++ accepted (before ++ event.time?.toList) events

/-- The value that is kept after the events. -/
def lastAccepted (events : List (Event ρ)) : Option (Int × α) := (accepted accept [] events).getLast?

variable (fresh : Int → Int → Bool)

/-- An event after which a call has its value. -/
def Gives (past : List (Event ρ)) (event : Event ρ) (i : Nat) (value : α) : Prop :=
  (∃ reply, event = .answer i reply ∧ accept reply = .ok value) ∨
  ∃ now time, event = .get now ∧ (times past).length = i ∧
    lastAccepted accept past = some (time, value) ∧ fresh time now = true

/-- A call has its value after one of the events. -/
def Served (events : List (Event ρ)) (i : Nat) (value : α) : Prop :=
  ∃ past event rest, events = past ++ event :: rest ∧ Gives accept fresh past event i value

end

variable {fresh : Int → Int → Bool} {accept : ρ → Throws α} {past events : List (Event ρ)}
  {event : Event ρ} {i : Nat} {value : α} {s s' : State α}

theorem times_concat : times (past ++ [event]) = times past ++ event.time?.toList := by
  rw [times, List.filterMap_append]
  cases event <;> rfl

theorem accepted_append {before : List Int} {events' : List (Event ρ)} :
    accepted accept before (events ++ events') =
      accepted accept before events ++ accepted accept (before ++ times events) events' := by
  induction events generalizing before with
  | nil => rw [times, List.filterMap_nil, List.append_nil, accepted, List.nil_append, List.nil_append]
  | cons event events ih =>
    have htimes : times (event :: events) = event.time?.toList ++ times events := by
      cases event <;> rfl
    rw [List.cons_append, accepted, accepted, ih, htimes, List.append_assoc, List.append_assoc]

theorem lastAccepted_concat : lastAccepted accept (past ++ [event]) =
    (event.value? accept (times past)).or (lastAccepted accept past) := by
  have hone : accepted accept ([] ++ times past) [event] =
      (event.value? accept (times past)).toList := by
    rw [accepted, accepted, List.append_nil, List.nil_append]
  rw [lastAccepted, accepted_append, hone]
  cases event.value? accept (times past) with
  | none => rw [Option.toList_none, List.append_nil, Option.none_or, lastAccepted]
  | some kept => rw [Option.toList_some, List.getLast?_concat, Option.some_or]

theorem served_concat : Served accept fresh (past ++ [event]) i value ↔
    Served accept fresh past i value ∨ Gives accept fresh past event i value := by
  constructor
  · rintro ⟨before, event', rest, h, hgives⟩
    rcases List.eq_nil_or_concat' rest with rfl | ⟨rest, last, rfl⟩
    · obtain ⟨rfl, hevent⟩ := List.append_inj' h rfl
      obtain rfl := List.singleton_inj.1 hevent
      exact .inr hgives
    · rw [← List.cons_append, ← List.append_assoc] at h
      obtain ⟨rfl, -⟩ := List.append_inj' h rfl
      exact .inl ⟨before, event', rest, rfl, hgives⟩
  · rintro (⟨before, event', rest, rfl, hgives⟩ | hgives)
    · exact ⟨before, event', rest ++ [event], by simp, hgives⟩
    · exact ⟨past, event, [], rfl, hgives⟩

/-! ## Runs -/

/-- What a state owes to the events before it. -/
structure Owes (accept : ρ → Throws α) (fresh : Int → Int → Bool) (past : List (Event ρ))
    (s : State α) : Prop where
  cached : s.cached = lastAccepted accept past
  length : s.calls.length = (times past).length
  asked : ∀ (i : Nat) (time : Int), s.calls[i]? = some (Call.asked time) → (times past)[i]? = some time
  returned : ∀ (i : Nat) (value : α), s.calls[i]? = some (Call.returned value) ↔ Served accept fresh past i value

theorem owes_empty : Owes accept fresh [] State.empty where
  cached := rfl
  length := rfl
  asked _ _ h := by cases h
  returned i value := by
    refine iff_of_false (fun h => by cases h) ?_
    rintro ⟨past, event, rest, h, -⟩
    cases past <;> cases h

theorem getElem?_concat_eq_some {β : Type} {l : List β} {b c : β} :
    (l ++ [b])[i]? = some c ↔ l[i]? = some c ∨ l.length = i ∧ b = c := by
  rcases Nat.lt_trichotomy i l.length with hlt | rfl | hgt
  · rw [List.getElem?_append_left hlt]
    exact ⟨.inl, fun h => h.elim id fun h => absurd h.1 (Nat.ne_of_gt hlt)⟩
  · simp
  · have hlength : (l ++ [b]).length ≤ i := by
      rw [List.length_append]
      exact hgt
    rw [List.getElem?_eq_none hlength, List.getElem?_eq_none (Nat.le_of_lt hgt)]
    refine iff_of_false (fun h => by cases h) ?_
    rintro (h | ⟨h, -⟩)
    · cases h
    · exact absurd h (Nat.ne_of_lt hgt)

theorem callAt_eq_returned {cached : Option (Int × α)} {now : Int} :
    callAt fresh cached now = .returned value ↔ hit fresh cached now = some value := by
  unfold callAt
  cases hit fresh cached now with
  | none => exact iff_of_false (fun h => by cases h) (fun h => by cases h)
  | some kept => simp

theorem callAt_eq_asked {cached : Option (Int × α)} {now time : Int}
    (h : callAt fresh cached now = .asked time) : now = time := by
  unfold callAt at h
  split at h
  · cases h
  · exact Call.asked.inj h

theorem gives_get {now : Int} : Gives accept fresh past (.get now) i value ↔
    (times past).length = i ∧ hit fresh (lastAccepted accept past) now = some value := by
  simp only [Gives, reduceCtorEq, false_and, exists_false, false_or, Event.get.injEq, hit,
    Option.map_eq_some_iff, Option.filter_eq_some_iff]
  constructor
  · rintro ⟨_, time, rfl, hi, hkept, hfresh⟩
    exact ⟨hi, _, ⟨hkept, hfresh⟩, rfl⟩
  · rintro ⟨hi, ⟨time, _⟩, ⟨hkept, hfresh⟩, rfl⟩
    exact ⟨now, time, rfl, hi, hkept, hfresh⟩

theorem gives_answer {j : Nat} {reply : ρ} : Gives accept fresh past (.answer j reply) i value ↔
    j = i ∧ accept reply = .ok value := by
  simp only [Gives, Event.answer.injEq, reduceCtorEq, false_and, exists_false, or_false]
  constructor
  · rintro ⟨_, ⟨hj, rfl⟩, haccept⟩
    exact ⟨hj, haccept⟩
  · rintro ⟨hj, haccept⟩
    exact ⟨reply, ⟨hj, rfl⟩, haccept⟩

theorem owes_get {now : Int} (h : Owes accept fresh past s) :
    Owes accept fresh (past ++ [.get now])
      { s with calls := s.calls ++ [callAt fresh s.cached now] } where
  cached := by
    rw [lastAccepted_concat]
    exact h.cached
  length := by
    rw [times_concat, List.length_append, List.length_append, h.length]
    rfl
  asked i time hi := by
    rw [times_concat]
    refine getElem?_concat_eq_some.2 ?_
    rcases getElem?_concat_eq_some.1 hi with hi | ⟨hi, hcall⟩
    · exact .inl (h.asked i time hi)
    · exact .inr ⟨h.length ▸ hi, callAt_eq_asked hcall⟩
  returned i value := by
    rw [served_concat, ← h.returned, gives_get, ← h.length, ← h.cached, ← callAt_eq_returned]
    exact getElem?_concat_eq_some

theorem outcome_eq_returned {reply : ρ} :
    outcome accept reply = .returned value ↔ accept reply = .ok value := by
  unfold outcome
  cases accept reply with
  | error e => exact iff_of_false (fun h => by cases h) (fun h => by cases h)
  | ok value => simp

theorem outcome_ne_asked {reply : ρ} {time : Int} : outcome accept reply ≠ .asked time := by
  unfold outcome
  cases accept reply <;> exact fun h => by cases h

theorem owes_answer {reply : ρ} {time : Int} (h : Owes accept fresh past s)
    (hi : s.calls[i]? = some (.asked time)) :
    Owes accept fresh (past ++ [.answer i reply]) (answered accept s i time reply) := by
  have hlt : i < s.calls.length := (List.getElem?_eq_some_iff.1 hi).1
  have hset (j : Nat) : (s.calls.set i (outcome accept reply))[j]? =
      if i = j then some (outcome accept reply) else s.calls[j]? := by
    rw [List.getElem?_set, if_pos hlt]
  have htimes : times (past ++ [.answer i reply]) = times past := by
    rw [times_concat]
    exact List.append_nil _
  refine ⟨?_, ?_, fun j time' hj => ?_, fun j value' => ?_⟩
  · rw [lastAccepted_concat, Event.value?, h.asked i time hi, ← h.cached, answered]
    cases accept reply <;> rfl
  · rw [answered, List.length_set, htimes, h.length]
  · rw [htimes]
    rw [answered, hset] at hj
    split at hj
    · exact absurd (Option.some.inj hj) outcome_ne_asked
    · exact h.asked j time' hj
  · rw [served_concat, ← h.returned, gives_answer, answered, hset]
    by_cases hij : i = j
    · subst hij
      rw [if_pos rfl, hi, Option.some.injEq, Option.some.injEq, outcome_eq_returned]
      exact ⟨fun haccept => .inr ⟨rfl, haccept⟩, fun h => h.elim (fun h => by cases h) (·.2)⟩
    · rw [if_neg hij]
      exact ⟨.inl, fun h => h.elim id fun h => absurd h.1 hij⟩

theorem owes_step (h : Owes accept fresh past s) (hstep : step fresh accept s event = some s') :
    Owes accept fresh (past ++ [event]) s' := by
  cases event with
  | get now =>
    cases hstep
    exact owes_get h
  | answer i reply =>
    unfold step at hstep
    dsimp only at hstep
    split at hstep
    · next time hi =>
      cases hstep
      exact owes_answer h hi
    · cases hstep

theorem owes_run (h : run (step fresh accept) State.empty events = some s) :
    Owes accept fresh events s :=
  run_induction (I := Owes accept fresh) (fun _ _ _ _ => owes_step) owes_empty h

/-- **A call returns what it is served.** -/
theorem served_iff (h : run (step fresh accept) State.empty events = some s) :
    s.calls[i]? = some (.returned value) ↔ Served accept fresh events i value :=
  (owes_run h).returned i value

/-- What is among the accepted values was accepted. -/
theorem exists_of_mem_accepted {before : List Int} {kept : Int × α}
    (h : kept ∈ accepted accept before events) :
    ∃ i reply, Event.answer i reply ∈ events ∧ accept reply = .ok kept.2 := by
  induction events generalizing before with
  | nil => exact absurd h List.not_mem_nil
  | cons event events ih =>
    rcases List.mem_append.1 h with h | h
    · cases event with
      | get now => cases h
      | answer i reply =>
        simp only [Event.value?, Option.bind_eq_bind, Option.mem_toList, Option.bind_eq_some_iff,
          Option.pure_def, Option.some.injEq] at h
        obtain ⟨time, -, value, hvalue, rfl⟩ := h
        refine ⟨i, reply, List.mem_cons_self, ?_⟩
        cases hreply : accept reply with
        | error e =>
          rw [hreply] at hvalue
          cases hvalue
        | ok value =>
          rw [hreply] at hvalue
          cases hvalue
          rfl
    · obtain ⟨i, reply, hmem, hreply⟩ := ih h
      exact ⟨i, reply, List.mem_cons_of_mem _ hmem, hreply⟩

/-- **What a call is served was accepted.** -/
theorem exists_of_served (h : Served accept fresh events i value) :
    ∃ j reply, Event.answer j reply ∈ events ∧ accept reply = .ok value := by
  obtain ⟨past, event, rest, rfl, ⟨reply, rfl, hreply⟩ | ⟨now, time, -, -, hkept, -⟩⟩ := h
  · exact ⟨i, reply, List.mem_append_right _ List.mem_cons_self, hreply⟩
  · obtain ⟨j, reply, hmem, hreply⟩ := exists_of_mem_accepted (List.mem_of_getLast? hkept)
    exact ⟨j, reply, List.mem_append_left _ hmem, hreply⟩

end FermiSdk.Lib.RefreshCache
