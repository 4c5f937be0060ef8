import FermiSdk.Streams.Verify.Queues

/-!
# When an ended subscription stays ended

`next` looks at the queue before it looks at `done`, and the handlers that produce frames do not look
at `done` at all. So a chunk or a message that is handled after `close` is still delivered. As long
as none is handled after a call was told that the stream finished, no call gets a frame from then on;
and if one is, the next call gets it (`ended_subscription_stays_ended`).
-/

namespace FermiSdk.Streams

open FermiSdk.Lib AsyncQueue Occurrence

theorem Quiet.settled {α ε : Type} {q q' : AsyncQueue α ε} (h : Quiet q q') (hq : q.Settled) :
    q'.Settled := by
  cases h with
  | same => exact hq
  | next => exact hq.next
  | finish err => exact hq.finish err

theorem Quiet.late {α ε : Type} {q q' : AsyncQueue α ε} (h : Quiet q q') (hq : q.Late) :
    q'.Late := by
  cases h with
  | same => exact hq
  | next => exact hq.next
  | finish err => exact hq.finish err

/-! ## Server-sent events -/

section Sse

variable {J E : Type} {platform : Platform J} {path : String} {s s' : SseState platform E}
  {event : SseEvent E}

/-- The frames that an event produces. -/
def SseState.framesOf (s : SseState platform E) (event : SseEvent E) : List (SseFrame J) :=
  match s.pump, event.bytes with
  | .reading parser, some bytes => (parser.push platform (.bytes bytes)).2
  | _, _ => []

/-- After a call was told that the stream finished, the event produces no frame. -/
def SseState.NoLateFrame (s : SseState platform E) (event : SseEvent E) : Prop :=
  endReported s.out.log = true → s.framesOf event = []

instance : Decidable (s.NoLateFrame event) := inferInstanceAs (Decidable (_ → _))

/-- The queue takes in the frames of an event, or is only called or ended. -/
theorem SseState.step_out (h : s.step path event = some s') :
    s'.out = (s.framesOf event).foldl AsyncQueue.push s.out ∨
      (s.framesOf event = [] ∧ Quiet s.out s'.out) := by
  have hcases := step_cases h
  unfold framesOf
  generalize event.bytes = bytes at hcases
  cases hcases with
  | chunk bytes hpump =>
    left
    rw [hpump]
  | opened hpump =>
    right
    rw [hpump]
    exact ⟨rfl, .same⟩
  | quiet aborted hpump hout =>
    right
    refine ⟨?_, hout⟩
    split
    · next heq => cases heq
    · rfl

theorem SseState.settled_step (hs : s.out.Settled) (hevent : s.NoLateFrame event)
    (h : s.step path event = some s') : s'.out.Settled := by
  rcases step_out h with hout | ⟨-, hquiet⟩
  · rw [hout]
    refine hs.pushAll fun hne => ?_
    rw [← Bool.not_eq_true]
    exact fun hended => hne (hevent hended)
  · exact hquiet.settled hs

theorem SseState.late_step (hs : s.out.Late) (h : s.step path event = some s') :
    s'.out.Late := by
  rcases step_out h with hout | ⟨-, hquiet⟩
  · rw [hout]
    exact hs.pushAll _
  · exact hquiet.late hs

theorem SseState.late_of_step (hevent : ¬ s.NoLateFrame event)
    (h : s.step path event = some s') : s'.out.Late := by
  obtain ⟨hended, hne⟩ := Classical.not_imp.1 hevent
  rcases step_out h with hout | ⟨hnil, -⟩
  · rw [hout]
    exact .of_pushAll hended hne
  · exact absurd hnil hne

end Sse

/-! ## Ticks -/

section Ticks

variable {J : Type} {platform : Platform J} {q q' : AsyncQueue J String} {event : TickEvent}

variable (platform) in
/-- After a call was told that the stream finished, the event carries no message. -/
def NoLateMessage (q : AsyncQueue J String) (event : TickEvent) : Prop :=
  endReported q.log = true → event.parsed platform = none

theorem settled_tickStep (hq : q.Settled) (hevent : NoLateMessage platform q event)
    (h : tickStep platform q event = some q') : q'.Settled := by
  rcases tickStep_cases h with ⟨parsed, hparsed, rfl⟩ | ⟨-, hquiet⟩
  · refine hq.push ?_ parsed
    rw [← Bool.not_eq_true]
    intro hended
    rw [hevent hended] at hparsed
    cases hparsed
  · exact hquiet.settled hq

theorem late_tickStep (hq : q.Late) (h : tickStep platform q event = some q') : q'.Late := by
  rcases tickStep_cases h with ⟨parsed, -, rfl⟩ | ⟨-, hquiet⟩
  · exact hq.push parsed
  · exact hquiet.late hq

theorem late_of_tickStep (hevent : ¬ NoLateMessage platform q event)
    (h : tickStep platform q event = some q') : q'.Late := by
  obtain ⟨hended, hne⟩ := Classical.not_imp.1 hevent
  rcases tickStep_cases h with ⟨parsed, -, rfl⟩ | ⟨hnone, -⟩
  · exact .of_push hended parsed
  · exact absurd hnone hne

end Ticks

/-! ## Both -/

/-- **An ended subscription stays ended as long as no frame arrives late.** In a run in which no
event produces a frame after a call was told that the stream finished, no frame was delivered after
that; in any other run one was, or the next call gets one. -/
theorem ended_subscription_stays_ended {J E : Type} (platform : Platform J) (path : String)
    (signalAborted : Bool) :
    (∀ (events : List (SseEvent E)) (s : SseState platform E),
      run (SseState.step path) (sseSubscribe platform E signalAborted) events = some s →
      (Along (SseState.step path) SseState.NoLateFrame (sseSubscribe platform E signalAborted)
          events → lateDeliveries s.out.log = []) ∧
        (¬ Along (SseState.step path) SseState.NoLateFrame
          (sseSubscribe platform E signalAborted) events → lateDeliveries s.out.next.log ≠ [])) ∧
    (∀ (events : List TickEvent) (q : AsyncQueue J String),
      run (tickStep platform) (subscribeTicks J signalAborted) events = some q →
      (Along (tickStep platform) (NoLateMessage platform) (subscribeTicks J signalAborted) events →
          lateDeliveries q.log = []) ∧
        (¬ Along (tickStep platform) (NoLateMessage platform) (subscribeTicks J signalAborted)
          events → lateDeliveries q.next.log ≠ [])) := by
  refine ⟨fun events s h => ⟨fun halong => ?_, fun hnot => ?_⟩,
    fun events q h => ⟨fun halong => ?_, fun hnot => ?_⟩⟩
  · have hsettled : s.out.Settled := Along.induction (I := fun _ s => s.out.Settled)
      (fun _ _ _ _ hs hevent hstep => SseState.settled_step hs hevent hstep) settled_empty halong h
    exact hsettled.noneLate
  · have hlate : s.out.Late := run_of_not_along (L := fun s => s.out.Late)
      (fun _ _ _ => SseState.late_of_step) (fun _ _ _ => SseState.late_step) hnot h
    exact hlate.delivered
  · have hstart : (subscribeTicks J signalAborted).Settled :=
      (subscribeTicks_quiet signalAborted).settled settled_empty
    have hsettled : q.Settled := Along.induction (I := fun _ q => q.Settled)
      (fun _ _ _ _ hq hevent hstep => settled_tickStep hq hevent hstep) hstart halong h
    exact hsettled.noneLate
  · have hlate : q.Late := run_of_not_along (L := Late)
      (fun _ _ _ => late_of_tickStep) (fun _ _ _ => late_tickStep) hnot h
    exact hlate.delivered

/-- A call waits, `close` tells it that the stream finished, a chunk that was read before is handled,
and the next call gets its frame. -/
def lateRun : List (SseEvent Unit) := [
  .responded ⟨200, true, ⟨none, none, none⟩⟩, .next, .close,
  .chunk (some (Buffer.ofAscii "data: a\n\n")), .next]

def lateTickRun : List TickEvent := [.next, .close, .message (some (.ofString "7")), .next]

theorem ended_subscription_delivers_late :
    (∃ s, run (SseState.step "/s") (sseSubscribe asciiPlatform Unit false) lateRun = some s ∧
      lateDeliveries s.out.log =
        [⟨.ofString "message", none, .text (.ofString "a"), .ofString "a"⟩]) ∧
    (∃ q, run (tickStep asciiPlatform) (subscribeTicks Nat false) lateTickRun = some q ∧
      lateDeliveries q.log = [7]) :=
  ⟨⟨_, rfl, by decide⟩, ⟨_, rfl, by decide⟩⟩

/-- A frame that is queued when `close` is called is delivered, and then the end is reported. -/
def punctualRun : List (SseEvent Unit) := [
  .responded ⟨200, true, ⟨none, none, none⟩⟩,
  .chunk (some (Buffer.ofAscii "data: a\n\n")), .close, .next, .next]

theorem ended_subscription_stays_ended_punctual :
    ∃ s, run (SseState.step "/s") (sseSubscribe asciiPlatform Unit false) punctualRun = some s ∧
      lateDeliveries s.out.log = [] := by
  have halong : Along (SseState.step "/s") SseState.NoLateFrame
      (sseSubscribe asciiPlatform Unit false) punctualRun := by decide
  refine ⟨_, rfl, ?_⟩
  exact ((ended_subscription_stays_ended asciiPlatform "/s" false).1 punctualRun _ rfl).1 halong

end FermiSdk.Streams
