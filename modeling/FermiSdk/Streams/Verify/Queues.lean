import FermiSdk.Intents.Payload
import FermiSdk.Streams

/-!
# The subscriptions lose, duplicate and reorder nothing

The frames of a run are those that the parser returns for the chunks read (`sseFrames`), or the
messages that the socket carried (`tickMessages`). In any order of events a subscription pushes each
of them once, in order, and touches its queue otherwise only through `next` and `finish`
(`SseState.step_cases`), so that the queue stays lossless (`SseInv.lossless`).
-/

namespace FermiSdk.Streams

open FermiSdk.Lib AsyncQueue Occurrence

/-- The queue of a subscription, after the given frames were produced. -/
structure DeliversInOrder {α ε : Type} (frames : List α) (q : AsyncQueue α ε) : Prop where
  produced : arrivals q.log = frames
  delivered : deliveries q.log ++ q.queue = frames
  waiting : q.waiter.isSome → q.queue = [] ∧ q.done = false
  /-- An end is answered only when everything produced up to that moment was delivered. -/
  ends : ∀ past call answer, past ++ [.answered call answer] <+: q.log → answer.IsEnd →
    deliveries past = arrivals past

theorem DeliversInOrder.of_lossless {α ε : Type} {frames : List α} {q : AsyncQueue α ε}
    (h : q.Lossless) (hframes : arrivals q.log = frames) : DeliversInOrder frames q :=
  ⟨hframes, h.values.trans hframes, h.waiting, h.ends⟩

/-- A call or an end: what happens to a queue when nothing is produced. -/
inductive Quiet {α ε : Type} (q : AsyncQueue α ε) : AsyncQueue α ε → Prop where
  | same : Quiet q q
  | next : Quiet q q.next
  | finish (err : Option ε) : Quiet q (q.finish err)

theorem Quiet.lossless {α ε : Type} {q q' : AsyncQueue α ε} (h : Quiet q q') (hq : q.Lossless) :
    q'.Lossless ∧ arrivals q'.log = arrivals q.log := by
  cases h with
  | same => exact ⟨hq, rfl⟩
  | next => exact ⟨hq.next, arrivals_next q⟩
  | finish err => exact ⟨hq.finish err, arrivals_finish q err⟩

/-! ## Server-sent events -/

section Sse

variable {J E : Type} {platform : Platform J} {path : String}

/-- The bytes that an event hands to the parser. -/
def SseEvent.bytes : SseEvent E → Option Bytes
  | .chunk value => value
  | _ => none

/-- The parser after some chunks, and the frames that it returned. -/
def parseChunks (platform : Platform J) (chunks : List Bytes) :
    SseParser platform × List (SseFrame J) :=
  chunks.foldl
    (fun parsed bytes =>
      let (parser, frames) := parsed.1.push platform (.bytes bytes)
      (parser, parsed.2 ++ frames))
    (.new platform, [])

/-- The frames produced in a run. -/
def sseFrames (platform : Platform J) (events : List (SseEvent E)) : List (SseFrame J) :=
  (parseChunks platform (events.filterMap SseEvent.bytes)).2

theorem parseChunks_concat (chunks : List Bytes) (bytes : Bytes) :
    parseChunks platform (chunks ++ [bytes]) =
      (((parseChunks platform chunks).1.push platform (.bytes bytes)).1,
        (parseChunks platform chunks).2 ++
          ((parseChunks platform chunks).1.push platform (.bytes bytes)).2) := by
  rw [parseChunks, List.foldl_append]
  rfl

/-- The connection loop reads no further chunk. -/
def Pump.Stopped : Pump platform → Prop
  | .refused _ => True
  | .ended => True
  | _ => False

/-- What one event does: it hands a chunk to the parser, whose frames are pushed, or it opens the
stream, or it produces nothing. -/
inductive SseStep (s : SseState platform E) : Option Bytes → SseState platform E → Prop where
  | chunk {parser : SseParser platform} (bytes : Bytes) (h : s.pump = .reading parser) :
    SseStep s (some bytes) { s with
      pump := .reading (parser.push platform (.bytes bytes)).1
      out := (parser.push platform (.bytes bytes)).2.foldl AsyncQueue.push s.out }
  | opened (h : s.pump = .connecting) : SseStep s none { s with pump := .reading (.new platform) }
  | quiet (aborted : Bool) {pump : Pump platform} {out : AsyncQueue (SseFrame J) (SseError E)}
    (hpump : pump = s.pump ∨ pump.Stopped) (hout : Quiet s.out out) :
    SseStep s none ⟨aborted, pump, out⟩

theorem SseState.step_cases {s s' : SseState platform E} {event : SseEvent E}
    (h : s.step path event = some s') : SseStep s event.bytes s' := by
  obtain ⟨aborted, pump, out⟩ := s
  cases event with
  | responded response =>
    cases pump with
    | connecting =>
      simp only [SseState.step] at h
      split at h
      · cases h
        exact .quiet _ (.inr trivial) .same
      · cases h
        exact .opened rfl
    | _ => cases h
  | fetchFailed error =>
    cases pump with
    | connecting =>
      cases h
      exact .quiet _ (.inr trivial) (.finish _)
    | _ => cases h
  | refusalRead body =>
    cases pump with
    | refused response =>
      cases h
      exact .quiet _ (.inr trivial) (.finish _)
    | _ => cases h
  | chunk value =>
    cases pump with
    | reading parser =>
      cases value with
      | none =>
        cases h
        exact .quiet _ (.inl rfl) .same
      | some bytes =>
        cases h
        exact .chunk bytes rfl
    | _ => cases value <;> cases h
  | streamEnded =>
    cases pump with
    | reading parser =>
      cases h
      exact .quiet _ (.inr trivial) (.finish _)
    | _ => cases h
  | readFailed error =>
    cases pump with
    | reading parser =>
      cases h
      exact .quiet _ (.inr trivial) (.finish _)
    | _ => cases h
  | signalAborted =>
    cases h
    exact .quiet _ (.inl rfl) .same
  | close =>
    cases h
    exact .quiet _ (.inl rfl) (.finish _)
  | returned =>
    cases h
    exact .quiet _ (.inl rfl) (.finish _)
  | next =>
    cases h
    exact .quiet _ (.inl rfl) .next

/-- The parser of the loop has read the chunks of the run. -/
def ParserAt (chunks : List Bytes) : Pump platform → Prop
  | .connecting => chunks = []
  | .reading parser => parser = (parseChunks platform chunks).1
  | _ => True

theorem ParserAt.of_stopped {chunks : List Bytes} {pump : Pump platform} (h : pump.Stopped) :
    ParserAt chunks pump := by
  cases pump with
  | connecting => exact h.elim
  | reading parser => exact h.elim
  | refused response => trivial
  | ended => trivial

/-- What holds after a run: the loop has parsed the chunks, and the queue, without loss, has taken
in the frames. -/
structure SseInv (past : List (SseEvent E)) (s : SseState platform E) : Prop where
  parser : ParserAt (past.filterMap SseEvent.bytes) s.pump
  lossless : s.out.Lossless
  produced : arrivals s.out.log = sseFrames platform past

theorem SseInv.step {past : List (SseEvent E)} {s s' : SseState platform E} {event : SseEvent E}
    (h : SseInv past s) (hstep : s.step path event = some s') : SseInv (past ++ [event]) s' := by
  have hcases := SseState.step_cases hstep
  obtain ⟨hparser, hlossless, hproduced⟩ := h
  generalize hbytes : event.bytes = bytes at hcases
  have hpast : (past ++ [event]).filterMap SseEvent.bytes =
      past.filterMap SseEvent.bytes ++ bytes.toList := by
    rw [List.filterMap_append, ← hbytes]
    cases h : event.bytes <;> simp [h]
  cases hcases with
  | chunk bytes hpump =>
    rw [hpump] at hparser
    obtain rfl := hparser
    simp only [Option.toList_some] at hpast
    refine ⟨?_, hlossless.pushAll _, ?_⟩
    · rw [hpast]
      exact (congrArg Prod.fst (parseChunks_concat _ _)).symm
    · rw [arrivals_pushAll, hproduced, sseFrames, sseFrames, hpast, parseChunks_concat]
  | opened hpump =>
    simp only [Option.toList_none, List.append_nil] at hpast
    rw [hpump] at hparser
    refine ⟨?_, hlossless, ?_⟩
    · rw [hpast]
      exact (congrArg (fun chunks => (parseChunks platform chunks).1) hparser).symm
    · rw [hproduced, sseFrames, sseFrames, hpast]
  | quiet aborted hpump hout =>
    simp only [Option.toList_none, List.append_nil] at hpast
    obtain ⟨hlossless', harrivals⟩ := hout.lossless hlossless
    refine ⟨?_, hlossless', ?_⟩
    · rw [hpast]
      rcases hpump with rfl | hstopped
      · exact hparser
      · exact .of_stopped hstopped
    · rw [harrivals, hproduced, sseFrames, sseFrames, hpast]

theorem sse_delivers {signalAborted : Bool} {events : List (SseEvent E)} {s : SseState platform E}
    (h : run (SseState.step path) (sseSubscribe platform E signalAborted) events = some s) :
    DeliversInOrder (sseFrames platform events) s.out := by
  have hstart : SseInv [] (sseSubscribe platform E signalAborted) := ⟨rfl, lossless_empty, rfl⟩
  have hinv : SseInv events s := run_induction (fun _ _ _ _ hI hstep => hI.step hstep) hstart h
  exact .of_lossless hinv.lossless hinv.produced

end Sse

/-! ## Ticks -/

section Ticks

variable {J : Type} {platform : Platform J}

/-- The message that an event carries. -/
def TickEvent.parsed (platform : Platform J) : TickEvent → Option J
  | .message raw => parseMessage platform raw
  | _ => none

/-- The messages produced in a run. -/
def tickMessages (platform : Platform J) (events : List TickEvent) : List J :=
  events.filterMap (TickEvent.parsed platform)

theorem tickStep_cases {q q' : AsyncQueue J String} {event : TickEvent}
    (h : tickStep platform q event = some q') :
    (∃ parsed, event.parsed platform = some parsed ∧ q' = q.push parsed) ∨
      (event.parsed platform = none ∧ Quiet q q') := by
  cases event with
  | message raw =>
    rw [tickStep] at h
    rw [TickEvent.parsed]
    cases hparsed : parseMessage platform raw with
    | none =>
      simp only [hparsed] at h
      cases h
      exact .inr ⟨rfl, .same⟩
    | some parsed =>
      simp only [hparsed] at h
      cases h
      exact .inl ⟨parsed, rfl, rfl⟩
  | next =>
    cases h
    exact .inr ⟨rfl, .next⟩
  | _ =>
    cases h
    exact .inr ⟨rfl, .finish _⟩

theorem subscribeTicks_quiet (signalAborted : Bool) :
    Quiet .empty (subscribeTicks J signalAborted) := by
  cases signalAborted
  · exact .same
  · exact .finish none

theorem ticks_deliver {signalAborted : Bool} {events : List TickEvent} {q : AsyncQueue J String}
    (h : run (tickStep platform) (subscribeTicks J signalAborted) events = some q) :
    DeliversInOrder (tickMessages platform events) q := by
  have hinv : q.Lossless ∧ arrivals q.log = tickMessages platform events := by
    refine run_induction (I := fun past q => q.Lossless ∧ arrivals q.log = tickMessages platform past)
      ?_ ((subscribeTicks_quiet signalAborted).lossless lossless_empty) h
    intro past q event q' hI hstep
    obtain ⟨hlossless, hproduced⟩ := hI
    rw [tickMessages, List.filterMap_append, ← tickMessages, ← hproduced]
    rcases tickStep_cases hstep with ⟨parsed, hparsed, rfl⟩ | ⟨hnone, hquiet⟩
    · refine ⟨hlossless.push parsed, ?_⟩
      rw [arrivals_push]
      simp [hparsed]
    · obtain ⟨hlossless', harrivals⟩ := hquiet.lossless hlossless
      refine ⟨hlossless', ?_⟩
      rw [harrivals]
      simp [hnone]
  exact .of_lossless hinv.1 hinv.2

end Ticks

/-! ## Both -/

/-- **The subscriptions lose, duplicate and reorder nothing.** After any run of `sseSubscribe` or
`subscribeTicks`, what was delivered and then what is queued are the frames produced, in order; a
call waits only while nothing is queued and the stream has not finished; and an end is answered only
when every frame produced up to that moment was delivered. -/
theorem streams_deliver_in_order {J E : Type} (platform : Platform J) (path : String)
    (signalAborted : Bool) :
    (∀ (events : List (SseEvent E)) (s : SseState platform E),
      run (SseState.step path) (sseSubscribe platform E signalAborted) events = some s →
        DeliversInOrder (sseFrames platform events) s.out) ∧
    (∀ (events : List TickEvent) (q : AsyncQueue J String),
      run (tickStep platform) (subscribeTicks J signalAborted) events = some q →
        DeliversInOrder (tickMessages platform events) q) :=
  ⟨fun _ _ h => sse_delivers h, fun _ _ h => ticks_deliver h⟩

/-- A platform that knows ASCII and the JSON text `7`. -/
def asciiPlatform : Platform Nat where
  TextDecoder := Unit
  newTextDecoder := ()
  decode decoder bytes := (bytes.map fun b => UInt16.ofNat b.toNat, decoder)
  parseJson text := if text = .ofString "7" then some 7 else none

/-- Two overlapping calls, a frame cut over two chunks, and a frame that is read after `close`. -/
def overlappingRun : List (SseEvent Unit) := [
  .responded ⟨200, true, ⟨none, none, none⟩⟩, .next, .next,
  .chunk (some (Buffer.ofAscii "id: 1\ndata: a\n\ndata: ")), .close, .next,
  .chunk (some (Buffer.ofAscii "b\n\n")), .next]

theorem streams_deliver_in_order_overlapping :
    ∃ s, run (SseState.step "/s") (sseSubscribe asciiPlatform Unit false) overlappingRun = some s ∧
      DeliversInOrder (sseFrames asciiPlatform overlappingRun) s.out :=
  ⟨_, rfl, (streams_deliver_in_order asciiPlatform "/s" false).1 overlappingRun _ rfl⟩

end FermiSdk.Streams
