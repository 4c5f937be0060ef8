import FermiSdk.JsString
import FermiSdk.Lib.AsyncQueue
import FermiSdk.Lib.Codec
import FermiSdk.Lib.Runs

/-!
# Stream subscriptions

`src/streams.ts`: the SSE parser, `sseSubscribe` and `subscribeTicks`.

A subscription is a machine whose events are the points at which its code runs: a promise of the
connection loop settles, a socket event is delivered, the caller calls `next`, `return` or `close`,
the caller's signal fires. Between two events the code runs to its next `await`, so the frames of
one chunk are handled in one event. An event that the code does not wait for is refused.

An abort of the controller only asks the connection to stop: until its promise rejects, a chunk that
was read already is still handled.
-/

namespace FermiSdk.Streams

open FermiSdk.Lib

/-- A text, which chunks may cut anywhere between two code units. -/
abbrev Text := JsString

/-- What the platform supplies: `TextDecoder` with `{ stream: true }`, and `JSON.parse`, which
throws (`none`) on texts that are not JSON. -/
structure Platform (J : Type) where
  TextDecoder : Type
  newTextDecoder : TextDecoder
  decode : TextDecoder → Bytes → Text × TextDecoder
  parseJson : Text → Option J

/-! ## Frames -/

/-- Parsed JSON if the data was JSON, otherwise the raw text. -/
inductive FrameData (J : Type) where
  | json (value : J)
  | text (raw : Text)
  deriving DecidableEq

/-- A frame as it is delivered, with its data as text too. -/
structure SseFrame (J : Type) where
  event : Text
  id : Option Text
  data : FrameData J
  raw : Text
  deriving DecidableEq

/-- The frame read so far, `cur`. -/
structure PartialFrame where
  event : Option Text
  id : Option Text
  data : List Text
  deriving DecidableEq

/-- No field was read. -/
def PartialFrame.empty : PartialFrame := ⟨none, none, []⟩

section Parser

variable {J : Type} (platform : Platform J)

/-- The text after the last line end, the frame so far, and the state of the decoder. -/
structure SseParser where
  buf : Text
  cur : PartialFrame
  decoder : platform.TextDecoder

/-- A parser at the start of a stream. -/
def SseParser.new : SseParser platform := ⟨[], .empty, platform.newTextDecoder⟩

/-- A chunk: bytes or text. -/
inductive Chunk where
  | bytes (bytes : Bytes)
  | text (text : Text)

/-- The lines that the loop takes off the buffer, and what stays in it. -/
def splitLines : Text → List Text × Text
  | [] => ([], [])
  | c :: rest =>
    if c = codeUnit '\n' then ([] :: (splitLines rest).1, (splitLines rest).2)
    else
      match splitLines rest with
      | ([], rest) => ([], c :: rest)
      | (line :: lines, rest) => ((c :: line) :: lines, rest)

/-- `line.replace(/\r$/, '')`. -/
def stripCr (line : Text) : Text := if line.getLast? = some (codeUnit '\r') then line.dropLast else line

/-- A field and its value: a single space after the colon is stripped. -/
def splitField (line : Text) : Text × Text :=
  match line.dropWhile (· ≠ codeUnit ':') with
  | [] => (line, [])
  | _ :: value =>
    (line.takeWhile (· ≠ codeUnit ':'),
      if value.head? = some (codeUnit ' ') then value.tail else value)

/-- The frame that a blank line ends, if it has any field. -/
def flush (cur : PartialFrame) : Option (SseFrame J) :=
  if cur.data = [] ∧ cur.event = none ∧ cur.id = none then none
  else
    let raw := [codeUnit '\n'].intercalate cur.data
    let parsed :=
      if raw.head? = some (codeUnit '{') ∨ raw.head? = some (codeUnit '[') then
        platform.parseJson raw
      else none
    some {
      event := cur.event.getD (.ofString "message")
      id := cur.id
      data := match parsed with | some value => .json value | none => .text raw
      raw }

/-- One turn of the loop: the frame read so far after a line, and the frame that the line ended. -/
def takeLine (cur : PartialFrame) (rawLine : Text) : PartialFrame × Option (SseFrame J) :=
  let line := stripCr rawLine
  if line = [] then
    match flush platform cur with
    | some frame => (.empty, some frame)
    | none => (cur, none)
  else if line.head? = some (codeUnit ':') then (cur, none)
  else
    let (field, value) := splitField line
    if field = .ofString "event" then ({ cur with event := some value }, none)
    else if field = .ofString "id" then ({ cur with id := some value }, none)
    else if field = .ofString "data" then ({ cur with data := cur.data ++ [value] }, none)
    else (cur, none)

/-- The lines of a chunk, one after another. -/
def takeLines (cur : PartialFrame) : List Text → PartialFrame × List (SseFrame J)
  | [] => (cur, [])
  | line :: lines =>
    let (cur, frame) := takeLine platform cur line
    let (cur, frames) := takeLines cur lines
    (cur, frame.toList ++ frames)

/-- The frames that a chunk completes. The rest of it is kept. -/
def SseParser.push (parser : SseParser platform) (chunk : Chunk) :
    SseParser platform × List (SseFrame J) :=
  let (text, decoder) :=
    match chunk with
    | .text text => (text, parser.decoder)
    | .bytes bytes => platform.decode parser.decoder bytes
  let (lines, buf) := splitLines (parser.buf ++ text)
  let (cur, frames) := takeLines platform parser.cur lines
  (⟨buf, cur, decoder⟩, frames)

end Parser

/-! ## Server-sent events -/

/-- `readRateLimitHeaders`. -/
structure RateLimitInfo where
  limit : Option JsNumber
  remaining : Option JsNumber
  retryAfter : Option JsNumber

/-- What `sseSubscribe` reads of a response. -/
structure Response where
  status : Nat
  hasBody : Bool
  rateLimit : RateLimitInfo

/-- `ok` of a response. -/
def Response.ok (response : Response) : Bool := 200 ≤ response.status && response.status ≤ 299

/-- An error of the connection loop; `other` is what `fetch` or `read` rejected with. -/
inductive SseError (E : Type) where
  | rateLimited (message : String) (info : RateLimitInfo) (body : String)
  | failed (message : String)
  | other (error : E)

/-- Where the connection loop waits. -/
inductive Pump {J : Type} (platform : Platform J) where
  | connecting
  /-- For the text of a response that is not a stream. -/
  | refused (response : Response)
  | reading (parser : SseParser platform)
  | ended

/-- A subscription, with the frames that wait and the callers that wait for frames. -/
structure SseState {J : Type} (platform : Platform J) (E : Type) where
  /-- `controller.signal.aborted`. -/
  aborted : Bool
  pump : Pump platform
  out : AsyncQueue (SseFrame J) (SseError E)

/-- The events of an SSE subscription. An error is `none` if JavaScript takes it for false. -/
inductive SseEvent (E : Type) where
  | responded (response : Response)
  | fetchFailed (error : Option E)
  | refusalRead (body : String)
  /-- `read` returns a chunk, or no value although it is not done. -/
  | chunk (value : Option Bytes)
  | streamEnded
  | readFailed (error : Option E)
  | signalAborted
  | close
  | returned
  | next

section Sse

variable {J E : Type} {platform : Platform J} (path : String)

/-- A subscription, whose signal may have been aborted before. -/
def sseSubscribe (platform : Platform J) (E : Type) (signalAborted : Bool) :
    SseState platform E where
  aborted := signalAborted
  pump := .connecting
  out := .empty

/-- The loop's `catch`: after an abort the stream ends without an error. -/
def SseState.catch (s : SseState platform E) (error : Option (SseError E)) : SseState platform E :=
  { s with pump := .ended, out := s.out.finish (if s.aborted then none else error) }

/-- `close()`, which `return()` does as well. -/
def SseState.close (s : SseState platform E) : SseState platform E :=
  { s with aborted := true, out := s.out.finish none }

/-- The error for a response that is not a stream. -/
def refusalError (response : Response) (body : String) : SseError E :=
  if response.status = 429 then
    .rateLimited s!"gateway rate limit hit on GET {path}" response.rateLimit body
  else .failed s!"SSE GET {path} failed: HTTP {response.status} {body}"

/-- What an event does, unless the code does not wait for it. -/
def SseState.step (s : SseState platform E) (event : SseEvent E) : Option (SseState platform E) :=
  match event, s.pump with
  | .responded response, .connecting =>
    if response.status = 429 ∨ ¬ response.ok ∨ ¬ response.hasBody then
      some { s with pump := .refused response }
    else some { s with pump := .reading (.new platform) }
  | .fetchFailed error, .connecting => some (s.catch (error.map .other))
  | .refusalRead body, .refused response => some (s.catch (some (refusalError path response body)))
  | .chunk none, .reading _ => some s
  | .chunk (some bytes), .reading parser =>
    let (parser, frames) := parser.push platform (.bytes bytes)
    some { s with pump := .reading parser, out := frames.foldl AsyncQueue.push s.out }
  | .streamEnded, .reading _ => some { s with pump := .ended, out := s.out.finish none }
  | .readFailed error, .reading _ => some (s.catch (error.map .other))
  | .signalAborted, _ => some { s with aborted := true }
  | .close, _ => some s.close
  | .returned, _ => some s.close
  | .next, _ => some { s with out := s.out.next }
  | _, _ => none

end Sse

/-! ## Ticks -/

/-- The events of a tick subscription. -/
inductive TickEvent where
  /-- The data of a message as text, if it has any. -/
  | message (raw : Option Text)
  | socketErrored
  | socketClosed
  | signalAborted
  | close
  | returned
  | next

section Ticks

variable {J : Type} (platform : Platform J)

/-- The message that a socket event carries. -/
def parseMessage (raw : Option Text) : Option J :=
  match raw with
  | none => none
  | some raw => if raw = [] then none else platform.parseJson raw

/-- A subscription, whose signal may have been aborted before. -/
def subscribeTicks (J : Type) (signalAborted : Bool) : AsyncQueue J String :=
  if signalAborted then AsyncQueue.empty.finish none else .empty

/-- The same for a socket. A message that is no JSON is dropped. -/
def tickStep (out : AsyncQueue J String) (event : TickEvent) : Option (AsyncQueue J String) :=
  match event with
  | .message raw =>
    match parseMessage platform raw with
    | some parsed => some (out.push parsed)
    | none => some out
  | .socketErrored => some (out.finish (some "ticks websocket errored"))
  | .socketClosed => some (out.finish none)
  | .signalAborted => some (out.finish none)
  | .close => some (out.finish none)
  | .returned => some (out.finish none)
  | .next => some out.next

end Ticks

end FermiSdk.Streams
