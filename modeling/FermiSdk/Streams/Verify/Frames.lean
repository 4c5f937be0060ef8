import FermiSdk.Lib.Chunks
import FermiSdk.Streams.Verify.Queues

/-!
# The SSE parser reads what was written, wherever the stream is cut

The buffer holds the part of a line that is still open, so that the lines of `a ++ b` are those of
`a` and then those of `b` behind the open part (`splitLines_append`). Hence pushing two chunks is
pushing their concatenation (`pushText_cutsFreely`), and the same holds of bytes if the decoder
streams (`Streaming`).

A frame is written as its field lines in any order, among comments, and ended by a blank line
(`Serialised`). The parser reads each line as what it was written for (`takeLine_line`), the lines
of a frame as its fields (`takeLines_fields`), and the blank line as the frame (`Recovers`).
-/

namespace FermiSdk.Streams

open FermiSdk.Lib

variable {J : Type} {platform : Platform J}

/-! ## Lines -/

/-- The open part of a line in front of a text becomes part of its first line. -/
theorem splitLines_append (a b : Text) :
    splitLines (a ++ b) =
      ((splitLines a).1 ++ (splitLines ((splitLines a).2 ++ b)).1,
        (splitLines ((splitLines a).2 ++ b)).2) := by
  induction a with
  | nil => rfl
  | cons c rest ih =>
    rw [List.cons_append, splitLines, splitLines]
    by_cases hc : c = codeUnit '\n'
    · simp only [if_pos hc, ih, List.cons_append]
    · simp only [if_neg hc, ih]
      cases splitLines rest with
      | mk lines tail =>
        cases lines with
        | nil =>
          simp only [List.nil_append, List.cons_append, splitLines, if_neg hc]
        | cons line lines => rfl

/-- Without a line end there is no line. -/
theorem splitLines_of_open {text : Text} (h : codeUnit '\n' ∉ text) :
    splitLines text = ([], text) := by
  induction text with
  | nil => rfl
  | cons c rest ih =>
    rw [List.mem_cons, not_or] at h
    rw [splitLines, if_neg (Ne.symm h.1), ih h.2]

/-- What stays in the buffer is open. -/
theorem splitLines_open (text : Text) : codeUnit '\n' ∉ (splitLines text).2 := by
  induction text with
  | nil => exact List.not_mem_nil
  | cons c rest ih =>
    rw [splitLines]
    by_cases hc : c = codeUnit '\n'
    · rw [if_pos hc]
      exact ih
    · rw [if_neg hc]
      cases hrest : splitLines rest with
      | mk lines tail =>
        rw [hrest] at ih
        cases lines with
        | nil => exact fun hmem => (List.mem_cons.1 hmem).elim (Ne.symm hc) ih
        | cons line lines => exact ih

theorem takeLines_append (cur : PartialFrame) (lines others : List Text) :
    takeLines platform cur (lines ++ others) =
      ((takeLines platform (takeLines platform cur lines).1 others).1,
        (takeLines platform cur lines).2 ++
          (takeLines platform (takeLines platform cur lines).1 others).2) := by
  induction lines generalizing cur with
  | nil => rfl
  | cons line lines ih =>
    simp only [List.cons_append, takeLines, ih, List.append_assoc]

/-! ## Chunks -/

variable (platform) in
/-- `push` of a string. -/
def pushText (parser : SseParser platform) (text : Text) :
    SseParser platform × List (SseFrame J) :=
  parser.push platform (.text text)

variable (platform) in
/-- `push` of bytes. -/
def pushBytes (parser : SseParser platform) (bytes : Bytes) :
    SseParser platform × List (SseFrame J) :=
  parser.push platform (.bytes bytes)

/-- A decoder that streams: it decodes the concatenation of its inputs, and no input as no text. -/
structure Streaming (platform : Platform J) : Prop where
  decode_nil : ∀ decoder, platform.decode decoder [] = ([], decoder)
  decode_append : ∀ decoder a b, platform.decode decoder (a ++ b) =
    ((platform.decode decoder a).1 ++ (platform.decode (platform.decode decoder a).2 b).1,
      (platform.decode (platform.decode decoder a).2 b).2)

/-- Pushing two texts is pushing their concatenation. -/
theorem pushText_cutsFreely : CutsFreely (pushText platform) := by
  intro parser a b
  simp only [pushText, SseParser.push]
  rw [← List.append_assoc, splitLines_append, takeLines_append]

/-- Bytes are pushed as the text that the decoder makes of them. -/
theorem pushBytes_eq (parser : SseParser platform) (bytes : Bytes) :
    pushBytes platform parser bytes =
      pushText platform { parser with decoder := (platform.decode parser.decoder bytes).2 }
        (platform.decode parser.decoder bytes).1 := rfl

/-- A decoder is only handed on when texts are pushed. -/
theorem pushText_decoder (parser : SseParser platform) (text : Text)
    (decoder : platform.TextDecoder) :
    pushText platform { parser with decoder } text =
      ({ (pushText platform parser text).1 with decoder }, (pushText platform parser text).2) := rfl

theorem pushBytes_cutsFreely (h : Streaming platform) : CutsFreely (pushBytes platform) := by
  intro parser a b
  simp only [pushBytes_eq, h.decode_append, pushText_decoder]
  rw [pushText_cutsFreely]

/-- Before the next chunk a parser keeps no line end. -/
def SseParser.Open (parser : SseParser platform) : Prop := codeUnit '\n' ∉ parser.buf

theorem SseParser.open_new : (SseParser.new platform).Open := List.not_mem_nil

theorem SseParser.open_push (parser : SseParser platform) (chunk : Chunk) :
    (parser.push platform chunk).1.Open := splitLines_open _

theorem pushText_nil {parser : SseParser platform} (h : parser.Open) :
    pushText platform parser [] = (parser, []) := by
  simp only [pushText, SseParser.push, List.append_nil, splitLines_of_open h, takeLines]

theorem pushBytes_nil (hstream : Streaming platform) {parser : SseParser platform}
    (h : parser.Open) : pushBytes platform parser [] = (parser, []) := by
  rw [pushBytes_eq, hstream.decode_nil]
  exact pushText_nil h

variable (platform) in
/-- A parser after some chunks. -/
def SseParser.Reached (parser : SseParser platform) : Prop :=
  ∃ chunks, (feed (SseParser.push platform) (.new platform) chunks).1 = parser

theorem SseParser.Reached.open {parser : SseParser platform} (h : parser.Reached platform) :
    parser.Open := by
  obtain ⟨chunks, rfl⟩ := h
  exact feed_induction (fun parser chunk _ => parser.open_push chunk) SseParser.open_new chunks

/-- **Parsing does not depend on the cuts.** From any state two chunks are pushed as their
concatenation, so that two ways of cutting a text give the same frames and the same state; in a
state that a parser reaches, also if one of them has no chunk at all. The same holds of bytes if the
decoder streams. -/
theorem push_independent_of_cuts {J : Type} (platform : Platform J) :
    (∀ (parser : SseParser platform) (a b : Text),
      feed (pushText platform) parser [a, b] = pushText platform parser (a ++ b)) ∧
    (∀ (parser : SseParser platform) (cuts cuts' : List Text),
      cuts.flatten = cuts'.flatten → (cuts ≠ [] ∧ cuts' ≠ []) ∨ parser.Reached platform →
      feed (pushText platform) parser cuts = feed (pushText platform) parser cuts') ∧
    (Streaming platform → ∀ (parser : SseParser platform) (cuts cuts' : List Bytes),
      cuts.flatten = cuts'.flatten → (cuts ≠ [] ∧ cuts' ≠ []) ∨ parser.Reached platform →
      feed (pushBytes platform) parser cuts = feed (pushBytes platform) parser cuts') := by
  refine ⟨?_, ?_, ?_⟩
  · intro parser a b
    rw [feed_eq_push pushText_cutsFreely (List.cons_ne_nil _ _)]
    simp
  · intro parser cuts cuts' heq hcuts
    rcases hcuts with ⟨hcuts, hcuts'⟩ | hreached
    · exact feed_eq_of_flatten pushText_cutsFreely hcuts hcuts' heq
    · have hnil := pushText_nil hreached.open
      rw [feed_eq_push_of_nil pushText_cutsFreely hnil,
        feed_eq_push_of_nil pushText_cutsFreely hnil, heq]
  · intro hstream parser cuts cuts' heq hcuts
    have hfree := pushBytes_cutsFreely hstream
    rcases hcuts with ⟨hcuts, hcuts'⟩ | hreached
    · exact feed_eq_of_flatten hfree hcuts hcuts' heq
    · have hnil := pushBytes_nil hstream hreached.open
      rw [feed_eq_push_of_nil hfree hnil, feed_eq_push_of_nil hfree hnil, heq]

theorem asciiPlatform_streaming : Streaming asciiPlatform where
  decode_nil _ := rfl
  decode_append _ _ _ := by
    simp only [asciiPlatform, List.map_append]

/-- A stream cut inside a field name, after the colon, and between CR and LF. -/
theorem push_independent_of_cuts_ascii :
    feed (pushBytes asciiPlatform) (.new asciiPlatform)
        (["id", ":", " 7\ndata:", " a\r", "\n\r\n"].map Buffer.ofAscii) =
      feed (pushBytes asciiPlatform) (.new asciiPlatform)
        (["id: 7\nda", "ta: a", "\r\n\r", "\n"].map Buffer.ofAscii) :=
  (push_independent_of_cuts asciiPlatform).2.2 asciiPlatform_streaming _ _ _ (by decide)
    (.inr ⟨[], rfl⟩)

/-! ## What is written -/

/-- A line of a stream, without its end. -/
inductive Line where
  | event (value : Text)
  | id (value : Text)
  | data (value : Text)
  | comment (text : Text)
  | blank

/-- The ends of lines. -/
inductive LineEnd where
  | lf
  | crlf

namespace Line

def text : Line → Text
  | .event value => .ofString "event: " ++ value
  | .id value => .ofString "id: " ++ value
  | .data value => .ofString "data: " ++ value
  | .comment text => codeUnit ':' :: text
  | .blank => []

/-- What is written in the line. -/
def content : Line → Text
  | .event value => value
  | .id value => value
  | .data value => value
  | .comment text => text
  | .blank => []

def event? : Line → Option Text
  | .event value => some value
  | _ => none

def id? : Line → Option Text
  | .id value => some value
  | _ => none

def data? : Line → Option Text
  | .data value => some value
  | _ => none

def isComment : Line → Bool
  | .comment _ => true
  | _ => false

/-- No LF stands inside the line, and a CR only in a comment. -/
def Fits (line : Line) : Prop :=
  codeUnit '\n' ∉ line.content ∧ (line.isComment = true ∨ codeUnit '\r' ∉ line.content)

instance : DecidablePred Fits := fun _ => inferInstanceAs (Decidable (_ ∧ _))

end Line

/-- The lines of a frame, comments among them: its fields in any order, the lines of its data in
theirs. -/
structure Fields (frame : PartialFrame) (lines : List Line) : Prop where
  nonempty : frame ≠ .empty
  no_blank : .blank ∉ lines
  event : lines.filterMap Line.event? = frame.event.toList
  id : lines.filterMap Line.id? = frame.id.toList
  data : lines.filterMap Line.data? = frame.data

/-- Frames as lines: each frame is ended by a blank line, and there may be more of these and
comments between frames. -/
inductive Serialised : List PartialFrame → List Line → Prop where
  | done : Serialised [] []
  | comment {frames : List PartialFrame} {lines : List Line} (text : Text)
      (h : Serialised frames lines) : Serialised frames (.comment text :: lines)
  | blank {frames : List PartialFrame} {lines : List Line}
      (h : Serialised frames lines) : Serialised frames (.blank :: lines)
  | frame {frame : PartialFrame} {frames : List PartialFrame} {fields lines : List Line}
      (hfields : Fields frame fields) (h : Serialised frames lines) :
      Serialised (frame :: frames) (fields ++ .blank :: lines)

def LineEnd.text : LineEnd → Text
  | .lf => [codeUnit '\n']
  | .crlf => [codeUnit '\r', codeUnit '\n']

/-- Lines with their ends. -/
def writeLines (lines : List (Line × LineEnd)) : Text :=
  lines.flatMap fun line => line.1.text ++ line.2.text

/-- The data of a frame as one text. -/
def PartialFrame.raw (frame : PartialFrame) : Text := [codeUnit '\n'].intercalate frame.data

/-- The text looks like a JSON object or array. -/
def OpensJson (raw : Text) : Prop :=
  raw.head? = some (codeUnit '{') ∨ raw.head? = some (codeUnit '[')

variable (platform) in
/-- What is read of a frame that was written. -/
structure Recovers (frame : PartialFrame) (read : SseFrame J) : Prop where
  event : read.event = frame.event.getD (.ofString "message")
  id : read.id = frame.id
  raw : read.raw = frame.raw
  json : ∀ value, OpensJson frame.raw → platform.parseJson frame.raw = some value →
    read.data = .json value
  text : ¬ OpensJson frame.raw ∨ platform.parseJson frame.raw = none →
    read.data = .text frame.raw

/-! ## Reading a line -/

/-- The line that the loop sees: without the LF. -/
def rawLine (line : Line × LineEnd) : Text :=
  match line.2 with
  | .lf => line.1.text
  | .crlf => line.1.text ++ [codeUnit '\r']

theorem writeLine_eq (line : Line × LineEnd) :
    line.1.text ++ line.2.text = rawLine line ++ [codeUnit '\n'] := by
  obtain ⟨line, lineEnd⟩ := line
  cases lineEnd with
  | lf => rfl
  | crlf => simp [LineEnd.text, rawLine]

/-- The CR of a line end is stripped, and no other. -/
theorem stripCr_rawLine {line : Line} (h : codeUnit '\r' ∉ line.text) (lineEnd : LineEnd) :
    stripCr (rawLine (line, lineEnd)) = line.text := by
  unfold stripCr
  cases lineEnd with
  | lf =>
    have hlast : line.text.getLast? ≠ some (codeUnit '\r') :=
      fun heq => h (List.mem_of_getLast? heq)
    exact if_neg hlast
  | crlf => simp [rawLine]

/-- A field is read off the line that was written for it. -/
theorem splitField_append {name : Text} (value : Text) (h : codeUnit ':' ∉ name) :
    splitField (name ++ codeUnit ':' :: codeUnit ' ' :: value) = (name, value) := by
  have hname : ∀ c ∈ name, decide (c ≠ codeUnit ':') = true := by
    intro c hc
    rw [decide_eq_true_iff]
    exact fun heq => h (heq ▸ hc)
  unfold splitField
  rw [List.dropWhile_append_of_pos hname, List.takeWhile_append_of_pos hname]
  simp [List.takeWhile]

/-- A field is added to the frame by its name. -/
theorem takeLine_field (name : Text) {rawLine value : Text} (cur : PartialFrame) (hname : name ≠ [])
    (hcolon : codeUnit ':' ∉ name)
    (hstrip : stripCr rawLine = name ++ codeUnit ':' :: codeUnit ' ' :: value) :
    takeLine platform cur rawLine =
      if name = .ofString "event" then ({ cur with event := some value }, none)
      else if name = .ofString "id" then ({ cur with id := some value }, none)
      else if name = .ofString "data" then ({ cur with data := cur.data ++ [value] }, none)
      else (cur, none) := by
  obtain ⟨c, rest, rfl⟩ := List.exists_cons_of_ne_nil hname
  have hc : c ≠ codeUnit ':' := fun heq => hcolon (heq ▸ List.mem_cons_self)
  have hsplit := splitField_append value hcolon
  unfold takeLine
  rw [hstrip]
  simp only [List.cons_append] at hsplit ⊢
  simp only [List.head?_cons, reduceCtorEq, if_false, Option.some.injEq, hc, hsplit]

/-- The frame read so far after a line that ends no frame. -/
def PartialFrame.add (cur : PartialFrame) : Line → PartialFrame
  | .event value => { cur with event := some value }
  | .id value => { cur with id := some value }
  | .data value => { cur with data := cur.data ++ [value] }
  | .comment _ => cur
  | .blank => cur

/-- A line end stands in a line only where it was written. -/
theorem Line.not_mem_text {line : Line} {c : UInt16} (hc : c = codeUnit '\r' ∨ c = codeUnit '\n')
    (h : c ∉ line.content) : c ∉ line.text := by
  cases line with
  | blank => exact h
  | comment text =>
    have hcolon : c ≠ codeUnit ':' := by rcases hc with rfl | rfl <;> decide
    exact List.not_mem_cons_of_ne_of_not_mem hcolon h
  | event value =>
    have hname : c ∉ JsString.ofString "event: " := by rcases hc with rfl | rfl <;> decide
    exact fun hmem => (List.mem_append.1 hmem).elim hname h
  | id value =>
    have hname : c ∉ JsString.ofString "id: " := by rcases hc with rfl | rfl <;> decide
    exact fun hmem => (List.mem_append.1 hmem).elim hname h
  | data value =>
    have hname : c ∉ JsString.ofString "data: " := by rcases hc with rfl | rfl <;> decide
    exact fun hmem => (List.mem_append.1 hmem).elim hname h

/-- A comment stays a comment when a CR is stripped. -/
theorem stripCr_comment (text : Text) :
    (stripCr (codeUnit ':' :: text)).head? = some (codeUnit ':') := by
  cases text with
  | nil => rfl
  | cons c text =>
    unfold stripCr
    split <;> rfl

theorem takeLine_comment {rawLine : Text} (cur : PartialFrame)
    (h : (stripCr rawLine).head? = some (codeUnit ':')) :
    takeLine platform cur rawLine = (cur, none) := by
  have hne : stripCr rawLine ≠ [] := by
    intro hnil
    rw [hnil] at h
    cases h
  unfold takeLine
  simp only [if_neg hne, if_pos h]

variable (platform) in
/-- A line that is not blank is read as what it was written for. -/
theorem takeLine_line {line : Line} (hfits : line.Fits) (hline : line ≠ .blank)
    (lineEnd : LineEnd) (cur : PartialFrame) :
    takeLine platform cur (rawLine (line, lineEnd)) = (cur.add line, none) := by
  have hstrip (hline : line.isComment = false) :
      stripCr (rawLine (line, lineEnd)) = line.text := by
    rcases hfits.2 with hcomment | hcr
    · exact absurd hcomment (by simp [hline])
    · exact stripCr_rawLine (Line.not_mem_text (.inl rfl) hcr) lineEnd
  cases line with
  | event value =>
    exact takeLine_field (.ofString "event") cur (by decide) (by decide) (hstrip rfl)
  | id value =>
    exact takeLine_field (.ofString "id") cur (by decide) (by decide) (hstrip rfl)
  | data value =>
    exact takeLine_field (.ofString "data") cur (by decide) (by decide) (hstrip rfl)
  | comment text => cases lineEnd <;> exact takeLine_comment cur (stripCr_comment _)
  | blank => exact absurd rfl hline

theorem stripCr_blank (lineEnd : LineEnd) : stripCr (rawLine (.blank, lineEnd)) = [] := by
  cases lineEnd <;> rfl

/-- A blank line where no field was read does nothing. -/
theorem takeLine_blank_empty (lineEnd : LineEnd) :
    takeLine platform .empty (rawLine (.blank, lineEnd)) = (.empty, none) := by
  unfold takeLine
  rw [stripCr_blank]
  rfl

variable (platform) in
/-- A blank line ends a frame that has a field. -/
theorem takeLine_blank {cur : PartialFrame} (h : cur ≠ .empty) (lineEnd : LineEnd) :
    ∃ read, takeLine platform cur (rawLine (.blank, lineEnd)) = (.empty, some read) ∧
      Recovers platform cur read := by
  have hsome : ¬ (cur.data = [] ∧ cur.event = none ∧ cur.id = none) := by
    intro ⟨hdata, hevent, hid⟩
    obtain ⟨event, id, data⟩ := cur
    cases hdata
    cases hevent
    cases hid
    exact h rfl
  unfold takeLine
  rw [stripCr_blank, flush, if_neg hsome]
  refine ⟨_, rfl, rfl, rfl, rfl, ?_, ?_⟩
  · intro value hopens hparsed
    unfold OpensJson PartialFrame.raw at hopens
    unfold PartialFrame.raw at hparsed
    simp only [if_pos hopens, hparsed]
  · intro hnot
    unfold OpensJson PartialFrame.raw at hnot
    simp only [PartialFrame.raw]
    rcases hnot with hnot | hnone
    · rw [if_neg hnot]
    · rw [hnone, ite_self]

/-! ## Reading frames -/

/-- The fields read so far after the lines of a frame. -/
def PartialFrame.addAll (cur : PartialFrame) (lines : List Line) : PartialFrame where
  event := (lines.filterMap Line.event?).getLast?.or cur.event
  id := (lines.filterMap Line.id?).getLast?.or cur.id
  data := cur.data ++ lines.filterMap Line.data?

theorem PartialFrame.addAll_cons (cur : PartialFrame) (line : Line) (lines : List Line) :
    cur.addAll (line :: lines) = (cur.add line).addAll lines := by
  have hlast (value : Text) (values : List Text) (before : Option Text) :
      (value :: values).getLast?.or before = values.getLast?.or (some value) := by
    rw [List.getLast?_cons]
    cases values.getLast? <;> rfl
  cases line <;> simp [addAll, add, List.filterMap_cons, Line.event?, Line.id?, Line.data?, hlast]

/-- A line that ends no frame. -/
theorem takeLines_cons {cur cur' : PartialFrame} {line : Text} (lines : List Text)
    (h : takeLine platform cur line = (cur', none)) :
    takeLines platform cur (line :: lines) = takeLines platform cur' lines := by
  rw [takeLines, h]
  rfl

variable (platform) in
/-- The lines of a frame add its fields and end no frame. -/
theorem takeLines_fields {written : List (Line × LineEnd)} (hfits : ∀ line ∈ written, line.1.Fits)
    (hblank : .blank ∉ written.map Prod.fst) (cur : PartialFrame) :
    takeLines platform cur (written.map rawLine) = (cur.addAll (written.map Prod.fst), []) := by
  induction written generalizing cur with
  | nil => simp [takeLines, PartialFrame.addAll]
  | cons line written ih =>
    rw [List.map_cons, List.mem_cons, not_or] at hblank
    have hline := takeLine_line platform (hfits line List.mem_cons_self)
      (Ne.symm hblank.1) line.2 cur
    rw [List.map_cons, List.map_cons, PartialFrame.addAll_cons, takeLines_cons _ hline]
    exact ih (fun other hmem => hfits other (List.mem_cons_of_mem _ hmem)) hblank.2 _

theorem Fields.addAll {frame : PartialFrame} {lines : List Line} (h : Fields frame lines) :
    PartialFrame.empty.addAll lines = frame := by
  have htoList (value : Option Text) : value.toList.getLast?.or none = value := by
    cases value <;> rfl
  unfold PartialFrame.addAll PartialFrame.empty
  rw [h.event, h.id, h.data, htoList, htoList, List.nil_append]

variable (platform) in
/-- The lines of frames are read as the frames. -/
theorem takeLines_serialised {frames : List PartialFrame} {lines : List Line}
    (h : Serialised frames lines) {written : List (Line × LineEnd)}
    (hwritten : written.map Prod.fst = lines) (hfits : ∀ line ∈ written, line.1.Fits) :
    ∃ reads, takeLines platform .empty (written.map rawLine) = (.empty, reads) ∧
      List.Forall₂ (Recovers platform) frames reads := by
  induction h generalizing written with
  | done =>
    obtain rfl := List.map_eq_nil_iff.1 hwritten
    exact ⟨[], rfl, .nil⟩
  | comment text h ih =>
    obtain ⟨⟨_, lineEnd⟩, rest, rfl, rfl, hrest⟩ := List.map_eq_cons_iff.1 hwritten
    have hline := takeLine_line platform (hfits _ List.mem_cons_self)
      (by simp) lineEnd .empty
    obtain ⟨reads, htake, hreads⟩ := ih hrest fun other hmem =>
      hfits other (List.mem_cons_of_mem _ hmem)
    refine ⟨reads, ?_, hreads⟩
    rw [List.map_cons, takeLines_cons _ hline]
    exact htake
  | blank h ih =>
    obtain ⟨⟨_, lineEnd⟩, rest, rfl, rfl, hrest⟩ := List.map_eq_cons_iff.1 hwritten
    obtain ⟨reads, htake, hreads⟩ := ih hrest fun other hmem =>
      hfits other (List.mem_cons_of_mem _ hmem)
    refine ⟨reads, ?_, hreads⟩
    rw [List.map_cons, takeLines_cons _ (takeLine_blank_empty lineEnd)]
    exact htake
  | frame hfields h ih =>
    obtain ⟨fields, others, rfl, rfl, hothers⟩ := List.map_eq_append_iff.1 hwritten
    obtain ⟨⟨_, lineEnd⟩, rest, rfl, rfl, hrest⟩ := List.map_eq_cons_iff.1 hothers
    obtain ⟨reads, htake, hreads⟩ := ih hrest fun other hmem =>
      hfits other (by simp [hmem])
    have hbody := takeLines_fields platform
      (fun other hmem => hfits other (by simp [hmem])) hfields.no_blank .empty
    rw [hfields.addAll] at hbody
    obtain ⟨read, hblank, hread⟩ :=
      takeLine_blank platform hfields.nonempty lineEnd
    refine ⟨read :: reads, ?_, .cons hread hreads⟩
    rw [List.map_append, takeLines_append, hbody, List.map_cons]
    simp only [takeLines, hblank, htake]
    rfl

/-! ## Reading a stream -/

theorem splitLines_line {line : Text} (h : codeUnit '\n' ∉ line) (rest : Text) :
    splitLines (line ++ codeUnit '\n' :: rest) =
      (line :: (splitLines rest).1, (splitLines rest).2) := by
  induction line with
  | nil => rw [List.nil_append, splitLines, if_pos rfl]
  | cons c line ih =>
    rw [List.mem_cons, not_or] at h
    rw [List.cons_append, splitLines, if_neg (Ne.symm h.1), ih h.2]

/-- The loop sees the lines that were written, and nothing stays in the buffer. -/
theorem splitLines_writeLines {written : List (Line × LineEnd)}
    (hfits : ∀ line ∈ written, line.1.Fits) :
    splitLines (writeLines written) = (written.map rawLine, []) := by
  induction written with
  | nil => rfl
  | cons line written ih =>
    have hraw : codeUnit '\n' ∉ rawLine line := by
      have htext := Line.not_mem_text (.inr rfl) (hfits line List.mem_cons_self).1
      obtain ⟨line, lineEnd⟩ := line
      cases lineEnd with
      | lf => exact htext
      | crlf =>
        intro hmem
        rcases List.mem_append.1 hmem with hmem | hmem
        · exact htext hmem
        · exact absurd hmem (by decide)
    have hrest := ih fun other hmem => hfits other (List.mem_cons_of_mem _ hmem)
    unfold writeLines at hrest ⊢
    rw [List.flatMap_cons, writeLine_eq, List.append_assoc, List.singleton_append,
      splitLines_line hraw, hrest]
    rfl

/-- **The parser recovers exactly the frames that were written**, in order, however the text is
cut, and is as it was before. -/
theorem push_recovers_frames {J : Type} (platform : Platform J) {frames : List PartialFrame}
    {written : List (Line × LineEnd)} {cuts : List Text}
    (hfits : ∀ line ∈ written, line.1.Fits) (h : Serialised frames (written.map Prod.fst))
    (hcuts : cuts.flatten = writeLines written) :
    ∃ reads, feed (pushText platform) (.new platform) cuts = (.new platform, reads) ∧
      List.Forall₂ (Recovers platform) frames reads := by
  obtain ⟨reads, htake, hreads⟩ := takeLines_serialised platform h rfl hfits
  refine ⟨reads, ?_, hreads⟩
  rw [feed_eq_push_of_nil pushText_cutsFreely (pushText_nil SseParser.open_new), hcuts]
  have hlines := splitLines_writeLines hfits
  simp only [pushText, SseParser.push, SseParser.new, List.nil_append, hlines, htake]

/-- Two frames as lines, the first with a comment among its fields and a blank line after it. -/
def twoFrames : List (Line × LineEnd) := [
  (.data (.ofString " a"), .lf), (.id (.ofString "1:0"), .crlf), (.comment [], .lf),
  (.data [], .lf), (.blank, .crlf), (.blank, .lf), (.event [], .lf), (.blank, .lf)]

theorem push_recovers_frames_two :
    ∃ reads,
      feed (pushText asciiPlatform) (.new asciiPlatform) [writeLines twoFrames] =
        (.new asciiPlatform, reads) ∧
      List.Forall₂ (Recovers asciiPlatform)
        [⟨none, some (.ofString "1:0"), [.ofString " a", []]⟩, ⟨some [], none, []⟩] reads := by
  have hfirst : Fields ⟨none, some (.ofString "1:0"), [.ofString " a", []]⟩
      [.data (.ofString " a"), .id (.ofString "1:0"), .comment [], .data []] :=
    ⟨by decide, by simp, rfl, rfl, rfl⟩
  have hsecond : Fields ⟨some [], none, []⟩ [.event []] := ⟨by decide, by simp, rfl, rfl, rfl⟩
  have hfits : ∀ line ∈ twoFrames, line.1.Fits := by decide
  exact push_recovers_frames asciiPlatform hfits
    (.frame hfirst (.blank (.frame hsecond .done))) (List.flatten_singleton)

end FermiSdk.Streams
