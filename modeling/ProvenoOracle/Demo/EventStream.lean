import ProvenoOracle.Codec.Incremental
import ProvenoOracle.Demo.Runner

/-! # The event stream

`lib.rs` serves the events of a run as server-sent events, and the page reads them back with a
loop of its own (`runPipeline` in `app.js`): it decodes what a read gives, keeps it in a buffer,
cuts frames off the buffer at blank lines, and hands the JSON of each `data:` line to
`handleEvent`. Reads cut the stream anywhere. The page handles the events that were sent, once
each and in order, as `JSON.parse` reads them (`stream_reassembled`): an integer beyond `2 ^ 53`
may come out as a neighbour. Frames that the page cannot read and a stream that is cut off do no
harm to the other events (`stream_recovers`).

A JavaScript string is a list of characters here: it comes out of a UTF-8 decoder, and it is cut
at line feeds only.
-/

set_option autoImplicit false

namespace ProvenoOracle.Demo

open Codec

/-! ## Events as JSON -/

/-- `JSON.parse`, on the text of an event: its integers are read as doubles. -/
def DemoEvent.parsed : DemoEvent → DemoEvent
  | .complete result hashes => .complete result.parsed hashes
  | .verifyingOnChain chainId verifierAddr explorerBase =>
      .verifyingOnChain (roundDouble chainId) verifierAddr explorerBase
  | e => e

/-- The integers of an event are at most `2 ^ 53`. -/
def DemoEvent.Small : DemoEvent → Prop
  | .complete result _ => result.Small
  | .verifyingOnChain chainId _ _ => chainId ≤ 2 ^ 53
  | _ => True

theorem DemoEvent.parsed_eq {e : DemoEvent} (h : e.Small) : e.parsed = e := by
  cases e with
  | complete result hashes => exact congrArg (DemoEvent.complete · hashes) (JsonValue.parsed_eq h)
  | verifyingOnChain chainId verifierAddr explorerBase =>
      exact congrArg (DemoEvent.verifyingOnChain · verifierAddr explorerBase) (roundDouble_of_le h)
  | _ => rfl

/-- `ProofHashes` as JSON. -/
def ProofHashes.toJson (h : ProofHashes) : JsonValue :=
  .object <| .ofList [("program_hash", .string h.programHash), ("input_hash", .string h.inputHash),
    ("tool_responses_hash", .string h.toolResponsesHash), ("output_hash", .string h.outputHash),
    ("attestation_hash", .string h.attestationHash), ("policy_hash", .string h.policyHash)]

/-- The fields of an event. -/
def DemoEvent.data : DemoEvent → Option (List (String × JsonValue))
  | .generatingLua prompt => some [("prompt", .string prompt)]
  | .luaReady lua => some [("lua", .string lua)]
  | .compiling => none
  | .executing => none
  | .toolCall name args response =>
      some [("name", .string name), ("args", .string args), ("response", .string response)]
  | .proving => none
  | .complete result hashes => some [("result", result), ("hashes", hashes.toJson)]
  | .error message atStage => some [("message", .string message), ("at_stage", .string atStage)]
  | .verifyingOnChain chainId verifierAddr explorerBase =>
      some [("chain_id", .number chainId), ("verifier_addr", .string verifierAddr),
        ("explorer_base", .ofOption explorerBase)]
  | .verifiedOnChain accepted reason txHash =>
      some [("accepted", .bool accepted), ("reason", .ofOption reason),
        ("tx_hash", .ofOption txHash)]

/-- An event as JSON: its stage, and its fields under `data` if it has any. -/
def DemoEvent.toJson (e : DemoEvent) : JsonValue :=
  let data := e.data.map fun fields => ("data", JsonValue.object (.ofList fields))
  .object (.ofList (("stage", .string e.stage) :: data.toList))

theorem JsonValue.parsed_ofOption (s : Option String) : (ofOption s).parsed = ofOption s := by
  cases s <;> rfl

theorem parsedInt_natCast (n : Nat) : parsedInt n = roundDouble n :=
  if_neg (Int.not_lt.mpr (Int.natCast_nonneg n))

/-- **The events that the page reads** are the ones whose JSON is what `JSON.parse` reads. -/
theorem DemoEvent.toJson_parsed (e : DemoEvent) : e.parsed.toJson = e.toJson.parsed := by
  cases e with
  | verifyingOnChain chainId verifierAddr explorerBase =>
      simp [toJson, parsed, data, stage, JsonFields.ofList, JsonValue.parsed, JsonFields.parsed,
        JsonValue.parsed_ofOption, parsedInt_natCast]
  | verifiedOnChain accepted reason txHash =>
      simp [toJson, parsed, data, stage, JsonFields.ofList, JsonValue.parsed, JsonFields.parsed,
        JsonValue.parsed_ofOption]
  | _ => rfl

/-- `serde_json` on an event, and `JSON.parse` as far as the page gets an event from it. -/
structure EventJson where
  serialize : DemoEvent → String
  parse : String → Option DemoEvent

/-- What the two do to an event. -/
structure EventJson.Carries (J : EventJson) (e : DemoEvent) : Prop where
  parses : J.parse (J.serialize e) = some e.parsed
  oneLine : '\n' ∉ (J.serialize e).toList

/-! ## The server -/

/-- A comment line of a frame, without its colon. -/
structure CommentLine where
  text : List Char
  oneLine : '\n' ∉ text

/-- The frames of the stream: an event, or comment lines that keep the connection alive. -/
inductive SseFrame where
  | event (e : DemoEvent)
  | keepAlive (first : CommentLine) (more : List CommentLine)

/-- The event of a frame. -/
def SseFrame.event? : SseFrame → Option DemoEvent
  | .event e => some e
  | .keepAlive _ _ => none

/-- The lines of a frame. -/
def SseFrame.lines (J : EventJson) : SseFrame → List (List Char)
  | .event e => ["data: ".toList ++ (J.serialize e).toList]
  | .keepAlive first more => (first :: more).map fun c => ':' :: c.text

/-- A frame without the blank line that ends it. -/
def SseFrame.body (J : EventJson) (f : SseFrame) : List Char := ['\n'].intercalate (f.lines J)

/-- The text of the response body. -/
def streamText (J : EventJson) (frames : List SseFrame) : List Char :=
  frames.flatMap fun f => f.body J ++ ['\n', '\n']

/-! ## The page -/

/-- `TextDecoder`, in streaming mode. -/
structure TextDecoder where
  State : Type
  init : State
  /-- `decode(value, { stream: true })` -/
  decode : State → Bytes → List Char × State

/-- What a sequence of reads is decoded to. -/
def TextDecoder.decodeAll (D : TextDecoder) : D.State → List Bytes → List (List Char)
  | _, [] => []
  | s, value :: values => (D.decode s value).1 :: D.decodeAll (D.decode s value).2 values

/-- The decoder yields the decoding of the concatenated bytes, wherever they are cut. (A byte
order mark at the start would be dropped.) -/
def TextDecoder.Streams (D : TextDecoder) : Prop :=
  ∀ (values : List Bytes) (text : List Char), text.head? ≠ some '\uFEFF' →
    values.flatten = charBytes text → (D.decodeAll D.init values).flatten = text

/-- The loop over `buffer.indexOf("\n\n")`. -/
def frameReader : PieceReader Char (List Char) := separated '\n' ['\n']

/-- What a line of a frame makes the page handle: the JSON behind `data: `. A line that cannot be
parsed is reported and skipped. -/
def lineEvent (J : EventJson) (line : List Char) : Option DemoEvent :=
  -- other lines are skipped; `slice(6)` is what follows `data: `
  if "data: ".toList <+: line then J.parse (String.ofList (line.drop 6)) else none

/-- The calls of `handleEvent` for a frame. -/
def frameEvents (J : EventJson) (frame : List Char) : List DemoEvent :=
  (frame.splitOn '\n').filterMap (lineEvent J)

/-- The read loop of `runPipeline`: its decoder and buffer, and the calls of `handleEvent`. -/
structure ReadLoop (D : TextDecoder) where
  decoder : D.State
  buffer : List Char
  handled : List DemoEvent

section Loop

variable {D : TextDecoder} (J : EventJson)

/-- One read. -/
def ReadLoop.read (l : ReadLoop D) (value : Bytes) : ReadLoop D :=
  let (text, decoder) := D.decode l.decoder value
  -- `buffer += decoder.decode(..)`, then frames are cut off while there is a blank line
  let (frames, buffer) := frameReader.drain (l.buffer ++ text)
  ⟨decoder, buffer, l.handled ++ frames.flatMap (frameEvents J)⟩

variable (D) in
/-- The loop over all reads of a response. -/
def readAll (values : List Bytes) : ReadLoop D :=
  values.foldl (ReadLoop.read J) ⟨D.init, [], []⟩

/-! ## Frames -/

/-- The lines of a frame are lines, none of them empty. -/
theorem SseFrame.lines_spec {J : EventJson} {f : SseFrame}
    (hjson : ∀ e, f = .event e → '\n' ∉ (J.serialize e).toList) :
    f.lines J ≠ [] ∧ ∀ line ∈ f.lines J, line ≠ [] ∧ '\n' ∉ line := by
  cases f with
  | event e =>
      refine ⟨List.cons_ne_nil _ _, ?_⟩
      intro line hline
      obtain rfl := List.mem_singleton.mp hline
      have hlead : '\n' ∉ "data: ".toList := by decide
      refine ⟨List.cons_ne_nil _ _, ?_⟩
      rw [List.mem_append, not_or]
      exact ⟨hlead, hjson e rfl⟩
  | keepAlive first more =>
      refine ⟨List.cons_ne_nil _ _, ?_⟩
      intro line hline
      obtain ⟨c, -, rfl⟩ := List.mem_map.mp hline
      refine ⟨List.cons_ne_nil _ _, ?_⟩
      rw [List.mem_cons, not_or]
      exact ⟨by decide, c.oneLine⟩

/-- A frame is cut off the buffer at the blank line that ends it. -/
theorem frameReader_next {J : EventJson} {f : SseFrame}
    (hjson : ∀ e, f = .event e → '\n' ∉ (J.serialize e).toList) (rest : List Char) :
    frameReader.next (f.body J ++ ['\n', '\n'] ++ rest) = some (f.body J, rest) := by
  obtain ⟨hne, hlines⟩ := SseFrame.lines_spec hjson
  exact separated_next (indexOf_blank hne hlines) rest

/-- The page handles the event of a frame, and nothing for a comment. -/
theorem frameEvents_body {J : EventJson} {f : SseFrame}
    (hjson : ∀ e, f = .event e → J.Carries e) :
    frameEvents J (f.body J) = (f.event?.map DemoEvent.parsed).toList := by
  obtain ⟨hne, hlines⟩ := SseFrame.lines_spec fun e he => (hjson e he).oneLine
  have hsplit : (f.body J).splitOn '\n' = f.lines J :=
    List.splitOn_intercalate '\n' (fun line hline => (hlines line hline).2) hne
  rw [frameEvents, hsplit]
  cases f with
  | event e =>
      have hline : lineEvent J ("data: ".toList ++ (J.serialize e).toList) = some e.parsed := by
        have hdrop : ("data: ".toList ++ (J.serialize e).toList).drop 6
            = (J.serialize e).toList := by
          show List.drop "data: ".toList.length _ = _
          exact List.drop_left
        rw [lineEvent, if_pos (List.prefix_append _ _), hdrop, String.ofList_toList]
        exact (hjson e rfl).parses
      show [("data: ".toList ++ (J.serialize e).toList)].filterMap (lineEvent J) = [e.parsed]
      rw [List.filterMap_cons_some hline, List.filterMap_nil]
  | keepAlive first more =>
      show ((first :: more).map fun c => ':' :: c.text).filterMap (lineEvent J) = []
      rw [List.filterMap_eq_nil_iff]
      intro line hline
      obtain ⟨c, -, rfl⟩ := List.mem_map.mp hline
      -- a comment starts with a colon
      have hcolon : ¬ "data: ".toList <+: ':' :: c.text := by
        show ¬ 'd' :: "ata: ".toList <+: ':' :: c.text
        rw [List.cons_prefix_cons]
        rintro ⟨h, -⟩
        exact absurd h (by decide)
      exact if_neg hcolon

/-! ## The loop -/

/-- The loop feeds the frame reader with what the decoder yields, and handles the frames it
gets. By induction on the reads. -/
theorem foldl_read (values : List Bytes) : ∀ (l : ReadLoop D) (frames : List (List Char)),
    l.handled = frames.flatMap (frameEvents J) →
    let fed := (D.decodeAll l.decoder values).foldl frameReader.feed (frames, l.buffer)
    (values.foldl (ReadLoop.read J) l).handled = fed.1.flatMap (frameEvents J) ∧
      (values.foldl (ReadLoop.read J) l).buffer = fed.2 := by
  induction values with
  | nil =>
      intro l frames hhandled
      exact ⟨hhandled, rfl⟩
  | cons value values ih =>
      intro l frames hhandled
      apply ih
      show l.handled ++ _ = List.flatMap _ (frames ++ _)
      rw [hhandled, List.flatMap_append]

/-- A frame does not start with a byte order mark, so the stream does not. -/
theorem streamText_head (frames : List SseFrame) : (streamText J frames).head? ≠ some '\uFEFF' := by
  cases frames with
  | nil => exact nofun
  | cons f frames =>
      -- the first character is a `d` or a colon
      have hstart : ∃ c cs, f.body J = c :: cs ∧ c ≠ '\uFEFF' := by
        cases f with
        | event e => exact ⟨'d', _, rfl, by decide⟩
        | keepAlive first more =>
            cases more with
            | nil => exact ⟨':', _, rfl, by decide⟩
            | cons c more => exact ⟨':', _, rfl, by decide⟩
      obtain ⟨c, cs, hbody, hc⟩ := hstart
      rw [streamText, List.flatMap_cons, hbody]
      intro h
      exact hc (Option.some.inj h)

/-- **The stream as a whole** holds the bodies of its frames and nothing else. -/
theorem drain_streamText {J : EventJson} {frames : List SseFrame}
    (hjson : ∀ e, .event e ∈ frames → '\n' ∉ (J.serialize e).toList) :
    frameReader.drain (streamText J frames) = (frames.map (·.body J), []) := by
  have hframes : streamText J frames
      = (frames.map (·.body J)).flatMap (· ++ ['\n', '\n']) := by
    rw [List.flatMap_map]
    rfl
  rw [hframes]
  apply PieceReader.drain_flatMap
  intro body hbody rest
  obtain ⟨f, hf, rfl⟩ := List.mem_map.mp hbody
  apply frameReader_next
  rintro e rfl
  exact hjson e hf

/-- What a page has handled and kept is what the frame reader makes of the text so far: the cuts do
not matter to it. -/
theorem readAll_eq (chunks : List Bytes) :
    (readAll D J chunks).handled
        = (frameReader.drain (D.decodeAll D.init chunks).flatten).1.flatMap (frameEvents J) ∧
      (readAll D J chunks).buffer
        = (frameReader.drain (D.decodeAll D.init chunks).flatten).2 := by
  have hloop := foldl_read J chunks ⟨D.init, [], []⟩ [] rfl
  rw [PieceReader.foldl_feed] at hloop
  exact hloop

/-- The events of the frames of a stream. -/
theorem flatMap_frameEvents {J : EventJson} {frames : List SseFrame}
    (hjson : ∀ e, .event e ∈ frames → J.Carries e) :
    (frames.map (·.body J)).flatMap (frameEvents J)
      = (frames.filterMap SseFrame.event?).map DemoEvent.parsed := by
  have hevents : ∀ f ∈ frames,
      frameEvents J (f.body J) = (f.event?.map DemoEvent.parsed).toList := by
    intro f hf
    apply frameEvents_body
    rintro e rfl
    exact hjson e hf
  rw [List.flatMap_map, List.flatMap_congr hevents, List.map_filterMap,
    List.filterMap_eq_flatMap_toList]

/-- A page that has read its whole stream. -/
theorem readAll_streamText (hD : D.Streams) {frames : List SseFrame}
    (hjson : ∀ e, .event e ∈ frames → J.Carries e)
    {chunks : List Bytes} (hchunks : chunks.flatten = charBytes (streamText J frames)) :
    (readAll D J chunks).handled = (frames.filterMap SseFrame.event?).map DemoEvent.parsed ∧
      (readAll D J chunks).buffer = [] := by
  obtain ⟨hhandled, hbuffer⟩ := @readAll_eq D J chunks
  have htext := hD chunks _ (streamText_head J frames) hchunks
  have hdrain := drain_streamText fun e he => (hjson e he).oneLine
  rw [htext, hdrain] at hhandled hbuffer
  rw [flatMap_frameEvents hjson] at hhandled
  exact ⟨hhandled, hbuffer⟩

/-- **Events arrive as `JSON.parse` reads them**, wherever the bytes of the stream are cut: the page
handles each of them once and in order, and keeps nothing back. Events with integers up to `2 ^ 53`
arrive as they were sent. -/
theorem stream_reassembled (hD : D.Streams) {frames : List SseFrame}
    (hjson : ∀ e, .event e ∈ frames → J.Carries e)
    {chunks : List Bytes} (hchunks : chunks.flatten = charBytes (streamText J frames)) :
    (readAll D J chunks).handled = (frames.filterMap SseFrame.event?).map DemoEvent.parsed ∧
      (readAll D J chunks).buffer = [] ∧
      ((∀ e, .event e ∈ frames → e.Small) →
        (readAll D J chunks).handled = frames.filterMap SseFrame.event?) := by
  obtain ⟨hhandled, hbuffer⟩ := readAll_streamText J hD hjson hchunks
  refine ⟨hhandled, hbuffer, ?_⟩
  intro hsmall
  have hsame : ∀ e ∈ frames.filterMap SseFrame.event?, e.parsed = e := by
    intro e he
    apply DemoEvent.parsed_eq
    obtain ⟨f, hf, hevent⟩ := List.mem_filterMap.mp he
    cases f with
    | event e' =>
        cases hevent
        exact hsmall e hf
    | keepAlive first more => cases hevent
  rw [hhandled, List.map_congr_left hsame, List.map_id']

end Loop

/-! ## A decoder -/

/-- The characters at the front of a byte string. -/
def charReader : PieceReader UInt8 Char where
  next b := (firstChar b).map fun c => (c, b.drop c.utf8Size)
  shrinks := by
    intro b c rest hnext
    rcases Option.map_eq_some_iff.mp hnext with ⟨c, hc, hcut⟩
    have hfront := (firstChar_eq_some_iff.mp hc).length_le
    have hpos := c.utf8Size_pos
    cases hcut
    rw [String.length_utf8EncodeChar] at hfront
    rw [List.length_drop]
    omega
  stable := by
    intro b c rest ys hnext
    rcases Option.map_eq_some_iff.mp hnext with ⟨c, hc, hcut⟩
    have hfront := firstChar_eq_some_iff.mp hc
    have hlater := firstChar_eq_some_iff.mpr (hfront.trans (List.prefix_append b ys))
    have hlength := hfront.length_le
    cases hcut
    rw [String.length_utf8EncodeChar] at hlength
    rw [hlater, Option.map_some, List.drop_append_of_le_length hlength]

/-- A decoder that keeps the bytes of a character until it is complete. -/
def streamDecoder : TextDecoder where
  State := Bytes
  init := []
  decode pending value := charReader.drain (pending ++ value)

theorem streamDecoder_decodeAll (values : List Bytes) : ∀ (text : List Char) (pending : Bytes),
    (values.foldl charReader.feed (text, pending)).1
      = text ++ (streamDecoder.decodeAll pending values).flatten := by
  induction values with
  | nil =>
      intro text pending
      exact (List.append_nil text).symm
  | cons value values ih =>
      intro text pending
      show (values.foldl _ (charReader.feed (text, pending) value)).1 = text ++ (_ ++ _)
      rw [PieceReader.feed, ih, List.append_assoc]
      rfl

theorem streamDecoder_streams : streamDecoder.Streams := by
  intro values text _ hbytes
  have hdecoded := streamDecoder_decodeAll values [] []
  have hchars : charReader.drain (charBytes text) = (text, []) := by
    apply PieceReader.drain_flatMap
    intro c _ rest
    show (firstChar _).map _ = _
    rw [firstChar_encode_append, Option.map_some, ← String.length_utf8EncodeChar, List.drop_left]
  rw [PieceReader.foldl_feed, hbytes, hchars] at hdecoded
  exact hdecoded.symm

/-- The JSON of events, read back where it is that of one of the events listed. -/
def jsonOf (events : List DemoEvent) : EventJson where
  serialize e := e.toJson.text
  parse s := (events.find? fun e => e.toJson.text = s).map DemoEvent.parsed

theorem jsonOf_carries {events : List DemoEvent}
    (hdistinct : (events.map fun e => e.toJson.text).Nodup) {e : DemoEvent} (he : e ∈ events) :
    (jsonOf events).Carries e := by
  constructor
  · have hfound : events.find? (fun e' => e'.toJson.text = e.toJson.text) = some e := by
      cases hfind : events.find? (fun e' => e'.toJson.text = e.toJson.text) with
      | none =>
          have hnot := List.find?_eq_none.mp hfind e he
          simp at hnot
      | some e' =>
          have hsame : e'.toJson.text = e.toJson.text := by
            simpa using List.find?_some hfind
          rw [List.inj_on_of_nodup_map hdistinct (List.mem_of_find?_eq_some hfind) he hsame]
    exact congrArg (Option.map DemoEvent.parsed) hfound
  · exact e.toJson.oneLine_text

/-- A comment and two events. -/
def threeFrames : List SseFrame :=
  [.keepAlive ⟨"é".toList, by decide⟩ [], .event .compiling, .event .executing]

/-- Cut inside a character and inside the blank line of the second frame. -/
theorem stream_reassembled_cut :
    let J := jsonOf [.compiling, .executing]
    let bytes := charBytes (streamText J threeFrames)
    (readAll streamDecoder J [bytes.take 2, (bytes.drop 2).take 31, bytes.drop 33]).handled
      = [.compiling, .executing] := by
  intro J bytes
  have hjson : ∀ e, SseFrame.event e ∈ threeFrames → J.Carries e := by
    intro e he
    exact jsonOf_carries (by decide +kernel) (by simpa [threeFrames] using he)
  have hchunks : [bytes.take 2, (bytes.drop 2).take 31, bytes.drop 33].flatten = bytes := by
    show bytes.take 2 ++ ((bytes.drop 2).take 31 ++ (bytes.drop 33 ++ [])) = bytes
    have hdrop : bytes.drop 33 = (bytes.drop 2).drop 31 := by rw [List.drop_drop]
    rw [List.append_nil, hdrop, List.take_append_drop, List.take_append_drop]
  exact (@stream_reassembled streamDecoder J streamDecoder_streams _ hjson _ hchunks).1

/-- The event of a run that returns a number; the hashes are zeros. -/
def numberResult (n : Int) : DemoEvent :=
  let zero := String.ofList (List.replicate 64 '0')
  .complete (.number n) ⟨zero, zero, zero, zero, zero, zero⟩

/-- **A large integer does not get through**: the event that is handled is not the one that was
sent. -/
theorem stream_reassembled_rounded :
    let sent := numberResult 9007199254740993
    let bytes := charBytes (streamText (jsonOf [sent]) [.event sent])
    streamDecoder.Streams ∧ (jsonOf [sent]).Carries sent ∧
      (readAll streamDecoder (jsonOf [sent]) [bytes]).handled = [numberResult 9007199254740992] ∧
      numberResult 9007199254740992 ≠ sent := by
  intro sent bytes
  have hcarries : (jsonOf [sent]).Carries sent :=
    jsonOf_carries (by simp) (List.mem_singleton_self sent)
  have hjson : ∀ e, SseFrame.event e ∈ [SseFrame.event sent] → (jsonOf [sent]).Carries e := by
    intro e he
    obtain rfl : e = sent := by simpa using he
    exact hcarries
  have hhandled := (@readAll_streamText streamDecoder (jsonOf [sent]) streamDecoder_streams _ hjson
    [bytes] (List.append_nil bytes)).1
  refine ⟨streamDecoder_streams, hcarries, ?_, by simp [sent, numberResult]⟩
  rw [hhandled]
  show [DemoEvent.complete (.number (parsedInt 9007199254740993)) _] = _
  have hrounded : parsedInt 9007199254740993 = 9007199254740992 := by decide +kernel
  rw [hrounded]
  rfl

/-! ## Streams that break

The server may be another one, and a connection may be lost. A line that is no JSON is reported and
skipped, and a frame without its blank line is never looked at.
-/

/-- A frame that gives no event: the lines that carry a payload cannot be parsed. -/
structure Unreadable (J : EventJson) where
  body : List Char
  /-- The first blank line is the one behind it. -/
  cut : indexOf ['\n', '\n'] (body ++ ['\n', '\n']) = some body.length
  silent : ∀ payload, "data: ".toList ++ payload ∈ body.splitOn '\n' →
    J.parse (String.ofList payload) = none

/-- What may stand in a stream. -/
inductive StreamPart (J : EventJson) where
  | sent (f : SseFrame)
  | unreadable (u : Unreadable J)

section Parts

variable {J : EventJson}

def StreamPart.body : StreamPart J → List Char
  | .sent f => f.body J
  | .unreadable u => u.body

def StreamPart.event? : StreamPart J → Option DemoEvent
  | .sent f => f.event?
  | .unreadable _ => none

/-- The text of a stream with such parts. -/
def partsText (parts : List (StreamPart J)) : List Char :=
  parts.flatMap fun p => p.body ++ ['\n', '\n']

/-- The page handles nothing for a frame that it cannot read. -/
theorem frameEvents_unreadable (u : Unreadable J) : frameEvents J u.body = [] := by
  apply List.filterMap_eq_nil_iff.mpr
  intro line hline
  by_cases hdata : "data: ".toList <+: line
  · obtain ⟨payload, rfl⟩ := hdata
    have hdrop : ("data: ".toList ++ payload).drop 6 = payload := by
      show List.drop "data: ".toList.length _ = _
      exact List.drop_left
    rw [lineEvent, if_pos (List.prefix_append _ _), hdrop]
    exact u.silent payload hline
  · exact if_neg hdata

/-- What one part of a stream does to the page. -/
theorem StreamPart.read {p : StreamPart J}
    (hjson : ∀ e, p = .sent (.event e) → J.Carries e) :
    (∀ rest, frameReader.next (p.body ++ ['\n', '\n'] ++ rest) = some (p.body, rest)) ∧
      frameEvents J p.body = (p.event?.map DemoEvent.parsed).toList := by
  cases p with
  | sent f =>
      have hframe : ∀ e, f = .event e → J.Carries e := by
        rintro e rfl
        exact hjson e rfl
      exact ⟨frameReader_next fun e he => (hframe e he).oneLine, frameEvents_body hframe⟩
  | unreadable u => exact ⟨separated_next u.cut, frameEvents_unreadable u⟩

end Parts

section Breaks

variable {D : TextDecoder} {J : EventJson}

/-- What has been handled is never taken back. -/
theorem readAll_handled_prefix (values later : List Bytes) :
    (readAll D J values).handled <+: (readAll D J (values ++ later)).handled := by
  have hstep : ∀ (l : ReadLoop D), l.handled <+: (later.foldl (ReadLoop.read J) l).handled := by
    induction later with
    | nil => exact fun l => List.prefix_refl _
    | cons value later ih =>
        intro l
        exact (List.prefix_append _ _).trans (ih (l.read J value))
  rw [readAll, readAll, List.foldl_append]
  exact hstep _

/-- **Broken streams do no harm**: a frame that cannot be read costs no other one, the end of a
stream that is cut off is not handled, and whenever the reads stop, the page has handled the first
events that were sent. -/
theorem stream_recovers (hD : D.Streams) {parts : List (StreamPart J)} {tail : List Char}
    (hjson : ∀ e, .sent (.event e) ∈ parts → J.Carries e)
    (htail : indexOf ['\n', '\n'] tail = none)
    (hmark : (partsText parts ++ tail).head? ≠ some '\uFEFF') {chunks later : List Bytes}
    (hchunks : (chunks ++ later).flatten = charBytes (partsText parts ++ tail)) :
    (readAll D J (chunks ++ later)).handled
        = (parts.filterMap StreamPart.event?).map DemoEvent.parsed ∧
      (readAll D J (chunks ++ later)).buffer = tail ∧
      (readAll D J chunks).handled
        <+: (parts.filterMap StreamPart.event?).map DemoEvent.parsed := by
  have hread : ∀ p ∈ parts, _ := fun p hp => @StreamPart.read J p fun e he => hjson e (he ▸ hp)
  have hparts : frameReader.drain (partsText parts) = (parts.map (·.body), []) := by
    have htext : partsText parts = (parts.map (·.body)).flatMap (· ++ ['\n', '\n']) := by
      rw [List.flatMap_map]
      rfl
    rw [htext]
    apply PieceReader.drain_flatMap
    intro body hbody rest
    obtain ⟨p, hp, rfl⟩ := List.mem_map.mp hbody
    exact (hread p hp).1 rest
  -- behind the last whole frame, the reader waits for a blank line
  have hwaits : frameReader.next tail = none := by
    show (indexOf ['\n', '\n'] tail).map _ = none
    rw [htail, Option.map_none]
  have hdrain : frameReader.drain (partsText parts ++ tail) = (parts.map (·.body), tail) := by
    rw [PieceReader.drain_append, hparts, List.nil_append, PieceReader.drain_of_none hwaits,
      List.append_nil]
  obtain ⟨hhandled, hbuffer⟩ := @readAll_eq D J (chunks ++ later)
  rw [hD _ _ hmark hchunks, hdrain] at hhandled hbuffer
  have hevents : ∀ p ∈ parts, frameEvents J p.body = (p.event?.map DemoEvent.parsed).toList :=
    fun p hp => (hread p hp).2
  have hall : (readAll D J (chunks ++ later)).handled
      = (parts.filterMap StreamPart.event?).map DemoEvent.parsed := by
    rw [hhandled, List.flatMap_map, List.flatMap_congr hevents, List.map_filterMap,
      List.filterMap_eq_flatMap_toList]
  refine ⟨hall, hbuffer, ?_⟩
  rw [← hall]
  exact readAll_handled_prefix chunks later

end Breaks

/-- A payload on two lines, as other servers write it. -/
def twoLines : Unreadable (jsonOf [.executing]) where
  body := "data: \x7b\ndata: \x7d".toList
  cut := by decide +kernel
  silent := by
    intro payload hline
    have hsplit : "data: \x7b\ndata: \x7d".toList.splitOn '\n'
        = ["data: ".toList ++ ['\x7b'], "data: ".toList ++ ['\x7d']] := by decide +kernel
    rw [hsplit, List.mem_cons, List.mem_singleton, List.append_cancel_left_eq,
      List.append_cancel_left_eq] at hline
    rcases hline with rfl | rfl
    · decide +kernel
    · decide +kernel

/-- An event behind a frame that cannot be read, and a frame that is lost. -/
theorem stream_recovers_lost :
    let J := jsonOf [.executing]
    let text := partsText [.unreadable twoLines, .sent (.event .executing)] ++ "data: \x7b".toList
    (readAll streamDecoder J [(charBytes text).take 40, (charBytes text).drop 40]).handled
      = [.executing] := by
  intro J text
  have hjson : ∀ e, StreamPart.sent (.event e) ∈
        [StreamPart.unreadable twoLines, .sent (.event .executing)] → J.Carries e := by
    intro e he
    exact jsonOf_carries (by simp) (by simpa using he)
  have hchunks : ([(charBytes text).take 40, (charBytes text).drop 40] ++ []).flatten
      = charBytes text := by
    rw [List.append_nil, List.flatten_cons, List.flatten_singleton, List.take_append_drop]
  have hmark : text.head? ≠ some '\uFEFF' := by
    intro h
    exact absurd (Option.some.inj h) (by decide)
  exact (@stream_recovers streamDecoder J streamDecoder_streams _ _ hjson
    (by decide +kernel) hmark _ _ hchunks).1

end ProvenoOracle.Demo
