import HttpServer.ChunkedBody
import HttpServer.RequestRendering

/-!
# What an accepted message consists of

A message that completes opens with a request line and header lines, and the
request holds exactly their parts: the fields in the order of the lines, names and
values checked. A message with a `Transfer-Encoding` continues with a chunked text.
The limits of the parser hold for all of these sections but one: the trailer is
measured only while its end has not arrived.
-/

namespace HttpServer.AcceptedMessages

open ListSearch LineBlocks MeasuredLoop HttpParser ParserResume ParserFraming RequestLine FieldLines
open RequestRendering ChunkedBody

/-- The request line and the header lines of a message. -/
structure MessageHead where
  method : Bytes
  target : Bytes
  lines : List Bytes

namespace MessageHead

variable (head : MessageHead)

def line : Bytes := lineText head.method head.target

/-- The head up to and including the empty line. -/
def render : Bytes := head.line ++ (crlf ++ (linesText crlf head.lines ++ crlf))

def fields : List (Bytes × Bytes) := head.lines.map fieldOf

def block : Bytes := crlf.intercalate head.lines

structure Shaped : Prop where
  known : utils.parseMethod head.method ≠ .unknown
  nonempty : head.target ≠ []
  noSpace : 32 ∉ head.target
  plain : ¬crlf <:+: head.line
  lines : ∀ line ∈ head.lines, IsFieldLine line

def Chunked : Prop := (HttpHeaders.mk head.fields).get transferEncodingName ≠ []

structure Limited : Prop where
  line : head.line.length ≤ maxRequestLine
  block : head.block.length ≤ maxHeaderSize
  fields : head.lines.length ≤ maxHeaders

end MessageHead

section Heads

variable {data : Bytes} {request : HttpRequest} {stopped : Reading} {head : MessageHead}

theorem MessageHead.render_append (head : MessageHead) (rest : Bytes) :
    head.render ++ rest = head.line ++ (crlf ++ (linesText crlf head.lines ++ (crlf ++ rest))) := by
  simp only [render, List.append_assoc]

theorem MessageHead.render_length (head : MessageHead) (filled : head.lines ≠ []) :
    head.render.length = head.line.length + 2 + (head.block.length + 4) := by
  simp only [render, lines_text_joined filled, List.length_append, crlf_length, block]
  omega

/-- A head is cut off in one way only. -/
theorem head_unique {other : MessageHead} {rest further : Bytes} (shaped : head.Shaped)
    (shaped' : other.Shaped) (same : head.render ++ rest = other.render ++ further) :
    head = other ∧ rest = further := by
  rw [MessageHead.render_append, MessageHead.render_append] at same
  obtain ⟨lines, behind⟩ := line_unique crlf_delimits shaped.plain shaped'.plain same
  obtain ⟨blocks, rests⟩ := lines_unique crlf_delimits (field_lines_plain shaped.lines)
    (field_lines_plain shaped'.lines) behind
  obtain ⟨methods, targets⟩ := cut_unique (known_method_plain shaped.known).2.1
    (known_method_plain shaped'.known).2.1 lines
  obtain ⟨targets, _⟩ := cut_unique shaped.noSpace shaped'.noSpace targets
  obtain ⟨method, target, block⟩ := head
  obtain ⟨method', target', block'⟩ := other
  dsimp only at methods targets blocks
  rw [methods, targets, blocks]
  exact ⟨rfl, rests⟩

theorem accepted_line (complete : parse data {} request = (.complete, stopped)) :
    ∃ method target rest, data = lineText method target ++ (crlf ++ rest) ∧
      ¬crlf <:+: lineText method target ∧ utils.parseMethod method ≠ .unknown ∧ target ≠ [] ∧
      32 ∉ target ∧ lineOf stopped.2 = lineOf (lineRequest (utils.parseMethod method) target) := by
  obtain ⟨line, parsed, kept, _⟩ := complete_line complete
  obtain ⟨lineEnd, method, target, found, _, noSpace, nonempty, taken, rfl⟩ :=
    parse_request_line_reads parsed
  obtain ⟨text, rest, written, plain, rfl⟩ := (line_found_iff crlf_delimits).mp found
  rw [written, List.take_left] at taken
  subst taken
  have known := (parse_request_line_completes parsed).1
  rw [(line_request_parts _ _).1] at known
  exact ⟨method, target, rest, written, plain, known, nonempty, noSpace, kept⟩

/-- The header block of a completed request. With a line in it, the double CRLF
is the end of its last line. -/
theorem accepted_block {behind : Bytes} {headersEnd : Nat} {line stored : HttpRequest}
    (blockFound : findSub crlfCrlf behind = some headersEnd)
    (parsed : parseHeaders (behind.take (headersEnd + 4)) line = (.complete, stored)) :
    ∃ lines rest, behind = linesText crlf lines ++ (crlf ++ rest) ∧
      (∀ line ∈ lines, IsFieldLine line) ∧ lines.length ≤ maxHeaders ∧
      (lines = [] ∨ (crlf.intercalate lines).length = headersEnd) ∧
      stored.headers.headers = line.headers.headers ++ lines.map fieldOf := by
  obtain ⟨lines, rest, block, fields, counted, same⟩ := header_loop_lines _ _ parsed
  dsimp only at block counted same
  have whole : behind = linesText crlf lines ++ (crlf ++ (rest ++ behind.drop (headersEnd + 4))) := by
    calc
      behind = behind.take (headersEnd + 4) ++ behind.drop (headersEnd + 4) :=
        (List.take_append_drop _ _).symm
      _ = _ := by
        rw [block]
        simp only [List.append_assoc]
  refine ⟨lines, _, whole, fields, ?_, ?_, by rw [same]⟩
  · rcases counted with rfl | counted
    · exact Nat.zero_le _
    · rwa [Nat.zero_add] at counted
  · by_cases empty : lines = []
    · exact Or.inl empty
    · right
      have located := double_crlf_found empty
        (fun line member => field_line_plain (fields line member))
        (rest ++ behind.drop (headersEnd + 4))
      rw [← whole, blockFound] at located
      exact (Option.some.inj located).symm

theorem accepted_body (data : Bytes) {parser : HttpParser} {stored : HttpRequest}
    (outcome : chooseBody parser stored = (some .complete, stopped) ∨
      ∃ following, chooseBody parser stored = (none, following) ∧
        (parseLoop data).run following = (.complete, stopped)) :
    stopped.2.body.length ≤ maxBodySize ∧
      (stored.header transferEncodingName ≠ [] → ∃ text rest,
        data.drop parser.consumed = ChunkedText.render text ++ rest ∧ text.Shaped ∧
          text.Limited) := by
  rcases outcome with chosen | ⟨following, chosen, complete⟩
  · obtain ⟨bare, emptied, _⟩ := choose_body_complete_cases chosen
    rw [emptied]
    exact ⟨Nat.zero_le _, fun encoded => absurd bare encoded⟩
  · rcases choose_body_advances chosen with ⟨_, _, rfl⟩ | ⟨bare, length, _, _, fits, rfl⟩
    · obtain ⟨text, rest, written, shaped, limited, fits, rfl⟩ := decoded_text rfl complete
      refine ⟨?_, fun _ => ⟨text, rest, written, shaped, limited⟩⟩
      change ([] ++ text.body).length ≤ maxBodySize
      rwa [List.nil_append, ← Nat.zero_add text.body.length]
    · obtain ⟨_, bodyLength⟩ := body_run_completes (by rfl) complete
      exact ⟨bodyLength.trans_le fits, fun encoded => absurd bare encoded⟩

theorem accepted_sections (complete : parse data {} request = (.complete, stopped)) :
    ∃ head : MessageHead, ∃ rest, data = head.render ++ rest ∧ head.Shaped ∧ head.Limited ∧
      lineOf stopped.2 = lineOf (lineRequest (utils.parseMethod head.method) head.target) ∧
      stopped.2.headers.headers = head.fields ∧ stopped.2.body.length ≤ maxBodySize ∧
      (head.Chunked → ∃ text further, rest = ChunkedText.render text ++ further ∧ text.Shaped ∧
        text.Limited) := by
  obtain ⟨method, target, behind, written, plain, known, nonempty, noSpace, kept⟩ :=
    accepted_line complete
  obtain ⟨lineEnd, headersEnd, parser, reading, stored, found, lineShort, lineParsed, _,
    blockFound, blockShort, position, parsed, outcome⟩ := complete_sections complete
  have lineLength : (lineText method target).length = lineEnd := by
    have here := (line_found_iff crlf_delimits).mpr ⟨_, _, written, plain, rfl⟩
    exact Option.some.inj (here.symm.trans found)
  have ahead : data.drop (lineEnd + 2) = behind := by
    rw [written, ← lineLength, drop_past_line]
  have blank := (parse_request_line_completes lineParsed).2
  have storedFields := (stored_fields found blank blockFound parsed).1
  rw [ahead] at blockFound parsed
  obtain ⟨lines, rest, block, fields, counted, blockEnd, storedLines⟩ :=
    accepted_block blockFound parsed
  rw [blank] at storedLines
  let head : MessageHead := ⟨method, target, lines⟩
  have whole : data = head.render ++ rest := by
    rw [MessageHead.render_append, written, block]
    rfl
  obtain ⟨bodyFits, coded⟩ := accepted_body data
    (outcome.imp (fun done => done.1) fun ⟨following, chosen, complete, _⟩ =>
      ⟨following, chosen, complete⟩)
  refine ⟨head, rest, whole, ⟨known, nonempty, noSpace, plain, fields⟩, ⟨?_, ?_, counted⟩, kept,
    ?_, bodyFits, ?_⟩
  · exact lineLength.trans_le lineShort
  · rcases blockEnd with empty | same
    · change (crlf.intercalate lines).length ≤ _
      rw [empty]
      exact Nat.zero_le _
    · exact same.trans_le blockShort
  · rw [(complete_request_cases complete).1, ← storedFields]
    exact storedLines
  · intro chunked
    have filled : head.lines ≠ [] := by
      intro none
      apply chunked
      rw [MessageHead.fields, none]
      rfl
    have behindHead : parser.consumed = head.render.length := by
      rw [MessageHead.render_length head filled, position,
        ← (blockEnd.resolve_left filled), ← lineLength]
      rfl
    have encoded : stored.header transferEncodingName ≠ [] := by
      have same : stored.headers = HttpHeaders.mk head.fields := by
        rw [← show stored.headers.headers = head.fields from storedLines]
      rw [HttpRequest.header, same]
      exact chunked
    obtain ⟨text, further, rests, shaped, limited⟩ := coded encoded
    rw [behindHead, whole, List.drop_left] at rests
    exact ⟨text, further, rests, shaped, limited⟩

end Heads

section Requests

theorem line_request_path (method : HttpMethod) (target : Bytes) :
    (lineRequest method target).path = target.takeWhile (· ≠ 63) := by
  unfold lineRequest
  cases found : findSub [63] target with
  | none =>
      rw [find_sub_while_none found]
      rfl
  | some questionMark =>
      dsimp only
      rw [query_loop_path, ← (find_sub_while found).1]
      rfl

/-- No control character but the tab. -/
theorem valid_value_bytes {value : Bytes} (valid : utils.isValidHeaderValue value = true) :
    ∀ byte ∈ value, byte = 9 ∨ 32 ≤ byte ∧ byte ≠ 127 := by
  intro byte member
  have checked := List.all_eq_true.mp valid byte member
  simp only [Bool.and_eq_true, Bool.not_eq_true', decide_eq_false_iff_not] at checked
  obtain ⟨⟨_, visible⟩, notDelete⟩ := checked
  by_cases tab : byte = 9
  · exact Or.inl tab
  · refine Or.inr ⟨?_, notDelete⟩
    by_contra small
    simp [tab, UInt8.not_le.mp small] at visible

theorem accepted_request_as_sent (data : Bytes) (start : HttpRequest) (parser : HttpParser)
    (request : HttpRequest) (complete : parse data {} start = (.complete, parser, request)) :
    ∃ method target lines rest,
      data = lineText method target ++ (crlf ++ (linesText crlf lines ++ (crlf ++ rest))) ∧
      ¬crlf <:+: lineText method target ∧ (∀ line ∈ lines, line ≠ [] ∧ ¬crlf <:+: line) ∧
      request.method = utils.parseMethod method ∧ request.method ≠ .unknown ∧
      request.version = ascii "HTTP/1.1" ∧
      request.target = target ∧ target ≠ [] ∧ 32 ∉ target ∧
      request.path = target.takeWhile (· ≠ 63) ∧
      (∀ line ∈ lines, 58 ∈ line) ∧
      request.headers.headers = lines.map (fun line =>
        (line.takeWhile (· ≠ 58), utils.trimOws ((line.dropWhile (· ≠ 58)).drop 1))) ∧
      ∀ field ∈ request.headers.headers,
        field.1 ≠ [] ∧ (∀ byte ∈ field.1, utils.isTokenByte byte = true) ∧
          ∀ byte ∈ field.2, byte = 9 ∨ 32 ≤ byte ∧ byte ≠ 127 := by
  obtain ⟨head, rest, written, shaped, _, line, fields, _, _⟩ := accepted_sections complete
  obtain ⟨method, target, version, _, _⟩ :=
    line_request_parts (utils.parseMethod head.method) head.target
  have methods : request.method = utils.parseMethod head.method :=
    (congrArg HttpRequest.method line).trans method
  have paths : request.path = head.target.takeWhile (· ≠ 63) :=
    (congrArg HttpRequest.path line).trans (line_request_path _ _)
  refine ⟨head.method, head.target, head.lines, rest, ?_, shaped.plain,
    field_lines_plain shaped.lines, methods, ?_, (congrArg HttpRequest.version line).trans version,
    (congrArg HttpRequest.target line).trans target, shaped.nonempty, shaped.noSpace, paths, ?_,
    fields, ?_⟩
  · rw [written, MessageHead.render_append]
    rfl
  · rw [methods]
    exact shaped.known
  · intro line member
    exact ((is_field_line_of line).mp (shaped.lines line member)).1
  · intro field member
    obtain ⟨_, _, _, checked⟩ := complete_line complete
    have valid := checked field member
    rw [fieldIsValid, utils.isValidHeaderName, Bool.and_eq_true, Bool.and_eq_true] at valid
    obtain ⟨⟨nonempty, tokens⟩, value⟩ := valid
    exact ⟨by simpa using nonempty, List.all_eq_true.mp tokens, valid_value_bytes value⟩

def taggedMessage : Bytes := ascii "GET /a?b=c HTTP/1.1\r\nHost: x\r\nX-Tag:\t v \r\n\r\n"

theorem accepted_request_as_sent_tagged :
    ∃ parser request, parse taggedMessage {} {} = (.complete, parser, request) ∧
      request.headers.headers = [(ascii "Host", ascii "x"), (ascii "X-Tag", ascii "v")] ∧
      ∀ field ∈ request.headers.headers, field.1 ≠ [] := by
  have complete : parse taggedMessage {} {} =
      (.complete, (parse taggedMessage {} {}).2.1, (parse taggedMessage {} {}).2.2) :=
    Prod.ext (by decide +kernel) rfl
  obtain ⟨_, _, _, _, _, _, _, _, _, _, _, _, _, _, _, _, fields⟩ :=
    accepted_request_as_sent _ _ _ _ complete
  exact ⟨_, _, complete, by decide +kernel, fun field member => (fields field member).1⟩

end Requests

/-- A message up to the end of its chunked text, if it has one. -/
structure MessageText where
  head : MessageHead
  coded : Option ChunkedText

namespace MessageText

variable (message : MessageText)

def render : Bytes := message.head.render ++ message.coded.elim [] ChunkedText.render

def trailer : List Bytes := message.coded.elim [] ChunkedText.trailer

/-- The sections a message is made of: it has a chunked text when a
`Transfer-Encoding` says so. -/
structure Shaped : Prop where
  head : message.head.Shaped
  chunked : message.coded.isSome = true ↔ message.head.Chunked
  coded : ∀ text ∈ message.coded, text.Shaped

structure WithinLimits (body : Bytes) : Prop where
  head : message.head.Limited
  chunkLines : ∀ text ∈ message.coded,
    (∀ chunk ∈ text.chunks, chunk.1.length ≤ maxChunkLineSize) ∧
      text.last.length ≤ maxChunkLineSize
  trailerSize : (crlf.intercalate message.trailer).length ≤ maxHeaderSize
  trailerFields : message.trailer.length ≤ maxHeaders
  body : body.length ≤ maxBodySize

end MessageText

section Limits

variable {data : Bytes} {message other : MessageText}

theorem message_unique (shaped : message.Shaped) (shaped' : other.Shaped)
    (starts : message.render <+: data) (starts' : other.render <+: data) : other = message := by
  obtain ⟨rest, written⟩ := starts
  obtain ⟨further, written'⟩ := starts'
  have same := written'.trans written.symm
  rw [MessageText.render, MessageText.render, List.append_assoc, List.append_assoc] at same
  obtain ⟨heads, behind⟩ := head_unique shaped'.head shaped.head same
  have chunked := shaped.chunked
  rw [← heads, ← shaped'.chunked] at chunked
  obtain ⟨head, coded⟩ := message
  obtain ⟨head', coded'⟩ := other
  dsimp only at heads
  subst heads
  cases coded with
  | none =>
      cases coded' with
      | none => rfl
      | some text => simp at chunked
  | some text =>
      cases coded' with
      | none => simp at chunked
      | some text' =>
          have texts := text_unique (shaped'.coded text' rfl) (shaped.coded text rfl) behind
          rw [texts.1]

theorem accepted_message {start : HttpRequest} {stopped : Reading}
    (complete : parse data {} start = (.complete, stopped)) :
    ∃ message : MessageText, message.Shaped ∧ message.render <+: data ∧ message.head.Limited ∧
      (∀ text ∈ message.coded, text.Limited) ∧ stopped.2.body.length ≤ maxBodySize := by
  obtain ⟨head, rest, written, shaped, limited, _, _, fits, coded⟩ := accepted_sections complete
  by_cases chunked : head.Chunked
  · obtain ⟨text, further, rfl, shapedText, limitedText⟩ := coded chunked
    refine ⟨⟨head, some text⟩, ⟨shaped, ⟨fun _ => chunked, fun _ => rfl⟩, ?_⟩, ⟨further, ?_⟩, limited,
      ?_, fits⟩
    · rintro _ ⟨⟩
      exact shapedText
    · rw [written, ← List.append_assoc]
      rfl
    · rintro _ ⟨⟩
      exact limitedText
  · refine ⟨⟨head, none⟩, ⟨shaped, ⟨nofun, fun encoded => absurd encoded chunked⟩, nofun⟩,
      ⟨rest, ?_⟩, limited, nofun, fits⟩
    rw [written, MessageText.render, Option.elim_none, List.append_nil]

/-- Every limit is respected by an accepted message, except that of the trailer
section, which is respected when it is. -/
theorem limits_respected_iff (data : Bytes) (start : HttpRequest)
    (accepted : (parse data {} start).1 = .complete) :
    ∃ message : MessageText, message.Shaped ∧ message.render <+: data ∧
      (∀ other : MessageText, other.Shaped → other.render <+: data → other = message) ∧
      (message.WithinLimits (parse data {} start).2.2.body ↔
        (crlf.intercalate message.trailer).length ≤ maxHeaderSize) := by
  obtain ⟨message, shaped, starts, limited, coded, fits⟩ :=
    accepted_message (Prod.ext accepted rfl : parse data {} start = (.complete, _))
  refine ⟨message, shaped, starts, ?_, MessageText.WithinLimits.trailerSize, ?_⟩
  · intro other shaped' starts'
    exact message_unique shaped shaped' starts starts'
  · intro trailerFits
    refine ⟨limited, ?_, trailerFits, ?_, fits⟩
    · intro text member
      exact ⟨(coded text member).lines, (coded text member).last⟩
    · cases present : message.coded with
      | none =>
          rw [MessageText.trailer, present]
          exact Nat.zero_le _
      | some text =>
          rw [MessageText.trailer, present]
          exact (coded text present).trailer

def codedHead : MessageHead where
  method := ascii "POST"
  target := ascii "/"
  lines := [ascii "Transfer-Encoding: chunked"]

theorem limits_respected_iff_coded :
    (parse (codedHead.render ++ ascii "1\r\nx\r\n0\r\nA: b\r\n\r\n") {} {}).1 = .complete ∧
      ∃ message : MessageText, message.Shaped ∧
        message.render <+: codedHead.render ++ ascii "1\r\nx\r\n0\r\nA: b\r\n\r\n" ∧
        (message.WithinLimits
            (parse (codedHead.render ++ ascii "1\r\nx\r\n0\r\nA: b\r\n\r\n") {} {}).2.2.body ↔
          (crlf.intercalate message.trailer).length ≤ maxHeaderSize) := by
  have accepted : (parse (codedHead.render ++ ascii "1\r\nx\r\n0\r\nA: b\r\n\r\n") {} {}).1 =
      .complete := by decide +kernel
  obtain ⟨message, shaped, starts, _, limits⟩ := limits_respected_iff _ {} accepted
  exact ⟨accepted, message, shaped, starts, limits⟩

theorem coded_head_shaped : codedHead.Shaped where
  known := by decide
  nonempty := by decide
  noSpace := by decide
  plain := by decide
  lines := by
    intro line member
    rw [List.mem_singleton.mp member]
    exact ⟨ascii "Transfer-Encoding", ascii " chunked", by decide, by decide +kernel,
      by decide +kernel⟩

theorem coded_head_waits (rest : Bytes) :
    ∃ parser request, parser.state = .chunkSize ∧ parser.body = [] ∧
      parser.consumed = codedHead.render.length ∧
      parse (codedHead.render ++ rest) {} {} = parse (codedHead.render ++ rest) parser request := by
  have waits : (parse codedHead.render {} {}).1 = .incomplete ∧
      (parse codedHead.render {} {}).2.1.state = .chunkSize ∧
      (parse codedHead.render {} {}).2.1.body = [] ∧
      (parse codedHead.render {} {}).2.1.consumed = codedHead.render.length := by decide +kernel
  obtain ⟨waiting, atSize, empty, position⟩ := waits
  refine ⟨_, (parse codedHead.render {} {}).2.2, atSize, empty, position, ?_⟩
  have accepted : (parse codedHead.render {} {}).1 ≠ .invalid := by
    rw [waiting]
    decide
  exact (requestReader.resume (List.prefix_append codedHead.render rest) ({}, {}) fresh_counters
    accepted).symm

/-- A trailer of one field whose line alone is longer than a header section may be. -/
def longTrailer : ChunkedText where
  chunks := []
  last := ascii "0"
  trailer := [ascii "A:" ++ List.replicate maxHeaderSize 120]

theorem long_trailer_shaped : longTrailer.Shaped where
  chunks := nofun
  last := ⟨by decide, by decide, by decide +kernel, by decide +kernel⟩
  trailer := by
    intro line member
    rw [List.mem_singleton.mp member]
    refine ⟨ascii "A", List.replicate maxHeaderSize 120, rfl, by decide +kernel, ?_⟩
    obtain ⟨front, back, whole, _⟩ := trim_split (List.replicate maxHeaderSize 120)
    apply List.all_eq_true.mpr
    intro byte inside
    have written : byte ∈ List.replicate maxHeaderSize 120 := by
      rw [whole]
      simp [inside]
    rw [List.eq_of_mem_replicate written]
    decide

theorem long_trailer_accepted :
    (parse (MessageText.mk codedHead longTrailer).render {} {}).1 = .complete ∧
      (MessageText.mk codedHead longTrailer).Shaped ∧
      ¬(MessageText.mk codedHead longTrailer).WithinLimits
        (parse (MessageText.mk codedHead longTrailer).render {} {}).2.2.body := by
  obtain ⟨parser, request, atSize, empty, position, resumed⟩ :=
    coded_head_waits longTrailer.render
  refine ⟨?_, ⟨coded_head_shaped, ?_, ?_⟩, ?_⟩
  · change (parse (codedHead.render ++ longTrailer.render) {} {}).1 = .complete
    have ahead : (codedHead.render ++ longTrailer.render).drop parser.consumed =
        longTrailer.render ++ [] := by
      rw [position, List.drop_left, List.append_nil]
    have fits : parser.body.length + longTrailer.body.length ≤ maxBodySize := by
      rw [empty]
      exact Nat.zero_le _
    have decoded : parse (codedHead.render ++ longTrailer.render) parser request =
        (.complete, longTrailer.behind parser request) :=
      decodes_text atSize ahead long_trailer_shaped ⟨nofun, by decide, by decide⟩ fits
    rw [resumed]
    exact congrArg Prod.fst decoded
  · refine ⟨fun _ => ?_, fun _ => rfl⟩
    change (HttpHeaders.mk codedHead.fields).get transferEncodingName ≠ []
    decide +kernel
  · rintro _ ⟨⟩
    exact long_trailer_shaped
  · intro limits
    have size := limits.trailerSize
    simp only [MessageText.trailer, Option.elim_some, longTrailer, List.intercalate_singleton,
      List.length_append, List.length_replicate] at size
    exact absurd size (by decide)

end Limits

end HttpServer.AcceptedMessages
