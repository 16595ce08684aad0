import HttpServer.FieldLines
import HttpServer.ParserResume

/-!
# Where a request body ends

The header loop stores the fields of the header section in order; which body
handler runs is then decided from the first `Content-Length` and the first
`Transfer-Encoding` field, and a field with an empty value counts as absent.
Framing is therefore unambiguous exactly for header sections in which no
framing field is empty and the `Transfer-Encoding` fields agree.
-/

namespace HttpServer.ParserFraming

open ListSearch LineBlocks MeasuredLoop HttpParser ParserResume FieldLines

/-- The fields of the header section of a message: its lines between the first
CRLF and the first empty line after it, each split at its first colon. -/
def headerFields (data : Bytes) : List (Bytes × Bytes) :=
  match findSub crlf data with
  | none => []
  | some lineEnd => (blockLines crlf (data.drop (lineEnd + 2))).filterMap splitField

theorem header_loop_lines (cursor : HeaderCursor) (stored : HttpRequest)
    (finished : headerLoop.run cursor = (.complete, stored)) :
    ∃ lines rest, cursor.rest = linesText crlf lines ++ (crlf ++ rest) ∧
      (∀ line ∈ lines, IsFieldLine line) ∧
      (lines = [] ∨ cursor.headerCount + lines.length ≤ maxHeaders) ∧
      stored = { cursor.request with
        headers := ⟨cursor.request.headers.headers ++ lines.map fieldOf⟩ } := by
  induction cursor using headerLoop.run_induction with
  | done cursor result turned =>
      rw [headerLoop.run_done turned] at finished
      subst finished
      obtain ⟨same, accepts, _⟩ := header_turn_done turned
      obtain ⟨rest, written⟩ := ((find_sub_eq_some_iff _ _ _).mp (accepts rfl)).2.1
      refine ⟨[], rest, written.symm, List.forall_mem_nil _, Or.inl rfl, ?_⟩
      rw [List.map_nil, List.append_nil]
      exact same
  | next cursor following turned ih =>
      rw [headerLoop.run_next turned] at finished
      obtain ⟨lineEnd, field, _, found, positive, split, valid, counted, _, rfl⟩ :=
        header_turn_next turned
      obtain ⟨line, behind, written, _, rfl⟩ := (line_found_iff crlf_delimits).mp found
      obtain ⟨lines, rest, remaining, fields, bounded, same⟩ := ih finished
      rw [written, List.take_left] at split
      dsimp only at remaining bounded same
      rw [written, drop_past_line] at remaining
      refine ⟨line :: lines, rest, ?_, ?_, ?_, ?_⟩
      · rw [lines_text_cons, ← remaining, written]
      · exact List.forall_mem_cons.mpr ⟨(is_field_line_iff line).mpr ⟨field, split, valid⟩, fields⟩
      · right
        rcases bounded with rfl | bounded
        · exact counted
        · rw [List.length_cons]
          omega
      · rw [same, ((split_field_iff line field).mp split).2]
        simp [HttpRequest.addHeader, HttpHeaders.add]

theorem header_loop_complete (cursor : HeaderCursor) (stored : HttpRequest)
    (finished : headerLoop.run cursor = (.complete, stored)) :
    ∃ fields, (blockLines crlf cursor.rest).map splitField = fields.map some ∧
      (∀ field ∈ fields, fieldIsValid field = true) ∧
      (fields = [] ∨ cursor.headerCount + fields.length ≤ maxHeaders) ∧
      stored = { cursor.request with
        headers := ⟨cursor.request.headers.headers ++ fields⟩ } := by
  obtain ⟨lines, rest, written, fields, bounded, same⟩ := header_loop_lines cursor stored finished
  refine ⟨lines.map fieldOf, ?_, ?_, ?_, same⟩
  · rw [written, block_lines_text crlf_delimits rest (field_lines_plain fields), List.map_map]
    apply List.map_congr_left
    intro line member
    exact (split_field_iff line _).mpr ⟨((is_field_line_of line).mp (fields line member)).1, rfl⟩
  · intro field member
    obtain ⟨line, isLine, rfl⟩ := List.mem_map.mp member
    exact ((is_field_line_of line).mp (fields line isLine)).2
  · rwa [List.map_eq_nil_iff, List.length_map]

theorem block_lines_extends {block : Bytes} (ends : EndsBlock block) (more : Bytes) :
    blockLines crlf (block ++ more) = blockLines crlf block := by
  induction size : block.length using Nat.strong_induction_on generalizing block with
  | _ size ih =>
      obtain ⟨lineEnd, found⟩ := ends_block_has_line ends
      have bound := find_sub_bound found
      by_cases empty : lineEnd = 0
      · subst empty
        rw [block_lines_empty found, block_lines_empty (find_sub_append found more)]
      · have shorter := ih (block.drop (lineEnd + crlf.length)).length
          (by rw [List.length_drop]; omega) (ends_block_after_line ends found empty) rfl
        rw [block_lines_cons found empty, block_lines_cons (find_sub_append found more) empty,
          List.take_append_of_le_length (by omega), drop_append_inside bound]
        exact congrArg (block.take lineEnd :: ·) shorter

theorem filter_map_of_map_some {lines : List Bytes} {fields : List (Bytes × Bytes)}
    (splits : lines.map splitField = fields.map some) : lines.filterMap splitField = fields := by
  have composed : lines.filterMap splitField = (lines.map splitField).filterMap id := by
    rw [List.filterMap_map, Function.id_comp]
  rw [composed, splits, List.filterMap_map]
  simp

/-- Repeated `Content-Length` fields agree, unless the first one is empty. -/
def LengthsAgree (headers : HttpHeaders) : Prop :=
  headers.get contentLengthName = [] ∨
    ∀ value ∈ headers.values contentLengthName, value = headers.get contentLengthName

theorem lengths_agree_add {request : HttpRequest} {field : Bytes × Bytes}
    (agree : LengthsAgree request.headers)
    (compatible : contentLengthConflicts request field = false) :
    LengthsAgree (request.addHeader field.1 field.2).headers := by
  have stored := HttpHeaders.values_add request.headers field.1 field.2 contentLengthName
  have first := HttpHeaders.get_eq_head_values request.headers contentLengthName
  have firstAfter := HttpHeaders.get_eq_head_values (request.headers.add field.1 field.2)
    contentLengthName
  simp only [LengthsAgree, HttpRequest.addHeader]
  by_cases named : HttpHeaders.equalsIgnoreCase field.1 contentLengthName = true
  · rw [if_pos named] at stored
    rw [stored] at firstAfter ⊢
    cases present : request.headers.values contentLengthName with
    | nil =>
        right
        rw [present] at firstAfter
        intro value member
        rw [firstAfter]
        simpa using member
    | cons head rest =>
        rw [present] at first firstAfter
        simp only [List.headD_cons, List.cons_append] at first firstAfter
        rcases agree with empty | same
        · left
          rw [firstAfter, ← first, empty]
        · by_cases empty : head = []
          · left
            rw [firstAfter, empty]
          · right
            intro value member
            rw [firstAfter]
            rcases List.mem_append.mp member with old | new
            · rw [present] at same
              rw [same value old, first]
            · have equal : field.2 = request.header contentLengthName := by
                have nonempty : (request.header contentLengthName).isEmpty = false := by
                  simpa [HttpRequest.header, first] using empty
                have named' : utils.equalsIgnoreCase field.1 contentLengthName = true := named
                simp only [contentLengthConflicts, named', nonempty, Bool.not_false,
                  Bool.true_and, decide_eq_false_iff_not, not_not] at compatible
                exact compatible.symm
              rw [List.mem_singleton.mp new, equal]
              exact first
  · rw [if_neg named, List.append_nil] at stored
    rw [stored] at firstAfter ⊢
    rw [firstAfter, ← first]
    exact agree

theorem header_loop_lengths_agree (cursor : HeaderCursor)
    (agree : LengthsAgree cursor.request.headers) :
    LengthsAgree (headerLoop.run cursor).2.headers := by
  refine headerLoop.run_invariant (fun cursor => LengthsAgree cursor.request.headers)
    (fun result => LengthsAgree result.2.headers) ?_ ?_ agree
  · intro state following before turned
    obtain ⟨_, field, _, _, _, _, _, _, compatible, rfl⟩ := header_turn_next turned
    exact lengths_agree_add before compatible
  · intro state result before turned
    rw [(header_turn_done turned).1]
    exact before

theorem split_field_value_trimmed {line : Bytes} {field : Bytes × Bytes}
    (fieldSplit : splitField line = some field) : utils.trimOws field.2 = field.2 := by
  unfold splitField at fieldSplit
  obtain ⟨colon, _, rfl⟩ := Option.map_eq_some_iff.mp fieldSplit
  exact utils.trim_ows_idempotent _

theorem stored_fields {data : Bytes} {lineEnd headersEnd : Nat} {line stored : HttpRequest}
    (lineFound : findSub crlf data = some lineEnd) (blank : line.headers = {})
    (blockFound : findSub crlfCrlf (data.drop (lineEnd + 2)) = some headersEnd)
    (parsed : parseHeaders ((data.drop (lineEnd + 2)).take (headersEnd + 4)) line =
      (.complete, stored)) :
    stored.headers.headers = headerFields data ∧ LengthsAgree stored.headers ∧
      ∀ field ∈ headerFields data, utils.trimOws field.2 = field.2 := by
  have ends := block_ends blockFound
  obtain ⟨fields, splits, _, _, same⟩ := header_loop_complete _ _ parsed
  have lines := block_lines_extends ends ((data.drop (lineEnd + 2)).drop (headersEnd + 4))
  rw [List.take_append_drop] at lines
  have sectionFields : headerFields data = fields := by
    unfold headerFields
    rw [lineFound]
    dsimp only
    rw [lines]
    exact filter_map_of_map_some splits
  refine ⟨?_, ?_, ?_⟩
  · rw [same, blank, sectionFields]
    rfl
  · have agree := header_loop_lengths_agree
      ⟨(data.drop (lineEnd + 2)).take (headersEnd + 4), 0, line⟩
      (Or.inl (by rw [blank]; rfl))
    unfold parseHeaders at parsed
    rw [parsed] at agree
    exact agree
  · intro field member
    unfold headerFields at member
    rw [lineFound] at member
    obtain ⟨_, _, fieldSplit⟩ := List.mem_filterMap.mp member
    exact split_field_value_trimmed fieldSplit

theorem complete_sections {data : Bytes} {request : HttpRequest} {stopped : Reading}
    (complete : parse data {} request = (.complete, stopped)) :
    ∃ lineEnd headersEnd parser reading stored, findSub crlf data = some lineEnd ∧
      lineEnd ≤ maxRequestLine ∧
      parseRequestLine data request = (.complete, reading.2) ∧ reading.1.state = .headers ∧
      findSub crlfCrlf (data.drop (lineEnd + 2)) = some headersEnd ∧
      headersEnd ≤ maxHeaderSize ∧
      parser.consumed = lineEnd + 2 + (headersEnd + 4) ∧
      parseHeaders ((data.drop (lineEnd + 2)).take (headersEnd + 4)) reading.2 =
        (.complete, stored) ∧
      ((chooseBody parser stored = (some .complete, stopped) ∧
          (parseLoop data).path ({}, request) = [({}, request), reading]) ∨
        ∃ following, chooseBody parser stored = (none, following) ∧
          (parseLoop data).run following = (.complete, stopped) ∧
          (parseLoop data).path ({}, request) =
            ({}, request) :: reading :: (parseLoop data).path following) := by
  unfold parse at complete
  cases first : parseTurn data ({}, request) with
  | done result =>
      obtain ⟨result, halted⟩ := result
      rw [(parseLoop data).run_done first] at complete
      cases complete
      have handled := (parse_turn_done_iff _ _ _ _).mp first
      obtain ⟨waiting, _⟩ := handle_request_line_waits handled (by decide)
      cases waiting
  | next reading =>
      rw [(parseLoop data).run_next first] at complete
      have handledLine : handleRequestLine data {} request = (none, reading) :=
        (parse_turn_next_iff _ _ _).mp first
      obtain ⟨lineEnd, _, lineFound, lineShort, lineParsed, moved⟩ :=
        handle_request_line_advances handledLine
      rw [List.drop_zero] at lineFound lineParsed
      have atHeaders : reading.1.state = .headers := by rw [moved]
      have position : reading.1.consumed = lineEnd + 2 := by
        rw [moved]
        exact Nat.zero_add _
      cases second : parseTurn data reading with
      | done result =>
          obtain ⟨result, halted⟩ := result
          rw [(parseLoop data).run_done second] at complete
          cases complete
          have handled := (parse_turn_done_iff _ _ _ _).mp second
          simp only [handleState, atHeaders] at handled
          obtain ⟨headersEnd, stored, _, blockFound, short, parsed, chosen⟩ :=
            handle_headers_decides handled (Or.inr rfl)
          rw [position] at blockFound parsed chosen
          refine ⟨lineEnd, headersEnd, _, reading, stored, lineFound, lineShort, lineParsed,
            atHeaders, blockFound, short, rfl, parsed, Or.inl ⟨chosen, ?_⟩⟩
          rw [(parseLoop data).path_next first, (parseLoop data).path_done second]
      | next following =>
          rw [(parseLoop data).run_next second] at complete
          have handled := (parse_turn_next_iff _ _ _).mp second
          simp only [handleState, atHeaders] at handled
          obtain ⟨headersEnd, stored, _, blockFound, short, parsed, chosen⟩ :=
            handle_headers_decides handled (Or.inl rfl)
          rw [position] at blockFound parsed chosen
          refine ⟨lineEnd, headersEnd, _, reading, stored, lineFound, lineShort, lineParsed,
            atHeaders, blockFound, short, rfl, parsed, Or.inr ⟨following, chosen, complete, ?_⟩⟩
          rw [(parseLoop data).path_next first, (parseLoop data).path_next second]

theorem complete_run_head {data : Bytes} {request : HttpRequest} {stopped : Reading}
    (complete : parse data {} request = (.complete, stopped)) :
    ∃ parser line stored, stored.headers.headers = headerFields data ∧
      LengthsAgree stored.headers ∧
      (∀ field ∈ headerFields data, utils.trimOws field.2 = field.2) ∧
      ((chooseBody parser stored = (some .complete, stopped) ∧
          (parseLoop data).path ({}, request) = [({}, request), line]) ∨
        ∃ following, chooseBody parser stored = (none, following) ∧
          (parseLoop data).run following = (.complete, stopped) ∧
          (parseLoop data).path ({}, request) =
            ({}, request) :: line :: (parseLoop data).path following) ∧
      line.1.state = .headers := by
  obtain ⟨lineEnd, headersEnd, parser, reading, stored, lineFound, _, lineParsed, atHeaders,
    blockFound, _, _, parsed, outcome⟩ := complete_sections complete
  have blank := (parse_request_line_completes lineParsed).2
  obtain ⟨fields, agree, trimmed⟩ := stored_fields lineFound blank blockFound parsed
  exact ⟨parser, reading, stored, fields, agree, trimmed, outcome, atHeaders⟩

def isChunkState : ParserState → Bool
  | .chunkSize | .chunkData | .chunkDataCrlf | .chunkTrailer => true
  | _ => false

theorem chunk_state_ne_body {state : ParserState} (chunked : isChunkState state = true) :
    state ≠ .body := by
  intro atBody
  rw [atBody] at chunked
  cases chunked

/-- From the chunk states a request completes only through its trailer, and no
other body handler runs on the way. -/
theorem chunk_run_completes {data : Bytes} (reading : Reading) {stopped : Reading}
    (chunked : isChunkState reading.1.state = true)
    (complete : (parseLoop data).run reading = (.complete, stopped)) :
    stopped.2.headers = reading.2.headers ∧
      (∃ last ∈ (parseLoop data).path reading, last.1.state = .chunkTrailer) ∧
      ∀ visited ∈ (parseLoop data).path reading, visited.1.state ≠ .body := by
  induction reading using (parseLoop data).run_induction with
  | done reading result turned =>
      obtain ⟨result, halted⟩ := result
      rw [(parseLoop data).run_done turned] at complete
      cases complete
      rw [(parseLoop data).path_done turned]
      have handled := (parse_turn_done_iff _ _ _ _).mp turned
      obtain ⟨parser, request⟩ := reading
      have only : ∀ visited ∈ [(parser, request)], visited.1.state ≠ .body := by
        intro visited member
        rw [List.mem_singleton.mp member]
        exact chunk_state_ne_body chunked
      cases handle_state_completes handled with
      | chunkTrailer at_state handled =>
          refine ⟨?_, ⟨_, List.mem_singleton_self _, at_state⟩, only⟩
          obtain ⟨_, ⟨_, ended⟩ | ⟨_, _, _, _, ended⟩⟩ := handle_chunk_trailer_completes handled
          all_goals
            cases ended
            rfl
      | headers at_state | body at_state | complete at_state =>
          rw [at_state] at chunked
          cases chunked
  | next reading following turned ih =>
      rw [(parseLoop data).run_next turned] at complete
      have handled := (parse_turn_next_iff _ _ _).mp turned
      obtain ⟨parser, request⟩ := reading
      have step : isChunkState following.1.state = true ∧ following.2 = request := by
        cases handle_state_advances handled with
        | chunkSize at_state handled kept =>
            obtain ⟨_, size, _, _, _, _, _, moved⟩ := handle_chunk_size_advances handled
            refine ⟨?_, kept⟩
            rw [moved]
            dsimp only
            split_ifs <;> rfl
        | chunkData at_state handled kept =>
            obtain ⟨_, entered⟩ := handle_chunk_data_advances_consumed handled
            exact ⟨by rw [entered]; rfl, kept⟩
        | chunkDataCrlf at_state handled kept =>
            obtain ⟨_, _, _, moved⟩ := handle_chunk_data_crlf_advances handled
            exact ⟨by rw [moved]; rfl, kept⟩
        | requestLine at_state | headers at_state =>
            rw [at_state] at chunked
            cases chunked
      obtain ⟨sameHeaders, ⟨last, member, ended⟩, others⟩ := ih step.1 complete
      rw [(parseLoop data).path_next turned]
      refine ⟨by rw [sameHeaders, step.2], ⟨last, List.mem_cons_of_mem _ member, ended⟩, ?_⟩
      intro visited visitedMember
      rcases List.mem_cons.mp visitedMember with rfl | later
      · exact chunk_state_ne_body chunked
      · exact others visited later

theorem body_run_completes {data : Bytes} {reading stopped : Reading}
    (atBody : reading.1.state = .body)
    (complete : (parseLoop data).run reading = (.complete, stopped)) :
    stopped.2.headers = reading.2.headers ∧ stopped.2.body.length = reading.1.bodySize := by
  obtain ⟨parser, request⟩ := reading
  change parser.state = .body at atBody
  have handled : handleBody data parser request = (some .complete, stopped) := by
    cases turned : parseTurn data (parser, request) with
    | next following =>
        have advanced := (parse_turn_next_iff _ _ _).mp turned
        simp only [handleState, atBody] at advanced
        unfold handleBody at advanced
        repeat' split at advanced
        all_goals cases advanced
    | done result =>
        obtain ⟨result, halted⟩ := result
        rw [(parseLoop data).run_done turned] at complete
        cases complete
        have ended := (parse_turn_done_iff _ _ _ _).mp turned
        simp only [handleState, atBody] at ended
        exact ended
  obtain ⟨fits, rfl⟩ := handle_body_completes handled
  refine ⟨rfl, ?_⟩
  simp only [HttpRequest.setBody, List.length_take, List.length_drop]
  omega

/-- The states whose handlers ran while a fresh parser read `data`. -/
def visitedStates (data : Bytes) (request : HttpRequest) : List ParserState :=
  ((parseLoop data).path ({}, request)).map fun reading => reading.1.state

/-- Unambiguous framing of the request a fresh parser makes of `data`. -/
structure UnambiguousFraming (data : Bytes) (request : HttpRequest) : Prop where
  notBoth : ¬((parse data {} request).2.2.headers.values contentLengthName ≠ [] ∧
    (parse data {} request).2.2.headers.values transferEncodingName ≠ [])
  sameLength : ∀ value ∈ (parse data {} request).2.2.headers.values contentLengthName,
    ∀ other ∈ (parse data {} request).2.2.headers.values contentLengthName, value = other
  bodyLength : ∀ value ∈ (parse data {} request).2.2.headers.values contentLengthName,
    value ≠ [] ∧ value.all utils.isDigit = true ∧
      utils.decimalValue value = (parse data {} request).2.2.body.length
  allChunked : ∀ value ∈ (parse data {} request).2.2.headers.values transferEncodingName,
    utils.equalsIgnoreCase value (ascii "chunked") = true
  readByChunks : (parse data {} request).2.2.headers.values transferEncodingName ≠ [] →
    .chunkTrailer ∈ visitedStates data request ∧ .body ∉ visitedStates data request

def isFramingName (name : Bytes) : Bool :=
  utils.equalsIgnoreCase name contentLengthName || utils.equalsIgnoreCase name transferEncodingName

/-- No framing field of the header section is empty, and its
`Transfer-Encoding` fields are the same up to letter case. -/
def FramingFieldsSettled (data : Bytes) : Prop :=
  (∀ field ∈ headerFields data, isFramingName field.1 = true → field.2 ≠ []) ∧
    ∀ field ∈ headerFields data, ∀ other ∈ headerFields data,
      utils.equalsIgnoreCase field.1 transferEncodingName = true →
      utils.equalsIgnoreCase other.1 transferEncodingName = true →
        utils.equalsIgnoreCase field.2 other.2 = true

theorem mem_values_iff (headers : HttpHeaders) (name value : Bytes) :
    value ∈ headers.values name ↔
      ∃ field ∈ headers.headers, utils.equalsIgnoreCase field.1 name = true ∧ field.2 = value := by
  simp only [HttpHeaders.values, HttpHeaders.equalsIgnoreCase, List.mem_map, List.mem_filter,
    and_assoc]

theorem values_eq_nil_of_get {headers : HttpHeaders} {name : Bytes}
    (filled : ∀ value ∈ headers.values name, value ≠ []) (absent : headers.get name = []) :
    headers.values name = [] := by
  have first := HttpHeaders.get_eq_head_values headers name
  cases present : headers.values name with
  | nil => rfl
  | cons head rest =>
      rw [present, absent] at first
      exact absurd first.symm (filled head (by rw [present]; exact List.mem_cons_self))

theorem parse_content_length_eq {value : Bytes} {result length : Nat}
    (parsed : utils.parseContentLength value result = (true, length)) :
    value ≠ [] ∧ value.all utils.isDigit = true ∧ utils.decimalValue value = length := by
  unfold utils.parseContentLength at parsed
  split at parsed
  · cases parsed
  · rename_i nonempty
    split at parsed
    · cases parsed
    · rename_i digits
      split at parsed
      · cases parsed
        exact ⟨by simpa using nonempty, by simpa using digits, rfl⟩
      · cases parsed

theorem choose_body_complete_cases {parser : HttpParser} {request : HttpRequest}
    {stopped : Reading} (chosen : chooseBody parser request = (some .complete, stopped)) :
    request.header transferEncodingName = [] ∧ stopped.2 = request.setBody [] ∧
      (request.header contentLengthName = [] ∨
        utils.parseContentLength (request.header contentLengthName) 0 = (true, 0)) := by
  unfold chooseBody at chosen
  dsimp only at chosen
  split at chosen
  · cases chosen
  · split at chosen
    · split at chosen <;> cases chosen
    · rename_i plain
      split at chosen
      · rename_i bare
        cases chosen
        exact ⟨by simpa using plain, rfl, Or.inl (by simpa using bare)⟩
      · split at chosen
        · cases chosen
        · rename_i parsed
          split at chosen
          · cases chosen
          · split at chosen
            · rename_i zero
              cases chosen
              exact ⟨by simpa using plain, rfl,
                Or.inr (Prod.ext (by simpa using parsed) zero)⟩
            · cases chosen

theorem complete_request_cases {data : Bytes} {request : HttpRequest} {stopped : Reading}
    (complete : parse data {} request = (.complete, stopped)) :
    stopped.2.headers.headers = headerFields data ∧ LengthsAgree stopped.2.headers ∧
      (∀ field ∈ headerFields data, utils.trimOws field.2 = field.2) ∧
      ((stopped.2.headers.get transferEncodingName = [] ∧
          (stopped.2.headers.get contentLengthName = [] ∨ ∃ length,
            utils.parseContentLength (stopped.2.headers.get contentLengthName) 0 = (true, length) ∧
            stopped.2.body.length = length)) ∨
        (stopped.2.headers.get contentLengthName = [] ∧
          utils.equalsIgnoreCase (utils.trimOws (stopped.2.headers.get transferEncodingName))
            (ascii "chunked") = true ∧
          .chunkTrailer ∈ visitedStates data request ∧
          .body ∉ visitedStates data request)) := by
  obtain ⟨parser, line, stored, fields, agree, trimmed, outcome, atHeaders⟩ :=
    complete_run_head complete
  rcases outcome with ⟨chosen, _⟩ | ⟨following, chosen, rest, visited⟩
  · obtain ⟨plain, same, length⟩ := choose_body_complete_cases chosen
    have sameHeaders : stopped.2.headers = stored.headers := by rw [same]; rfl
    rw [sameHeaders]
    refine ⟨fields, agree, trimmed, Or.inl ⟨plain, ?_⟩⟩
    rcases length with bare | parsed
    · exact Or.inl bare
    · exact Or.inr ⟨0, parsed, by rw [same]; rfl⟩
  · rcases choose_body_advances chosen with ⟨bare, chunked, rfl⟩ | ⟨plain, length, parsed, _, _, rfl⟩
    · obtain ⟨sameHeaders, ⟨last, lastMember, ended⟩, others⟩ :=
        chunk_run_completes _ (by rfl) rest
      rw [sameHeaders]
      refine ⟨fields, agree, trimmed, Or.inr ⟨bare, chunked, ?_, ?_⟩⟩
      · rw [visitedStates, visited]
        apply List.mem_map.mpr
        exact ⟨last, List.mem_cons_of_mem _ (List.mem_cons_of_mem _ lastMember), ended⟩
      · rw [visitedStates, visited]
        intro member
        obtain ⟨reading, readingMember, atBody⟩ := List.mem_map.mp member
        rcases List.mem_cons.mp readingMember with rfl | later
        · cases atBody
        · rcases List.mem_cons.mp later with rfl | further
          · rw [atHeaders] at atBody
            cases atBody
          · exact others reading further atBody
    · obtain ⟨sameHeaders, bodyLength⟩ := body_run_completes (by rfl) rest
      rw [sameHeaders]
      exact ⟨fields, agree, trimmed, Or.inl ⟨plain, Or.inr ⟨length, parsed, bodyLength⟩⟩⟩

section Settled

variable {data : Bytes} {headers : HttpHeaders} (fields : headers.headers = headerFields data)

include fields

theorem mem_stored_values_iff (name value : Bytes) :
    value ∈ headers.values name ↔
      ∃ field ∈ headerFields data, utils.equalsIgnoreCase field.1 name = true ∧
        field.2 = value := by
  rw [mem_values_iff, fields]

theorem settled_filled (settled : FramingFieldsSettled data) {name : Bytes}
    (framing : ∀ other, utils.equalsIgnoreCase other name = true → isFramingName other = true) :
    ∀ value ∈ headers.values name, value ≠ [] := by
  intro value member
  obtain ⟨field, fieldMember, named, rfl⟩ := (mem_stored_values_iff fields _ _).mp member
  exact settled.1 field fieldMember (framing field.1 named)

/-- The parser looks at the first `Transfer-Encoding` field only; in a settled
header section the others agree with it. -/
theorem settled_all_chunked (settled : FramingFieldsSettled data)
    (trimmed : ∀ field ∈ headerFields data, utils.trimOws field.2 = field.2)
    (chunked : utils.equalsIgnoreCase (utils.trimOws (headers.get transferEncodingName))
      (ascii "chunked") = true) :
    ∀ value ∈ headers.values transferEncodingName,
      utils.equalsIgnoreCase value (ascii "chunked") = true := by
  intro value member
  obtain ⟨field, fieldMember, named, rfl⟩ := (mem_stored_values_iff fields _ _).mp member
  have first := HttpHeaders.get_eq_head_values headers transferEncodingName
  cases present : headers.values transferEncodingName with
  | nil =>
      rw [present] at member
      cases member
  | cons head rest =>
      rw [present] at first
      obtain ⟨headField, headMember, headNamed, headValue⟩ :=
        (mem_stored_values_iff fields transferEncodingName head).mp
          (by rw [present]; exact List.mem_cons_self)
      have headChunked : utils.equalsIgnoreCase head (ascii "chunked") = true := by
        rw [first, List.headD_cons, ← headValue, trimmed headField headMember,
          headValue] at chunked
        exact chunked
      have agreed := settled.2 field fieldMember headField headMember named headNamed
      rw [headValue] at agreed
      rw [utils.equals_ignore_case_iff] at headChunked agreed ⊢
      rw [agreed, headChunked]

end Settled

theorem stored_lengths {headers : HttpHeaders} {size : Nat} (agree : LengthsAgree headers)
    (filled : ∀ value ∈ headers.values contentLengthName, value ≠ [])
    (length : headers.get contentLengthName = [] ∨ ∃ length,
      utils.parseContentLength (headers.get contentLengthName) 0 = (true, length) ∧
        size = length) :
    ∀ value ∈ headers.values contentLengthName,
      value = headers.get contentLengthName ∧ value.all utils.isDigit = true ∧
        utils.decimalValue value = size := by
  intro value member
  rcases length with absent | ⟨length, parsed, sameSize⟩
  · rw [values_eq_nil_of_get filled absent] at member
    cases member
  · obtain ⟨nonempty, digits, decimal⟩ := parse_content_length_eq parsed
    rcases agree with empty | same
    · exact absurd empty nonempty
    · have equal := same value member
      exact ⟨equal, by rw [equal]; exact digits, by rw [equal, sameSize]; exact decimal⟩

theorem settled_of_unambiguous {data : Bytes} {request : HttpRequest}
    (fields : (parse data {} request).2.2.headers.headers = headerFields data)
    (unambiguous : UnambiguousFraming data request) : FramingFieldsSettled data := by
  have chunked : ∀ field ∈ headerFields data,
      utils.equalsIgnoreCase field.1 transferEncodingName = true →
        utils.equalsIgnoreCase field.2 (ascii "chunked") = true := by
    intro field member named
    exact unambiguous.allChunked field.2
      ((mem_stored_values_iff fields _ _).mpr ⟨field, member, named, rfl⟩)
  constructor
  · intro field member named
    rcases Bool.or_eq_true_iff.mp named with length | encoding
    · exact (unambiguous.bodyLength field.2
        ((mem_stored_values_iff fields _ _).mpr ⟨field, member, length, rfl⟩)).1
    · intro empty
      have emptyChunked := chunked field member encoding
      rw [empty] at emptyChunked
      revert emptyChunked
      decide
  · intro field member other otherMember named otherNamed
    have first := chunked field member named
    have second := chunked other otherMember otherNamed
    rw [utils.equals_ignore_case_iff] at first second ⊢
    rw [first, second]

/-- A completed request is framed without ambiguity exactly when no framing
field of its header section is empty and its `Transfer-Encoding` fields agree. -/
theorem framing_unambiguous_iff_settled (data : Bytes) (request : HttpRequest)
    (complete : (parse data {} request).1 = .complete) :
    UnambiguousFraming data request ↔ FramingFieldsSettled data := by
  have finished : parse data {} request = (.complete, (parse data {} request).2) :=
    Prod.ext complete rfl
  obtain ⟨fields, agree, trimmed, outcome⟩ := complete_request_cases finished
  constructor
  · exact settled_of_unambiguous fields
  · intro settled
    have filledLength := settled_filled fields settled
      (fun _ named => Bool.or_eq_true_iff.mpr (Or.inl named))
    have filledEncoding := settled_filled fields settled
      (fun _ named => Bool.or_eq_true_iff.mpr (Or.inr named))
    rcases outcome with ⟨plain, length⟩ | ⟨bare, chunked, trailer, noBody⟩
    · have noEncoding := values_eq_nil_of_get filledEncoding plain
      have lengthOf := stored_lengths agree filledLength length
      exact {
        notBoth := fun both => both.2 noEncoding
        sameLength := fun value member other otherMember =>
          (lengthOf value member).1.trans (lengthOf other otherMember).1.symm
        bodyLength := fun value member =>
          ⟨filledLength value member, (lengthOf value member).2.1, (lengthOf value member).2.2⟩
        allChunked := by rw [noEncoding]; simp
        readByChunks := fun present => absurd noEncoding present }
    · have noLength := values_eq_nil_of_get filledLength bare
      exact {
        notBoth := fun both => both.1 noLength
        sameLength := by rw [noLength]; simp
        bodyLength := by rw [noLength]; simp
        allChunked := settled_all_chunked fields settled trimmed chunked
        readByChunks := fun _ => ⟨trailer, noBody⟩ }

theorem framing_unambiguous_iff_settled_chunked :
    (parse (ascii "POST / HTTP/1.1\r\nTransfer-Encoding: chunked\r\n\r\n1\r\na\r\n0\r\n\r\n")
        {} {}).1 = .complete ∧
      (UnambiguousFraming
          (ascii "POST / HTTP/1.1\r\nTransfer-Encoding: chunked\r\n\r\n1\r\na\r\n0\r\n\r\n") {} ↔
        FramingFieldsSettled
          (ascii "POST / HTTP/1.1\r\nTransfer-Encoding: chunked\r\n\r\n1\r\na\r\n0\r\n\r\n")) :=
  ⟨by decide +kernel, framing_unambiguous_iff_settled _ {} (by decide +kernel)⟩

/-- An empty `Content-Length` beside `Transfer-Encoding: chunked` is accepted. -/
theorem empty_length_beside_chunked_accepted :
    ¬((parse (ascii
        "POST / HTTP/1.1\r\nContent-Length:\r\nTransfer-Encoding: chunked\r\n\r\n0\r\n\r\n")
        {} {}).1 = .complete →
      UnambiguousFraming (ascii
        "POST / HTTP/1.1\r\nContent-Length:\r\nTransfer-Encoding: chunked\r\n\r\n0\r\n\r\n") {}) := by
  intro unambiguous
  have framed := unambiguous (by decide +kernel)
  apply framed.notBoth
  decide +kernel

end HttpServer.ParserFraming
