import HttpServer.ParserFraming

/-!
# The line of a completed request

Method, target, version, path and query map of a request come from its first line
and no later handler touches them: `lineOf` is the request without what the other
handlers write. A request line that is accepted is the one that was written.
-/

namespace HttpServer.RequestLine

open ListSearch MeasuredLoop HttpParser ParserFraming ParserResume

/-- The part of a request that its first line decides. -/
def lineOf (request : HttpRequest) : HttpRequest := { request with headers := {}, body := [] }

def lineRequest (method : HttpMethod) (target : Bytes) : HttpRequest :=
  let fresh := HttpRequest.ofLine method target (ascii "HTTP/1.1")
  match findSub [63] target with
  | none => fresh.setPath target
  | some questionMark =>
      queryLoop.run (target.drop (questionMark + 1), fresh.setPath (target.take questionMark))

def pastHead (state : ParserState) : Prop := state ≠ .requestLine ∧ state ≠ .headers

theorem handle_body_keeps_line {data : Bytes} {reading following : Reading}
    {result : Option ParseResult}
    (handled : handleBody data reading.1 reading.2 = (result, following)) :
    lineOf following.2 = lineOf reading.2 ∧ result ≠ none := by
  unfold handleBody at handled
  split_ifs at handled <;> cases handled <;> exact ⟨rfl, nofun⟩

theorem handle_trailer_keeps_line {data : Bytes} {reading following : Reading}
    {result : Option ParseResult}
    (handled : handleChunkTrailer data reading.1 reading.2 = (result, following)) :
    lineOf following.2 = lineOf reading.2 ∧ result ≠ none := by
  unfold handleChunkTrailer finishChunked at handled
  dsimp only at handled
  repeat' split at handled
  all_goals cases handled
  all_goals exact ⟨rfl, Option.some_ne_none _⟩

theorem handle_chunks_past_head {data : Bytes} {parser following : HttpParser}
    (handled : handleChunkSize data parser = (none, following) ∨
      handleChunkData data parser = (none, following) ∨
      handleChunkDataCrlf data parser = (none, following)) : pastHead following.state := by
  rcases handled with handled | handled | handled
  · obtain ⟨lineEnd, size, _, _, _, _, _, rfl⟩ := handle_chunk_size_advances handled
    dsimp only
    split_ifs <;> exact ⟨nofun, nofun⟩
  · unfold handleChunkData at handled
    dsimp only at handled
    split_ifs at handled <;> cases handled
    exact ⟨nofun, nofun⟩
  · obtain ⟨rest, _, _, rfl⟩ := handle_chunk_data_crlf_advances handled
    exact ⟨nofun, nofun⟩

theorem handle_state_keeps_line {data : Bytes} {reading following : Reading}
    {result : Option ParseResult} (past : pastHead reading.1.state)
    (handled : handleState data reading = (result, following)) :
    lineOf following.2 = lineOf reading.2 ∧ (result = none → pastHead following.1.state) := by
  unfold handleState at handled
  dsimp only at handled
  split at handled
  · rename_i atLine
    exact absurd atLine past.1
  · rename_i atHeaders
    exact absurd atHeaders past.2
  · obtain ⟨kept, decided⟩ := handle_body_keeps_line handled
    exact ⟨kept, fun undecided => absurd undecided decided⟩
  · obtain ⟨chunk, kept⟩ := (keep_request_eq_iff _ _ _ _).mp handled
    refine ⟨by rw [kept], ?_⟩
    rintro rfl
    exact handle_chunks_past_head (Or.inl chunk)
  · obtain ⟨chunk, kept⟩ := (keep_request_eq_iff _ _ _ _).mp handled
    refine ⟨by rw [kept], ?_⟩
    rintro rfl
    exact handle_chunks_past_head (Or.inr (Or.inl chunk))
  · obtain ⟨chunk, kept⟩ := (keep_request_eq_iff _ _ _ _).mp handled
    refine ⟨by rw [kept], ?_⟩
    rintro rfl
    exact handle_chunks_past_head (Or.inr (Or.inr chunk))
  · obtain ⟨kept, decided⟩ := handle_trailer_keeps_line handled
    exact ⟨kept, fun undecided => absurd undecided decided⟩
  · cases handled
    exact ⟨rfl, nofun⟩
  · cases handled
    exact ⟨rfl, nofun⟩

theorem run_keeps_line (data : Bytes) (reading : Reading) (past : pastHead reading.1.state) :
    lineOf ((parseLoop data).run reading).2.2 = lineOf reading.2 := by
  refine (parseLoop data).run_invariant
    (fun state => pastHead state.1.state ∧ lineOf state.2 = lineOf reading.2)
    (fun result => lineOf result.2.2 = lineOf reading.2) ?_ ?_ ⟨past, rfl⟩
  · intro state following before turned
    have handled := (parse_turn_next_iff _ _ _).mp turned
    obtain ⟨kept, onward⟩ := handle_state_keeps_line before.1 handled
    exact ⟨onward rfl, kept.trans before.2⟩
  · intro state result before turned
    have handled := (parse_turn_done_iff _ _ _ _).mp turned
    exact (handle_state_keeps_line before.1 handled).1.trans before.2

theorem complete_line {data : Bytes} {request : HttpRequest} {stopped : Reading}
    (complete : parse data {} request = (.complete, stopped)) :
    ∃ line, parseRequestLine data request = (.complete, line) ∧
      lineOf stopped.2 = lineOf line ∧
      ∀ field ∈ stopped.2.headers.headers, fieldIsValid field = true := by
  obtain ⟨lineEnd, headersEnd, parser, reading, stored, lineFound, _, lineParsed, _, blockFound, _,
    _, parsed, outcome⟩ := complete_sections complete
  have blank := (parse_request_line_completes lineParsed).2
  obtain ⟨fields, _, valid, _, same⟩ := header_loop_complete _ _ parsed
  have storedFields := (stored_fields lineFound blank blockFound parsed).1
  have stoppedFields := (complete_request_cases complete).1
  have storedLine : lineOf stored = lineOf reading.2 := by rw [same]; rfl
  refine ⟨reading.2, lineParsed, ?_, ?_⟩
  · rw [← storedLine]
    rcases outcome with ⟨chosen, _⟩ | ⟨following, chosen, rest, _⟩
    · rw [(choose_body_complete_cases chosen).2.1]
      rfl
    · rcases choose_body_advances chosen with ⟨_, _, moved⟩ | ⟨_, _, _, _, _, moved⟩
      · have kept := run_keeps_line data following (by rw [moved]; exact ⟨nofun, nofun⟩)
        rw [rest, moved] at kept
        exact kept
      · have kept := run_keeps_line data following (by rw [moved]; exact ⟨nofun, nofun⟩)
        rw [rest, moved] at kept
        exact kept
  · rw [stoppedFields, ← storedFields, same, blank]
    exact valid

theorem parse_request_line_reads {data : Bytes} {request line : HttpRequest}
    (parsed : parseRequestLine data request = (.complete, line)) :
    ∃ lineEnd method target, findSub crlf data = some lineEnd ∧ 32 ∉ method ∧ 32 ∉ target ∧
      target ≠ [] ∧
      data.take lineEnd = method ++ 32 :: (target ++ 32 :: ascii "HTTP/1.1") ∧
      line = lineRequest (utils.parseMethod method) target := by
  unfold parseRequestLine at parsed
  split at parsed
  · cases parsed
  · rename_i lineEnd lineFound
    split at parsed
    · cases parsed
    · dsimp only at parsed
      split at parsed
      · cases parsed
      · rename_i firstSpace spaceFound
        split at parsed
        · cases parsed
        · rename_i targetLength targetFound
          split at parsed
          · cases parsed
          · split at parsed
            · cases parsed
            · rename_i partsPresent
              split at parsed
              · cases parsed
              · rename_i versionSame
                split at parsed
                · cases parsed
                · have version := not_not.mp versionSame
                  have lineSplit := find_sub_split spaceFound
                  have targetSplit := find_sub_split targetFound
                  simp only [List.length_singleton, List.append_assoc,
                    List.singleton_append] at lineSplit targetSplit
                  rw [version] at targetSplit
                  refine ⟨lineEnd, (data.take lineEnd).take firstSpace,
                    ((data.take lineEnd).drop (firstSpace + 1)).take targetLength, lineFound,
                    find_sub_before spaceFound, find_sub_before targetFound, ?_, ?_, ?_⟩
                  · rw [Bool.or_eq_true, Bool.or_eq_true, not_or, not_or] at partsPresent
                    exact fun empty => partsPresent.1.2 (List.isEmpty_iff.mpr empty)
                  · rw [← targetSplit, ← lineSplit]
                  · rw [version] at parsed
                    unfold lineRequest
                    cases marked : findSub [63]
                        (((data.take lineEnd).drop (firstSpace + 1)).take targetLength) with
                    | none =>
                        rw [marked] at parsed
                        cases parsed
                        rfl
                    | some questionMark =>
                        rw [marked] at parsed
                        cases parsed
                        rfl

/-- When a written request line is accepted, it is read as it was written, and the
search for its end has passed over the whole of it. -/
theorem written_line_read {data method target rest : Bytes} {request line : HttpRequest}
    (parsed : parseRequestLine data request = (.complete, line)) (methodPlain : 32 ∉ method)
    (targetPlain : 32 ∉ target)
    (written : data = method ++ 32 :: (target ++ 32 :: (ascii "HTTP/1.1" ++ (crlf ++ rest)))) :
    line = lineRequest (utils.parseMethod method) target ∧
      ∃ lineEnd, findSub crlf data = some lineEnd ∧ data.drop (lineEnd + 2) = rest := by
  obtain ⟨lineEnd, readMethod, readTarget, found, readMethodPlain, readTargetPlain, _, taken, same⟩ :=
    parse_request_line_reads parsed
  have whole := find_sub_split found
  rw [taken, crlf_length, written] at whole
  simp only [List.append_assoc, List.cons_append] at whole
  obtain ⟨methods, afterMethod⟩ := cut_unique methodPlain readMethodPlain whole
  obtain ⟨targets, afterTarget⟩ := cut_unique targetPlain readTargetPlain afterMethod
  have remaining := List.append_cancel_left (List.append_cancel_left afterTarget)
  refine ⟨by rw [same, methods, targets], lineEnd, found, ?_⟩
  rw [written]
  exact remaining.symm

end HttpServer.RequestLine
