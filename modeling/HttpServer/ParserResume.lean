import HttpServer.HttpParser

/-!
# Parsing may stop and go on

Every handler looks only at bytes it has found complete, so it gives the same
answer when the data grows. The one handler that does work before it reports
`Incomplete` is `handleChunkData`: its partial copies add up to the copy a
single call makes. Both facts make the parser a resumable loop, and a chain of
calls on growing data ends where one call on the last data ends.
-/

namespace HttpServer.ParserResume

open ListSearch MeasuredLoop HttpParser

theorem drop_append_inside {data : Bytes} {count : Nat} (inside : count ≤ data.length)
    (more : Bytes) : (data ++ more).drop count = data.drop count ++ more :=
  List.drop_append_of_le_length inside

theorem parse_request_line_extends {data : Bytes} {lineEnd : Nat}
    (found : findSub crlf data = some lineEnd) (more : Bytes) (request : HttpRequest) :
    parseRequestLine (data ++ more) request = parseRequestLine data request := by
  have bound := find_sub_bound found
  unfold parseRequestLine
  rw [find_sub_append found more, found]
  dsimp only
  rw [List.take_append_of_le_length (by omega)]

theorem handle_request_line_extends {data : Bytes} {parser : HttpParser} {request : HttpRequest}
    {following : Reading} (handled : handleRequestLine data parser request = (none, following))
    (more : Bytes) : handleRequestLine (data ++ more) parser request = (none, following) := by
  obtain ⟨lineEnd, inside, found, short, parsed, _⟩ := handle_request_line_advances handled
  rw [← handled]
  unfold handleRequestLine
  rw [if_neg (by rw [List.length_append]; omega), if_neg (by omega)]
  dsimp only
  rw [drop_append_inside inside, find_sub_append found more, found]
  dsimp only
  rw [parse_request_line_extends found]

theorem parse_request_line_decides {data : Bytes} {lineEnd : Nat}
    (found : findSub crlf data = some lineEnd) (request : HttpRequest) :
    (parseRequestLine data request).1 ≠ .incomplete := by
  unfold parseRequestLine
  rw [found]
  dsimp only
  repeat' split
  all_goals simp

theorem handle_request_line_waits {data : Bytes} {parser : HttpParser} {request : HttpRequest}
    {result : ParseResult} {stopped : Reading}
    (handled : handleRequestLine data parser request = (some result, stopped))
    (accepted : result ≠ .invalid) :
    result = .incomplete ∧ stopped = (parser, request) ∧ parser.consumed ≤ data.length ∧
      findSub crlf (data.drop parser.consumed) = none ∧
      (data.drop parser.consumed).length ≤ maxRequestLine := by
  unfold handleRequestLine at handled
  split at handled
  · cases handled
    contradiction
  · rename_i inside
    dsimp only at handled
    split at handled
    · rename_i absent
      split at handled
      · cases handled
        contradiction
      · rename_i short
        cases handled
        exact ⟨rfl, rfl, Nat.not_lt.mp inside, absent, Nat.not_lt.mp short⟩
    · rename_i lineEnd found
      split at handled
      · cases handled
        contradiction
      · have decides := parse_request_line_decides found request
        split at handled
        · rename_i parsed
          rw [parsed] at decides
          contradiction
        · cases handled
          contradiction
        · cases handled

/-- A block that ends in an empty line is cut at line ends only, so the header
loop reaches that empty line or refuses a line before it. -/
def EndsBlock (rest : Bytes) : Prop := rest = crlf ∨ ∃ lines, rest = lines ++ crlfCrlf

theorem last_line_found (lines : Bytes) :
    ∃ found, found ≤ lines.length ∧ findSub crlf (lines ++ crlfCrlf) = some found := by
  apply find_sub_le_of_occurs crlf (lines ++ crlfCrlf) lines.length (by simp)
  rw [List.drop_left]
  exact ⟨crlf, rfl⟩

theorem ends_block_has_line {rest : Bytes} (ends : EndsBlock rest) :
    ∃ lineEnd, findSub crlf rest = some lineEnd := by
  rcases ends with same | ⟨lines, same⟩
  · exact ⟨0, by rw [same]; rfl⟩
  · obtain ⟨found, _, located⟩ := last_line_found lines
    exact ⟨found, by rw [same]; exact located⟩

theorem ends_block_after_line {rest : Bytes} {lineEnd : Nat} (ends : EndsBlock rest)
    (found : findSub crlf rest = some lineEnd) (positive : lineEnd ≠ 0) :
    EndsBlock (rest.drop (lineEnd + 2)) := by
  rcases ends with rfl | ⟨lines, rfl⟩
  · exact absurd (Option.some.inj found.symm) positive
  · obtain ⟨earlier, bound, located⟩ := last_line_found lines
    have same : earlier = lineEnd := Option.some.inj (located.symm.trans found)
    subst same
    have occurs := ((find_sub_eq_some_iff _ _ _).mp found).2.1
    rcases Nat.lt_or_ge (earlier + 1) lines.length with inside | outside
    · right
      refine ⟨lines.drop (earlier + 2), ?_⟩
      rw [List.drop_append_of_le_length (by omega)]
    · rcases Nat.eq_or_lt_of_le bound with last | before
      · left
        rw [last, ← List.drop_drop, List.drop_left]
        rfl
      · have oneBefore : earlier + 1 = lines.length := by omega
        exfalso
        obtain ⟨tail, shape⟩ := occurs
        have shifted := congrArg (List.drop 1) shape
        rw [List.drop_drop, oneBefore, List.drop_left] at shifted
        simp [crlf, crlfCrlf] at shifted

theorem header_loop_decides (cursor : HeaderCursor) (ends : EndsBlock cursor.rest) :
    (headerLoop.run cursor).1 ≠ .incomplete := by
  refine headerLoop.run_invariant (fun cursor => EndsBlock cursor.rest)
    (fun result => result.1 ≠ .incomplete) ?_ ?_ ends
  · intro state following block turned
    obtain ⟨lineEnd, field, _, found, positive, _, _, _, _, rfl⟩ := header_turn_next turned
    exact ends_block_after_line block found positive
  · intro state result block turned
    have nonempty : ¬state.rest.isEmpty = true := by
      rcases block with same | ⟨lines, same⟩ <;> rw [same] <;> simp [crlf, crlfCrlf]
    obtain ⟨lineEnd, found⟩ := ends_block_has_line block
    intro waits
    rcases (header_turn_done turned).2.2 waits with empty | absent
    · exact nonempty empty
    · rw [found] at absent
      cases absent

theorem block_ends {remaining : Bytes} {blockEnd : Nat}
    (found : findSub crlfCrlf remaining = some blockEnd) :
    EndsBlock (remaining.take (blockEnd + 4)) := by
  right
  refine ⟨remaining.take blockEnd, ?_⟩
  have bound := find_sub_bound found
  have whole := find_sub_split found
  have shorter : (remaining.take blockEnd ++ crlfCrlf).length = blockEnd + 4 := by
    simp only [List.length_append, List.length_take, crlf_crlf_length] at bound ⊢
    omega
  calc
    remaining.take (blockEnd + 4) =
        (remaining.take blockEnd ++ crlfCrlf ++ remaining.drop (blockEnd + 4)).take
          (blockEnd + 4) := congrArg (List.take (blockEnd + 4)) whole
    _ = remaining.take blockEnd ++ crlfCrlf := List.take_left' shorter

theorem handle_headers_waits {data : Bytes} {parser : HttpParser} {request : HttpRequest}
    {stopped : Reading}
    (handled : handleHeaders data parser request = (some .incomplete, stopped)) :
    stopped = (parser, request) ∧ parser.consumed ≤ data.length ∧
      findSub crlfCrlf (data.drop parser.consumed) = none ∧
      (data.drop parser.consumed).length ≤ maxHeaderSize := by
  unfold handleHeaders at handled
  split at handled
  · cases handled
  · rename_i inside
    dsimp only at handled
    split at handled
    · rename_i absent
      split at handled
      · cases handled
      · rename_i short
        cases handled
        exact ⟨rfl, Nat.not_lt.mp inside, absent, Nat.not_lt.mp short⟩
    · rename_i headersEnd found
      split at handled
      · cases handled
      · have decides := header_loop_decides ⟨_, 0, request⟩ (block_ends found)
        split at handled
        · rename_i parsed
          unfold parseHeaders at parsed
          rw [parsed] at decides
          contradiction
        · cases handled
        · exfalso
          unfold chooseBody at handled
          dsimp only at handled
          repeat' split at handled
          all_goals cases handled

theorem handle_headers_extends {data : Bytes} {parser : HttpParser} {request : HttpRequest}
    {result : Option ParseResult} {following : Reading}
    (handled : handleHeaders data parser request = (result, following))
    (decided : result = none ∨ result = some .complete) (more : Bytes) :
    handleHeaders (data ++ more) parser request = (result, following) := by
  obtain ⟨headersEnd, stored, inside, found, short, _, _⟩ :=
    handle_headers_decides handled decided
  have bound := find_sub_bound found
  rw [← handled]
  unfold handleHeaders
  rw [if_neg (by rw [List.length_append]; omega), if_neg (by omega)]
  dsimp only
  rw [drop_append_inside inside, find_sub_append found more, found]
  dsimp only
  rw [List.take_append_of_le_length (by simpa using bound)]

theorem choose_body_completes {parser : HttpParser} {request : HttpRequest} {stopped : Reading}
    (chosen : chooseBody parser request = (some .complete, stopped)) :
    stopped.1.state = .complete := by
  unfold chooseBody at chosen
  dsimp only at chosen
  repeat' split at chosen
  all_goals cases chosen
  all_goals rfl

theorem handle_body_waits {data : Bytes} {parser : HttpParser} {request : HttpRequest}
    {stopped : Reading} (handled : handleBody data parser request = (some .incomplete, stopped)) :
    stopped = (parser, request) ∧ parser.consumed ≤ data.length ∧
      data.length - parser.consumed < parser.bodySize := by
  unfold handleBody at handled
  split at handled
  · cases handled
  · rename_i inside
    split at handled
    · rename_i short
      cases handled
      exact ⟨rfl, Nat.not_lt.mp inside, short⟩
    · cases handled

theorem handle_body_completes {data : Bytes} {parser : HttpParser} {request : HttpRequest}
    {stopped : Reading} (handled : handleBody data parser request = (some .complete, stopped)) :
    parser.consumed + parser.bodySize ≤ data.length ∧
      stopped = ({ parser with
        consumed := parser.consumed + parser.bodySize, state := .complete },
        request.setBody ((data.drop parser.consumed).take parser.bodySize)) := by
  unfold handleBody at handled
  split at handled
  · cases handled
  · split at handled
    · cases handled
    · cases handled
      exact ⟨by omega, rfl⟩

theorem handle_body_extends {data : Bytes} {parser : HttpParser} {request : HttpRequest}
    {stopped : Reading} (handled : handleBody data parser request = (some .complete, stopped))
    (more : Bytes) : handleBody (data ++ more) parser request = (some .complete, stopped) := by
  obtain ⟨fits, moved⟩ := handle_body_completes handled
  unfold handleBody
  rw [List.length_append, if_neg (by omega), if_neg (by omega), moved,
    drop_append_inside (by omega), List.take_append_of_le_length (by rw [List.length_drop]; omega)]

theorem handle_chunk_size_extends {data : Bytes} {parser following : HttpParser}
    (handled : handleChunkSize data parser = (none, following)) (more : Bytes) :
    handleChunkSize (data ++ more) parser = (none, following) := by
  obtain ⟨lineEnd, size, inside, found, _, _, _, _⟩ := handle_chunk_size_advances handled
  have bound := find_sub_bound found
  rw [← handled]
  unfold handleChunkSize
  rw [if_neg (by rw [List.length_append]; omega), if_neg (by omega)]
  dsimp only
  rw [drop_append_inside inside, find_sub_append found more, found]
  dsimp only
  rw [List.take_append_of_le_length (by omega)]

theorem handle_chunk_size_waits {data : Bytes} {parser stopped : HttpParser}
    {result : ParseResult} (handled : handleChunkSize data parser = (some result, stopped))
    (accepted : result ≠ .invalid) :
    result = .incomplete ∧ stopped = parser ∧ parser.consumed ≤ data.length ∧
      findSub crlf (data.drop parser.consumed) = none ∧
      (data.drop parser.consumed).length ≤ maxChunkLineSize := by
  unfold handleChunkSize at handled
  split at handled
  · cases handled
    contradiction
  · rename_i inside
    dsimp only at handled
    split at handled
    · rename_i absent
      split at handled
      · cases handled
        contradiction
      · rename_i short
        cases handled
        exact ⟨rfl, rfl, Nat.not_lt.mp inside, absent, Nat.not_lt.mp short⟩
    · repeat' split at handled
      all_goals cases handled
      all_goals contradiction

theorem handle_chunk_data_crlf_extends {data : Bytes} {parser following : HttpParser}
    (handled : handleChunkDataCrlf data parser = (none, following)) (more : Bytes) :
    handleChunkDataCrlf (data ++ more) parser = (none, following) := by
  obtain ⟨rest, inside, remaining, moved⟩ := handle_chunk_data_crlf_advances handled
  unfold handleChunkDataCrlf
  rw [if_neg (by rw [List.length_append]; omega), drop_append_inside inside, remaining, moved]
  simp

theorem handle_chunk_data_crlf_waits {data : Bytes} {parser stopped : HttpParser}
    {result : ParseResult} (handled : handleChunkDataCrlf data parser = (some result, stopped))
    (accepted : result ≠ .invalid) :
    result = .incomplete ∧ stopped = parser ∧ data.length < parser.consumed + 2 := by
  unfold handleChunkDataCrlf at handled
  split at handled
  · cases handled
    contradiction
  · split at handled
    · split at handled <;> cases handled
      contradiction
    · rename_i short
      cases handled
      refine ⟨rfl, rfl, ?_⟩
      by_contra enough
      have two : 2 ≤ (data.drop parser.consumed).length := by
        rw [List.length_drop]
        omega
      match shape : data.drop parser.consumed with
      | [] => simp [shape] at two
      | [_] => simp [shape] at two
      | first :: second :: rest => exact short first second rest shape

theorem handle_chunk_trailer_completes {data : Bytes} {parser : HttpParser}
    {request : HttpRequest} {stopped : Reading}
    (handled : handleChunkTrailer data parser request = (some .complete, stopped)) :
    parser.consumed ≤ data.length ∧
      ((crlf <+: data.drop parser.consumed ∧
          (some .complete, stopped) = finishChunked parser request 2) ∨
        (¬crlf <+: data.drop parser.consumed ∧ ∃ trailerEnd,
          findSub crlfCrlf (data.drop parser.consumed) = some trailerEnd ∧
          trailerLoop.run ((data.drop parser.consumed).take (trailerEnd + 2), 0) = true ∧
          (some .complete, stopped) = finishChunked parser request (trailerEnd + 4))) := by
  unfold handleChunkTrailer at handled
  split at handled
  · cases handled
  · rename_i inside
    refine ⟨Nat.not_lt.mp inside, ?_⟩
    dsimp only at handled
    split at handled
    · rename_i empty
      left
      exact ⟨List.isPrefixOf_iff_prefix.mp empty, handled.symm⟩
    · rename_i nonempty
      right
      rw [List.isPrefixOf_iff_prefix] at nonempty
      split at handled
      · split at handled <;> cases handled
      · rename_i trailerEnd found
        split at handled
        · rename_i checked
          exact ⟨nonempty, trailerEnd, found, checked, handled.symm⟩
        · cases handled

theorem handle_chunk_trailer_extends {data : Bytes} {parser : HttpParser} {request : HttpRequest}
    {stopped : Reading}
    (handled : handleChunkTrailer data parser request = (some .complete, stopped))
    (more : Bytes) :
    handleChunkTrailer (data ++ more) parser request = (some .complete, stopped) := by
  obtain ⟨inside, outcome⟩ := handle_chunk_trailer_completes handled
  unfold handleChunkTrailer
  rw [if_neg (by rw [List.length_append]; omega)]
  dsimp only
  rw [drop_append_inside inside]
  rcases outcome with ⟨empty, finished⟩ | ⟨nonempty, trailerEnd, found, checked, finished⟩
  · rw [if_pos (List.isPrefixOf_iff_prefix.mpr (empty.trans (List.prefix_append _ _))), finished]
  · have bound := find_sub_bound found
    simp only [crlf_crlf_length] at bound
    have stillNonempty : ¬crlf.isPrefixOf (data.drop parser.consumed ++ more) = true := by
      rw [List.isPrefixOf_iff_prefix]
      intro starts
      apply nonempty
      apply List.prefix_of_prefix_length_le starts (List.prefix_append _ _)
      rw [crlf_length]
      omega
    rw [if_neg stillNonempty, find_sub_append found more]
    dsimp only
    rw [List.take_append_of_le_length (by omega), if_pos checked, finished]

theorem handle_chunk_trailer_waits {data : Bytes} {parser : HttpParser} {request : HttpRequest}
    {stopped : Reading}
    (handled : handleChunkTrailer data parser request = (some .incomplete, stopped)) :
    stopped = (parser, request) ∧ (data.drop parser.consumed).length ≤ maxHeaderSize := by
  unfold handleChunkTrailer finishChunked at handled
  dsimp only at handled
  repeat' split at handled
  all_goals cases handled
  rename_i short
  exact ⟨rfl, Nat.not_lt.mp short⟩

/-- In every state but `Error` the chunk counters are ordered and fit a `std::size_t`. -/
def CountersOk (parser : HttpParser) : Prop :=
  parser.state ≠ .error →
    parser.chunkBytesRead ≤ parser.chunkSize ∧ parser.chunkSize < sizeModulus

theorem counters_ok_fail (parser : HttpParser) : CountersOk parser.fail :=
  fun notError => absurd rfl notError

/-- With ordered counters the `std::size_t` arithmetic of `handleChunkData` is
the arithmetic of natural numbers. -/
theorem handle_chunk_data_eq {data : Bytes} {parser : HttpParser}
    (inside : parser.consumed ≤ data.length) (ordered : parser.chunkBytesRead ≤ parser.chunkSize)
    (bounded : parser.chunkSize < sizeModulus) :
    handleChunkData data parser =
      (let copied := min (data.length - parser.consumed) (parser.chunkSize - parser.chunkBytesRead)
      let moved := { parser with
        body := parser.body ++ (data.drop parser.consumed).take copied
        consumed := parser.consumed + copied
        chunkBytesRead := parser.chunkBytesRead + copied }
      if parser.chunkBytesRead + copied < parser.chunkSize then (some .incomplete, moved)
      else (none, { moved with state := .chunkDataCrlf })) := by
  have inRange : parser.chunkBytesRead +
      min (data.length - parser.consumed) (parser.chunkSize - parser.chunkBytesRead) <
        sizeModulus := by omega
  unfold handleChunkData
  rw [if_neg (by omega)]
  dsimp only
  rw [size_sub_of_le ordered bounded, size_add_of_lt inRange]

theorem handle_chunk_data_advances {data : Bytes} {parser following : HttpParser}
    (ordered : parser.chunkBytesRead ≤ parser.chunkSize) (bounded : parser.chunkSize < sizeModulus)
    (handled : handleChunkData data parser = (none, following)) :
    parser.consumed + (parser.chunkSize - parser.chunkBytesRead) ≤ data.length ∧
      following = { parser with
        body := parser.body ++
          (data.drop parser.consumed).take (parser.chunkSize - parser.chunkBytesRead)
        consumed := parser.consumed + (parser.chunkSize - parser.chunkBytesRead)
        chunkBytesRead := parser.chunkSize
        state := .chunkDataCrlf } := by
  have inside : parser.consumed ≤ data.length := by
    by_contra outside
    unfold handleChunkData at handled
    rw [if_pos (by omega)] at handled
    cases handled
  rw [handle_chunk_data_eq inside ordered bounded] at handled
  dsimp only at handled
  split at handled
  · cases handled
  · rename_i finished
    have enough : parser.chunkSize - parser.chunkBytesRead ≤ data.length - parser.consumed := by
      omega
    rw [Nat.min_eq_right enough, Nat.add_sub_of_le ordered] at handled
    cases handled
    exact ⟨by omega, rfl⟩

theorem handle_chunk_data_waits {data : Bytes} {parser stopped : HttpParser}
    {result : ParseResult} (ordered : parser.chunkBytesRead ≤ parser.chunkSize)
    (bounded : parser.chunkSize < sizeModulus)
    (handled : handleChunkData data parser = (some result, stopped))
    (accepted : result ≠ .invalid) :
    result = .incomplete ∧ parser.consumed ≤ data.length ∧
      data.length - parser.consumed < parser.chunkSize - parser.chunkBytesRead ∧
      stopped = { parser with
        body := parser.body ++ data.drop parser.consumed
        consumed := data.length
        chunkBytesRead := parser.chunkBytesRead + (data.length - parser.consumed) } := by
  have inside : parser.consumed ≤ data.length := by
    by_contra outside
    unfold handleChunkData at handled
    rw [if_pos (by omega)] at handled
    cases handled
    contradiction
  rw [handle_chunk_data_eq inside ordered bounded] at handled
  dsimp only at handled
  split at handled
  · rename_i unfinished
    have short : data.length - parser.consumed ≤ parser.chunkSize - parser.chunkBytesRead := by
      omega
    rw [Nat.min_eq_left short, List.take_of_length_le (by rw [List.length_drop]),
      Nat.add_sub_of_le inside] at handled
    cases handled
    exact ⟨rfl, inside, by omega, rfl⟩
  · cases handled

theorem handle_chunk_data_extends {data : Bytes} {parser following : HttpParser}
    (ordered : parser.chunkBytesRead ≤ parser.chunkSize) (bounded : parser.chunkSize < sizeModulus)
    (handled : handleChunkData data parser = (none, following)) (more : Bytes) :
    handleChunkData (data ++ more) parser = (none, following) := by
  obtain ⟨fits, moved⟩ := handle_chunk_data_advances ordered bounded handled
  have length : (data ++ more).length = data.length + more.length := List.length_append
  rw [handle_chunk_data_eq (by omega) ordered bounded]
  dsimp only
  rw [Nat.min_eq_right (by omega), Nat.add_sub_of_le ordered, if_neg (Nat.lt_irrefl _), moved,
    drop_append_inside (by omega), List.take_append_of_le_length (by rw [List.length_drop]; omega)]

theorem handle_chunk_data_resumes {data : Bytes} {parser stopped : HttpParser}
    {result : ParseResult} (ordered : parser.chunkBytesRead ≤ parser.chunkSize)
    (bounded : parser.chunkSize < sizeModulus)
    (handled : handleChunkData data parser = (some result, stopped))
    (accepted : result ≠ .invalid) (more : Bytes) :
    handleChunkData (data ++ more) stopped = handleChunkData (data ++ more) parser := by
  obtain ⟨_, inside, short, moved⟩ := handle_chunk_data_waits ordered bounded handled accepted
  have length : (data ++ more).length = data.length + more.length := List.length_append
  have orderedStopped : stopped.chunkBytesRead ≤ stopped.chunkSize := by
    rw [moved]
    dsimp only
    omega
  have insideStopped : stopped.consumed ≤ (data ++ more).length := by
    rw [moved]
    dsimp only
    omega
  have boundedStopped : stopped.chunkSize < sizeModulus := by
    rw [moved]
    exact bounded
  rw [handle_chunk_data_eq insideStopped orderedStopped boundedStopped,
    handle_chunk_data_eq (by omega) ordered bounded]
  subst moved
  dsimp only
  have whole : min ((data ++ more).length - parser.consumed)
      (parser.chunkSize - parser.chunkBytesRead) =
      (data.length - parser.consumed) + min ((data ++ more).length - data.length)
        (parser.chunkSize - (parser.chunkBytesRead + (data.length - parser.consumed))) := by
    omega
  have copies : data.drop parser.consumed ++ ((data ++ more).drop data.length).take
        (min ((data ++ more).length - data.length)
          (parser.chunkSize - (parser.chunkBytesRead + (data.length - parser.consumed)))) =
      ((data ++ more).drop parser.consumed).take
        (min ((data ++ more).length - parser.consumed)
          (parser.chunkSize - parser.chunkBytesRead)) := by
    rw [whole, drop_append_inside inside, List.drop_left,
      ← List.length_drop (l := data) (i := parser.consumed), List.take_length_add_append]
  have total : data.length + min ((data ++ more).length - data.length)
      (parser.chunkSize - (parser.chunkBytesRead + (data.length - parser.consumed))) =
      parser.consumed + min ((data ++ more).length - parser.consumed)
        (parser.chunkSize - parser.chunkBytesRead) := by
    omega
  have count : parser.chunkBytesRead + (data.length - parser.consumed) +
      min ((data ++ more).length - data.length)
        (parser.chunkSize - (parser.chunkBytesRead + (data.length - parser.consumed))) =
      parser.chunkBytesRead + min ((data ++ more).length - parser.consumed)
        (parser.chunkSize - parser.chunkBytesRead) := by
    omega
  rw [List.append_assoc, copies, total, count]

theorem counters_ok_of_kept {before after : HttpParser} (ok : CountersOk before)
    (active : before.state ≠ .error)
    (kept : after.state = .error ∨
      (after.chunkBytesRead = before.chunkBytesRead ∧ after.chunkSize = before.chunkSize)) :
    CountersOk after := by
  intro notError
  rcases kept with failed | ⟨read, size⟩
  · exact absurd failed notError
  · rw [read, size]
    exact ok active

theorem choose_body_counters {parser : HttpParser} {request : HttpRequest}
    {result : Option ParseResult} {following : Reading} (ok : CountersOk parser)
    (active : parser.state ≠ .error)
    (chosen : chooseBody parser request = (result, following)) : CountersOk following.1 := by
  by_cases advanced : result = none
  · subst advanced
    rcases choose_body_advances chosen with ⟨_, _, rfl⟩ | ⟨_, _, _, _, _, rfl⟩
    · exact fun _ => ⟨Nat.le_refl _, Nat.two_pow_pos 64⟩
    · exact fun _ => ok active
  · apply counters_ok_of_kept ok active
    unfold chooseBody at chosen
    dsimp only at chosen
    repeat' split at chosen
    all_goals cases chosen
    all_goals first
      | exact absurd rfl advanced
      | exact Or.inl rfl
      | exact Or.inr ⟨rfl, rfl⟩

theorem handle_headers_counters {data : Bytes} {parser : HttpParser} {request : HttpRequest}
    {result : Option ParseResult} {following : Reading} (ok : CountersOk parser)
    (active : parser.state ≠ .error)
    (handled : handleHeaders data parser request = (result, following)) :
    CountersOk following.1 := by
  unfold handleHeaders at handled
  split at handled
  · cases handled
    exact counters_ok_fail _
  · dsimp only at handled
    split at handled
    · split at handled <;> cases handled
      · exact counters_ok_fail _
      · exact ok
    · rename_i headersEnd _
      split at handled
      · cases handled
        exact counters_ok_fail _
      · split at handled
        · cases handled
          exact ok
        · cases handled
          exact counters_ok_fail _
        · have moved : CountersOk { parser with consumed := parser.consumed + (headersEnd + 4) } :=
            fun _ => ok active
          exact choose_body_counters moved active handled

theorem choose_body_refuses {parser : HttpParser} {request : HttpRequest} {following : Reading}
    (chosen : chooseBody parser request = (some .invalid, following)) :
    following.1.state = .error := by
  unfold chooseBody at chosen
  dsimp only at chosen
  repeat' split at chosen
  all_goals cases chosen
  all_goals rfl

theorem handle_state_refuses {data : Bytes} {parser : HttpParser} {request : HttpRequest}
    {following : Reading}
    (handled : handleState data (parser, request) = (some .invalid, following)) :
    following.1.state = .error := by
  obtain ⟨next, stored⟩ := following
  cases at_state : parser.state <;> simp only [handleState, at_state] at handled
  case requestLine =>
    unfold handleRequestLine at handled
    dsimp only at handled
    repeat' split at handled
    all_goals cases handled
    all_goals rfl
  case headers =>
    unfold handleHeaders at handled
    dsimp only at handled
    repeat' split at handled
    all_goals first
      | exact choose_body_refuses handled
      | cases handled
    all_goals rfl
  case body =>
    unfold handleBody at handled
    repeat' split at handled
    all_goals cases handled
    rfl
  case chunkSize =>
    obtain ⟨handled, _⟩ := (keep_request_eq_iff _ _ _ _).mp handled
    unfold handleChunkSize at handled
    dsimp only at handled
    repeat' split at handled
    all_goals cases handled
    all_goals rfl
  case chunkData =>
    obtain ⟨handled, _⟩ := (keep_request_eq_iff _ _ _ _).mp handled
    unfold handleChunkData at handled
    dsimp only at handled
    repeat' split at handled
    all_goals cases handled
    rfl
  case chunkDataCrlf =>
    obtain ⟨handled, _⟩ := (keep_request_eq_iff _ _ _ _).mp handled
    unfold handleChunkDataCrlf at handled
    repeat' split at handled
    all_goals cases handled
    all_goals rfl
  case chunkTrailer =>
    unfold handleChunkTrailer finishChunked at handled
    dsimp only at handled
    repeat' split at handled
    all_goals cases handled
    all_goals rfl
  case error =>
    cases handled
    exact at_state
  all_goals cases handled

theorem handle_chunk_size_counters {data : Bytes} {parser following : HttpParser}
    {result : Option ParseResult} (ok : CountersOk parser) (active : parser.state ≠ .error)
    (accepted : result ≠ some .invalid)
    (handled : handleChunkSize data parser = (result, following)) : CountersOk following := by
  cases result with
  | none =>
      obtain ⟨lineEnd, size, _, _, _, parsed, _, rfl⟩ := handle_chunk_size_advances handled
      have bound := utils.parse_chunk_size_bound
        (chunkSizeText ((data.drop parser.consumed).take lineEnd)) parser.chunkSize (ok active).2
      rw [parsed] at bound
      exact fun _ => ⟨Nat.zero_le _, bound⟩
  | some result =>
      obtain ⟨_, rfl, _⟩ := handle_chunk_size_waits handled (by simpa using accepted)
      exact ok

theorem handle_chunk_data_counters {data : Bytes} {parser following : HttpParser}
    {result : Option ParseResult} (ok : CountersOk parser) (active : parser.state ≠ .error)
    (accepted : result ≠ some .invalid)
    (handled : handleChunkData data parser = (result, following)) : CountersOk following := by
  obtain ⟨ordered, bounded⟩ := ok active
  cases result with
  | none =>
      obtain ⟨_, rfl⟩ := handle_chunk_data_advances ordered bounded handled
      exact fun _ => ⟨Nat.le_refl _, bounded⟩
  | some result =>
      obtain ⟨_, _, short, rfl⟩ :=
        handle_chunk_data_waits ordered bounded handled (by simpa using accepted)
      refine fun _ => ⟨?_, bounded⟩
      dsimp only
      omega

theorem handle_state_counters {data : Bytes} {reading following : Reading}
    {result : Option ParseResult} (ok : CountersOk reading.1)
    (handled : handleState data reading = (result, following)) : CountersOk following.1 := by
  obtain ⟨parser, request⟩ := reading
  by_cases accepted : result ≠ some .invalid
  case neg =>
    rw [not_not.mp accepted] at handled
    exact fun active => absurd (handle_state_refuses handled) active
  cases at_state : parser.state <;> simp only [handleState, at_state] at handled
  case requestLine =>
    apply counters_ok_of_kept ok (by rw [at_state]; decide)
    unfold handleRequestLine at handled
    dsimp only at handled
    repeat' split at handled
    all_goals cases handled
    all_goals first
      | exact Or.inl rfl
      | exact Or.inr ⟨rfl, rfl⟩
  case headers => exact handle_headers_counters ok (by rw [at_state]; decide) handled
  case body =>
    apply counters_ok_of_kept ok (by rw [at_state]; decide)
    unfold handleBody at handled
    repeat' split at handled
    all_goals cases handled
    all_goals first
      | exact Or.inl rfl
      | exact Or.inr ⟨rfl, rfl⟩
  case chunkSize =>
    obtain ⟨handled, _⟩ := (keep_request_eq_iff _ _ _ _).mp handled
    exact handle_chunk_size_counters ok (by rw [at_state]; decide) accepted handled
  case chunkData =>
    obtain ⟨handled, _⟩ := (keep_request_eq_iff _ _ _ _).mp handled
    exact handle_chunk_data_counters ok (by rw [at_state]; decide) accepted handled
  case chunkDataCrlf =>
    apply counters_ok_of_kept ok (by rw [at_state]; decide)
    rw [← congrArg (fun out => out.2.1) handled]
    unfold keepRequest handleChunkDataCrlf
    repeat' split
    all_goals first
      | exact Or.inl rfl
      | exact Or.inr ⟨rfl, rfl⟩
  case chunkTrailer =>
    apply counters_ok_of_kept ok (by rw [at_state]; decide)
    unfold handleChunkTrailer finishChunked at handled
    dsimp only at handled
    repeat' split at handled
    all_goals cases handled
    all_goals first
      | exact Or.inl rfl
      | exact Or.inr ⟨rfl, rfl⟩
  case complete =>
    cases handled
    exact ok
  case error =>
    cases handled
    exact ok

theorem parse_turn_done_iff (data : Bytes) (reading : Reading) (result : ParseResult)
    (stopped : Reading) :
    parseTurn data reading = .done (result, stopped) ↔
      handleState data reading = (some result, stopped) := by
  unfold parseTurn
  split
  · rename_i stored handled
    rw [handled]
    simp
  · rename_i outcome stored handled
    rw [handled]
    simp

inductive Completes (data : Bytes) (parser : HttpParser) (request : HttpRequest)
    (stopped : Reading) : Prop
  | headers (at_state : parser.state = .headers)
      (handled : handleHeaders data parser request = (some .complete, stopped))
  | body (at_state : parser.state = .body)
      (handled : handleBody data parser request = (some .complete, stopped))
  | chunkTrailer (at_state : parser.state = .chunkTrailer)
      (handled : handleChunkTrailer data parser request = (some .complete, stopped))
  | complete (at_state : parser.state = .complete) (same : stopped = (parser, request))

theorem handle_state_completes {data : Bytes} {parser : HttpParser} {request : HttpRequest}
    {stopped : Reading} (handled : handleState data (parser, request) = (some .complete, stopped)) :
    Completes data parser request stopped := by
  cases at_state : parser.state <;> simp only [handleState, at_state] at handled
  case requestLine =>
    obtain ⟨waiting, _⟩ := handle_request_line_waits handled (by decide)
    cases waiting
  case headers => exact .headers at_state handled
  case body => exact .body at_state handled
  case chunkSize =>
    obtain ⟨handled, _⟩ := (keep_request_eq_iff _ _ _ _).mp handled
    obtain ⟨waiting, _⟩ := handle_chunk_size_waits handled (by decide)
    cases waiting
  case chunkData =>
    obtain ⟨handled, _⟩ := (keep_request_eq_iff _ _ _ _).mp handled
    unfold handleChunkData at handled
    dsimp only at handled
    repeat' split at handled
    all_goals cases handled
  case chunkDataCrlf =>
    obtain ⟨handled, _⟩ := (keep_request_eq_iff _ _ _ _).mp handled
    obtain ⟨waiting, _⟩ := handle_chunk_data_crlf_waits handled (by decide)
    cases waiting
  case chunkTrailer => exact .chunkTrailer at_state handled
  case complete =>
    cases handled
    exact .complete at_state rfl
  case error => cases handled

theorem handle_state_advances_extends {data : Bytes} {reading following : Reading}
    (ok : CountersOk reading.1) (handled : handleState data reading = (none, following))
    (more : Bytes) : handleState (data ++ more) reading = (none, following) := by
  obtain ⟨parser, request⟩ := reading
  cases handle_state_advances handled with
  | requestLine at_state handled =>
      simp only [handleState, at_state]
      exact handle_request_line_extends handled more
  | headers at_state handled =>
      simp only [handleState, at_state]
      exact handle_headers_extends handled (Or.inl rfl) more
  | chunkSize at_state handled kept =>
      simp only [handleState, at_state]
      exact (keep_request_eq_iff _ _ _ _).mpr ⟨handle_chunk_size_extends handled more, kept⟩
  | chunkData at_state handled kept =>
      obtain ⟨ordered, bounded⟩ := ok (by rw [at_state]; decide)
      simp only [handleState, at_state]
      exact (keep_request_eq_iff _ _ _ _).mpr
        ⟨handle_chunk_data_extends ordered bounded handled more, kept⟩
  | chunkDataCrlf at_state handled kept =>
      simp only [handleState, at_state]
      exact (keep_request_eq_iff _ _ _ _).mpr ⟨handle_chunk_data_crlf_extends handled more, kept⟩

/-- A completed handler leaves the state `Complete` and would have completed in
the same way on longer data. -/
theorem handle_state_completes_extends {data : Bytes} {reading stopped : Reading}
    (handled : handleState data reading = (some .complete, stopped)) (more : Bytes) :
    stopped.1.state = .complete ∧
      handleState (data ++ more) reading = (some .complete, stopped) := by
  obtain ⟨parser, request⟩ := reading
  cases handle_state_completes handled with
  | headers at_state handled =>
      simp only [handleState, at_state]
      obtain ⟨_, _, _, _, _, _, chosen⟩ := handle_headers_decides handled (Or.inr rfl)
      exact ⟨choose_body_completes chosen, handle_headers_extends handled (Or.inr rfl) more⟩
  | body at_state handled =>
      simp only [handleState, at_state]
      obtain ⟨_, moved⟩ := handle_body_completes handled
      exact ⟨by rw [moved], handle_body_extends handled more⟩
  | chunkTrailer at_state handled =>
      simp only [handleState, at_state]
      have finished : stopped.1.state = .complete := by
        obtain ⟨_, ⟨_, ended⟩ | ⟨_, _, _, _, ended⟩⟩ := handle_chunk_trailer_completes handled
        all_goals
          cases ended
          rfl
      exact ⟨finished, handle_chunk_trailer_extends handled more⟩
  | complete at_state same =>
      subst same
      simp only [handleState, at_state, and_self]

/-- A handler that reports `Incomplete` has done nothing that the same handler
would not do again on longer data. -/
theorem handle_state_waits_resumes {data : Bytes} {reading stopped : Reading}
    (ok : CountersOk reading.1)
    (handled : handleState data reading = (some .incomplete, stopped)) (more : Bytes) :
    handleState (data ++ more) stopped = handleState (data ++ more) reading := by
  obtain ⟨parser, request⟩ := reading
  cases at_state : parser.state <;> simp only [handleState, at_state] at handled
  case requestLine =>
    obtain ⟨_, same, _⟩ := handle_request_line_waits handled (by decide)
    rw [same]
  case headers => rw [(handle_headers_waits handled).1]
  case body => rw [(handle_body_waits handled).1]
  case chunkSize =>
    obtain ⟨handled, kept⟩ := (keep_request_eq_iff _ _ _ _).mp handled
    obtain ⟨_, same, _⟩ := handle_chunk_size_waits handled (by decide)
    rw [show stopped = (parser, request) from Prod.ext same kept]
  case chunkData =>
    obtain ⟨ordered, bounded⟩ := ok (by rw [at_state]; decide)
    obtain ⟨handled, kept⟩ := (keep_request_eq_iff _ _ _ _).mp handled
    have resumed := handle_chunk_data_resumes ordered bounded handled (by decide) more
    obtain ⟨_, _, _, moved⟩ := handle_chunk_data_waits ordered bounded handled (by decide)
    have still : stopped.1.state = .chunkData := by
      rw [moved]
      exact at_state
    simp only [handleState, at_state, still, resumed, kept]
  case chunkDataCrlf =>
    obtain ⟨handled, kept⟩ := (keep_request_eq_iff _ _ _ _).mp handled
    obtain ⟨_, same, _⟩ := handle_chunk_data_crlf_waits handled (by decide)
    rw [show stopped = (parser, request) from Prod.ext same kept]
  case chunkTrailer => rw [(handle_chunk_trailer_waits handled).1]
  all_goals cases handled

/-- A handler that has to wait does so whatever the request holds: no complete
header block is there to be looked at. -/
theorem waiting_ignores_request {data : Bytes} {parser : HttpParser} {request : HttpRequest}
    {stopped : Reading}
    (handled : handleState data (parser, request) = (some .incomplete, stopped))
    (other : HttpRequest) : (handleState data (parser, other)).1 = some .incomplete := by
  cases at_state : parser.state <;> simp only [handleState, at_state] at handled ⊢
  case requestLine =>
    obtain ⟨_, _, inside, absent, _⟩ := handle_request_line_waits handled (by decide)
    unfold handleRequestLine at handled ⊢
    rw [if_neg (by omega)] at handled ⊢
    dsimp only at handled ⊢
    rw [absent] at handled ⊢
    dsimp only at handled ⊢
    split at handled
    · cases handled
    · rename_i short
      rw [if_neg short]
  case headers =>
    obtain ⟨_, inside, absent, _⟩ := handle_headers_waits handled
    unfold handleHeaders at handled ⊢
    rw [if_neg (by omega)] at handled ⊢
    dsimp only at handled ⊢
    rw [absent] at handled ⊢
    dsimp only at handled ⊢
    split at handled
    · cases handled
    · rename_i short
      rw [if_neg short]
  case body =>
    obtain ⟨_, inside, short⟩ := handle_body_waits handled
    unfold handleBody
    rw [if_neg (by omega), if_pos short]
  case chunkSize => exact congrArg Prod.fst ((keep_request_eq_iff _ _ _ _).mp handled).1
  case chunkData => exact congrArg Prod.fst ((keep_request_eq_iff _ _ _ _).mp handled).1
  case chunkDataCrlf => exact congrArg Prod.fst ((keep_request_eq_iff _ _ _ _).mp handled).1
  case chunkTrailer =>
    unfold handleChunkTrailer finishChunked at handled ⊢
    dsimp only at handled ⊢
    repeat' split at handled
    all_goals cases handled
    rename_i inside nonempty _ _ short
    rw [if_neg inside, if_neg nonempty, if_neg short]
  all_goals cases handled

theorem waiting_parse_again {data : Bytes} (reading : Reading) {stopped : Reading}
    (ok : CountersOk reading.1)
    (waiting : (parseLoop data).run reading = (.incomplete, stopped)) (other : HttpRequest) :
    (parse data stopped.1 other).1 = .incomplete := by
  induction reading using (parseLoop data).run_induction with
  | done reading result turned =>
      rw [(parseLoop data).run_done turned] at waiting
      subst waiting
      have handled := (parse_turn_done_iff _ _ _ _).mp turned
      have resumed := handle_state_waits_resumes ok handled []
      rw [List.append_nil, handled] at resumed
      have again := waiting_ignores_request resumed other
      have stays : parseTurn data (stopped.1, other) =
          .done (.incomplete, (handleState data (stopped.1, other)).2) :=
        (parse_turn_done_iff _ _ _ _).mpr (Prod.ext again rfl)
      unfold parse
      rw [(parseLoop data).run_done stays]
  | next reading following turned ih =>
      rw [(parseLoop data).run_next turned] at waiting
      exact ih (handle_state_counters ok ((parse_turn_next_iff _ _ _).mp turned)) waiting

/-- `HttpParser` read as a resumable loop over prefixes of a byte stream. -/
def requestReader : Resumable Bytes Reading ParseResult where
  loop := parseLoop
  grows := fun small large => small <+: large
  grows_trans := fun first second => first.trans second
  accepts := fun result => result ≠ .invalid
  sound := fun reading => CountersOk reading.1
  sound_next := by
    intro data reading following ok turned
    exact handle_state_counters ok ((parse_turn_next_iff _ _ _).mp turned)
  sound_done := by
    intro data reading result stopped ok turned
    exact handle_state_counters ok ((parse_turn_done_iff _ _ _ _).mp turned)
  next_stable := by
    intro small large reading following extended ok turned
    obtain ⟨more, rfl⟩ := extended
    exact (parse_turn_next_iff _ _ _).mpr
      (handle_state_advances_extends ok ((parse_turn_next_iff _ _ _).mp turned) more)
  done_resumes := by
    intro small large reading result stopped extended ok turned accepted
    obtain ⟨more, rfl⟩ := extended
    have handled := (parse_turn_done_iff _ _ _ _).mp turned
    have same : handleState (small ++ more) stopped = handleState (small ++ more) reading := by
      cases result with
      | complete =>
          obtain ⟨finished, same⟩ := handle_state_completes_extends handled more
          rw [same]
          simp only [handleState, finished]
      | incomplete => exact handle_state_waits_resumes ok handled more
      | invalid => contradiction
    change parseTurn (small ++ more) stopped = parseTurn (small ++ more) reading
    unfold parseTurn
    rw [same]

theorem parse_counters {data : Bytes} {parser : HttpParser} {request : HttpRequest}
    {result : ParseResult} {stopped : Reading} (ok : CountersOk parser)
    (parsed : parse data parser request = (result, stopped)) : CountersOk stopped.1 := by
  have sound := requestReader.sound_run data (parser, request) ok
  rw [show (requestReader.loop data).run (parser, request) = (result, stopped) from parsed] at sound
  exact sound

/-- Successive `parse` calls with one parser and one request object. -/
def parseEach : List Bytes → HttpParser → HttpRequest → List ParseResult × Reading
  | [], parser, request => ([], parser, request)
  | data :: rest, parser, request =>
      let first := parse data parser request
      let later := parseEach rest first.2.1 first.2.2
      (first.1 :: later.1, later.2)

theorem parse_each_eq_feed (inputs : List Bytes) (parser : HttpParser) (request : HttpRequest) :
    parseEach inputs parser request = requestReader.feed inputs (parser, request) := by
  induction inputs generalizing parser request with
  | nil => rfl
  | cons data rest ih =>
      simp only [parseEach, Resumable.feed, ih]
      rfl

theorem fresh_counters : CountersOk {} := fun _ => ⟨Nat.le_refl _, by decide⟩

/-- Parsing growing prefixes of a stream ends with the result, parser and
request of one call on the last of them. -/
theorem incremental_parse_eq_one_shot (inputs : List Bytes) (last : Bytes)
    (start : HttpParser) (request : HttpRequest)
    (fresh : start = {} ∨ ∃ used : HttpParser, start = used.reset)
    (prefixes : (inputs ++ [last]).IsChain (· <+: ·))
    (accepted : ∀ result ∈ (parseEach inputs start request).1, result ≠ .invalid) :
    parse last (parseEach inputs start request).2.1 (parseEach inputs start request).2.2 =
      parse last {} request := by
  have blank : start = {} := by
    rcases fresh with blank | ⟨used, blank⟩
    · exact blank
    · exact blank
  subst blank
  rw [parse_each_eq_feed] at accepted ⊢
  exact requestReader.feed_chain inputs last ({}, request) fresh_counters prefixes accepted

theorem incremental_parse_eq_one_shot_host_request :
    parse (ascii "GET / HTTP/1.1\r\nHost: localhost\r\n\r\n")
        (parseEach [ascii "GET / HTTP/1.1\r\n", ascii "GET / HTTP/1.1\r\nHost: localhost\r\n"]
          {} {}).2.1
        (parseEach [ascii "GET / HTTP/1.1\r\n", ascii "GET / HTTP/1.1\r\nHost: localhost\r\n"]
          {} {}).2.2 =
      parse (ascii "GET / HTTP/1.1\r\nHost: localhost\r\n\r\n") {} {} :=
  incremental_parse_eq_one_shot
    [ascii "GET / HTTP/1.1\r\n", ascii "GET / HTTP/1.1\r\nHost: localhost\r\n"]
    (ascii "GET / HTTP/1.1\r\nHost: localhost\r\n\r\n") {} {} (Or.inl rfl)
    (by simp only [List.cons_append, List.nil_append, List.isChain_cons_cons,
          List.isChain_singleton]; decide +kernel)
    (by decide +kernel)

end HttpServer.ParserResume
