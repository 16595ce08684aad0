import HttpServer.ParserResume

/-!
# A completed request needs only its own bytes

Every handler that advances or completes looks at no byte behind the ones it
consumes. So a run that completes gives the same request when the data is cut
right after `consumed_`, which is what `consumeParsedRequest` removes. The
method of a request is written by the request line handler alone: a run that
starts behind the request line leaves it as it was.
-/

namespace HttpServer.ParserPrefix

open ListSearch MeasuredLoop HttpParser ParserResume

theorem take_inside {data : Bytes} {count size : Nat} (inside : count ≤ data.length)
    (below : count ≤ size) : ¬count > (data.take size).length := by
  rw [List.length_take]
  omega

theorem handle_request_line_take {data : Bytes} {parser : HttpParser} {request : HttpRequest}
    {following : Reading} (handled : handleRequestLine data parser request = (none, following))
    {size : Nat} (enough : following.1.consumed ≤ size) :
    handleRequestLine (data.take size) parser request = (none, following) := by
  obtain ⟨lineEnd, inside, found, short, parsed, moved⟩ := handle_request_line_advances handled
  rw [moved] at enough
  dsimp only at enough
  have located : findSub crlf ((data.drop parser.consumed).take (size - parser.consumed)) =
      some lineEnd := find_sub_take found (by rw [crlf_length]; omega)
  rw [← handled]
  unfold handleRequestLine
  rw [if_neg (take_inside inside (by omega)), if_neg (by omega)]
  dsimp only
  rw [List.drop_take, located, found]
  dsimp only
  have same : parseRequestLine ((data.drop parser.consumed).take (size - parser.consumed)) request =
      parseRequestLine (data.drop parser.consumed) request := by
    have extended := parse_request_line_extends located
      ((data.drop parser.consumed).drop (size - parser.consumed)) request
    rw [List.take_append_drop] at extended
    exact extended.symm
  rw [same]

theorem choose_body_consumed {parser : HttpParser} {request : HttpRequest}
    {result : Option ParseResult} {following : Reading}
    (chosen : chooseBody parser request = (result, following)) :
    following.1.consumed = parser.consumed := by
  unfold chooseBody at chosen
  dsimp only at chosen
  repeat' split at chosen
  all_goals cases chosen
  all_goals rfl

theorem handle_headers_take {data : Bytes} {parser : HttpParser} {request : HttpRequest}
    {result : Option ParseResult} {following : Reading}
    (handled : handleHeaders data parser request = (result, following))
    (decided : result = none ∨ result = some .complete) :
    parser.consumed ≤ following.1.consumed ∧ following.1.consumed ≤ data.length ∧
      ∀ size, following.1.consumed ≤ size →
        handleHeaders (data.take size) parser request = (result, following) := by
  obtain ⟨headersEnd, stored, inside, found, short, parsed, chosen⟩ :=
    handle_headers_decides handled decided
  have bound := find_sub_bound found
  rw [List.length_drop, crlf_crlf_length] at bound
  have moved : following.1.consumed = parser.consumed + (headersEnd + 4) :=
    choose_body_consumed chosen
  refine ⟨by omega, by omega, ?_⟩
  intro size enough
  have located : findSub crlfCrlf ((data.drop parser.consumed).take (size - parser.consumed)) =
      some headersEnd := find_sub_take found (by rw [crlf_crlf_length]; omega)
  rw [← handled]
  unfold handleHeaders
  rw [if_neg (take_inside inside (by omega)), if_neg (by omega)]
  dsimp only
  rw [List.drop_take, located, found]
  dsimp only
  rw [List.take_take, Nat.min_eq_left (by omega)]

theorem handle_body_take {data : Bytes} {parser : HttpParser} {request : HttpRequest}
    {stopped : Reading} (handled : handleBody data parser request = (some .complete, stopped))
    {size : Nat} (enough : stopped.1.consumed ≤ size) :
    handleBody (data.take size) parser request = (some .complete, stopped) := by
  obtain ⟨fits, moved⟩ := handle_body_completes handled
  rw [moved] at enough
  dsimp only at enough
  unfold handleBody
  rw [if_neg (take_inside (by omega) (by omega)),
    if_neg (by rw [List.length_take]; omega), moved, List.drop_take, List.take_take,
    Nat.min_eq_left (by omega)]

theorem handle_chunk_size_take {data : Bytes} {parser following : HttpParser}
    (handled : handleChunkSize data parser = (none, following)) {size : Nat}
    (enough : following.consumed ≤ size) :
    handleChunkSize (data.take size) parser = (none, following) := by
  obtain ⟨lineEnd, chunk, inside, found, _, _, _, moved⟩ := handle_chunk_size_advances handled
  rw [moved] at enough
  dsimp only at enough
  have located : findSub crlf ((data.drop parser.consumed).take (size - parser.consumed)) =
      some lineEnd := find_sub_take found (by rw [crlf_length]; omega)
  rw [← handled]
  unfold handleChunkSize
  rw [if_neg (take_inside inside (by omega)), if_neg (by omega)]
  dsimp only
  rw [List.drop_take, located, found]
  dsimp only
  rw [List.take_take, Nat.min_eq_left (by omega)]

theorem handle_chunk_data_take {data : Bytes} {parser following : HttpParser}
    (ordered : parser.chunkBytesRead ≤ parser.chunkSize) (bounded : parser.chunkSize < sizeModulus)
    (handled : handleChunkData data parser = (none, following)) {size : Nat}
    (enough : following.consumed ≤ size) :
    handleChunkData (data.take size) parser = (none, following) := by
  obtain ⟨fits, moved⟩ := handle_chunk_data_advances ordered bounded handled
  rw [moved] at enough
  dsimp only at enough
  have length : (data.take size).length = min size data.length := List.length_take
  rw [handle_chunk_data_eq (by omega) ordered bounded]
  dsimp only
  rw [Nat.min_eq_right (by omega), Nat.add_sub_of_le ordered, if_neg (Nat.lt_irrefl _), moved,
    List.drop_take, List.take_take, Nat.min_eq_left (by omega)]

theorem handle_chunk_data_crlf_take {data : Bytes} {parser following : HttpParser}
    (handled : handleChunkDataCrlf data parser = (none, following)) {size : Nat}
    (enough : following.consumed ≤ size) :
    handleChunkDataCrlf (data.take size) parser = (none, following) := by
  obtain ⟨rest, inside, remaining, moved⟩ := handle_chunk_data_crlf_advances handled
  rw [moved] at enough
  dsimp only at enough
  obtain ⟨more, enlarged⟩ : ∃ more, size - parser.consumed = more + 2 :=
    ⟨size - parser.consumed - 2, by omega⟩
  unfold handleChunkDataCrlf
  rw [if_neg (take_inside inside (by omega)), List.drop_take, remaining, enlarged, moved]
  simp

theorem handle_chunk_trailer_take {data : Bytes} {parser : HttpParser} {request : HttpRequest}
    {stopped : Reading}
    (handled : handleChunkTrailer data parser request = (some .complete, stopped)) :
    parser.consumed ≤ stopped.1.consumed ∧ stopped.1.consumed ≤ data.length ∧
      ∀ size, stopped.1.consumed ≤ size →
        handleChunkTrailer (data.take size) parser request = (some .complete, stopped) := by
  obtain ⟨inside, outcome⟩ := handle_chunk_trailer_completes handled
  rcases outcome with ⟨empty, finished⟩ | ⟨nonempty, trailerEnd, found, checked, finished⟩
  · have bound := empty.length_le
    rw [List.length_drop, crlf_length] at bound
    cases finished
    refine ⟨Nat.le_add_right _ _, by dsimp only; omega, ?_⟩
    intro size enough
    dsimp only at enough
    have starts : crlf <+: (data.take size).drop parser.consumed := by
      rw [List.drop_take, List.prefix_take_iff]
      exact ⟨empty, by rw [crlf_length]; omega⟩
    unfold handleChunkTrailer
    rw [if_neg (take_inside inside (by omega))]
    dsimp only
    rw [if_pos (List.isPrefixOf_iff_prefix.mpr starts), finishChunked]
  · have bound := find_sub_bound found
    rw [List.length_drop, crlf_crlf_length] at bound
    cases finished
    refine ⟨Nat.le_add_right _ _, by dsimp only; omega, ?_⟩
    intro size enough
    dsimp only at enough
    have located : findSub crlfCrlf ((data.drop parser.consumed).take (size - parser.consumed)) =
        some trailerEnd := find_sub_take found (by rw [crlf_crlf_length]; omega)
    have stillNonempty :
        ¬crlf.isPrefixOf ((data.drop parser.consumed).take (size - parser.consumed)) = true := by
      rw [List.isPrefixOf_iff_prefix]
      exact fun starts => nonempty (starts.trans (List.take_prefix _ _))
    unfold handleChunkTrailer
    rw [if_neg (take_inside inside (by omega))]
    dsimp only
    rw [List.drop_take, if_neg stillNonempty, located]
    dsimp only
    rw [List.take_take, Nat.min_eq_left (by omega), if_pos checked, finishChunked]

/-- An advancing handler only moves forward, inside the data, and looks at no
byte behind the ones it consumes. -/
theorem handle_state_advances_take {data : Bytes} {reading following : Reading}
    (ok : CountersOk reading.1) (handled : handleState data reading = (none, following)) :
    reading.1.consumed ≤ following.1.consumed ∧ following.1.consumed ≤ data.length ∧
      ∀ size, following.1.consumed ≤ size →
        handleState (data.take size) reading = (none, following) := by
  obtain ⟨parser, request⟩ := reading
  cases handle_state_advances handled with
  | requestLine at_state handled =>
      obtain ⟨lineEnd, inside, found, _, _, moved⟩ := handle_request_line_advances handled
      have bound := find_sub_bound found
      rw [List.length_drop, crlf_length] at bound
      simp only [handleState, at_state]
      refine ⟨by rw [moved]; exact Nat.le_add_right _ _, by rw [moved]; dsimp only; omega, ?_⟩
      exact fun size enough => handle_request_line_take handled enough
  | headers at_state handled =>
      simp only [handleState, at_state]
      exact handle_headers_take handled (Or.inl rfl)
  | chunkSize at_state handled kept =>
      obtain ⟨lineEnd, chunk, inside, found, _, _, _, moved⟩ := handle_chunk_size_advances handled
      have bound := find_sub_bound found
      rw [List.length_drop, crlf_length] at bound
      simp only [handleState, at_state]
      refine ⟨by rw [moved]; exact Nat.le_add_right _ _, by rw [moved]; dsimp only; omega, ?_⟩
      intro size enough
      exact (keep_request_eq_iff _ _ _ _).mpr ⟨handle_chunk_size_take handled enough, kept⟩
  | chunkData at_state handled kept =>
      obtain ⟨ordered, bounded⟩ := ok (by rw [at_state]; decide)
      obtain ⟨fits, moved⟩ := handle_chunk_data_advances ordered bounded handled
      simp only [handleState, at_state]
      refine ⟨by rw [moved]; exact Nat.le_add_right _ _, by rw [moved]; exact fits, ?_⟩
      intro size enough
      exact (keep_request_eq_iff _ _ _ _).mpr
        ⟨handle_chunk_data_take ordered bounded handled enough, kept⟩
  | chunkDataCrlf at_state handled kept =>
      obtain ⟨rest, inside, remaining, moved⟩ := handle_chunk_data_crlf_advances handled
      have length := congrArg List.length remaining
      simp only [List.length_drop, List.length_cons] at length
      simp only [handleState, at_state]
      refine ⟨by rw [moved]; exact Nat.le_add_right _ _, by rw [moved]; dsimp only; omega, ?_⟩
      intro size enough
      exact (keep_request_eq_iff _ _ _ _).mpr ⟨handle_chunk_data_crlf_take handled enough, kept⟩

theorem handle_state_completes_take {data : Bytes} {reading stopped : Reading}
    (inside : reading.1.consumed ≤ data.length)
    (handled : handleState data reading = (some .complete, stopped)) :
    reading.1.consumed ≤ stopped.1.consumed ∧ stopped.1.consumed ≤ data.length ∧
      ∀ size, stopped.1.consumed ≤ size →
        handleState (data.take size) reading = (some .complete, stopped) := by
  obtain ⟨parser, request⟩ := reading
  cases handle_state_completes handled with
  | headers at_state handled =>
      simp only [handleState, at_state]
      exact handle_headers_take handled (Or.inr rfl)
  | body at_state handled =>
      obtain ⟨fits, moved⟩ := handle_body_completes handled
      simp only [handleState, at_state]
      refine ⟨by rw [moved]; exact Nat.le_add_right _ _, by rw [moved]; exact fits, ?_⟩
      exact fun size enough => handle_body_take handled enough
  | chunkTrailer at_state handled =>
      simp only [handleState, at_state]
      exact handle_chunk_trailer_take handled
  | complete at_state same =>
      subst same
      simp only [handleState, at_state]
      exact ⟨Nat.le_refl _, inside, fun _ _ => trivial⟩

theorem complete_run_take {data : Bytes} (reading : Reading) {stopped : Reading}
    (ok : CountersOk reading.1) (inside : reading.1.consumed ≤ data.length)
    (complete : (parseLoop data).run reading = (.complete, stopped)) :
    reading.1.consumed ≤ stopped.1.consumed ∧ stopped.1.consumed ≤ data.length ∧
      ∀ size, stopped.1.consumed ≤ size →
        (parseLoop (data.take size)).run reading = (.complete, stopped) := by
  induction reading using (parseLoop data).run_induction with
  | done reading result turned =>
      rw [(parseLoop data).run_done turned] at complete
      subst complete
      obtain ⟨forward, bound, same⟩ :=
        handle_state_completes_take inside ((parse_turn_done_iff _ _ _ _).mp turned)
      refine ⟨forward, bound, ?_⟩
      intro size enough
      exact (parseLoop _).run_done ((parse_turn_done_iff _ _ _ _).mpr (same size enough))
  | next reading following turned ih =>
      rw [(parseLoop data).run_next turned] at complete
      have handled := (parse_turn_next_iff _ _ _).mp turned
      obtain ⟨forward, bound, same⟩ := handle_state_advances_take ok handled
      obtain ⟨further, within, rest⟩ := ih (handle_state_counters ok handled) bound complete
      refine ⟨Nat.le_trans forward further, within, ?_⟩
      intro size enough
      have cut : (parseLoop (data.take size)).turn reading = .next following :=
        (parse_turn_next_iff _ _ _).mpr (same size (Nat.le_trans further enough))
      rw [(parseLoop _).run_next cut]
      exact rest size enough

theorem handle_state_waits_inside {data : Bytes} {reading stopped : Reading}
    (ok : CountersOk reading.1)
    (handled : handleState data reading = (some .incomplete, stopped)) :
    stopped.1.consumed ≤ data.length := by
  obtain ⟨parser, request⟩ := reading
  cases at_state : parser.state <;> simp only [handleState, at_state] at handled
  case requestLine =>
    obtain ⟨_, rfl, inside, _⟩ := handle_request_line_waits handled (by decide)
    exact inside
  case headers =>
    obtain ⟨rfl, inside, _⟩ := handle_headers_waits handled
    exact inside
  case body =>
    obtain ⟨rfl, inside, _⟩ := handle_body_waits handled
    exact inside
  case chunkSize =>
    obtain ⟨handled, _⟩ := (keep_request_eq_iff _ _ _ _).mp handled
    obtain ⟨_, same, inside, _⟩ := handle_chunk_size_waits handled (by decide)
    rw [same]
    exact inside
  case chunkData =>
    obtain ⟨ordered, bounded⟩ := ok (by rw [at_state]; decide)
    obtain ⟨handled, _⟩ := (keep_request_eq_iff _ _ _ _).mp handled
    obtain ⟨_, _, _, moved⟩ := handle_chunk_data_waits ordered bounded handled (by decide)
    rw [moved]
  case chunkDataCrlf =>
    obtain ⟨handled, _⟩ := (keep_request_eq_iff _ _ _ _).mp handled
    obtain ⟨_, same, _⟩ := handle_chunk_data_crlf_waits handled (by decide)
    rw [same]
    by_contra outside
    unfold handleChunkDataCrlf at handled
    rw [if_pos (by omega)] at handled
    cases handled
  case chunkTrailer =>
    have same := (handle_chunk_trailer_waits handled).1
    rw [same]
    by_contra outside
    unfold handleChunkTrailer at handled
    rw [if_pos (Nat.lt_of_not_le outside)] at handled
    cases handled
  all_goals cases handled

theorem waiting_run_inside {data : Bytes} (reading : Reading) {stopped : Reading}
    (ok : CountersOk reading.1)
    (waiting : (parseLoop data).run reading = (.incomplete, stopped)) :
    stopped.1.consumed ≤ data.length := by
  induction reading using (parseLoop data).run_induction with
  | done reading result turned =>
      rw [(parseLoop data).run_done turned] at waiting
      subst waiting
      exact handle_state_waits_inside ok ((parse_turn_done_iff _ _ _ _).mp turned)
  | next reading following turned ih =>
      rw [(parseLoop data).run_next turned] at waiting
      exact ih (handle_state_counters ok ((parse_turn_next_iff _ _ _).mp turned)) waiting

theorem parse_headers_method (data : Bytes) (request : HttpRequest) :
    (parseHeaders data request).2.method = request.method := by
  refine headerLoop.run_invariant (fun cursor => cursor.request.method = request.method)
    (fun result => result.2.method = request.method) ?_ ?_ rfl
  · intro state following before turned
    obtain ⟨_, field, _, _, _, _, _, _, _, rfl⟩ := header_turn_next turned
    exact before
  · intro state result before turned
    rw [(header_turn_done turned).1]
    exact before

theorem choose_body_keeps {parser : HttpParser} {request : HttpRequest}
    {result : Option ParseResult} {following : Reading}
    (chosen : chooseBody parser request = (result, following)) :
    following.1.state ≠ .requestLine ∧ following.2.method = request.method := by
  unfold chooseBody at chosen
  dsimp only at chosen
  repeat' split at chosen
  all_goals cases chosen
  all_goals exact ⟨by simp [fail], rfl⟩

theorem handle_headers_keeps_method {data : Bytes} {parser : HttpParser} {request : HttpRequest}
    {result : Option ParseResult} {following : Reading} (behind : parser.state ≠ .requestLine)
    (handled : handleHeaders data parser request = (result, following)) :
    following.1.state ≠ .requestLine ∧ following.2.method = request.method := by
  unfold handleHeaders at handled
  dsimp only at handled
  split at handled
  · cases handled
    exact ⟨by simp [fail], rfl⟩
  · split at handled
    · split at handled <;> cases handled
      · exact ⟨by simp [fail], rfl⟩
      · exact ⟨behind, rfl⟩
    · rename_i headersEnd found
      have method := parse_headers_method
        ((data.drop parser.consumed).take (headersEnd + 4)) request
      split at handled
      · cases handled
        exact ⟨by simp [fail], rfl⟩
      · split at handled
        all_goals
          rename_i stored parsed
          rw [parsed] at method
        · cases handled
          exact ⟨behind, method⟩
        · cases handled
          exact ⟨by simp [fail], method⟩
        · obtain ⟨still, kept⟩ := choose_body_keeps handled
          exact ⟨still, kept.trans method⟩

/-- The three handlers of the chunk states, which do not see the request. -/
theorem chunk_handlers_behind (data : Bytes) {parser : HttpParser}
    (behind : parser.state ≠ .requestLine) :
    (handleChunkSize data parser).2.state ≠ .requestLine ∧
      (handleChunkData data parser).2.state ≠ .requestLine ∧
      (handleChunkDataCrlf data parser).2.state ≠ .requestLine := by
  refine ⟨?_, ?_, ?_⟩
  · unfold handleChunkSize
    dsimp only
    repeat' split
    all_goals simp [fail, behind]
  · unfold handleChunkData
    dsimp only
    repeat' split
    all_goals simp [fail, behind]
  · unfold handleChunkDataCrlf
    repeat' split
    all_goals simp [fail, behind]

theorem handle_state_keeps_method {data : Bytes} {reading following : Reading}
    {result : Option ParseResult} (behind : reading.1.state ≠ .requestLine)
    (handled : handleState data reading = (result, following)) :
    following.1.state ≠ .requestLine ∧ following.2.method = reading.2.method := by
  obtain ⟨parser, request⟩ := reading
  cases at_state : parser.state <;> simp only [handleState, at_state] at handled
  case requestLine => exact absurd at_state behind
  case headers => exact handle_headers_keeps_method behind handled
  case body =>
    unfold handleBody at handled
    repeat' split at handled
    all_goals cases handled
    all_goals exact ⟨by simp [fail, at_state], rfl⟩
  case chunkSize =>
    obtain ⟨handled, kept⟩ := (keep_request_eq_iff _ _ _ _).mp handled
    have still := (chunk_handlers_behind data behind).1
    rw [handled] at still
    exact ⟨still, by rw [kept]⟩
  case chunkData =>
    obtain ⟨handled, kept⟩ := (keep_request_eq_iff _ _ _ _).mp handled
    have still := (chunk_handlers_behind data behind).2.1
    rw [handled] at still
    exact ⟨still, by rw [kept]⟩
  case chunkDataCrlf =>
    obtain ⟨handled, kept⟩ := (keep_request_eq_iff _ _ _ _).mp handled
    have still := (chunk_handlers_behind data behind).2.2
    rw [handled] at still
    exact ⟨still, by rw [kept]⟩
  case chunkTrailer =>
    unfold handleChunkTrailer finishChunked at handled
    dsimp only at handled
    repeat' split at handled
    all_goals cases handled
    all_goals exact ⟨by simp [fail, at_state], rfl⟩
  case complete =>
    cases handled
    exact ⟨behind, rfl⟩
  case error =>
    cases handled
    exact ⟨behind, rfl⟩

theorem run_keeps_method (data : Bytes) (reading : Reading)
    (behind : reading.1.state ≠ .requestLine) :
    ((parseLoop data).run reading).2.1.state ≠ .requestLine ∧
      ((parseLoop data).run reading).2.2.method = reading.2.method := by
  refine (parseLoop data).run_invariant
    (fun state => state.1.state ≠ .requestLine ∧ state.2.method = reading.2.method)
    (fun result => result.2.1.state ≠ .requestLine ∧ result.2.2.method = reading.2.method)
    ?_ ?_ ⟨behind, rfl⟩
  · intro state following before turned
    obtain ⟨still, method⟩ :=
      handle_state_keeps_method before.1 ((parse_turn_next_iff _ _ _).mp turned)
    exact ⟨still, method.trans before.2⟩
  · intro state result before turned
    obtain ⟨still, method⟩ :=
      handle_state_keeps_method before.1 ((parse_turn_done_iff _ _ _ _).mp turned)
    exact ⟨still, method.trans before.2⟩

end HttpServer.ParserPrefix
