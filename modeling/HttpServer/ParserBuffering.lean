import HttpServer.ParserResume

/-!
# How much a pending request can hold

Each chunk costs its line, two line ends and its data, and carries at least one
byte of the body, whose size is limited. So what the parser has consumed is bounded
by the head of the message and a fixed price for each byte of the body, and what it
waits on is bounded by the limit of the piece it is in. `Within` is that invariant;
a chunk in progress has paid for its line and owes its data and the line end.
-/

namespace HttpServer.ParserBuffering

open ListSearch MeasuredLoop HttpParser ParserResume

/-- What one byte of the body may cost: a chunk of its own. -/
def bytePrice : Nat := maxChunkLineSize + 2 + 1 + 2

def headPrice : Nat := maxRequestLine + 2 + (maxHeaderSize + 4)

/-- The announced part of a chunk that has not been read yet. -/
def unread (parser : HttpParser) : Nat :=
  if parser.state = .chunkData then parser.chunkSize - parser.chunkBytesRead else 0

/-- The line end behind the data of a chunk in progress. -/
def owed : ParserState → Nat
  | .chunkData | .chunkDataCrlf => 2
  | _ => 0

/-- What the sections before the body, and behind the last chunk, may have taken. -/
def sectionPrice : ParserState → Nat
  | .requestLine => 0
  | .headers => maxRequestLine + 2
  | .chunkTrailer => headPrice + (maxChunkLineSize + 2)
  | _ => headPrice

structure Within (parser : HttpParser) : Prop where
  body : parser.body.length + unread parser ≤ maxBodySize
  untouched : parser.state = .requestLine ∨ parser.state = .headers ∨ parser.state = .body →
    parser.body = []
  bodySize : parser.state = .body → parser.bodySize ≤ maxBodySize
  position : parser.state ≠ .complete → parser.state ≠ .error →
    parser.consumed + unread parser + owed parser.state ≤
      sectionPrice parser.state + bytePrice * (parser.body.length + unread parser)

theorem fresh_within : Within {} where
  body := Nat.zero_le _
  untouched := fun _ => rfl
  bodySize := nofun
  position := fun _ _ => Nat.zero_le _

section Steps

variable {data : Bytes} {parser : HttpParser} {request : HttpRequest} {following : Reading}

theorem request_line_within (within : Within parser) (at_state : parser.state = .requestLine)
    (handled : handleRequestLine data parser request = (none, following)) :
    Within following.1 := by
  obtain ⟨lineEnd, _, _, short, _, moved⟩ := handle_request_line_advances handled
  have empty := within.untouched (Or.inl at_state)
  have position := within.position (by simp [at_state]) (by simp [at_state])
  simp only [unread, owed, sectionPrice, at_state, empty, reduceCtorEq, if_false,
    List.length_nil] at position
  rw [moved]
  refine ⟨?_, fun _ => empty, nofun, ?_⟩
  · simp only [unread, empty, reduceCtorEq, if_false, List.length_nil]
    omega
  · intro _ _
    simp only [unread, owed, sectionPrice, empty, reduceCtorEq, if_false, List.length_nil]
    omega

theorem headers_within (within : Within parser) (at_state : parser.state = .headers)
    (handled : handleHeaders data parser request = (none, following)) :
    Within following.1 := by
  obtain ⟨headersEnd, stored, _, _, short, _, chosen⟩ :=
    handle_headers_decides handled (Or.inl rfl)
  have empty := within.untouched (Or.inr (Or.inl at_state))
  have position := within.position (by simp [at_state]) (by simp [at_state])
  simp only [unread, owed, sectionPrice, at_state, empty, reduceCtorEq, if_false,
    List.length_nil] at position
  rcases choose_body_advances chosen with ⟨_, _, rfl⟩ | ⟨_, length, _, _, fits, rfl⟩
  · refine ⟨Nat.zero_le _, nofun, nofun, ?_⟩
    intro _ _
    simp only [unread, owed, sectionPrice, headPrice, reduceCtorEq, if_false, List.length_nil]
    omega
  · refine ⟨?_, fun _ => empty, fun _ => fits, ?_⟩
    · simp only [unread, empty, reduceCtorEq, if_false, List.length_nil]
      omega
    · intro _ _
      simp only [unread, owed, sectionPrice, headPrice, empty, reduceCtorEq, if_false,
        List.length_nil]
      omega

/-- A chunk line is paid for by the first byte of its chunk. -/
theorem chunk_size_within {next : HttpParser} (within : Within parser)
    (at_state : parser.state = .chunkSize) (handled : handleChunkSize data parser = (none, next)) :
    Within next := by
  obtain ⟨lineEnd, size, _, _, short, _, fits, rfl⟩ := handle_chunk_size_advances handled
  have position := within.position (by simp [at_state]) (by simp [at_state])
  simp only [unread, owed, sectionPrice, at_state, reduceCtorEq, if_false, Nat.add_zero,
    bytePrice] at position
  by_cases last : size = 0
  · subst last
    simp only [if_true]
    refine ⟨?_, nofun, nofun, ?_⟩
    · simp only [unread, reduceCtorEq, if_false]
      exact fits
    · intro _ _
      simp only [unread, owed, sectionPrice, bytePrice, reduceCtorEq, if_false, Nat.add_zero]
      omega
  · simp only [if_neg last]
    refine ⟨?_, nofun, nofun, ?_⟩
    · simp only [unread, if_true, Nat.sub_zero]
      exact fits
    · intro _ _
      have price : lineEnd + 2 + size + 2 ≤ (maxChunkLineSize + 2 + 1 + 2) * size := by
        have least := Nat.one_le_iff_ne_zero.mpr last
        have scaled := Nat.mul_le_mul_left (maxChunkLineSize + 4) least
        have split : (maxChunkLineSize + 2 + 1 + 2) * size =
            (maxChunkLineSize + 4) * size + size := Nat.succ_mul (maxChunkLineSize + 4) size
        omega
      simp only [unread, owed, sectionPrice, bytePrice, if_true, Nat.sub_zero, Nat.mul_add]
      omega

theorem chunk_data_within {next : HttpParser} (within : Within parser) (ok : CountersOk parser)
    (at_state : parser.state = .chunkData) (handled : handleChunkData data parser = (none, next)) :
    Within next := by
  obtain ⟨ordered, bounded⟩ := ok (by simp [at_state])
  obtain ⟨enough, rfl⟩ := handle_chunk_data_advances ordered bounded handled
  have position := within.position (by simp [at_state]) (by simp [at_state])
  have held := within.body
  simp only [unread, owed, sectionPrice, at_state, if_true] at position held
  have length : (parser.body ++
      (data.drop parser.consumed).take (parser.chunkSize - parser.chunkBytesRead)).length =
        parser.body.length + (parser.chunkSize - parser.chunkBytesRead) := by
    rw [List.length_append, List.length_take, List.length_drop]
    omega
  refine ⟨?_, nofun, nofun, ?_⟩
  · simp only [unread, reduceCtorEq, if_false, length]
    omega
  · intro _ _
    simp only [unread, owed, sectionPrice, reduceCtorEq, if_false, length, Nat.add_zero]
    omega

theorem chunk_data_crlf_within {next : HttpParser} (within : Within parser)
    (at_state : parser.state = .chunkDataCrlf)
    (handled : handleChunkDataCrlf data parser = (none, next)) : Within next := by
  obtain ⟨_, _, _, rfl⟩ := handle_chunk_data_crlf_advances handled
  have position := within.position (by simp [at_state]) (by simp [at_state])
  have held := within.body
  simp only [unread, owed, sectionPrice, at_state, reduceCtorEq, if_false] at position held
  refine ⟨?_, nofun, nofun, ?_⟩
  · simp only [unread, reduceCtorEq, if_false]
    exact held
  · intro _ _
    simp only [unread, owed, sectionPrice, reduceCtorEq, if_false]
    omega

theorem handle_state_within (within : Within parser) (ok : CountersOk parser)
    (handled : handleState data (parser, request) = (none, following)) : Within following.1 := by
  cases handle_state_advances handled with
  | requestLine at_state handled => exact request_line_within within at_state handled
  | headers at_state handled => exact headers_within within at_state handled
  | chunkSize at_state handled _ => exact chunk_size_within within at_state handled
  | chunkData at_state handled _ => exact chunk_data_within within ok at_state handled
  | chunkDataCrlf at_state handled _ => exact chunk_data_crlf_within within at_state handled

end Steps

section Stops

variable {data : Bytes} {parser : HttpParser} {request : HttpRequest} {stopped : Reading}

/-- The most a state waits for. -/
def reserve (parser : HttpParser) : Nat :=
  match parser.state with
  | .requestLine => maxRequestLine
  | .headers | .chunkTrailer => maxHeaderSize
  | .body => parser.bodySize
  | .chunkSize => maxChunkLineSize
  | .chunkData | .chunkDataCrlf => unread parser + owed parser.state
  | .complete | .error => 0

theorem waits_within_reserve (ok : CountersOk parser)
    (handled : handleState data (parser, request) = (some .incomplete, stopped)) :
    data.length ≤ parser.consumed + reserve parser := by
  cases at_state : parser.state <;> simp only [handleState, at_state] at handled
  case requestLine =>
    obtain ⟨_, _, _, _, short⟩ := handle_request_line_waits handled (by decide)
    rw [List.length_drop] at short
    simp only [reserve, at_state]
    omega
  case headers =>
    obtain ⟨_, _, _, short⟩ := handle_headers_waits handled
    rw [List.length_drop] at short
    simp only [reserve, at_state]
    omega
  case body =>
    obtain ⟨_, _, short⟩ := handle_body_waits handled
    simp only [reserve, at_state]
    omega
  case chunkSize =>
    obtain ⟨handled, _⟩ := (keep_request_eq_iff _ _ _ _).mp handled
    obtain ⟨_, _, _, _, short⟩ := handle_chunk_size_waits handled (by decide)
    rw [List.length_drop] at short
    simp only [reserve, at_state]
    omega
  case chunkData =>
    obtain ⟨handled, _⟩ := (keep_request_eq_iff _ _ _ _).mp handled
    obtain ⟨ordered, bounded⟩ := ok (by simp [at_state])
    obtain ⟨_, _, short, _⟩ := handle_chunk_data_waits ordered bounded handled (by decide)
    simp only [reserve, unread, at_state, if_true]
    omega
  case chunkDataCrlf =>
    obtain ⟨handled, _⟩ := (keep_request_eq_iff _ _ _ _).mp handled
    obtain ⟨_, _, short⟩ := handle_chunk_data_crlf_waits handled (by decide)
    simp only [reserve, unread, owed, at_state, reduceCtorEq, if_false]
    omega
  case chunkTrailer =>
    obtain ⟨_, short⟩ := handle_chunk_trailer_waits handled
    rw [List.length_drop] at short
    simp only [reserve, at_state]
    omega
  all_goals cases handled

theorem choose_body_kept (parser : HttpParser) (request : HttpRequest) :
    (chooseBody parser request).2.1.body = parser.body ∨
      (chooseBody parser request).2.1.body = [] := by
  unfold chooseBody
  dsimp only
  repeat' split
  all_goals first
    | exact Or.inl rfl
    | exact Or.inr rfl

/-- Only the copying of chunk data adds to the body buffer. -/
theorem stopped_body_kept {result : ParseResult} (notData : parser.state ≠ .chunkData)
    (handled : handleState data (parser, request) = (some result, stopped)) :
    stopped.1.body = parser.body ∨ stopped.1.body = [] := by
  rw [← congrArg (fun out => out.2.1) handled]
  cases at_state : parser.state <;> simp only [handleState, at_state]
  case chunkData => exact absurd at_state notData
  case requestLine =>
    unfold handleRequestLine
    dsimp only
    repeat' split
    all_goals exact Or.inl rfl
  case headers =>
    unfold handleHeaders
    dsimp only
    repeat' split
    all_goals first
      | exact Or.inl rfl
      | exact choose_body_kept _ _
  case body =>
    unfold handleBody
    repeat' split
    all_goals exact Or.inl rfl
  case chunkSize =>
    unfold keepRequest handleChunkSize
    dsimp only
    repeat' split
    all_goals exact Or.inl rfl
  case chunkDataCrlf =>
    unfold keepRequest handleChunkDataCrlf
    repeat' split
    all_goals exact Or.inl rfl
  case chunkTrailer =>
    unfold handleChunkTrailer finishChunked
    dsimp only
    repeat' split
    all_goals first
      | exact Or.inl rfl
      | exact Or.inr rfl
  all_goals exact Or.inl trivial

theorem stopped_body {result : ParseResult} (within : Within parser) (ok : CountersOk parser)
    (handled : handleState data (parser, request) = (some result, stopped)) :
    stopped.1.body.length ≤ maxBodySize := by
  have held : parser.body.length ≤ maxBodySize :=
    Nat.le_trans (Nat.le_add_right _ _) within.body
  by_cases copying : parser.state = .chunkData
  · simp only [handleState, copying] at handled
    obtain ⟨handled, _⟩ := (keep_request_eq_iff _ _ _ _).mp handled
    by_cases refused : result = .invalid
    · subst refused
      obtain ⟨after, _⟩ := stopped
      unfold handleChunkData at handled
      dsimp only at handled
      repeat' split at handled
      all_goals cases handled
      exact held
    · obtain ⟨ordered, bounded⟩ := ok (by rw [copying]; decide)
      obtain ⟨_, inside, short, moved⟩ := handle_chunk_data_waits ordered bounded handled refused
      have total := within.body
      simp only [unread, copying, if_true] at total
      rw [moved, List.length_append, List.length_drop]
      omega
  · rcases stopped_body_kept copying handled with same | empty
    · rwa [same]
    · rw [empty]
      exact Nat.zero_le _

/-- The bytes before a waiting parser are the price of what it has stored. -/
theorem waiting_length (within : Within parser) (ok : CountersOk parser)
    (handled : handleState data (parser, request) = (some .incomplete, stopped)) :
    data.length ≤ bytePrice * maxBodySize + (headPrice + (maxChunkLineSize + 2) + maxHeaderSize) := by
  have reserved := waits_within_reserve ok handled
  have paid := Nat.mul_le_mul_left bytePrice within.body
  have price : maxBodySize ≤ bytePrice * maxBodySize := Nat.le_mul_of_pos_left _ (by decide)
  cases at_state : parser.state
  case complete | error =>
    simp only [handleState, at_state] at handled
    cases handled
  case body =>
    have size := within.bodySize at_state
    have empty := within.untouched (Or.inr (Or.inr at_state))
    have position := within.position (by simp [at_state]) (by simp [at_state])
    simp only [reserve, unread, at_state, sectionPrice, empty, reduceCtorEq, if_false,
      List.length_nil, Nat.add_zero, Nat.mul_zero] at reserved position
    omega
  all_goals
    have position := within.position (by simp [at_state]) (by simp [at_state])
    simp only [reserve, at_state, sectionPrice, headPrice] at reserved position ⊢
    omega

end Stops

theorem turn_within {data : Bytes} (state following : Reading)
    (before : Within state.1 ∧ CountersOk state.1)
    (turned : (parseLoop data).turn state = .next following) :
    Within following.1 ∧ CountersOk following.1 := by
  have handled := (parse_turn_next_iff _ _ _).mp turned
  exact ⟨handle_state_within before.1 before.2 handled, handle_state_counters before.2 handled⟩

/-- A pending request holds a bounded number of bytes, and the body buffer never
more than the limit of a body. -/
theorem pending_bytes_bounded (data : Bytes) (request : HttpRequest) :
    ((parse data {} request).1 = .incomplete → data.length ≤ 133 * maxBodySize + 41096) ∧
      (parse data {} request).2.1.body.length ≤ maxBodySize ∧
      ∀ reading ∈ (parseLoop data).path ({}, request),
        reading.1.body.length ≤ maxBodySize := by
  have start : Within (({}, request) : Reading).1 ∧ CountersOk (({}, request) : Reading).1 :=
    ⟨fresh_within, fresh_counters⟩
  refine ⟨?_, ?_, ?_⟩
  · refine (parseLoop data).run_invariant (fun state => Within state.1 ∧ CountersOk state.1)
      (fun result => result.1 = .incomplete → data.length ≤ 133 * maxBodySize + 41096)
      turn_within ?_ start
    intro state result before turned waiting
    obtain ⟨result, stopped⟩ := result
    dsimp only at waiting
    subst waiting
    have handled := (parse_turn_done_iff _ _ _ _).mp turned
    exact waiting_length before.1 before.2 handled
  · refine (parseLoop data).run_invariant (fun state => Within state.1 ∧ CountersOk state.1)
      (fun result => result.2.1.body.length ≤ maxBodySize) turn_within ?_ start
    intro state result before turned
    have handled := (parse_turn_done_iff _ _ _ _).mp turned
    exact stopped_body before.1 before.2 handled
  · intro reading member
    have visited := (parseLoop data).path_invariant
      (fun state => Within state.1 ∧ CountersOk state.1) turn_within start reading member
    exact Nat.le_trans (Nat.le_add_right _ _) visited.1.body

/-- The second chunk has not arrived in full. -/
def pendingChunks : Bytes :=
  ascii "POST / HTTP/1.1\r\nTransfer-Encoding: chunked\r\n\r\n3;a=b\r\nabc\r\n5\r\nde"

theorem pending_bytes_bounded_chunks :
    (parse pendingChunks {} {}).1 = .incomplete ∧
      (parse pendingChunks {} {}).2.1.state = .chunkData ∧
      (parse pendingChunks {} {}).2.1.body = ascii "abcde" ∧
      pendingChunks.length ≤ 133 * maxBodySize + 41096 ∧
      ∀ reading ∈ (parseLoop pendingChunks).path ({}, {}),
        reading.1.body.length ≤ maxBodySize := by
  have waiting : (parse pendingChunks {} {}).1 = .incomplete ∧
      (parse pendingChunks {} {}).2.1.state = .chunkData ∧
      (parse pendingChunks {} {}).2.1.body = ascii "abcde" := by
    decide +kernel
  obtain ⟨bounded, _, turns⟩ := pending_bytes_bounded pendingChunks {}
  exact ⟨waiting.1, waiting.2.1, waiting.2.2, bounded waiting.1, turns⟩

end HttpServer.ParserBuffering
