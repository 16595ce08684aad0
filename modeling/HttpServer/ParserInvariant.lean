import HttpServer.CheckedParser
import HttpServer.ParserPrefix

/-!
# What holds of the parser between two handler steps

`ParserKept` relates the parser to the data of the call it is in. Every handler
step moves forward inside the data and keeps it, a call hands it to the next call when
the data grow, and a fresh parser meets it on any data. A handler that starts in such
a state does not take the guard on `consumed_` and does only what the checked handlers
can do, so its arithmetic and its indices are in range. `Error` is never left.
-/

namespace HttpServer.ParserInvariant

open ListSearch MeasuredLoop HttpParser ParserResume ParserPrefix CheckedParser

structure ParserKept (data : Bytes) (parser : HttpParser) : Prop where
  inside : parser.consumed ≤ data.length
  counters : CountersOk parser
  body : parser.state = .body → 1 ≤ parser.bodySize ∧ parser.bodySize ≤ maxBodySize
  chunkData : parser.state = .chunkData →
    parser.body.length + (parser.chunkSize - parser.chunkBytesRead) ≤ maxBodySize
  chunks : parser.state = .chunkSize ∨ parser.state = .chunkDataCrlf ∨
    parser.state = .chunkTrailer → parser.body.length ≤ maxBodySize

/-- One execution of a handler: the data of the call and what it starts from. -/
structure HandlerStep where
  data : Bytes
  before : Reading

namespace HandlerStep

def outcome (step : HandlerStep) : Option ParseResult × Reading :=
  handleState step.data step.before

def after (step : HandlerStep) : Reading := step.outcome.2

end HandlerStep

def callSteps (data : Bytes) (reading : Reading) : List HandlerStep :=
  ((parseLoop data).path reading).map (HandlerStep.mk data)

/-- The handler steps of successive calls, in order. -/
def handlerSteps : List Bytes → Reading → List HandlerStep
  | [], _ => []
  | data :: rest, reading =>
      callSteps data reading ++ handlerSteps rest (parse data reading.1 reading.2).2

structure StepKept (step : HandlerStep) : Prop where
  entered : step.before.1.consumed ≤ step.data.length
  forward : step.before.1.consumed ≤ step.after.1.consumed
  invariant : ParserKept step.data step.after.1
  defined : checkedHandleState step.data step.before = some step.outcome

theorem fresh_kept (data : Bytes) : ParserKept data {} where
  inside := Nat.zero_le _
  counters := fresh_counters
  body := nofun
  chunkData := nofun
  chunks := fun _ => Nat.zero_le _

theorem kept_grows {data more : Bytes} {parser : HttpParser}
    (kept : ParserKept data parser) (grows : data <+: more) :
    ParserKept more parser :=
  { kept with inside := Nat.le_trans kept.inside grows.length_le }

section Forward

variable {data : Bytes} {parser : HttpParser} {request : HttpRequest} {following : Reading}
  {result : Option ParseResult}

/-- The next position is at or behind this one and inside the data. -/
def Forward (data : Bytes) (parser following : HttpParser) : Prop :=
  parser.consumed ≤ following.consumed ∧ following.consumed ≤ data.length

theorem forward_of_same {next : HttpParser} (inside : parser.consumed ≤ data.length)
    (same : next.consumed = parser.consumed) : Forward data parser next :=
  ⟨Nat.le_of_eq same.symm, Nat.le_trans (Nat.le_of_eq same) inside⟩

theorem request_line_forward (inside : parser.consumed ≤ data.length)
    (handled : handleRequestLine data parser request = (result, following)) :
    Forward data parser following.1 := by
  cases result with
  | none =>
      obtain ⟨lineEnd, _, found, _, _, moved⟩ := handle_request_line_advances handled
      have bound := find_sub_bound found
      rw [List.length_drop, crlf_length] at bound
      rw [moved]
      constructor <;> dsimp only <;> omega
  | some stopped =>
      apply forward_of_same inside
      unfold handleRequestLine at handled
      dsimp only at handled
      repeat' split at handled
      all_goals cases handled
      all_goals rfl

theorem headers_forward (inside : parser.consumed ≤ data.length)
    (handled : handleHeaders data parser request = (result, following)) :
    Forward data parser following.1 := by
  unfold handleHeaders at handled
  dsimp only at handled
  split at handled
  · cases handled
    exact forward_of_same inside rfl
  · split at handled
    · split at handled <;> cases handled <;> exact forward_of_same inside rfl
    · rename_i headersEnd found
      have bound := find_sub_bound found
      rw [List.length_drop, crlf_crlf_length] at bound
      split at handled
      · cases handled
        exact forward_of_same inside rfl
      · split at handled
        · cases handled
          exact forward_of_same inside rfl
        · cases handled
          exact forward_of_same inside rfl
        · have moved := choose_body_consumed handled
          constructor <;> rw [moved] <;> dsimp only <;> omega

theorem body_forward (inside : parser.consumed ≤ data.length)
    (handled : handleBody data parser request = (result, following)) :
    Forward data parser following.1 := by
  unfold handleBody at handled
  rw [if_neg (by omega)] at handled
  split_ifs at handled <;> cases handled
  · exact forward_of_same inside rfl
  · constructor <;> dsimp only <;> omega

theorem chunk_size_forward {next : HttpParser} (inside : parser.consumed ≤ data.length)
    (handled : handleChunkSize data parser = (result, next)) : Forward data parser next := by
  cases result with
  | none =>
      obtain ⟨lineEnd, size, _, found, _, _, _, rfl⟩ := handle_chunk_size_advances handled
      have bound := find_sub_bound found
      rw [List.length_drop, crlf_length] at bound
      constructor <;> dsimp only <;> omega
  | some stopped =>
      apply forward_of_same inside
      unfold handleChunkSize at handled
      dsimp only at handled
      repeat' split at handled
      all_goals cases handled
      all_goals rfl

theorem chunk_data_forward {next : HttpParser} (inside : parser.consumed ≤ data.length)
    (handled : handleChunkData data parser = (result, next)) : Forward data parser next := by
  have copied := Nat.min_le_left (data.length - parser.consumed)
    (sizeSub parser.chunkSize parser.chunkBytesRead)
  unfold handleChunkData at handled
  rw [if_neg (by omega)] at handled
  dsimp only at handled
  split_ifs at handled
  all_goals
    cases handled
    constructor
    · exact Nat.le_add_right _ _
    · dsimp only
      omega

theorem chunk_data_crlf_forward {next : HttpParser} (inside : parser.consumed ≤ data.length)
    (handled : handleChunkDataCrlf data parser = (result, next)) :
    Forward data parser next := by
  cases result with
  | none =>
      obtain ⟨rest, _, remaining, rfl⟩ := handle_chunk_data_crlf_advances handled
      have length := congrArg List.length remaining
      rw [List.length_drop, List.length_cons, List.length_cons] at length
      constructor <;> dsimp only <;> omega
  | some stopped =>
      apply forward_of_same inside
      unfold handleChunkDataCrlf at handled
      repeat' split at handled
      all_goals cases handled
      all_goals rfl

theorem chunk_trailer_forward (inside : parser.consumed ≤ data.length)
    (handled : handleChunkTrailer data parser request = (result, following)) :
    Forward data parser following.1 := by
  unfold handleChunkTrailer finishChunked at handled
  rw [if_neg (by omega)] at handled
  dsimp only at handled
  split at handled
  · rename_i starts
    have length := (List.isPrefixOf_iff_prefix.mp starts).length_le
    rw [List.length_drop, crlf_length] at length
    cases handled
    constructor <;> dsimp only <;> omega
  · split at handled
    · split at handled <;> cases handled <;> exact forward_of_same inside rfl
    · rename_i trailerEnd found
      have bound := find_sub_bound found
      rw [List.length_drop, crlf_crlf_length] at bound
      split at handled <;> cases handled
      · constructor <;> dsimp only <;> omega
      · exact forward_of_same inside rfl

theorem handle_state_forward (inside : parser.consumed ≤ data.length)
    (handled : handleState data (parser, request) = (result, following)) :
    Forward data parser following.1 := by
  cases at_state : parser.state <;> simp only [handleState, at_state] at handled
  case requestLine => exact request_line_forward inside handled
  case headers => exact headers_forward inside handled
  case body => exact body_forward inside handled
  case chunkSize =>
    exact chunk_size_forward inside ((keep_request_eq_iff _ _ _ _).mp handled).1
  case chunkData =>
    exact chunk_data_forward inside ((keep_request_eq_iff _ _ _ _).mp handled).1
  case chunkDataCrlf =>
    exact chunk_data_crlf_forward inside ((keep_request_eq_iff _ _ _ _).mp handled).1
  case chunkTrailer => exact chunk_trailer_forward inside handled
  all_goals
    cases handled
    exact forward_of_same inside rfl

end Forward

section Steps

variable {data : Bytes} {parser : HttpParser} {request : HttpRequest} {following : Reading}

theorem kept_of_ended {next : HttpParser} (inside : next.consumed ≤ data.length)
    (counters : CountersOk next) (ended : next.state = .complete ∨ next.state = .error) :
    ParserKept data next := by
  rcases ended with ended | ended
  all_goals
    constructor
    · exact inside
    · exact counters
    all_goals
      rw [ended]
      simp

theorem advance_kept (kept : ParserKept data parser)
    (handled : handleState data (parser, request) = (none, following)) :
    ParserKept data following.1 := by
  obtain ⟨next, stored⟩ := following
  have inside : next.consumed ≤ data.length := (handle_state_forward kept.inside handled).2
  have counters : CountersOk next := handle_state_counters kept.counters handled
  cases handle_state_advances handled with
  | requestLine _ handled =>
      obtain ⟨_, _, _, _, _, rfl⟩ := handle_request_line_advances handled
      exact ⟨inside, counters, nofun, nofun, nofun⟩
  | headers _ handled =>
      obtain ⟨_, _, _, _, _, _, chosen⟩ := handle_headers_decides handled (Or.inl rfl)
      rcases choose_body_advances chosen with ⟨_, _, moved⟩ | ⟨_, _, _, positive, fits, moved⟩
      · cases moved
        exact ⟨inside, counters, nofun, nofun, fun _ => Nat.zero_le _⟩
      · cases moved
        exact ⟨inside, counters, fun _ => ⟨positive, fits⟩, nofun, nofun⟩
  | chunkSize _ handled _ =>
      obtain ⟨_, size, _, _, _, _, fits, rfl⟩ := handle_chunk_size_advances handled
      refine ⟨inside, counters, ?_, fun _ => fits, ?_⟩
      · by_cases last : size = 0 <;> simp [last]
      · intro _
        exact Nat.le_trans (Nat.le_add_right _ _) fits
  | chunkData at_state handled _ =>
      obtain ⟨ordered, bounded⟩ := kept.counters (by simp [at_state])
      obtain ⟨_, rfl⟩ := handle_chunk_data_advances ordered bounded handled
      refine ⟨inside, counters, nofun, nofun, ?_⟩
      intro _
      have held := kept.chunkData at_state
      rw [List.length_append, List.length_take]
      omega
  | chunkDataCrlf at_state handled _ =>
      obtain ⟨_, _, _, rfl⟩ := handle_chunk_data_crlf_advances handled
      exact ⟨inside, counters, nofun, nofun, fun _ => kept.chunks (Or.inr (Or.inl at_state))⟩

theorem wait_kept (kept : ParserKept data parser)
    (handled : handleState data (parser, request) = (some .incomplete, following)) :
    ParserKept data following.1 := by
  obtain ⟨next, stored⟩ := following
  have inside : next.consumed ≤ data.length := (handle_state_forward kept.inside handled).2
  have counters : CountersOk next := handle_state_counters kept.counters handled
  cases at_state : parser.state <;> simp only [handleState, at_state] at handled
  case requestLine =>
    obtain ⟨_, same, _⟩ := handle_request_line_waits handled (by decide)
    cases same
    exact kept
  case headers =>
    cases (handle_headers_waits handled).1
    exact kept
  case body =>
    cases (handle_body_waits handled).1
    exact kept
  case chunkSize =>
    obtain ⟨handled, _⟩ := (keep_request_eq_iff _ _ _ _).mp handled
    obtain ⟨_, rfl, _⟩ := handle_chunk_size_waits handled (by decide)
    exact kept
  case chunkData =>
    obtain ⟨handled, _⟩ := (keep_request_eq_iff _ _ _ _).mp handled
    obtain ⟨ordered, bounded⟩ := kept.counters (by simp [at_state])
    obtain ⟨_, _, short, rfl⟩ := handle_chunk_data_waits ordered bounded handled (by decide)
    refine ⟨inside, counters, by simp [at_state], ?_, by simp [at_state]⟩
    intro _
    have held := kept.chunkData at_state
    rw [List.length_append, List.length_drop]
    dsimp only
    omega
  case chunkDataCrlf =>
    obtain ⟨handled, _⟩ := (keep_request_eq_iff _ _ _ _).mp handled
    obtain ⟨_, rfl, _⟩ := handle_chunk_data_crlf_waits handled (by decide)
    exact kept
  case chunkTrailer =>
    cases (handle_chunk_trailer_waits handled).1
    exact kept
  all_goals cases handled

theorem handle_state_kept {result : Option ParseResult} (kept : ParserKept data parser)
    (handled : handleState data (parser, request) = (result, following)) :
    ParserKept data following.1 := by
  have inside := (handle_state_forward kept.inside handled).2
  have counters : CountersOk following.1 := handle_state_counters kept.counters handled
  match result with
  | none => exact advance_kept kept handled
  | some .incomplete => exact wait_kept kept handled
  | some .complete =>
      exact kept_of_ended inside counters (Or.inl (handle_state_completes_extends handled []).1)
  | some .invalid =>
      exact kept_of_ended inside counters (Or.inr (handle_state_refuses handled))

theorem step_kept (sized : data.length < sizeModulus) (kept : ParserKept data parser) :
    StepKept ⟨data, parser, request⟩ where
  entered := kept.inside
  forward := (handle_state_forward kept.inside rfl).1
  invariant := handle_state_kept kept rfl
  defined := checked_handle_state_eq sized kept.counters request

end Steps

section Calls

theorem call_kept {data : Bytes} {reading : Reading} (kept : ParserKept data reading.1) :
    ParserKept data (parse data reading.1 reading.2).2.1 := by
  refine (parseLoop data).run_invariant (fun state => ParserKept data state.1)
    (fun result => ParserKept data result.2.1) ?_ ?_ kept
  · intro state following before turned
    exact handle_state_kept before ((parse_turn_next_iff _ _ _).mp turned)
  · intro state result before turned
    exact handle_state_kept before ((parse_turn_done_iff _ _ _ _).mp turned)

theorem call_steps_kept {data : Bytes} {reading : Reading} (sized : data.length < sizeModulus)
    (kept : ParserKept data reading.1) : ∀ step ∈ callSteps data reading, StepKept step := by
  have visited := (parseLoop data).path_invariant (fun state => ParserKept data state.1)
    (fun state following before turned =>
      handle_state_kept before ((parse_turn_next_iff _ _ _).mp turned)) kept
  intro step member
  obtain ⟨before, taken, rfl⟩ := List.mem_map.mp member
  exact step_kept sized (visited before taken)

theorem handler_steps_kept {inputs : List Bytes} {reading : Reading}
    (prefixes : inputs.IsChain (· <+: ·)) (sized : ∀ data ∈ inputs, data.length < sizeModulus)
    (start : ∀ data ∈ inputs.head?, ParserKept data reading.1) :
    ∀ step ∈ handlerSteps inputs reading, StepKept step := by
  induction inputs generalizing reading with
  | nil => exact nofun
  | cons data rest ih =>
      have kept : ParserKept data reading.1 := start data rfl
      have first := call_steps_kept (sized data List.mem_cons_self) kept
      have grows : ∀ next ∈ rest.head?, data <+: next := by
        intro next found
        cases rest with
        | nil => cases found
        | cons head rest =>
            cases found
            exact (List.isChain_cons_cons.mp prefixes).1
      have later := ih prefixes.tail
        (fun other member => sized other (List.mem_cons_of_mem _ member))
        (fun next found => kept_grows (call_kept kept) (grows next found))
      intro step member
      rcases List.mem_append.mp member with member | member
      · exact first step member
      · exact later step member

theorem parse_refuses {data : Bytes} {parser : HttpParser} {request : HttpRequest}
    (refused : (parse data parser request).1 = .invalid) :
    (parse data parser request).2.1.state = .error := by
  revert refused
  refine (parseLoop data).run_invariant (fun _ => True)
    (fun result => result.1 = .invalid → result.2.1.state = .error) ?_ ?_ trivial
  · exact fun _ _ _ _ => trivial
  · intro state result _ turned refused
    obtain ⟨verdict, stopped⟩ := result
    cases refused
    exact handle_state_refuses ((parse_turn_done_iff _ _ _ _).mp turned)

theorem parse_at_error {parser : HttpParser} (failed : parser.state = .error) (data : Bytes)
    (request : HttpRequest) : parse data parser request = (.invalid, parser, request) := by
  have turned : (parseLoop data).turn (parser, request) = .done (.invalid, parser, request) := by
    apply (parse_turn_done_iff _ _ _ _).mpr
    simp only [handleState, failed]
  exact (parseLoop data).run_done turned

theorem parse_each_at_error {parser : HttpParser} (failed : parser.state = .error)
    (inputs : List Bytes) (request : HttpRequest) :
    parseEach inputs parser request =
      (List.replicate inputs.length .invalid, parser, request) := by
  induction inputs with
  | nil => rfl
  | cons data rest ih =>
      rw [parseEach, parse_at_error failed]
      dsimp only
      rw [ih]
      rfl

theorem parse_each_refuses {inputs : List Bytes} {parser : HttpParser} {request : HttpRequest}
    (refused : .invalid ∈ (parseEach inputs parser request).1) :
    (parseEach inputs parser request).2.1.state = .error := by
  induction inputs generalizing parser request with
  | nil => cases refused
  | cons data rest ih =>
      rw [parseEach] at refused ⊢
      rcases List.mem_cons.mp refused with now | later
      · have failed := parse_refuses now.symm
        dsimp only
        rw [parse_each_at_error failed]
        exact failed
      · exact ih later

end Calls

/-- Every handler step of calls on growing data keeps the invariant and does nothing
undefined, and a refused parser stays as it is. -/
theorem parser_state_invariant (inputs : List Bytes) (start : HttpParser) (request : HttpRequest)
    (fresh : start = {} ∨ ∃ used : HttpParser, start = used.reset)
    (prefixes : inputs.IsChain (· <+: ·)) (sized : ∀ data ∈ inputs, data.length < sizeModulus) :
    (∀ step ∈ handlerSteps inputs (start, request), StepKept step) ∧
      ∀ later : List Bytes, .invalid ∈ (parseEach inputs start request).1 →
        parseEach later (parseEach inputs start request).2.1
            (parseEach inputs start request).2.2 =
          (List.replicate later.length .invalid, (parseEach inputs start request).2) := by
  have blank : start = {} := by
    rcases fresh with blank | ⟨used, blank⟩
    · exact blank
    · exact blank
  subst blank
  constructor
  · exact handler_steps_kept prefixes sized fun data _ => fresh_kept data
  · intro later refused
    exact parse_each_at_error (parse_each_refuses refused) later _

def chunkedStart : Bytes :=
  ascii "POST / HTTP/1.1\r\nTransfer-Encoding: chunked\r\n\r\n5\r\nhe"

theorem parser_state_invariant_chunked :
    (∀ step ∈ handlerSteps [chunkedStart, chunkedStart ++ ascii "llo\r\nx\r\n"] ({}, {}),
        StepKept step) ∧
      parseEach [chunkedStart]
          (parseEach [chunkedStart, chunkedStart ++ ascii "llo\r\nx\r\n"] {} {}).2.1
          (parseEach [chunkedStart, chunkedStart ++ ascii "llo\r\nx\r\n"] {} {}).2.2 =
        ([.invalid], (parseEach [chunkedStart, chunkedStart ++ ascii "llo\r\nx\r\n"] {} {}).2) := by
  have both := parser_state_invariant [chunkedStart, chunkedStart ++ ascii "llo\r\nx\r\n"] {} {}
    (Or.inl rfl)
    (by simp only [List.isChain_cons_cons, List.isChain_singleton]; decide +kernel)
    (by decide +kernel)
  exact ⟨both.1, both.2 [chunkedStart] (by decide +kernel)⟩

end HttpServer.ParserInvariant
