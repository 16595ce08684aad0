import HttpServer.ParserFraming
import HttpServer.ParserPrefix

/-!
# Size limits and fragments

The request line, the header block, a chunk line and the trailer block are each
read up to an ending. Where the ending is there, its position is held against a
limit, except for the trailer block; where it is not there yet, all the bytes
behind the beginning are held against the same limit, and among these may be part
of the ending. `HasStretch` finds the four kinds of pieces in a message without
running the parser. The fragments of a message that one call accepts are accepted
exactly when none of them ends inside a piece with more bytes of it than its limit.
-/

namespace HttpServer.ParserLimits

open ListSearch MeasuredLoop HttpParser ParserResume ParserPrefix ParserFraming

/-- A piece of a message that is read up to an ending. -/
structure Stretch where
  start : Nat
  ending : Bytes
  limit : Nat
deriving DecidableEq, Repr

/-- The data ends before the ending does and holds more of the piece than its limit. -/
def Stretch.exceededIn (stretch : Stretch) (data : Bytes) : Prop :=
  stretch.start + stretch.limit < data.length ∧
    findSub stretch.ending (data.drop stretch.start) = none

instance (stretch : Stretch) (data : Bytes) : Decidable (stretch.exceededIn data) :=
  inferInstanceAs (Decidable (_ ∧ _))

/-- The pieces of a chunked body that begins at an offset: every chunk line, and
the trailer block unless it is a bare CRLF. -/
inductive ChunkStretch (data : Bytes) : Nat → Stretch → Prop
  | line (start : Nat) : ChunkStretch data start ⟨start, crlf, maxChunkLineSize⟩
  | later {start lineEnd size : Nat} {stretch : Stretch}
      (found : findSub crlf (data.drop start) = some lineEnd)
      (announced : utils.parseChunkSize (chunkSizeText ((data.drop start).take lineEnd)) 0 =
        (true, size))
      (positive : size ≠ 0)
      (further : ChunkStretch data (start + (lineEnd + 2) + size + 2) stretch) :
      ChunkStretch data start stretch
  | trailer {start lineEnd : Nat} (found : findSub crlf (data.drop start) = some lineEnd)
      (announced : utils.parseChunkSize (chunkSizeText ((data.drop start).take lineEnd)) 0 =
        (true, 0))
      (fields : ¬crlf <+: data.drop (start + (lineEnd + 2))) :
      ChunkStretch data start ⟨start + (lineEnd + 2), crlfCrlf, maxHeaderSize⟩

inductive HasStretch (data : Bytes) : Stretch → Prop
  | requestLine : HasStretch data ⟨0, crlf, maxRequestLine⟩
  | headers {lineEnd : Nat} (lineFound : findSub crlf data = some lineEnd) :
      HasStretch data ⟨lineEnd + 2, crlfCrlf, maxHeaderSize⟩
  | body {lineEnd headersEnd : Nat} {stretch : Stretch}
      (lineFound : findSub crlf data = some lineEnd)
      (blockFound : findSub crlfCrlf (data.drop (lineEnd + 2)) = some headersEnd)
      (encoded : HttpHeaders.get ⟨headerFields data⟩ transferEncodingName ≠ [])
      (inside : ChunkStretch data (lineEnd + 2 + (headersEnd + 4)) stretch) :
      HasStretch data stretch

section Cuts

variable {data : Bytes} {size : Nat}

/-- The piece a parser is about to read, if it is in a state that reads one. -/
def ownStretch (data : Bytes) (parser : HttpParser) : Option Stretch :=
  match parser.state with
  | .requestLine => some ⟨parser.consumed, crlf, maxRequestLine⟩
  | .headers => some ⟨parser.consumed, crlfCrlf, maxHeaderSize⟩
  | .chunkSize => some ⟨parser.consumed, crlf, maxChunkLineSize⟩
  | .chunkTrailer =>
      if crlf.isPrefixOf (data.drop parser.consumed) then none
      else some ⟨parser.consumed, crlfCrlf, maxHeaderSize⟩
  | _ => none

theorem own_stretch_start {parser : HttpParser} {stretch : Stretch}
    (own : ownStretch data parser = some stretch) : stretch.start = parser.consumed := by
  unfold ownStretch at own
  repeat' split at own
  all_goals cases own
  all_goals rfl

theorem cut_search {ending : Bytes} {start offset : Nat}
    (found : findSub ending (data.drop start) = some offset) (inside : start ≤ size)
    (cut : size < start + (offset + ending.length)) :
    (data.take size).length = size ∧ ((data.take size).drop start).length = size - start ∧
      findSub ending ((data.take size).drop start) = none := by
  have bound := find_sub_bound found
  rw [List.length_drop] at bound
  have length : (data.take size).length = size := by
    rw [List.length_take]
    omega
  refine ⟨length, by rw [List.length_drop, length], ?_⟩
  rw [List.drop_take]
  exact find_sub_take_none found (by omega)

theorem cut_exceeded_iff {ending : Bytes} {start offset : Nat} (limit : Nat)
    (found : findSub ending (data.drop start) = some offset) (inside : start ≤ size)
    (cut : size < start + (offset + ending.length)) :
    Stretch.exceededIn ⟨start, ending, limit⟩ (data.take size) ↔ limit < size - start := by
  obtain ⟨length, _, absent⟩ := cut_search found inside cut
  simp only [Stretch.exceededIn, length, absent, and_true]
  omega

theorem found_not_exceeded {ending : Bytes} {start offset : Nat} (limit : Nat)
    (found : findSub ending (data.drop start) = some offset)
    (enough : start + (offset + ending.length) ≤ size) :
    ¬Stretch.exceededIn ⟨start, ending, limit⟩ (data.take size) := by
  have located : findSub ending ((data.drop start).take (size - start)) = some offset :=
    find_sub_take found (by omega)
  rintro ⟨_, absent⟩
  dsimp only at absent
  rw [List.drop_take, located] at absent
  cases absent

theorem handle_request_line_cut {parser : HttpParser} {request : HttpRequest} {lineEnd : Nat}
    (found : findSub crlf (data.drop parser.consumed) = some lineEnd)
    (inside : parser.consumed ≤ size) (cut : size < parser.consumed + (lineEnd + 2)) :
    handleRequestLine (data.take size) parser request =
      if maxRequestLine < size - parser.consumed then (some .invalid, parser.fail, request)
      else (some .incomplete, parser, request) := by
  obtain ⟨length, rest, absent⟩ := cut_search found inside cut
  unfold handleRequestLine
  rw [if_neg (by rw [length]; omega)]
  dsimp only
  rw [absent]
  dsimp only
  rw [rest]

theorem handle_headers_cut {parser : HttpParser} {request : HttpRequest} {headersEnd : Nat}
    (found : findSub crlfCrlf (data.drop parser.consumed) = some headersEnd)
    (inside : parser.consumed ≤ size) (cut : size < parser.consumed + (headersEnd + 4)) :
    handleHeaders (data.take size) parser request =
      if maxHeaderSize < size - parser.consumed then (some .invalid, parser.fail, request)
      else (some .incomplete, parser, request) := by
  obtain ⟨length, rest, absent⟩ := cut_search found inside cut
  unfold handleHeaders
  rw [if_neg (by rw [length]; omega)]
  dsimp only
  rw [absent]
  dsimp only
  rw [rest]

theorem handle_chunk_size_cut {parser : HttpParser} {lineEnd : Nat}
    (found : findSub crlf (data.drop parser.consumed) = some lineEnd)
    (inside : parser.consumed ≤ size) (cut : size < parser.consumed + (lineEnd + 2)) :
    handleChunkSize (data.take size) parser =
      if maxChunkLineSize < size - parser.consumed then (some .invalid, parser.fail)
      else (some .incomplete, parser) := by
  obtain ⟨length, rest, absent⟩ := cut_search found inside cut
  unfold handleChunkSize
  rw [if_neg (by rw [length]; omega)]
  dsimp only
  rw [absent]
  dsimp only
  rw [rest]

theorem handle_body_cut {parser : HttpParser} {request : HttpRequest} {stopped : Reading}
    (handled : handleBody data parser request = (some .complete, stopped))
    (inside : parser.consumed ≤ size) (cut : size < stopped.1.consumed) :
    handleBody (data.take size) parser request = (some .incomplete, parser, request) := by
  obtain ⟨fits, moved⟩ := handle_body_completes handled
  rw [moved] at cut
  dsimp only at cut
  unfold handleBody
  rw [if_neg (by rw [List.length_take]; omega), if_pos (by rw [List.length_take]; omega)]

theorem handle_chunk_data_cut {parser following : HttpParser}
    (ordered : parser.chunkBytesRead ≤ parser.chunkSize) (bounded : parser.chunkSize < sizeModulus)
    (handled : handleChunkData data parser = (none, following))
    (inside : parser.consumed ≤ size) (cut : size < following.consumed) :
    ∃ stopped, handleChunkData (data.take size) parser = (some .incomplete, stopped) := by
  obtain ⟨fits, moved⟩ := handle_chunk_data_advances ordered bounded handled
  rw [moved] at cut
  dsimp only at cut
  have length : (data.take size).length = size := by
    rw [List.length_take]
    omega
  rw [handle_chunk_data_eq (by omega) ordered bounded]
  dsimp only
  rw [if_pos (by omega)]
  exact ⟨_, rfl⟩

theorem handle_chunk_data_crlf_cut {parser following : HttpParser}
    (handled : handleChunkDataCrlf data parser = (none, following))
    (inside : parser.consumed ≤ size) (cut : size < following.consumed) :
    handleChunkDataCrlf (data.take size) parser = (some .incomplete, parser) := by
  obtain ⟨rest, _, remaining, moved⟩ := handle_chunk_data_crlf_advances handled
  rw [moved] at cut
  dsimp only at cut
  have length := congrArg List.length remaining
  simp only [List.length_drop, List.length_cons] at length
  unfold handleChunkDataCrlf
  rw [if_neg (by rw [List.length_take]; omega), List.drop_take, remaining]
  have few : size - parser.consumed = 0 ∨ size - parser.consumed = 1 := by omega
  rcases few with none | one
  · rw [none]
    rfl
  · rw [one]
    rfl

theorem handle_chunk_trailer_cut {parser : HttpParser} {request : HttpRequest} {stopped : Reading}
    (handled : handleChunkTrailer data parser request = (some .complete, stopped))
    (inside : parser.consumed ≤ size) (cut : size < stopped.1.consumed) :
    handleChunkTrailer (data.take size) parser request =
      if maxHeaderSize < size - parser.consumed then (some .invalid, parser.fail, request)
      else (some .incomplete, parser, request) := by
  obtain ⟨present, outcome⟩ := handle_chunk_trailer_completes handled
  have unread : ¬crlf.isPrefixOf ((data.take size).drop parser.consumed) = true ∧
      (data.take size).length = size ∧ findSub crlfCrlf ((data.take size).drop parser.consumed) =
        none := by
    rcases outcome with ⟨empty, finished⟩ | ⟨nonempty, trailerEnd, found, _, finished⟩
    · cases finished
      dsimp only at cut
      have bound := empty.length_le
      rw [List.length_drop, crlf_length] at bound
      have length : (data.take size).length = size := by
        rw [List.length_take]
        omega
      have few : ((data.take size).drop parser.consumed).length < 2 := by
        rw [List.length_drop, length]
        omega
      refine ⟨?_, length, ?_⟩
      · rw [List.isPrefixOf_iff_prefix]
        intro starts
        exact absurd starts.length_le (by rw [crlf_length]; omega)
      · cases searched : findSub crlfCrlf ((data.take size).drop parser.consumed) with
        | none => rfl
        | some offset => exact absurd (find_sub_bound searched) (by rw [crlf_crlf_length]; omega)
    · cases finished
      dsimp only at cut
      obtain ⟨length, _, absent⟩ := cut_search found inside cut
      refine ⟨?_, length, absent⟩
      rw [List.isPrefixOf_iff_prefix, List.drop_take]
      exact fun starts => nonempty (starts.trans (List.take_prefix _ _))
  obtain ⟨nonempty, length, absent⟩ := unread
  unfold handleChunkTrailer
  rw [if_neg (by rw [length]; omega)]
  dsimp only
  rw [if_neg nonempty, absent]
  dsimp only
  rw [List.length_drop, length]

theorem limited_verdict {Left : Type} {limit rest : Nat} {refused waiting : Left}
    {exceeded : Prop} (beyond : exceeded ↔ limit < rest) :
    ∃ verdict stopped,
      (if limit < rest then (some ParseResult.invalid, refused)
        else (some ParseResult.incomplete, waiting)) = (some verdict, stopped) ∧
      (verdict = .invalid ↔ exceeded) := by
  by_cases long : limit < rest
  · exact ⟨.invalid, refused, by rw [if_pos long], by simp [beyond, long]⟩
  · exact ⟨.incomplete, waiting, by rw [if_neg long], by simp [beyond, long]⟩

/-- A handler that moves on over the whole data stops when the data is cut
inside what it would have consumed, and refuses exactly for the limit. -/
theorem handle_state_advances_cut {reading following : Reading} (ok : CountersOk reading.1)
    (handled : handleState data reading = (none, following))
    (inside : reading.1.consumed ≤ size) (cut : size < following.1.consumed) :
    ∃ verdict stopped, handleState (data.take size) reading = (some verdict, stopped) ∧
      (verdict = .invalid ↔
        ∃ stretch ∈ ownStretch data reading.1, stretch.exceededIn (data.take size)) := by
  obtain ⟨parser, request⟩ := reading
  cases handle_state_advances handled with
  | requestLine at_state handled =>
      obtain ⟨lineEnd, _, found, _, _, moved⟩ := handle_request_line_advances handled
      rw [moved] at cut
      simp only [handleState, ownStretch, at_state, Option.mem_some_iff, exists_eq_left']
      rw [handle_request_line_cut found inside cut]
      exact limited_verdict (cut_exceeded_iff maxRequestLine found inside cut)
  | headers at_state handled =>
      obtain ⟨headersEnd, _, _, found, _, _, chosen⟩ :=
        handle_headers_decides handled (Or.inl rfl)
      rw [choose_body_consumed chosen] at cut
      simp only [handleState, ownStretch, at_state, Option.mem_some_iff, exists_eq_left']
      rw [handle_headers_cut found inside cut]
      exact limited_verdict (cut_exceeded_iff maxHeaderSize found inside cut)
  | chunkSize at_state handled kept =>
      obtain ⟨lineEnd, _, _, found, _, _, _, moved⟩ := handle_chunk_size_advances handled
      rw [moved] at cut
      simp only [handleState, ownStretch, at_state, Option.mem_some_iff, exists_eq_left']
      rw [handle_chunk_size_cut found inside cut]
      obtain ⟨verdict, stopped, same, refused⟩ := limited_verdict
        (cut_exceeded_iff maxChunkLineSize found inside cut)
      exact ⟨verdict, (stopped, request), by rw [same]; rfl, refused⟩
  | chunkData at_state handled kept =>
      obtain ⟨ordered, bounded⟩ := ok (by rw [at_state]; decide)
      obtain ⟨stopped, waits⟩ := handle_chunk_data_cut ordered bounded handled inside cut
      simp only [handleState, ownStretch, at_state, waits]
      exact ⟨.incomplete, (stopped, request), rfl, by simp⟩
  | chunkDataCrlf at_state handled kept =>
      simp only [handleState, ownStretch, at_state, handle_chunk_data_crlf_cut handled inside cut]
      exact ⟨.incomplete, (parser, request), rfl, by simp⟩

theorem handle_state_completes_cut {reading stopped : Reading}
    (handled : handleState data reading = (some .complete, stopped))
    (inside : reading.1.consumed ≤ size) (cut : size < stopped.1.consumed) :
    ∃ verdict stopped, handleState (data.take size) reading = (some verdict, stopped) ∧
      (verdict = .invalid ↔
        ∃ stretch ∈ ownStretch data reading.1, stretch.exceededIn (data.take size)) := by
  obtain ⟨parser, request⟩ := reading
  cases handle_state_completes handled with
  | headers at_state handled =>
      obtain ⟨headersEnd, _, _, found, _, _, chosen⟩ :=
        handle_headers_decides handled (Or.inr rfl)
      rw [choose_body_consumed chosen] at cut
      simp only [handleState, ownStretch, at_state, Option.mem_some_iff, exists_eq_left']
      rw [handle_headers_cut found inside cut]
      exact limited_verdict (cut_exceeded_iff maxHeaderSize found inside cut)
  | body at_state handled =>
      simp only [handleState, ownStretch, at_state, handle_body_cut handled inside cut]
      exact ⟨.incomplete, (parser, request), rfl, by simp⟩
  | chunkTrailer at_state handled =>
      simp only [handleState, ownStretch, at_state]
      rw [handle_chunk_trailer_cut handled inside cut]
      obtain ⟨_, outcome⟩ := handle_chunk_trailer_completes handled
      rcases outcome with ⟨empty, finished⟩ | ⟨nonempty, trailerEnd, found, _, finished⟩
      · -- one byte of the two is no more than the limit
        cases finished
        dsimp only at cut inside
        have short : ¬maxHeaderSize < size - parser.consumed := by
          rw [maxHeaderSize]
          omega
        rw [if_neg short, if_pos (List.isPrefixOf_iff_prefix.mpr empty)]
        exact ⟨.incomplete, (parser, request), rfl, by simp⟩
      · cases finished
        have fields : ¬crlf.isPrefixOf (data.drop parser.consumed) = true := by
          rw [List.isPrefixOf_iff_prefix]
          exact nonempty
        simp only [if_neg fields, Option.mem_some_iff, exists_eq_left']
        exact limited_verdict (cut_exceeded_iff maxHeaderSize found inside cut)
  | complete at_state same =>
      subst same
      exact absurd cut (Nat.not_lt.mpr inside)

theorem own_stretch_kept {reading following : Reading} {result : Option ParseResult}
    (handled : handleState data reading = (result, following))
    (decided : result = none ∨ result = some .complete) (enough : following.1.consumed ≤ size) :
    ∀ stretch ∈ ownStretch data reading.1, ¬stretch.exceededIn (data.take size) := by
  obtain ⟨parser, request⟩ := reading
  intro stretch own
  rcases decided with rfl | rfl
  · cases handle_state_advances handled with
    | requestLine at_state handled =>
        obtain ⟨lineEnd, _, found, _, _, moved⟩ := handle_request_line_advances handled
        rw [moved] at enough
        simp only [ownStretch, at_state, Option.mem_some_iff] at own
        subst own
        exact found_not_exceeded _ found enough
    | headers at_state handled =>
        obtain ⟨headersEnd, _, _, found, _, _, chosen⟩ :=
          handle_headers_decides handled (Or.inl rfl)
        rw [choose_body_consumed chosen] at enough
        simp only [ownStretch, at_state, Option.mem_some_iff] at own
        subst own
        exact found_not_exceeded _ found enough
    | chunkSize at_state handled _ =>
        obtain ⟨lineEnd, _, _, found, _, _, _, moved⟩ := handle_chunk_size_advances handled
        rw [moved] at enough
        simp only [ownStretch, at_state, Option.mem_some_iff] at own
        subst own
        exact found_not_exceeded _ found enough
    | chunkData at_state _ _ => simp [ownStretch, at_state] at own
    | chunkDataCrlf at_state _ _ => simp [ownStretch, at_state] at own
  · cases handle_state_completes handled with
    | headers at_state handled =>
        obtain ⟨headersEnd, _, _, found, _, _, chosen⟩ :=
          handle_headers_decides handled (Or.inr rfl)
        rw [choose_body_consumed chosen] at enough
        simp only [ownStretch, at_state, Option.mem_some_iff] at own
        subst own
        exact found_not_exceeded _ found enough
    | body at_state _ => simp [ownStretch, at_state] at own
    | chunkTrailer at_state handled =>
        obtain ⟨_, outcome⟩ := handle_chunk_trailer_completes handled
        rcases outcome with ⟨empty, _⟩ | ⟨nonempty, trailerEnd, found, _, finished⟩
        · simp [ownStretch, at_state, List.isPrefixOf_iff_prefix.mpr empty] at own
        · cases finished
          have fields : ¬crlf.isPrefixOf (data.drop parser.consumed) = true := by
            rw [List.isPrefixOf_iff_prefix]
            exact nonempty
          simp only [ownStretch, at_state, if_neg fields, Option.mem_some_iff] at own
          subst own
          exact found_not_exceeded _ found enough
    | complete at_state _ => simp [ownStretch, at_state] at own

end Cuts

section Runs

variable {data : Bytes}

inductive Ahead (data : Bytes) : Reading → Stretch → Prop
  | here {reading : Reading} {stretch : Stretch}
      (own : stretch ∈ ownStretch data reading.1) : Ahead data reading stretch
  | later {reading following : Reading} {stretch : Stretch}
      (handled : handleState data reading = (none, following))
      (further : Ahead data following stretch) : Ahead data reading stretch

theorem ahead_advances_iff {reading following : Reading} {stretch : Stretch}
    (handled : handleState data reading = (none, following)) :
    Ahead data reading stretch ↔
      stretch ∈ ownStretch data reading.1 ∨ Ahead data following stretch := by
  constructor
  · intro ahead
    cases ahead with
    | here own => exact Or.inl own
    | later other further =>
        rw [handled] at other
        cases other
        exact Or.inr further
  · rintro (own | further)
    · exact .here own
    · exact .later handled further

theorem ahead_done_iff {reading stopped : Reading} {result : ParseResult} {stretch : Stretch}
    (handled : handleState data reading = (some result, stopped)) :
    Ahead data reading stretch ↔ stretch ∈ ownStretch data reading.1 := by
  constructor
  · intro ahead
    cases ahead with
    | here own => exact own
    | later other _ =>
        rw [handled] at other
        cases other
  · exact .here

theorem ahead_start {reading : Reading} {stretch : Stretch} (ahead : Ahead data reading stretch)
    (ok : CountersOk reading.1) : reading.1.consumed ≤ stretch.start := by
  induction ahead with
  | here own => exact Nat.le_of_eq (own_stretch_start own).symm
  | later handled _ ih =>
      have forward := (handle_state_advances_take ok handled).1
      exact Nat.le_trans forward (ih (handle_state_counters ok handled))

theorem beyond_not_exceeded {stretch : Stretch} {size : Nat} (beyond : size ≤ stretch.start) :
    ¬stretch.exceededIn (data.take size) := by
  rintro ⟨long, _⟩
  rw [List.length_take] at long
  omega

/-- Cut data is refused exactly when one of the pieces that a complete run
reads is exceeded. -/
theorem cut_run_invalid_iff (reading : Reading) {stopped : Reading} {size : Nat}
    (ok : CountersOk reading.1)
    (complete : (parseLoop data).run reading = (.complete, stopped))
    (present : reading.1.consumed ≤ data.length) (inside : reading.1.consumed ≤ size) :
    ((parseLoop (data.take size)).run reading).1 = .invalid ↔
      ∃ stretch, Ahead data reading stretch ∧ stretch.exceededIn (data.take size) := by
  induction reading using (parseLoop data).run_induction with
  | done reading result turned =>
      rw [(parseLoop data).run_done turned] at complete
      subst complete
      have handled := (parse_turn_done_iff _ _ _ _).mp turned
      simp only [ahead_done_iff handled]
      by_cases enough : stopped.1.consumed ≤ size
      · have same := (handle_state_completes_take present handled).2.2 size enough
        rw [(parseLoop _).run_done ((parse_turn_done_iff _ _ _ _).mpr same)]
        have kept := own_stretch_kept handled (Or.inr rfl) enough
        constructor
        · nofun
        · rintro ⟨stretch, own, exceeded⟩
          exact absurd exceeded (kept stretch own)
      · obtain ⟨verdict, left, same, refused⟩ :=
          handle_state_completes_cut handled inside (Nat.lt_of_not_le enough)
        rw [(parseLoop _).run_done ((parse_turn_done_iff _ _ _ _).mpr same)]
        exact refused
  | next reading following turned ih =>
      rw [(parseLoop data).run_next turned] at complete
      have handled := (parse_turn_next_iff _ _ _).mp turned
      have okNext := handle_state_counters ok handled
      obtain ⟨_, bound, enlarged⟩ := handle_state_advances_take ok handled
      simp only [ahead_advances_iff handled]
      by_cases enough : following.1.consumed ≤ size
      · have cut := (parse_turn_next_iff _ _ _).mpr (enlarged size enough)
        rw [(parseLoop _).run_next cut, ih okNext complete bound enough]
        have kept := own_stretch_kept handled (Or.inl rfl) enough
        constructor
        · rintro ⟨stretch, further, exceeded⟩
          exact ⟨stretch, Or.inr further, exceeded⟩
        · rintro ⟨stretch, own | further, exceeded⟩
          · exact absurd exceeded (kept stretch own)
          · exact ⟨stretch, further, exceeded⟩
      · have short := Nat.lt_of_not_le enough
        obtain ⟨verdict, left, same, refused⟩ := handle_state_advances_cut ok handled inside short
        rw [(parseLoop _).run_done ((parse_turn_done_iff _ _ _ _).mpr same)]
        refine refused.trans ?_
        constructor
        · rintro ⟨stretch, own, exceeded⟩
          exact ⟨stretch, Or.inl own, exceeded⟩
        · rintro ⟨stretch, own | further, exceeded⟩
          · exact ⟨stretch, own, exceeded⟩
          · have beyond := ahead_start further okNext
            exact absurd exceeded (beyond_not_exceeded (by omega))

def ChunkAhead (data : Bytes) (parser : HttpParser) (stretch : Stretch) : Prop :=
  match parser.state with
  | .chunkSize => ChunkStretch data parser.consumed stretch
  | .chunkData =>
      ChunkStretch data
        (parser.consumed + (parser.chunkSize - parser.chunkBytesRead) + 2) stretch
  | .chunkDataCrlf => ChunkStretch data (parser.consumed + 2) stretch
  | _ => stretch ∈ ownStretch data parser

theorem parse_chunk_size_any {value : Bytes} {old size : Nat} (other : Nat)
    (parsed : utils.parseChunkSize value old = (true, size)) :
    utils.parseChunkSize value other = (true, size) := by
  unfold utils.parseChunkSize at parsed ⊢
  split_ifs at parsed ⊢
  · cases parsed
  · exact parsed

theorem chunk_stretch_iff {start lineEnd size : Nat} {stretch : Stretch}
    (found : findSub crlf (data.drop start) = some lineEnd)
    (announced : utils.parseChunkSize (chunkSizeText ((data.drop start).take lineEnd)) 0 =
      (true, size)) :
    ChunkStretch data start stretch ↔
      stretch = ⟨start, crlf, maxChunkLineSize⟩ ∨
        if size = 0 then
          ¬crlf <+: data.drop (start + (lineEnd + 2)) ∧
            stretch = ⟨start + (lineEnd + 2), crlfCrlf, maxHeaderSize⟩
        else ChunkStretch data (start + (lineEnd + 2) + size + 2) stretch := by
  constructor
  · intro inside
    cases inside with
    | line => exact Or.inl rfl
    | later foundAgain announcedAgain positive further =>
        rw [found] at foundAgain
        cases foundAgain
        rw [announced] at announcedAgain
        cases announcedAgain
        exact Or.inr (by rw [if_neg positive]; exact further)
    | trailer foundAgain announcedAgain fields =>
        rw [found] at foundAgain
        cases foundAgain
        rw [announced] at announcedAgain
        cases announcedAgain
        exact Or.inr ⟨fields, rfl⟩
  · rintro (rfl | further)
    · exact .line start
    · split_ifs at further with last
      · subst last
        obtain ⟨fields, rfl⟩ := further
        exact .trailer found announced fields
      · exact .later found announced last further

theorem chunk_run_ahead_iff (reading : Reading) {stopped : Reading} {stretch : Stretch}
    (ok : CountersOk reading.1) (chunked : isChunkState reading.1.state = true)
    (complete : (parseLoop data).run reading = (.complete, stopped)) :
    Ahead data reading stretch ↔ ChunkAhead data reading.1 stretch := by
  induction reading using (parseLoop data).run_induction with
  | done reading result turned =>
      rw [(parseLoop data).run_done turned] at complete
      subst complete
      have handled := (parse_turn_done_iff _ _ _ _).mp turned
      rw [ahead_done_iff handled]
      cases handle_state_completes handled with
      | headers at_state _ => simp [at_state, isChunkState] at chunked
      | body at_state _ => simp [at_state, isChunkState] at chunked
      | chunkTrailer at_state _ => simp only [ChunkAhead, at_state]
      | complete at_state _ => simp [at_state, isChunkState] at chunked
  | next reading following turned ih =>
      rw [(parseLoop data).run_next turned] at complete
      have handled := (parse_turn_next_iff _ _ _).mp turned
      have further := ih (handle_state_counters ok handled)
      rw [ahead_advances_iff handled]
      cases handle_state_advances handled with
      | requestLine at_state _ => simp [at_state, isChunkState] at chunked
      | headers at_state _ => simp [at_state, isChunkState] at chunked
      | chunkSize at_state handled _ =>
          obtain ⟨lineEnd, size, _, found, _, parsed, _, moved⟩ :=
            handle_chunk_size_advances handled
          have announced := parse_chunk_size_any 0 parsed
          rw [further (by rw [moved]; dsimp only; split_ifs <;> rfl) complete, moved]
          simp only [ChunkAhead, ownStretch, at_state, Option.mem_some_iff, @eq_comm _ _ stretch,
            chunk_stretch_iff found announced]
          apply or_congr_right
          by_cases last : size = 0
          · simp only [last, if_true]
            by_cases empty : crlf <+: data.drop (reading.1.consumed + (lineEnd + 2))
            · simp [empty, List.isPrefixOf_iff_prefix.mpr empty]
            · simp [empty, List.isPrefixOf_iff_prefix, @eq_comm _ _ stretch]
          · simp only [last, if_false, Nat.sub_zero]
      | chunkData at_state handled _ =>
          obtain ⟨ordered, bounded⟩ := ok (by rw [at_state]; decide)
          obtain ⟨_, moved⟩ := handle_chunk_data_advances ordered bounded handled
          rw [further (by rw [moved]; rfl) complete, moved]
          simp [ChunkAhead, ownStretch, at_state]
      | chunkDataCrlf at_state handled _ =>
          obtain ⟨_, _, _, moved⟩ := handle_chunk_data_crlf_advances handled
          rw [further (by rw [moved]; rfl) complete, moved]
          simp [ChunkAhead, ownStretch, at_state]

theorem body_not_ahead {reading stopped : Reading} {stretch : Stretch}
    (atBody : reading.1.state = .body)
    (complete : (parseLoop data).run reading = (.complete, stopped)) :
    ¬Ahead data reading stretch := by
  cases turned : (parseLoop data).turn reading with
  | next following =>
      have handled := (parse_turn_next_iff _ _ _).mp turned
      cases handle_state_advances handled with
      | requestLine at_state _ => simp [atBody] at at_state
      | headers at_state _ => simp [atBody] at at_state
      | chunkSize at_state _ _ => simp [atBody] at at_state
      | chunkData at_state _ _ => simp [atBody] at at_state
      | chunkDataCrlf at_state _ _ => simp [atBody] at at_state
  | done result =>
      rw [(parseLoop data).run_done turned] at complete
      subst complete
      rw [ahead_done_iff ((parse_turn_done_iff _ _ _ _).mp turned)]
      simp [ownStretch, atBody]

theorem headers_ahead_iff {reading stopped : Reading} {lineEnd : Nat} {stretch : Stretch}
    (ok : CountersOk reading.1) (atHeaders : reading.1.state = .headers)
    (position : reading.1.consumed = lineEnd + 2) (blank : reading.2.headers = {})
    (lineFound : findSub crlf data = some lineEnd)
    (complete : (parseLoop data).run reading = (.complete, stopped)) :
    Ahead data reading stretch ↔
      stretch = ⟨lineEnd + 2, crlfCrlf, maxHeaderSize⟩ ∨
        ∃ headersEnd, findSub crlfCrlf (data.drop (lineEnd + 2)) = some headersEnd ∧
          HttpHeaders.get ⟨headerFields data⟩ transferEncodingName ≠ [] ∧
          ChunkStretch data (lineEnd + 2 + (headersEnd + 4)) stretch := by
  have own : ownStretch data reading.1 = some ⟨lineEnd + 2, crlfCrlf, maxHeaderSize⟩ := by
    simp only [ownStretch, atHeaders, position]
  cases turned : (parseLoop data).turn reading with
  | done result =>
      rw [(parseLoop data).run_done turned] at complete
      subst complete
      have handled := (parse_turn_done_iff _ _ _ _).mp turned
      rw [ahead_done_iff handled, own]
      simp only [handleState, atHeaders] at handled
      obtain ⟨headersEnd, stored, _, blockFound, _, parsed, chosen⟩ :=
        handle_headers_decides handled (Or.inr rfl)
      rw [position] at blockFound parsed
      have fields := (stored_fields lineFound blank blockFound parsed).1
      have plain : HttpHeaders.get ⟨headerFields data⟩ transferEncodingName = [] := by
        rw [← fields]
        exact (choose_body_complete_cases chosen).1
      simp [plain, eq_comm]
  | next following =>
      rw [(parseLoop data).run_next turned] at complete
      have handled := (parse_turn_next_iff _ _ _).mp turned
      have okNext := handle_state_counters ok handled
      rw [ahead_advances_iff handled, own]
      simp only [handleState, atHeaders] at handled
      obtain ⟨headersEnd, stored, _, blockFound, _, parsed, chosen⟩ :=
        handle_headers_decides handled (Or.inl rfl)
      rw [position] at blockFound parsed chosen
      have fields := (stored_fields lineFound blank blockFound parsed).1
      simp only [Option.mem_some_iff, @eq_comm _ _ stretch]
      apply or_congr_right
      simp only [blockFound, Option.some.injEq, exists_eq_left', ← fields]
      rcases choose_body_advances chosen with ⟨_, chunked, moved⟩ | ⟨plain, _, _, _, _, moved⟩
      · have encoded : stored.headers.get transferEncodingName ≠ [] := by
          intro absent
          rw [HttpRequest.header, absent] at chunked
          revert chunked
          decide
        have atChunks : isChunkState following.1.state = true := by rw [moved]; rfl
        rw [chunk_run_ahead_iff following okNext atChunks complete, moved]
        exact ⟨fun inside => ⟨encoded, inside⟩, fun both => both.2⟩
      · have atBody : following.1.state = .body := by rw [moved]
        constructor
        · intro ahead
          exact absurd ahead (body_not_ahead atBody complete)
        · rintro ⟨encoded, _⟩
          exact absurd plain encoded

theorem ahead_iff_has_stretch {request : HttpRequest} {stopped : Reading} {stretch : Stretch}
    (complete : parse data {} request = (.complete, stopped)) :
    Ahead data ({}, request) stretch ↔ HasStretch data stretch := by
  unfold parse at complete
  cases turned : (parseLoop data).turn ({}, request) with
  | done result =>
      rw [(parseLoop data).run_done turned] at complete
      subst complete
      have handled := (parse_turn_done_iff _ _ _ _).mp turned
      obtain ⟨waiting, _⟩ := handle_request_line_waits handled (by decide)
      cases waiting
  | next reading =>
      rw [(parseLoop data).run_next turned] at complete
      have handled := (parse_turn_next_iff _ _ _).mp turned
      have handledLine : handleRequestLine data {} request = (none, reading) := handled
      obtain ⟨lineEnd, _, lineFound, _, lineParsed, moved⟩ :=
        handle_request_line_advances handledLine
      rw [List.drop_zero] at lineFound
      have blank := (parse_request_line_completes lineParsed).2
      have position : reading.1.consumed = lineEnd + 2 := by
        rw [moved]
        exact Nat.zero_add _
      rw [ahead_advances_iff handled, headers_ahead_iff (handle_state_counters fresh_counters handled)
        (by rw [moved]) position blank lineFound complete]
      constructor
      · rintro (own | rfl | ⟨headersEnd, blockFound, encoded, inside⟩)
        · cases own
          exact .requestLine
        · exact .headers lineFound
        · exact .body lineFound blockFound encoded inside
      · intro has
        cases has with
        | requestLine => exact Or.inl rfl
        | headers again =>
            rw [lineFound] at again
            cases again
            exact Or.inr (Or.inl rfl)
        | body again blockFound encoded inside =>
            rw [lineFound] at again
            cases again
            exact Or.inr (Or.inr ⟨_, blockFound, encoded, inside⟩)

/-- A prefix of an accepted message is refused exactly when it exceeds one of
the pieces of the message. -/
theorem fragment_invalid_iff {request : HttpRequest} {part : Bytes}
    (complete : (parse data {} request).1 = .complete) (cut : part <+: data) :
    (parse part {} request).1 = .invalid ↔
      ∃ stretch, HasStretch data stretch ∧ stretch.exceededIn part := by
  obtain ⟨stopped, parsed⟩ : ∃ stopped, parse data {} request = (.complete, stopped) :=
    ⟨_, Prod.ext complete rfl⟩
  have same : part = data.take part.length := List.prefix_iff_eq_take.mp cut
  have refused := @cut_run_invalid_iff data ({}, request) stopped part.length fresh_counters
    parsed (Nat.zero_le _) (Nat.zero_le _)
  simp only [ahead_iff_has_stretch parsed, ← same] at refused
  exact refused

end Runs

/-- The growing fragments of a message that one call completes are read without
a refusal, and the last call completes it, exactly when no fragment ends inside a
piece of the message with more bytes of it than the limit of the piece. -/
theorem fragments_accepted_iff (data : Bytes) (inputs : List Bytes) (request : HttpRequest)
    (complete : (parse data {} request).1 = .complete)
    (prefixes : (inputs ++ [data]).IsChain (· <+: ·)) :
    ((∀ result ∈ (parseEach inputs {} request).1, result ≠ .invalid) ∧
        (parse data (parseEach inputs {} request).2.1
          (parseEach inputs {} request).2.2).1 = .complete) ↔
      ∀ part ∈ inputs, ∀ stretch, HasStretch data stretch → ¬stretch.exceededIn part := by
  have ordered : inputs.IsChain (· <+: ·) := (List.isChain_append.mp prefixes).1
  have parts : ∀ part ∈ inputs, part <+: data := by
    have : IsTrans Bytes (· <+: ·) := ⟨fun _ _ _ => List.IsPrefix.trans⟩
    intro part member
    have pairs := List.pairwise_append.mp (List.isChain_iff_pairwise.mp prefixes)
    exact pairs.2.2 part member data (List.mem_singleton_self data)
  have each : (∀ result ∈ (parseEach inputs {} request).1, result ≠ .invalid) ↔
      ∀ part ∈ inputs, ∀ stretch, HasStretch data stretch → ¬stretch.exceededIn part := by
    rw [parse_each_eq_feed]
    refine (requestReader.feed_accepts_iff inputs ({}, request) fresh_counters ordered).trans ?_
    apply forall₂_congr
    intro part member
    refine (not_congr (fragment_invalid_iff complete (parts part member))).trans ?_
    simp only [not_exists, not_and]
  constructor
  · intro accepted
    exact each.mp accepted.1
  · intro short
    have accepted := each.mpr short
    refine ⟨accepted, ?_⟩
    rw [incremental_parse_eq_one_shot inputs data {} request (Or.inl rfl) prefixes accepted]
    exact complete

def greeting : Bytes := ascii "GET / HTTP/1.1\r\nHost: localhost\r\n\r\n"

theorem fragments_accepted_iff_greeting :
    (parse greeting {} {}).1 = .complete ∧
      ∀ part ∈ [greeting.take 5, greeting.take 15, greeting.take 33],
        ∀ stretch, HasStretch greeting stretch → ¬stretch.exceededIn part := by
  have complete : (parse greeting {} {}).1 = .complete := by decide +kernel
  refine ⟨complete, (fragments_accepted_iff greeting
    [greeting.take 5, greeting.take 15, greeting.take 33] {} complete ?_).mp (by decide +kernel)⟩
  simp only [List.cons_append, List.nil_append, List.isChain_cons_cons, List.isChain_singleton]
  decide +kernel

/-- A chunk line of exactly the allowed length. -/
def longChunkLine : Bytes := ascii "0;" ++ List.replicate 126 97

def chunkedMessage : Bytes :=
  ascii "POST / HTTP/1.1\r\nTransfer-Encoding: chunked\r\n\r\n" ++ longChunkLine ++ crlf ++ crlf

/-- The fragment that ends between the CR and the LF of the chunk line is refused. -/
theorem chunk_line_cut_in_ending_refused :
    longChunkLine.length = maxChunkLineSize ∧ (parse chunkedMessage {} {}).1 = .complete ∧
      [chunkedMessage.take 176, chunkedMessage].IsChain (· <+: ·) ∧
      (parseEach [chunkedMessage.take 176, chunkedMessage] {} {}).1 = [.invalid, .invalid] := by
  simp only [List.isChain_cons_cons, List.isChain_singleton]
  decide +kernel

end HttpServer.ParserLimits
