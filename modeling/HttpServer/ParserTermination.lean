import HttpServer.HttpParser

/-!
# Parsing always ends

The loops of the parser end from every parser, reachable or not, on every input. A
line loop takes at most one turn for each byte; the main loop takes at most two for
each byte and two more, because the one handler that may go on without consuming,
`handleChunkData`, leads to a state that is left by consuming a line end. The rank only
counts bytes behind the position, which the first test of every handler keeps inside
the data, so a difference of chunk counters that wraps does not enter it.
-/

namespace HttpServer.ParserTermination

open MeasuredLoop HttpParser

theorem parse_rank_le (data : Bytes) (reading : Reading) :
    parseRank data reading < 2 * data.length + 2 := by
  unfold parseRank
  split_ifs <;> omega

/-- Between two visits of one state the main loop consumes something. -/
theorem revisit_consumes {data : Bytes} {reading following : Reading}
    (turns : (parseLoop data).Turns reading following)
    (same : following.1.state = reading.1.state) :
    reading.1.consumed < following.1.consumed := by
  have lower : parseRank data following < parseRank data reading :=
    (parseLoop data).rank_lt_of_turns turns
  unfold parseRank at lower
  rw [same] at lower
  omega

theorem parsing_terminates (data : Bytes) (parser : HttpParser) (request : HttpRequest) :
    runFor (parseTurn data) (2 * data.length + 2) (parser, request) =
        some (parse data parser request) ∧
      runFor headerTurn (data.length + 1) ⟨data, 0, request⟩ =
        some (parseHeaders data request) ∧
      runFor queryTurn (data.length + 1) (data, request) =
        some (queryLoop.run (data, request)) ∧
      runFor trailerTurn (data.length + 1) (data, 0) = some (trailerLoop.run (data, 0)) ∧
      ∀ following, (parseLoop data).Turns (parser, request) following →
        following.1.state = parser.state → parser.consumed < following.1.consumed := by
  refine ⟨?_, ?_, ?_, ?_, fun following turns same => revisit_consumes turns same⟩
  · exact (parseLoop data).run_for_eq_some_run _ _ (parse_rank_le data (parser, request))
  · exact headerLoop.run_for_eq_some_run _ _ (Nat.lt_succ_self data.length)
  · exact queryLoop.run_for_eq_some_run _ _ (Nat.lt_succ_self data.length)
  · exact trailerLoop.run_for_eq_some_run _ _ (Nat.lt_succ_self data.length)

/-- A parser with a chunk of one byte; `read` of them, which may be too many. -/
def inChunk (state : ParserState) (consumed read : Nat) (body : Bytes) : HttpParser :=
  { state := state, consumed := consumed, chunkSize := 1, chunkBytesRead := read, body := body }

theorem one_chunk_turns :
    (parseLoop (ascii "1\r\nx\r\n")).Turns (inChunk .chunkSize 0 0 [], {})
      (inChunk .chunkSize 6 1 [120], {}) := by
  have dataCopied : (parseLoop (ascii "1\r\nx\r\n")).Turns (inChunk .chunkSize 0 0 [], {})
      (inChunk .chunkDataCrlf 4 1 [120], {}) := by
    apply Relation.TransGen.tail (b := (inChunk .chunkData 3 0 [], {}))
    · exact Relation.TransGen.single rfl
    · rfl
  exact Relation.TransGen.tail dataCopied rfl

/-- The counters of the first parser are out of order, so their difference wraps. -/
theorem parsing_terminates_one_chunk :
    runFor (parseTurn [120, 120]) 6 (inChunk .chunkData 1 5 [], {}) =
        some (parse [120, 120] (inChunk .chunkData 1 5 []) {}) ∧
      (inChunk .chunkSize 0 0 []).consumed < (inChunk .chunkSize 6 1 [120]).consumed :=
  ⟨(parsing_terminates [120, 120] (inChunk .chunkData 1 5 []) {}).1,
    (parsing_terminates (ascii "1\r\nx\r\n") (inChunk .chunkSize 0 0 []) {}).2.2.2.2 _
      one_chunk_turns rfl⟩

end HttpServer.ParserTermination
