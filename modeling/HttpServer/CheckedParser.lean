import HttpServer.ChunkSizes

/-!
# The parser with every operation checked

The handlers once more, line by line as `HttpParser.cpp` has them: views are taken at
positions, lengths are differences of positions, and each sum, difference, index and
view is one that has no result where it would wrap or leave the buffer. Where the
parser stands inside the data and its chunk counters are in order, every handler has
a result and it is that of the handler on lists, so nothing in it wraps or underflows.
-/

namespace HttpServer.CheckedParser

open ListSearch MeasuredLoop HttpParser ParserResume CheckedArithmetic ChunkSizes

section Parts

variable {data : Bytes}

theorem part_sized (sized : data.length < sizeModulus) (position count : Nat) :
    ((data.drop position).take count).length < sizeModulus := by
  rw [List.length_take, List.length_drop]
  omega

theorem remaining_sized (sized : data.length < sizeModulus) (position : Nat) :
    (data.drop position).length < sizeModulus := by
  rw [List.length_drop]
  omega

/-- A loop that stops at the end of the data stops when nothing is left of it. -/
theorem if_drop_empty {Outcome : Type} {position : Nat} (inside : position ≤ data.length)
    (ended more : Outcome) :
    (if (data.drop position).isEmpty then ended else more) =
      if position < data.length then more else ended := by
  have length : (data.drop position).length = data.length - position := List.length_drop
  by_cases before : position < data.length
  · rw [if_pos before, if_neg (by rw [List.isEmpty_iff_length_eq_zero]; omega)]
  · rw [if_neg before, if_pos (by rw [List.isEmpty_iff_length_eq_zero]; omega)]

end Parts

section RequestLine

def checkedAddQueryPair (request : HttpRequest) (pair : Bytes) : Option HttpRequest :=
  match findSub [61] pair with
  | some eq => do
      let key ← checkedView pair 0 eq
      let afterEq ← checkedAdd sizeModulus eq 1
      let value ← checkedFrom pair afterEq
      some (request.addQuery (utils.urlDecode key) (utils.urlDecode value))
  | none =>
      some (if pair.isEmpty then request else request.addQuery (utils.urlDecode pair) [])

/-- A search that fails gives `npos`, the largest size, which the view then clips. -/
def checkedQueryTurn (query : Bytes) (cursor : Nat × HttpRequest) :
    Option (Turn (Nat × HttpRequest) HttpRequest) :=
  if cursor.1 < query.length then do
    let amp := findFrom [38] query cursor.1
    let length ← checkedSub (amp.getD (sizeModulus - 1)) cursor.1
    let pair ← checkedView query cursor.1 length
    let request ← checkedAddQueryPair cursor.2 pair
    match amp with
    | none => some (.done request)
    | some amp => do
        let start ← checkedAdd sizeModulus amp 1
        some (.next (start, request))
  else some (.done cursor.2)

def checkedQueries (query : Bytes) (request : HttpRequest) : Option HttpRequest :=
  runChecked (checkedQueryTurn query) (query.length + 1) (0, request)

/-- The second half of `parseRequestLine`, behind the split of the line. -/
def checkedRequest (method target version : Bytes) (request : HttpRequest) :
    Option (ParseResult × HttpRequest) :=
  if method.isEmpty || target.isEmpty || version.isEmpty then some (.invalid, request)
  else if version ≠ ascii "HTTP/1.1" then some (.invalid, request)
  else
    let parsedMethod := utils.parseMethod method
    if parsedMethod = .unknown then some (.invalid, request)
    else
      let fresh := HttpRequest.ofLine parsedMethod target version
      match findSub [63] target with
      | none => some (.complete, fresh.setPath target)
      | some questionMark => do
          let path ← checkedView target 0 questionMark
          let afterMark ← checkedAdd sizeModulus questionMark 1
          let query ← checkedFrom target afterMark
          let request ← checkedQueries query (fresh.setPath path)
          some (.complete, request)

def checkedParseRequestLine (data : Bytes) (request : HttpRequest) :
    Option (ParseResult × HttpRequest) :=
  match findSub crlf data with
  | none => some (.incomplete, request)
  | some lineEnd =>
      if lineEnd > maxRequestLine then some (.invalid, request)
      else do
        let line ← checkedView data 0 lineEnd
        match findSub [32] line with
        | none => some (.invalid, request)
        | some firstSpace => do
            let afterFirst ← checkedAdd sizeModulus firstSpace 1
            match findFrom [32] line afterFirst with
            | none => some (.invalid, request)
            | some secondSpace => do
                let afterSecond ← checkedAdd sizeModulus secondSpace 1
                if (findFrom [32] line afterSecond).isSome then some (.invalid, request)
                else do
                  let method ← checkedView line 0 firstSpace
                  let between ← checkedSub secondSpace firstSpace
                  let targetLength ← checkedSub between 1
                  let target ← checkedView line afterFirst targetLength
                  let version ← checkedFrom line afterSecond
                  checkedRequest method target version request

theorem checked_add_query_pair_eq {pair : Bytes} (sized : pair.length < sizeModulus)
    (request : HttpRequest) :
    checkedAddQueryPair request pair = some (addQueryPair request pair) := by
  unfold checkedAddQueryPair addQueryPair
  cases found : findSub [61] pair with
  | none => rfl
  | some eq =>
      have bound := find_sub_bound found
      rw [List.length_singleton] at bound
      simp only [Option.bind_eq_bind]
      rw [checked_view_eq (Nat.zero_le _), Option.bind_some, checked_add_eq (by omega),
        Option.bind_some, checked_from_eq bound, Option.bind_some, List.drop_zero]

theorem checked_query_turn_follows {query : Bytes} (sized : query.length < sizeModulus)
    (cursor : Nat × HttpRequest) (inside : cursor.1 ≤ query.length) :
    Follows (fun cursor : Nat × HttpRequest => (query.drop cursor.1, cursor.2))
      (fun cursor => cursor.1 ≤ query.length) (checkedQueryTurn query cursor)
      (queryTurn (query.drop cursor.1, cursor.2)) := by
  obtain ⟨start, request⟩ := cursor
  dsimp only at inside
  have remaining : (query.drop start).length = query.length - start := List.length_drop
  unfold checkedQueryTurn queryTurn
  dsimp only
  rw [if_drop_empty inside]
  split_ifs with before
  · rw [find_from_eq [38] inside]
    cases found : findSub [38] (query.drop start) with
    | none =>
        have clipped : (query.drop start).take (sizeModulus - 1 - start) = query.drop start :=
          List.take_of_length_le (by omega)
        simp only [Option.map_none, Option.getD_none, Option.bind_eq_bind]
        rw [checked_sub_eq (by omega), Option.bind_some, checked_view_eq inside, clipped,
          Option.bind_some, checked_add_query_pair_eq (by omega), Option.bind_some]
        exact .done
    | some amp =>
        have bound := find_sub_bound found
        rw [remaining, List.length_singleton] at bound
        simp only [Option.map_some, Option.getD_some, Option.bind_eq_bind]
        rw [checked_sub_eq (Nat.le_add_right _ _), Option.bind_some, Nat.add_sub_cancel_left,
          checked_view_eq inside, Option.bind_some,
          checked_add_query_pair_eq (part_sized sized _ _), Option.bind_some,
          checked_add_eq (by omega), Option.bind_some, List.drop_drop, ← Nat.add_assoc]
        apply Follows.next
        dsimp only
        omega
  · exact .done

theorem checked_queries_eq {query : Bytes} (sized : query.length < sizeModulus)
    (request : HttpRequest) :
    checkedQueries query request = some (queryLoop.run (query, request)) := by
  exact run_checked_eq queryLoop (checked_query_turn_follows sized) (Nat.zero_le _)
    (Nat.lt_succ_self query.length)

theorem checked_request_eq {target : Bytes} (sized : target.length < sizeModulus)
    (method version : Bytes) (request : HttpRequest) :
    checkedRequest method target version request =
      some (if method.isEmpty || target.isEmpty || version.isEmpty then (.invalid, request)
        else if version ≠ ascii "HTTP/1.1" then (.invalid, request)
        else
          let parsedMethod := utils.parseMethod method
          if parsedMethod = .unknown then (.invalid, request)
          else
            let fresh := HttpRequest.ofLine parsedMethod target version
            match findSub [63] target with
            | none => (.complete, fresh.setPath target)
            | some questionMark =>
                (.complete, queryLoop.run
                  (target.drop (questionMark + 1), fresh.setPath (target.take questionMark)))) := by
  unfold checkedRequest
  dsimp only
  split_ifs
  · rfl
  · rfl
  · rfl
  · cases found : findSub [63] target with
    | none => rfl
    | some questionMark =>
        have bound := find_sub_bound found
        rw [List.length_singleton] at bound
        simp only [Option.bind_eq_bind]
        rw [checked_view_eq (Nat.zero_le _), Option.bind_some, checked_add_eq (by omega),
          Option.bind_some, checked_from_eq bound, Option.bind_some,
          checked_queries_eq (remaining_sized sized _), Option.bind_some, List.drop_zero]

theorem checked_parse_request_line_eq {data : Bytes} (sized : data.length < sizeModulus)
    (request : HttpRequest) :
    checkedParseRequestLine data request = some (parseRequestLine data request) := by
  unfold checkedParseRequestLine parseRequestLine
  cases ended : findSub crlf data with
  | none => rfl
  | some lineEnd =>
      dsimp only
      split_ifs
      · rfl
      simp only [Option.bind_eq_bind]
      rw [checked_view_eq (Nat.zero_le _), Option.bind_some, List.drop_zero]
      have lineLength : (data.take lineEnd).length ≤ data.length := List.length_take_le' _ _
      generalize data.take lineEnd = line at lineLength
      cases first : findSub [32] line with
      | none => rfl
      | some firstSpace =>
          have firstBound := find_sub_bound first
          rw [List.length_singleton] at firstBound
          dsimp only
          rw [checked_add_eq (by omega), Option.bind_some, find_from_eq [32] firstBound]
          cases second : findSub [32] (line.drop (firstSpace + 1)) with
          | none => rfl
          | some targetLength =>
              have secondBound := find_sub_bound second
              rw [List.length_drop, List.length_singleton] at secondBound
              have secondPosition : firstSpace + 1 + targetLength + 1 ≤ line.length := by omega
              have between : firstSpace + 1 + targetLength - firstSpace - 1 = targetLength := by
                omega
              have shorter := part_sized (Nat.lt_of_le_of_lt lineLength sized)
                (firstSpace + 1) targetLength
              simp only [Option.map_some]
              rw [checked_add_eq (by omega), Option.bind_some,
                find_from_eq [32] secondPosition, Option.isSome_map, List.drop_drop,
                Nat.add_assoc (firstSpace + 1)]
              by_cases third : (findSub [32]
                  (line.drop (firstSpace + 1 + (targetLength + 1)))).isSome = true
              · rw [if_pos third, if_pos third]
              · rw [if_neg third, if_neg third, checked_view_eq (Nat.zero_le _),
                  Option.bind_some, checked_sub_eq (by omega), Option.bind_some,
                  checked_sub_eq (by omega), Option.bind_some, between,
                  checked_view_eq firstBound, Option.bind_some, checked_from_eq (by omega),
                  Option.bind_some, List.drop_zero]
                exact checked_request_eq shorter _ _ request

end RequestLine

section Fields

def checkedLine (data : Bytes) (position lineEnd : Nat) : Option Bytes := do
  let length ← checkedSub lineEnd position
  checkedView data position length

def checkedSplitField (line : Bytes) : Option (Option (Bytes × Bytes)) :=
  match findSub [58] line with
  | none => some none
  | some colon => do
      let name ← checkedView line 0 colon
      let afterColon ← checkedAdd sizeModulus colon 1
      let text ← checkedFrom line afterColon
      some (some (name, utils.trimOws text))

structure HeaderPosition where
  position : Nat
  headerCount : Nat
  request : HttpRequest

def checkedHeaderTurn (data : Bytes) (cursor : HeaderPosition) :
    Option (Turn HeaderPosition (ParseResult × HttpRequest)) :=
  if cursor.position < data.length then
    match findFrom crlf data cursor.position with
    | none => some (.done (.incomplete, cursor.request))
    | some lineEnd =>
        if lineEnd = cursor.position then some (.done (.complete, cursor.request))
        else do
          let line ← checkedLine data cursor.position lineEnd
          match ← checkedSplitField line with
          | none => some (.done (.invalid, cursor.request))
          | some field =>
              if !fieldIsValid field then some (.done (.invalid, cursor.request))
              else do
                let headerCount ← checkedAdd sizeModulus cursor.headerCount 1
                if headerCount > maxHeaders then some (.done (.invalid, cursor.request))
                else if contentLengthConflicts cursor.request field then
                  some (.done (.invalid, cursor.request))
                else do
                  let position ← checkedAdd sizeModulus lineEnd 2
                  some (.next ⟨position, headerCount,
                    cursor.request.addHeader field.1 field.2⟩)
  else some (.done (.incomplete, cursor.request))

def checkedParseHeaders (data : Bytes) (request : HttpRequest) :
    Option (ParseResult × HttpRequest) :=
  runChecked (checkedHeaderTurn data) (data.length + 1) ⟨0, 0, request⟩

def checkedTrailerTurn (trailers : Bytes) (cursor : Nat × Nat) :
    Option (Turn (Nat × Nat) Bool) :=
  if cursor.1 < trailers.length then
    match findFrom crlf trailers cursor.1 with
    | none => some (.done false)
    | some lineEnd =>
        if lineEnd = cursor.1 then some (.done true)
        else do
          let line ← checkedLine trailers cursor.1 lineEnd
          match ← checkedSplitField line with
          | none => some (.done false)
          | some field =>
              if !fieldIsValid field then some (.done false)
              else do
                let trailerCount ← checkedAdd sizeModulus cursor.2 1
                if trailerCount > maxHeaders then some (.done false)
                else do
                  let position ← checkedAdd sizeModulus lineEnd 2
                  some (.next (position, trailerCount))
  else some (.done true)

def checkedTrailers (trailers : Bytes) : Option Bool :=
  runChecked (checkedTrailerTurn trailers) (trailers.length + 1) (0, 0)

theorem checked_line_eq {data : Bytes} {position : Nat} (inside : position ≤ data.length)
    (offset : Nat) :
    checkedLine data position (position + offset) = some ((data.drop position).take offset) := by
  simp only [checkedLine, Option.bind_eq_bind]
  rw [checked_sub_eq (Nat.le_add_right _ _), Option.bind_some, Nat.add_sub_cancel_left,
    checked_view_eq inside]

theorem checked_split_field_eq {line : Bytes} (sized : line.length < sizeModulus) :
    checkedSplitField line = some (splitField line) := by
  unfold checkedSplitField splitField
  cases found : findSub [58] line with
  | none => rfl
  | some colon =>
      have bound := find_sub_bound found
      rw [List.length_singleton] at bound
      simp only [Option.bind_eq_bind]
      rw [checked_view_eq (Nat.zero_le _), Option.bind_some, checked_add_eq (by omega),
        Option.bind_some, checked_from_eq bound, Option.bind_some, List.drop_zero,
        Option.map_some]

def HeaderInside (data : Bytes) (cursor : HeaderPosition) : Prop :=
  cursor.position ≤ data.length ∧ cursor.headerCount ≤ maxHeaders

def headerCursor (data : Bytes) (cursor : HeaderPosition) : HeaderCursor :=
  ⟨data.drop cursor.position, cursor.headerCount, cursor.request⟩

theorem checked_header_turn_follows {data : Bytes} (sized : data.length < sizeModulus)
    (cursor : HeaderPosition) (inside : HeaderInside data cursor) :
    Follows (headerCursor data) (HeaderInside data) (checkedHeaderTurn data cursor)
      (headerTurn (headerCursor data cursor)) := by
  obtain ⟨position, headerCount, request⟩ := cursor
  obtain ⟨before, counted⟩ := inside
  dsimp only at before counted
  have remaining : (data.drop position).length = data.length - position := List.length_drop
  unfold checkedHeaderTurn headerTurn headerCursor
  dsimp only
  rw [if_drop_empty before]
  by_cases more : position < data.length
  · rw [if_pos more, if_pos more, find_from_eq crlf before]
    cases found : findSub crlf (data.drop position) with
    | none => exact .done
    | some lineEnd =>
        have bound := find_sub_bound found
        rw [remaining, crlf_length] at bound
        simp only [Option.map_some, Nat.add_eq_left, Option.bind_eq_bind]
        by_cases empty : lineEnd = 0
        · rw [if_pos empty, if_pos empty]
          exact .done
        · rw [if_neg empty, if_neg empty, checked_line_eq before, Option.bind_some,
            checked_split_field_eq (part_sized sized _ _), Option.bind_some]
          cases splitField ((data.drop position).take lineEnd) with
          | none => exact .done
          | some field =>
              dsimp only
              have count : headerCount + 1 < sizeModulus := by
                simp only [maxHeaders, sizeModulus] at counted ⊢
                omega
              rw [checked_add_eq count, Option.bind_some, checked_add_eq (by omega),
                Option.bind_some, Nat.add_assoc position]
              split_ifs with invalid crowded conflicting
              · exact .done
              · exact .done
              · exact .done
              · rw [List.drop_drop]
                apply Follows.next
                constructor
                · dsimp only
                  omega
                · exact Nat.not_lt.mp crowded
  · rw [if_neg more, if_neg more]
    exact .done

theorem checked_parse_headers_eq {data : Bytes} (sized : data.length < sizeModulus)
    (request : HttpRequest) :
    checkedParseHeaders data request = some (parseHeaders data request) := by
  exact run_checked_eq headerLoop (checked_header_turn_follows sized)
    ⟨Nat.zero_le _, Nat.zero_le _⟩ (Nat.lt_succ_self data.length)

def TrailerInside (trailers : Bytes) (cursor : Nat × Nat) : Prop :=
  cursor.1 ≤ trailers.length ∧ cursor.2 ≤ maxHeaders

theorem checked_trailer_turn_follows {trailers : Bytes} (sized : trailers.length < sizeModulus)
    (cursor : Nat × Nat) (inside : TrailerInside trailers cursor) :
    Follows (fun cursor : Nat × Nat => (trailers.drop cursor.1, cursor.2))
      (TrailerInside trailers) (checkedTrailerTurn trailers cursor)
      (trailerTurn (trailers.drop cursor.1, cursor.2)) := by
  obtain ⟨position, trailerCount⟩ := cursor
  obtain ⟨before, counted⟩ := inside
  dsimp only at before counted
  have remaining : (trailers.drop position).length = trailers.length - position :=
    List.length_drop
  unfold checkedTrailerTurn trailerTurn
  dsimp only
  rw [if_drop_empty before]
  by_cases more : position < trailers.length
  · rw [if_pos more, if_pos more, find_from_eq crlf before]
    cases found : findSub crlf (trailers.drop position) with
    | none => exact .done
    | some lineEnd =>
        have bound := find_sub_bound found
        rw [remaining, crlf_length] at bound
        simp only [Option.map_some, Nat.add_eq_left, Option.bind_eq_bind]
        by_cases empty : lineEnd = 0
        · rw [if_pos empty, if_pos empty]
          exact .done
        · rw [if_neg empty, if_neg empty, checked_line_eq before, Option.bind_some,
            checked_split_field_eq (part_sized sized _ _), Option.bind_some]
          cases splitField ((trailers.drop position).take lineEnd) with
          | none => exact .done
          | some field =>
              dsimp only
              have count : trailerCount + 1 < sizeModulus := by
                simp only [maxHeaders, sizeModulus] at counted ⊢
                omega
              rw [checked_add_eq count, Option.bind_some, checked_add_eq (by omega),
                Option.bind_some, Nat.add_assoc position]
              split_ifs with invalid crowded
              · exact .done
              · exact .done
              · rw [List.drop_drop]
                apply Follows.next
                constructor
                · dsimp only
                  omega
                · exact Nat.not_lt.mp crowded
  · rw [if_neg more, if_neg more]
    exact .done

theorem checked_trailers_eq {trailers : Bytes} (sized : trailers.length < sizeModulus) :
    checkedTrailers trailers = some (trailerLoop.run (trailers, 0)) := by
  exact run_checked_eq trailerLoop (checked_trailer_turn_follows sized)
    ⟨Nat.zero_le _, Nat.zero_le _⟩ (Nat.lt_succ_self trailers.length)

end Fields

section Handlers

def checkedHandleRequestLine (data : Bytes) (parser : HttpParser) (request : HttpRequest) :
    Option (Option ParseResult × Reading) :=
  if parser.consumed > data.length then some (some .invalid, parser.fail, request)
  else do
    let remaining ← checkedFrom data parser.consumed
    match findSub crlf remaining with
    | none =>
        if remaining.length > maxRequestLine then some (some .invalid, parser.fail, request)
        else some (some .incomplete, parser, request)
    | some lineEnd =>
        if lineEnd > maxRequestLine then some (some .invalid, parser.fail, request)
        else
          match ← checkedParseRequestLine remaining request with
          | (.incomplete, request) => some (some .incomplete, parser, request)
          | (.invalid, request) => some (some .invalid, parser.fail, request)
          | (.complete, request) => do
              let length ← checkedAdd sizeModulus lineEnd 2
              let consumed ← checkedAdd sizeModulus parser.consumed length
              some (none, { parser with consumed := consumed, state := .headers }, request)

def checkedHandleHeaders (data : Bytes) (parser : HttpParser) (request : HttpRequest) :
    Option (Option ParseResult × Reading) :=
  if parser.consumed > data.length then some (some .invalid, parser.fail, request)
  else do
    let remaining ← checkedFrom data parser.consumed
    match findSub crlfCrlf remaining with
    | none =>
        if remaining.length > maxHeaderSize then some (some .invalid, parser.fail, request)
        else some (some .incomplete, parser, request)
    | some headersEnd =>
        if headersEnd > maxHeaderSize then some (some .invalid, parser.fail, request)
        else do
          let length ← checkedAdd sizeModulus headersEnd 4
          let headers ← checkedView remaining 0 length
          match ← checkedParseHeaders headers request with
          | (.incomplete, request) => some (some .incomplete, parser, request)
          | (.invalid, request) => some (some .invalid, parser.fail, request)
          | (.complete, request) => do
              let consumed ← checkedAdd sizeModulus parser.consumed length
              some (chooseBody { parser with consumed := consumed } request)

def checkedHandleBody (data : Bytes) (parser : HttpParser) (request : HttpRequest) :
    Option (Option ParseResult × Reading) :=
  if parser.consumed > data.length then some (some .invalid, parser.fail, request)
  else do
    let available ← checkedSub data.length parser.consumed
    if available < parser.bodySize then some (some .incomplete, parser, request)
    else do
      let body ← checkedView data parser.consumed parser.bodySize
      let consumed ← checkedAdd sizeModulus parser.consumed parser.bodySize
      some (some .complete, { parser with consumed := consumed, state := .complete },
        request.setBody body)

def checkedHandleChunkSize (data : Bytes) (parser : HttpParser) :
    Option (Option ParseResult × HttpParser) :=
  if parser.consumed > data.length then some (some .invalid, parser.fail)
  else do
    let remaining ← checkedFrom data parser.consumed
    match findSub crlf remaining with
    | none =>
        if remaining.length > maxChunkLineSize then some (some .invalid, parser.fail)
        else some (some .incomplete, parser)
    | some lineEnd =>
        if lineEnd > maxChunkLineSize then some (some .invalid, parser.fail)
        else do
          let line ← checkedView remaining 0 lineEnd
          let parsed ← checkedParseChunkSize (chunkSizeText line) parser.chunkSize
          let parser := { parser with chunkSize := parsed.2 }
          if !parsed.1 then some (some .invalid, parser.fail)
          else if parser.chunkSize > maxBodySize then some (some .invalid, parser.fail)
          else do
            let room ← checkedSub maxBodySize parser.chunkSize
            if parser.body.length > room then some (some .invalid, parser.fail)
            else do
              let length ← checkedAdd sizeModulus lineEnd 2
              let consumed ← checkedAdd sizeModulus parser.consumed length
              some (none, { parser with
                consumed := consumed
                chunkBytesRead := 0
                state := if parser.chunkSize = 0 then .chunkTrailer else .chunkData })

/-- `body_.append` with the two counters, taken only for a nonempty copy. -/
def checkedCopyChunk (data : Bytes) (parser : HttpParser) (bytesToCopy : Nat) :
    Option HttpParser :=
  if bytesToCopy > 0 then do
    let copied ← checkedCopy data parser.consumed bytesToCopy
    let consumed ← checkedAdd sizeModulus parser.consumed bytesToCopy
    let chunkBytesRead ← checkedAdd sizeModulus parser.chunkBytesRead bytesToCopy
    some { parser with
      body := parser.body ++ copied, consumed := consumed, chunkBytesRead := chunkBytesRead }
  else some parser

def checkedHandleChunkData (data : Bytes) (parser : HttpParser) :
    Option (Option ParseResult × HttpParser) :=
  if parser.consumed > data.length then some (some .invalid, parser.fail)
  else do
    let available ← checkedSub data.length parser.consumed
    let remainingChunkBytes ← checkedSub parser.chunkSize parser.chunkBytesRead
    let parser ← checkedCopyChunk data parser (min available remainingChunkBytes)
    if parser.chunkBytesRead < parser.chunkSize then some (some .incomplete, parser)
    else some (none, { parser with state := .chunkDataCrlf })

def checkedHandleChunkDataCrlf (data : Bytes) (parser : HttpParser) :
    Option (Option ParseResult × HttpParser) :=
  if parser.consumed > data.length then some (some .invalid, parser.fail)
  else do
    let available ← checkedSub data.length parser.consumed
    if available < 2 then some (some .incomplete, parser)
    else do
      let first ← data[parser.consumed]?
      if first ≠ 13 then some (some .invalid, parser.fail)
      else do
        let next ← checkedAdd sizeModulus parser.consumed 1
        let second ← data[next]?
        if second ≠ 10 then some (some .invalid, parser.fail)
        else do
          let consumed ← checkedAdd sizeModulus parser.consumed 2
          some (none, { parser with consumed := consumed, state := .chunkSize })

/-- `remaining.size() >= 2 && remaining[0] == '\r' && remaining[1] == '\n'`. -/
def checkedStartsLine (remaining : Bytes) : Option Bool :=
  if remaining.length ≥ 2 then do
    let first ← remaining[0]?
    if first = 13 then do
      let second ← remaining[1]?
      some (decide (second = 10))
    else some false
  else some false

def checkedFinishChunked (parser : HttpParser) (request : HttpRequest) (length : Nat) :
    Option (Option ParseResult × Reading) := do
  let consumed ← checkedAdd sizeModulus parser.consumed length
  some (some .complete, { parser with consumed := consumed, body := [], state := .complete },
    request.setBody parser.body)

def checkedHandleChunkTrailer (data : Bytes) (parser : HttpParser) (request : HttpRequest) :
    Option (Option ParseResult × Reading) :=
  if parser.consumed > data.length then some (some .invalid, parser.fail, request)
  else do
    let remaining ← checkedFrom data parser.consumed
    if ← checkedStartsLine remaining then checkedFinishChunked parser request 2
    else
      match findSub crlfCrlf remaining with
      | none =>
          if remaining.length > maxHeaderSize then some (some .invalid, parser.fail, request)
          else some (some .incomplete, parser, request)
      | some trailerEnd => do
          let behind ← checkedAdd sizeModulus trailerEnd 2
          let trailers ← checkedView remaining 0 behind
          if ← checkedTrailers trailers then do
            let length ← checkedAdd sizeModulus trailerEnd 4
            checkedFinishChunked parser request length
          else some (some .invalid, parser.fail, request)

def checkedHandleState (data : Bytes) (reading : Reading) :
    Option (Option ParseResult × Reading) :=
  let parser := reading.1
  let request := reading.2
  match parser.state with
  | .requestLine => checkedHandleRequestLine data parser request
  | .headers => checkedHandleHeaders data parser request
  | .body => checkedHandleBody data parser request
  | .chunkSize => (checkedHandleChunkSize data parser).map (keepRequest · request)
  | .chunkData => (checkedHandleChunkData data parser).map (keepRequest · request)
  | .chunkDataCrlf => (checkedHandleChunkDataCrlf data parser).map (keepRequest · request)
  | .chunkTrailer => checkedHandleChunkTrailer data parser request
  | .complete => some (some .complete, parser, request)
  | .error => some (some .invalid, parser, request)

variable {data : Bytes} {parser : HttpParser}

theorem checked_handle_request_line_eq (sized : data.length < sizeModulus)
    (request : HttpRequest) :
    checkedHandleRequestLine data parser request =
      some (handleRequestLine data parser request) := by
  unfold checkedHandleRequestLine handleRequestLine
  split_ifs with outside
  · rfl
  · have inside := Nat.not_lt.mp outside
    simp only [Option.bind_eq_bind]
    rw [checked_from_eq inside, Option.bind_some]
    cases found : findSub crlf (data.drop parser.consumed) with
    | none =>
        dsimp only
        split_ifs <;> rfl
    | some lineEnd =>
        have bound := find_sub_bound found
        rw [List.length_drop, crlf_length] at bound
        dsimp only
        split_ifs with long
        · rfl
        · rw [checked_parse_request_line_eq (remaining_sized sized _), Option.bind_some]
          obtain ⟨result, line⟩ := parseRequestLine (data.drop parser.consumed) request
          cases result with
          | complete =>
              dsimp only
              rw [checked_add_eq (by omega), Option.bind_some, checked_add_eq (by omega),
                Option.bind_some]
          | incomplete => rfl
          | invalid => rfl

theorem checked_handle_headers_eq (sized : data.length < sizeModulus) (request : HttpRequest) :
    checkedHandleHeaders data parser request = some (handleHeaders data parser request) := by
  unfold checkedHandleHeaders handleHeaders
  split_ifs with outside
  · rfl
  · have inside := Nat.not_lt.mp outside
    simp only [Option.bind_eq_bind]
    rw [checked_from_eq inside, Option.bind_some]
    cases found : findSub crlfCrlf (data.drop parser.consumed) with
    | none =>
        dsimp only
        split_ifs <;> rfl
    | some headersEnd =>
        have bound := find_sub_bound found
        rw [List.length_drop, crlf_crlf_length] at bound
        dsimp only
        split_ifs with long
        · rfl
        · rw [checked_add_eq (by omega), Option.bind_some, checked_view_eq (Nat.zero_le _),
            Option.bind_some, List.drop_zero, checked_parse_headers_eq (part_sized sized _ _),
            Option.bind_some]
          obtain ⟨result, stored⟩ :=
            parseHeaders ((data.drop parser.consumed).take (headersEnd + 4)) request
          cases result with
          | complete =>
              dsimp only
              rw [checked_add_eq (by omega), Option.bind_some]
          | incomplete => rfl
          | invalid => rfl

theorem checked_handle_body_eq (sized : data.length < sizeModulus) (request : HttpRequest) :
    checkedHandleBody data parser request = some (handleBody data parser request) := by
  unfold checkedHandleBody handleBody
  split_ifs with outside waiting
  · rfl
  · simp only [Option.bind_eq_bind]
    rw [checked_sub_eq (by omega), Option.bind_some, if_pos waiting]
  · simp only [Option.bind_eq_bind]
    rw [checked_sub_eq (by omega), Option.bind_some, if_neg waiting,
      checked_view_eq (by omega), Option.bind_some, checked_add_eq (by omega), Option.bind_some]

theorem checked_handle_chunk_size_eq (sized : data.length < sizeModulus) :
    checkedHandleChunkSize data parser = some (handleChunkSize data parser) := by
  unfold checkedHandleChunkSize handleChunkSize
  split_ifs with outside
  · rfl
  · have inside := Nat.not_lt.mp outside
    simp only [Option.bind_eq_bind]
    rw [checked_from_eq inside, Option.bind_some]
    cases found : findSub crlf (data.drop parser.consumed) with
    | none =>
        dsimp only
        split_ifs <;> rfl
    | some lineEnd =>
        have bound := find_sub_bound found
        rw [List.length_drop, crlf_length] at bound
        dsimp only
        by_cases long : lineEnd > maxChunkLineSize
        · rw [if_pos long, if_pos long]
        · rw [if_neg long, if_neg long, checked_view_eq (Nat.zero_le _), Option.bind_some,
            List.drop_zero, checked_parse_chunk_size_eq, Option.bind_some]
          generalize utils.parseChunkSize
            (chunkSizeText ((data.drop parser.consumed).take lineEnd)) parser.chunkSize = parsed
          by_cases refused : (!parsed.1) = true
          · rw [if_pos refused, if_pos refused]
          · rw [if_neg refused, if_neg refused]
            by_cases large : parsed.2 > maxBodySize
            · rw [if_pos large, if_pos (by simp [large])]
            · rw [if_neg large, checked_sub_eq (Nat.not_lt.mp large), Option.bind_some,
                checked_add_eq (by omega), Option.bind_some, checked_add_eq (by omega),
                Option.bind_some]
              simp only [large, decide_false, Bool.false_or, decide_eq_true_eq]
              split_ifs <;> rfl

theorem checked_copy_chunk_eq {count : Nat} (inside : parser.consumed + count ≤ data.length)
    (sized : data.length < sizeModulus) (counted : parser.chunkBytesRead + count < sizeModulus) :
    checkedCopyChunk data parser count = some { parser with
      body := parser.body ++ (data.drop parser.consumed).take count
      consumed := parser.consumed + count
      chunkBytesRead := parser.chunkBytesRead + count } := by
  unfold checkedCopyChunk
  split_ifs with positive
  · simp only [Option.bind_eq_bind]
    rw [checked_copy_eq inside, Option.bind_some, checked_add_eq (by omega), Option.bind_some,
      checked_add_eq counted, Option.bind_some]
  · have nothing : count = 0 := by omega
    subst nothing
    simp only [List.take_zero, List.append_nil, Nat.add_zero]

theorem checked_handle_chunk_data_eq (sized : data.length < sizeModulus)
    (ordered : parser.chunkBytesRead ≤ parser.chunkSize)
    (bounded : parser.chunkSize < sizeModulus) :
    checkedHandleChunkData data parser = some (handleChunkData data parser) := by
  by_cases outside : parser.consumed > data.length
  · rw [checkedHandleChunkData, handleChunkData, if_pos outside, if_pos outside]
  · have inside := Nat.not_lt.mp outside
    rw [handle_chunk_data_eq inside ordered bounded]
    unfold checkedHandleChunkData
    simp only [Option.bind_eq_bind]
    rw [if_neg outside, checked_sub_eq inside, Option.bind_some, checked_sub_eq ordered,
      Option.bind_some, checked_copy_chunk_eq (by omega) sized (by omega), Option.bind_some]
    dsimp only
    split_ifs <;> rfl

theorem checked_handle_chunk_data_crlf_eq (sized : data.length < sizeModulus) :
    checkedHandleChunkDataCrlf data parser = some (handleChunkDataCrlf data parser) := by
  unfold checkedHandleChunkDataCrlf handleChunkDataCrlf
  split_ifs with outside
  · rfl
  · have inside := Nat.not_lt.mp outside
    have remaining : (data.drop parser.consumed).length = data.length - parser.consumed :=
      List.length_drop
    have first : data[parser.consumed]? = (data.drop parser.consumed)[0]? := by
      rw [List.getElem?_drop, Nat.add_zero]
    have second : data[parser.consumed + 1]? = (data.drop parser.consumed)[1]? :=
      List.getElem?_drop.symm
    simp only [Option.bind_eq_bind]
    rw [checked_sub_eq inside, Option.bind_some, first]
    match shape : data.drop parser.consumed with
    | [] =>
        rw [shape, List.length_nil] at remaining
        rw [if_pos (by omega)]
    | [byte] =>
        rw [shape, List.length_singleton] at remaining
        rw [if_pos (by omega)]
    | high :: low :: rest =>
        rw [shape] at remaining second
        simp only [List.length_cons] at remaining
        rw [if_neg (by omega), List.getElem?_cons_zero, Option.bind_some,
          checked_add_eq (by omega), Option.bind_some, second, List.getElem?_cons_succ,
          List.getElem?_cons_zero, Option.bind_some, checked_add_eq (by omega), Option.bind_some]
        by_cases cr : high = 13
        · by_cases lf : low = 10
          · simp [cr, lf]
          · simp [cr, lf]
        · simp [cr]

theorem checked_starts_line_eq (remaining : Bytes) :
    checkedStartsLine remaining = some (crlf.isPrefixOf remaining) := by
  match remaining with
  | [] => rfl
  | [first] => simp [checkedStartsLine, crlf, List.isPrefixOf]
  | first :: second :: rest =>
      have long : (first :: second :: rest).length ≥ 2 := by simp
      rw [checkedStartsLine, if_pos long]
      simp only [Option.bind_eq_bind, List.getElem?_cons_zero, List.getElem?_cons_succ,
        Option.bind_some, crlf, List.isPrefixOf_cons_cons, List.isPrefixOf_nil_left, Bool.and_true]
      by_cases cr : first = 13
      · simp [cr, Bool.beq_eq_decide_eq, eq_comm]
      · simp [cr, Ne.symm cr]

theorem checked_finish_chunked_eq {length : Nat} (fits : parser.consumed + length < sizeModulus)
    (request : HttpRequest) :
    checkedFinishChunked parser request length = some (finishChunked parser request length) := by
  simp only [checkedFinishChunked, finishChunked, Option.bind_eq_bind]
  rw [checked_add_eq fits, Option.bind_some]

theorem checked_handle_chunk_trailer_eq (sized : data.length < sizeModulus)
    (request : HttpRequest) :
    checkedHandleChunkTrailer data parser request =
      some (handleChunkTrailer data parser request) := by
  unfold checkedHandleChunkTrailer handleChunkTrailer
  split_ifs with outside
  · rfl
  · have inside := Nat.not_lt.mp outside
    have remaining : (data.drop parser.consumed).length = data.length - parser.consumed :=
      List.length_drop
    simp only [Option.bind_eq_bind]
    rw [checked_from_eq inside, Option.bind_some, checked_starts_line_eq, Option.bind_some]
    by_cases starts : crlf.isPrefixOf (data.drop parser.consumed) = true
    · have length := (List.isPrefixOf_iff_prefix.mp starts).length_le
      rw [crlf_length] at length
      rw [if_pos starts, if_pos starts, checked_finish_chunked_eq (by omega)]
    · rw [if_neg starts, if_neg starts]
      cases found : findSub crlfCrlf (data.drop parser.consumed) with
      | none =>
          dsimp only
          split_ifs <;> rfl
      | some trailerEnd =>
          have bound := find_sub_bound found
          rw [remaining, crlf_crlf_length] at bound
          dsimp only
          rw [checked_add_eq (by omega), Option.bind_some, checked_view_eq (Nat.zero_le _),
            Option.bind_some, List.drop_zero, checked_trailers_eq (part_sized sized _ _),
            Option.bind_some,
            checked_add_eq (by omega), Option.bind_some,
            checked_finish_chunked_eq (by omega)]
          split_ifs <;> rfl

/-- Inside the data and with its counters in order the parser does nothing undefined. -/
theorem checked_handle_state_eq (sized : data.length < sizeModulus) (ok : CountersOk parser)
    (request : HttpRequest) :
    checkedHandleState data (parser, request) = some (handleState data (parser, request)) := by
  cases at_state : parser.state <;> simp only [checkedHandleState, handleState, at_state]
  case requestLine => exact checked_handle_request_line_eq sized request
  case headers => exact checked_handle_headers_eq sized request
  case body => exact checked_handle_body_eq sized request
  case chunkSize => rw [checked_handle_chunk_size_eq sized, Option.map_some]
  case chunkData =>
    obtain ⟨ordered, bounded⟩ := ok (by rw [at_state]; decide)
    rw [checked_handle_chunk_data_eq sized ordered bounded, Option.map_some]
  case chunkDataCrlf => rw [checked_handle_chunk_data_crlf_eq sized, Option.map_some]
  case chunkTrailer => exact checked_handle_chunk_trailer_eq sized request

end Handlers

end HttpServer.CheckedParser
