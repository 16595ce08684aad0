import HttpServer.HttpRequest
import HttpServer.MeasuredLoop

/-!
# The request parser

`HttpParser.cpp`, handler by handler. A handler returns the optional result of
the source, where `none` (`std::nullopt`) means that the state advanced and the
loop goes on, together with the parser and the request as it leaves them. A
string view is the list of its bytes and a position in it is the part dropped
so far. `consumed` never exceeds the size of the data a handler has looked at,
so its sums do not wrap; the two chunk counters are added and subtracted as
`std::size_t`, because a state that no run reaches may hold any values.
-/

namespace HttpServer

open ListSearch MeasuredLoop

inductive ParseResult where
  | complete | incomplete | invalid
deriving DecidableEq, Repr

def maxRequestLine : Nat := 8192
def maxHeaderSize : Nat := 16384
def maxHeaders : Nat := 100
def maxBodySize : Nat := 10 * 1024 * 1024
def maxChunkLineSize : Nat := 128

inductive ParserState where
  | requestLine | headers | body | chunkSize | chunkData | chunkDataCrlf | chunkTrailer
  | complete | error
deriving DecidableEq, Repr

structure HttpParser where
  state : ParserState := .requestLine
  consumed : Nat := 0
  bodySize : Nat := 0
  chunkSize : Nat := 0
  chunkBytesRead : Nat := 0
  body : Bytes := []
deriving DecidableEq, Repr

namespace HttpParser

def contentLengthName : Bytes := ascii "Content-Length"
def transferEncodingName : Bytes := ascii "Transfer-Encoding"

/-- `fail()`: the state becomes `Error` and the call returns `Invalid`. -/
def fail (parser : HttpParser) : HttpParser := { parser with state := .error }

/-- Every member is stored anew, so nothing of the old parser is left. -/
def reset (_ : HttpParser) : HttpParser :=
  { state := .requestLine, consumed := 0, bodySize := 0, chunkSize := 0, chunkBytesRead := 0,
    body := [] }

def consumedBytes (parser : HttpParser) : Nat := parser.consumed

theorem drop_shorter {items : Bytes} {count : Nat} (nonempty : ¬items.isEmpty = true)
    (positive : 0 < count) : (items.drop count).length < items.length := by
  have inhabited : 0 < items.length := by
    apply List.length_pos_of_ne_nil
    simpa using nonempty
  rw [List.length_drop]
  omega

/-- One `key=value` piece of the query string; a piece without `=` is a key
with no value, and an empty piece is skipped. -/
def addQueryPair (request : HttpRequest) (pair : Bytes) : HttpRequest :=
  match findSub [61] pair with
  | some eq =>
      request.addQuery (utils.urlDecode (pair.take eq)) (utils.urlDecode (pair.drop (eq + 1)))
  | none => if pair.isEmpty then request else request.addQuery (utils.urlDecode pair) []

/-- The query loop; the state is what follows `start` and the request so far. -/
def queryTurn (cursor : Bytes × HttpRequest) : Turn (Bytes × HttpRequest) HttpRequest :=
  if cursor.1.isEmpty then .done cursor.2
  else
    match findSub [38] cursor.1 with
    | none => .done (addQueryPair cursor.2 cursor.1)
    | some amp =>
        .next (cursor.1.drop (amp + 1), addQueryPair cursor.2 (cursor.1.take amp))

theorem query_turn_decreases (cursor following : Bytes × HttpRequest)
    (turned : queryTurn cursor = .next following) : following.1.length < cursor.1.length := by
  unfold queryTurn at turned
  split at turned
  · cases turned
  · rename_i nonempty
    split at turned
    · cases turned
    · cases turned
      exact drop_shorter nonempty (by omega)

def queryLoop : Loop (Bytes × HttpRequest) HttpRequest where
  turn := queryTurn
  rank := fun cursor => cursor.1.length
  decreases := query_turn_decreases

def parseRequestLine (data : Bytes) (request : HttpRequest) : ParseResult × HttpRequest :=
  match findSub crlf data with
  | none => (.incomplete, request)
  | some lineEnd =>
      if lineEnd > maxRequestLine then (.invalid, request)
      else
        let line := data.take lineEnd
        match findSub [32] line with
        | none => (.invalid, request)
        | some firstSpace =>
            let afterMethod := line.drop (firstSpace + 1)
            match findSub [32] afterMethod with
            | none => (.invalid, request)
            | some targetLength =>
                let method := line.take firstSpace
                let target := afterMethod.take targetLength
                let version := afterMethod.drop (targetLength + 1)
                if (findSub [32] version).isSome then (.invalid, request)
                else if method.isEmpty || target.isEmpty || version.isEmpty then
                  (.invalid, request)
                else if version ≠ ascii "HTTP/1.1" then (.invalid, request)
                else
                  let parsedMethod := utils.parseMethod method
                  if parsedMethod = .unknown then (.invalid, request)
                  else
                    let fresh := HttpRequest.ofLine parsedMethod target version
                    match findSub [63] target with
                    | none => (.complete, fresh.setPath target)
                    | some questionMark =>
                        (.complete, queryLoop.run
                          (target.drop (questionMark + 1),
                            fresh.setPath (target.take questionMark)))

def withoutQueries (request : HttpRequest) : HttpRequest := { request with queries := [] }

theorem add_query_pair_keeps (request : HttpRequest) (pair : Bytes) :
    withoutQueries (addQueryPair request pair) = withoutQueries request := by
  unfold addQueryPair HttpRequest.addQuery
  repeat' split
  all_goals rfl

theorem query_loop_keeps (cursor : Bytes × HttpRequest) :
    withoutQueries (queryLoop.run cursor) = withoutQueries cursor.2 := by
  refine queryLoop.run_invariant (fun state => withoutQueries state.2 = withoutQueries cursor.2)
    (fun result => withoutQueries result = withoutQueries cursor.2) ?_ ?_ rfl
  · intro state following before turned
    change queryTurn state = _ at turned
    unfold queryTurn at turned
    repeat' split at turned
    all_goals cases turned
    exact (add_query_pair_keeps state.2 _).trans before
  · intro state result before turned
    change queryTurn state = _ at turned
    unfold queryTurn at turned
    repeat' split at turned
    all_goals cases turned
    · exact before
    · exact (add_query_pair_keeps state.2 _).trans before

theorem query_loop_method (cursor : Bytes × HttpRequest) :
    (queryLoop.run cursor).method = cursor.2.method := by
  have kept := congrArg HttpRequest.method (query_loop_keeps cursor)
  exact kept

theorem query_loop_path (cursor : Bytes × HttpRequest) :
    (queryLoop.run cursor).path = cursor.2.path := by
  have kept := congrArg HttpRequest.path (query_loop_keeps cursor)
  exact kept

theorem query_loop_headers (cursor : Bytes × HttpRequest) :
    (queryLoop.run cursor).headers = cursor.2.headers := by
  have kept := congrArg HttpRequest.headers (query_loop_keeps cursor)
  exact kept

theorem parse_request_line_completes {data : Bytes} {request line : HttpRequest}
    (parsed : parseRequestLine data request = (.complete, line)) :
    line.method ≠ .unknown ∧ line.headers = {} := by
  unfold parseRequestLine at parsed
  dsimp only at parsed
  repeat' split at parsed
  all_goals cases parsed
  · rename_i known _ _
    exact ⟨known, rfl⟩
  · rename_i known _ questionMark _
    exact ⟨by rw [query_loop_method]; exact known, query_loop_headers _⟩

/-- What a header or trailer line splits into: the name before the first colon
and the trimmed value after it. -/
def splitField (line : Bytes) : Option (Bytes × Bytes) :=
  (findSub [58] line).map fun colon => (line.take colon, utils.trimOws (line.drop (colon + 1)))

def fieldIsValid (field : Bytes × Bytes) : Bool :=
  utils.isValidHeaderName field.1 && utils.isValidHeaderValue field.2

/-- A second `Content-Length` must repeat the first one, unless that was empty. -/
def contentLengthConflicts (request : HttpRequest) (field : Bytes × Bytes) : Bool :=
  utils.equalsIgnoreCase field.1 contentLengthName &&
    (!(request.header contentLengthName).isEmpty && request.header contentLengthName ≠ field.2)

structure HeaderCursor where
  rest : Bytes
  headerCount : Nat
  request : HttpRequest

def headerTurn (cursor : HeaderCursor) : Turn HeaderCursor (ParseResult × HttpRequest) :=
  if cursor.rest.isEmpty then .done (.incomplete, cursor.request)
  else
    match findSub crlf cursor.rest with
    | none => .done (.incomplete, cursor.request)
    | some lineEnd =>
        if lineEnd = 0 then .done (.complete, cursor.request)
        else
          match splitField (cursor.rest.take lineEnd) with
          | none => .done (.invalid, cursor.request)
          | some field =>
              if !fieldIsValid field then .done (.invalid, cursor.request)
              else if cursor.headerCount + 1 > maxHeaders then .done (.invalid, cursor.request)
              else if contentLengthConflicts cursor.request field then
                .done (.invalid, cursor.request)
              else
                .next ⟨cursor.rest.drop (lineEnd + 2), cursor.headerCount + 1,
                  cursor.request.addHeader field.1 field.2⟩

theorem header_turn_next {cursor following : HeaderCursor}
    (turned : headerTurn cursor = .next following) :
    ∃ lineEnd field, ¬cursor.rest.isEmpty = true ∧ findSub crlf cursor.rest = some lineEnd ∧
      lineEnd ≠ 0 ∧ splitField (cursor.rest.take lineEnd) = some field ∧
      fieldIsValid field = true ∧ cursor.headerCount + 1 ≤ maxHeaders ∧
      contentLengthConflicts cursor.request field = false ∧
      following = ⟨cursor.rest.drop (lineEnd + 2), cursor.headerCount + 1,
        cursor.request.addHeader field.1 field.2⟩ := by
  unfold headerTurn at turned
  split at turned
  · cases turned
  · rename_i nonempty
    split at turned
    · cases turned
    · rename_i lineEnd found
      split at turned
      · cases turned
      · rename_i positive
        split at turned
        · cases turned
        · rename_i field fieldSplit
          split at turned
          · cases turned
          · rename_i valid
            split at turned
            · cases turned
            · rename_i counted
              split at turned
              · cases turned
              · rename_i agrees
                cases turned
                exact ⟨lineEnd, field, nonempty, found, positive, fieldSplit,
                  by simpa using valid, Nat.not_lt.mp counted, by simpa using agrees, rfl⟩

/-- A finishing turn leaves the request as it is. It accepts at an empty line and
waits where no line is complete. -/
theorem header_turn_done {cursor : HeaderCursor} {result : ParseResult × HttpRequest}
    (turned : headerTurn cursor = .done result) :
    result.2 = cursor.request ∧ (result.1 = .complete → findSub crlf cursor.rest = some 0) ∧
      (result.1 = .incomplete →
        cursor.rest.isEmpty = true ∨ findSub crlf cursor.rest = none) := by
  unfold headerTurn at turned
  split at turned
  · rename_i empty
    cases turned
    simp [empty]
  · split at turned
    · rename_i absent
      cases turned
      simp [absent]
    · rename_i lineEnd found
      split at turned
      · rename_i atEnd
        cases turned
        simp [found, atEnd]
      · repeat' split at turned
        all_goals cases turned
        all_goals simp

theorem header_turn_decreases (cursor following : HeaderCursor)
    (turned : headerTurn cursor = .next following) :
    following.rest.length < cursor.rest.length := by
  obtain ⟨lineEnd, field, nonempty, _, _, _, _, _, _, rfl⟩ := header_turn_next turned
  exact drop_shorter nonempty (by omega)

def headerLoop : Loop HeaderCursor (ParseResult × HttpRequest) where
  turn := headerTurn
  rank := fun cursor => cursor.rest.length
  decreases := header_turn_decreases

def parseHeaders (data : Bytes) (request : HttpRequest) : ParseResult × HttpRequest :=
  headerLoop.run ⟨data, 0, request⟩

/-- The trailer loop: `false` where the source fails, `true` where it leaves
the loop. Trailer fields are checked and then dropped. -/
def trailerTurn (cursor : Bytes × Nat) : Turn (Bytes × Nat) Bool :=
  if cursor.1.isEmpty then .done true
  else
    match findSub crlf cursor.1 with
    | none => .done false
    | some lineEnd =>
        if lineEnd = 0 then .done true
        else
          match splitField (cursor.1.take lineEnd) with
          | none => .done false
          | some field =>
              if !fieldIsValid field then .done false
              else if cursor.2 + 1 > maxHeaders then .done false
              else .next (cursor.1.drop (lineEnd + 2), cursor.2 + 1)

theorem trailer_turn_next {cursor following : Bytes × Nat}
    (turned : trailerTurn cursor = .next following) :
    ∃ lineEnd field, ¬cursor.1.isEmpty = true ∧ findSub crlf cursor.1 = some lineEnd ∧
      lineEnd ≠ 0 ∧ splitField (cursor.1.take lineEnd) = some field ∧
      fieldIsValid field = true ∧ cursor.2 + 1 ≤ maxHeaders ∧
      following = (cursor.1.drop (lineEnd + 2), cursor.2 + 1) := by
  unfold trailerTurn at turned
  split at turned
  · cases turned
  · rename_i nonempty
    split at turned
    · cases turned
    · rename_i lineEnd found
      split at turned
      · cases turned
      · rename_i positive
        split at turned
        · cases turned
        · rename_i field fieldSplit
          split at turned
          · cases turned
          · rename_i valid
            split at turned
            · cases turned
            · rename_i counted
              cases turned
              exact ⟨lineEnd, field, nonempty, found, positive, fieldSplit,
                by simpa using valid, Nat.not_lt.mp counted, rfl⟩

theorem trailer_turn_passes {cursor : Bytes × Nat} (turned : trailerTurn cursor = .done true) :
    cursor.1 = [] ∨ findSub crlf cursor.1 = some 0 := by
  unfold trailerTurn at turned
  split at turned
  · rename_i empty
    exact Or.inl (List.isEmpty_iff.mp empty)
  · split at turned
    · cases turned
    · rename_i lineEnd found
      split at turned
      · rename_i atEnd
        exact Or.inr (found.trans (congrArg some atEnd))
      · repeat' split at turned
        all_goals cases turned

theorem trailer_turn_decreases (cursor following : Bytes × Nat)
    (turned : trailerTurn cursor = .next following) : following.1.length < cursor.1.length := by
  obtain ⟨lineEnd, field, nonempty, _, _, _, _, _, rfl⟩ := trailer_turn_next turned
  exact drop_shorter nonempty (by omega)

def trailerLoop : Loop (Bytes × Nat) Bool where
  turn := trailerTurn
  rank := fun cursor => cursor.1.length
  decreases := trailer_turn_decreases

def handleRequestLine (data : Bytes) (parser : HttpParser) (request : HttpRequest) :
    Option ParseResult × HttpParser × HttpRequest :=
  if parser.consumed > data.length then (some .invalid, parser.fail, request)
  else
    let remaining := data.drop parser.consumed
    match findSub crlf remaining with
    | none =>
        if remaining.length > maxRequestLine then (some .invalid, parser.fail, request)
        else (some .incomplete, parser, request)
    | some lineEnd =>
        if lineEnd > maxRequestLine then (some .invalid, parser.fail, request)
        else
          match parseRequestLine remaining request with
          | (.incomplete, request) => (some .incomplete, parser, request)
          | (.invalid, request) => (some .invalid, parser.fail, request)
          | (.complete, request) =>
              (none, { parser with
                consumed := parser.consumed + (lineEnd + 2), state := .headers }, request)

/-- The second half of `handleHeaders`, after `consumed_` has moved past the
header block: the framing of the body is chosen from the stored fields. -/
def chooseBody (parser : HttpParser) (request : HttpRequest) :
    Option ParseResult × HttpParser × HttpRequest :=
  let contentLength := request.header contentLengthName
  let transferEncoding := request.header transferEncodingName
  let hasContentLength := !contentLength.isEmpty
  let hasTransferEncoding := !transferEncoding.isEmpty
  if hasContentLength && hasTransferEncoding then (some .invalid, parser.fail, request)
  else if hasTransferEncoding then
    if !utils.equalsIgnoreCase (utils.trimOws transferEncoding) (ascii "chunked") then
      (some .invalid, parser.fail, request)
    else
      (none, { parser with
        body := [], chunkSize := 0, chunkBytesRead := 0, state := .chunkSize }, request)
  else if !hasContentLength then
    (some .complete, { parser with bodySize := 0, state := .complete }, request.setBody [])
  else
    let parsed := utils.parseContentLength contentLength 0
    let parser := { parser with bodySize := parsed.2 }
    if !parsed.1 then (some .invalid, parser.fail, request)
    else if parser.bodySize > maxBodySize then (some .invalid, parser.fail, request)
    else if parser.bodySize = 0 then
      (some .complete, { parser with state := .complete }, request.setBody [])
    else (none, { parser with state := .body }, request)

def handleHeaders (data : Bytes) (parser : HttpParser) (request : HttpRequest) :
    Option ParseResult × HttpParser × HttpRequest :=
  if parser.consumed > data.length then (some .invalid, parser.fail, request)
  else
    let remaining := data.drop parser.consumed
    match findSub crlfCrlf remaining with
    | none =>
        if remaining.length > maxHeaderSize then (some .invalid, parser.fail, request)
        else (some .incomplete, parser, request)
    | some headersEnd =>
        if headersEnd > maxHeaderSize then (some .invalid, parser.fail, request)
        else
          match parseHeaders (remaining.take (headersEnd + 4)) request with
          | (.incomplete, request) => (some .incomplete, parser, request)
          | (.invalid, request) => (some .invalid, parser.fail, request)
          | (.complete, request) =>
              chooseBody { parser with consumed := parser.consumed + (headersEnd + 4) } request

def handleBody (data : Bytes) (parser : HttpParser) (request : HttpRequest) :
    Option ParseResult × HttpParser × HttpRequest :=
  if parser.consumed > data.length then (some .invalid, parser.fail, request)
  else if data.length - parser.consumed < parser.bodySize then (some .incomplete, parser, request)
  else
    (some .complete,
      { parser with consumed := parser.consumed + parser.bodySize, state := .complete },
      request.setBody ((data.drop parser.consumed).take parser.bodySize))

/-- The size text of a chunk line: what stands before the first semicolon, trimmed. -/
def chunkSizeText (line : Bytes) : Bytes :=
  utils.trimOws <|
    match findSub [59] line with
    | some semicolon => line.take semicolon
    | none => line

def handleChunkSize (data : Bytes) (parser : HttpParser) : Option ParseResult × HttpParser :=
  if parser.consumed > data.length then (some .invalid, parser.fail)
  else
    let remaining := data.drop parser.consumed
    match findSub crlf remaining with
    | none =>
        if remaining.length > maxChunkLineSize then (some .invalid, parser.fail)
        else (some .incomplete, parser)
    | some lineEnd =>
        if lineEnd > maxChunkLineSize then (some .invalid, parser.fail)
        else
          let parsed := utils.parseChunkSize (chunkSizeText (remaining.take lineEnd))
            parser.chunkSize
          let parser := { parser with chunkSize := parsed.2 }
          if !parsed.1 then (some .invalid, parser.fail)
          else if parser.chunkSize > maxBodySize ||
              parser.body.length > maxBodySize - parser.chunkSize then
            (some .invalid, parser.fail)
          else
            (none, { parser with
              consumed := parser.consumed + (lineEnd + 2)
              chunkBytesRead := 0
              state := if parser.chunkSize = 0 then .chunkTrailer else .chunkData })

def handleChunkData (data : Bytes) (parser : HttpParser) : Option ParseResult × HttpParser :=
  if parser.consumed > data.length then (some .invalid, parser.fail)
  else
    let available := data.length - parser.consumed
    let remainingChunkBytes := sizeSub parser.chunkSize parser.chunkBytesRead
    let bytesToCopy := min available remainingChunkBytes
    let parser := { parser with
      body := parser.body ++ (data.drop parser.consumed).take bytesToCopy
      consumed := parser.consumed + bytesToCopy
      chunkBytesRead := sizeAdd parser.chunkBytesRead bytesToCopy }
    if parser.chunkBytesRead < parser.chunkSize then (some .incomplete, parser)
    else (none, { parser with state := .chunkDataCrlf })

def handleChunkDataCrlf (data : Bytes) (parser : HttpParser) : Option ParseResult × HttpParser :=
  if parser.consumed > data.length then (some .invalid, parser.fail)
  else
    match data.drop parser.consumed with
    | first :: second :: _ =>
        if first ≠ 13 ∨ second ≠ 10 then (some .invalid, parser.fail)
        else (none, { parser with consumed := parser.consumed + 2, state := .chunkSize })
    | _ => (some .incomplete, parser)

/-- `request.setBody(std::move(body_))` on completion; the moved-from string is empty. -/
def finishChunked (parser : HttpParser) (request : HttpRequest) (length : Nat) :
    Option ParseResult × HttpParser × HttpRequest :=
  (some .complete,
    { parser with consumed := parser.consumed + length, body := [], state := .complete },
    request.setBody parser.body)

def handleChunkTrailer (data : Bytes) (parser : HttpParser) (request : HttpRequest) :
    Option ParseResult × HttpParser × HttpRequest :=
  if parser.consumed > data.length then (some .invalid, parser.fail, request)
  else
    let remaining := data.drop parser.consumed
    if crlf.isPrefixOf remaining then finishChunked parser request 2
    else
      match findSub crlfCrlf remaining with
      | none =>
          if remaining.length > maxHeaderSize then (some .invalid, parser.fail, request)
          else (some .incomplete, parser, request)
      | some trailerEnd =>
          if trailerLoop.run (remaining.take (trailerEnd + 2), 0) then
            finishChunked parser request (trailerEnd + 4)
          else (some .invalid, parser.fail, request)

end HttpParser

abbrev Reading := HttpParser × HttpRequest

namespace HttpParser

def keepRequest (handled : Option ParseResult × HttpParser) (request : HttpRequest) :
    Option ParseResult × Reading :=
  (handled.1, handled.2, request)

theorem keep_request_eq_iff (handled : Option ParseResult × HttpParser) (request : HttpRequest)
    (result : Option ParseResult) (following : Reading) :
    keepRequest handled request = (result, following) ↔
      handled = (result, following.1) ∧ following.2 = request := by
  obtain ⟨outcome, parser⟩ := handled
  obtain ⟨nextParser, nextRequest⟩ := following
  simp only [keepRequest, Prod.mk.injEq]
  constructor
  · intro same
    exact ⟨⟨same.1, same.2.1⟩, same.2.2.symm⟩
  · intro same
    exact ⟨same.1.1, same.1.2, same.2.symm⟩

/-- The `switch` of `parse`. -/
def handleState (data : Bytes) (reading : Reading) : Option ParseResult × Reading :=
  let parser := reading.1
  let request := reading.2
  match parser.state with
  | .requestLine => handleRequestLine data parser request
  | .headers => handleHeaders data parser request
  | .body => handleBody data parser request
  | .chunkSize => keepRequest (handleChunkSize data parser) request
  | .chunkData => keepRequest (handleChunkData data parser) request
  | .chunkDataCrlf => keepRequest (handleChunkDataCrlf data parser) request
  | .chunkTrailer => handleChunkTrailer data parser request
  | .complete => (some .complete, parser, request)
  | .error => (some .invalid, parser, request)

def parseTurn (data : Bytes) (reading : Reading) : Turn Reading (ParseResult × Reading) :=
  match handleState data reading with
  | (none, following) => .next following
  | (some result, stopped) => .done (result, stopped)

/-- Bytes not yet consumed count twice, so that the one handler that may
advance without consuming, `handleChunkData`, still lowers the rank. -/
def parseRank (data : Bytes) (reading : Reading) : Nat :=
  2 * (data.length - reading.1.consumed) + if reading.1.state = .chunkData then 1 else 0

theorem parse_turn_next_iff (data : Bytes) (reading following : Reading) :
    parseTurn data reading = .next following ↔ handleState data reading = (none, following) := by
  unfold parseTurn
  split
  · rename_i stored handled
    rw [handled]
    simp
  · rename_i result stopped handled
    rw [handled]
    simp

theorem handle_request_line_advances {data : Bytes} {parser : HttpParser} {request : HttpRequest}
    {following : Reading} (handled : handleRequestLine data parser request = (none, following)) :
    ∃ lineEnd, parser.consumed ≤ data.length ∧
      findSub crlf (data.drop parser.consumed) = some lineEnd ∧ lineEnd ≤ maxRequestLine ∧
      parseRequestLine (data.drop parser.consumed) request = (.complete, following.2) ∧
      following.1 = { parser with
        consumed := parser.consumed + (lineEnd + 2), state := .headers } := by
  unfold handleRequestLine at handled
  split at handled
  · cases handled
  · rename_i inside
    dsimp only at handled
    split at handled
    · split at handled <;> cases handled
    · rename_i lineEnd found
      split at handled
      · cases handled
      · rename_i short
        split at handled <;> cases handled
        rename_i parsed
        exact ⟨lineEnd, Nat.not_lt.mp inside, found, Nat.not_lt.mp short, parsed, rfl⟩

theorem choose_body_advances {parser : HttpParser} {request : HttpRequest} {following : Reading}
    (chosen : chooseBody parser request = (none, following)) :
    (request.header contentLengthName = [] ∧
      utils.equalsIgnoreCase (utils.trimOws (request.header transferEncodingName))
        (ascii "chunked") = true ∧
      following = ({ parser with
        body := [], chunkSize := 0, chunkBytesRead := 0, state := .chunkSize }, request)) ∨
    (request.header transferEncodingName = [] ∧ ∃ length,
      utils.parseContentLength (request.header contentLengthName) 0 = (true, length) ∧
      0 < length ∧ length ≤ maxBodySize ∧
      following = ({ parser with bodySize := length, state := .body }, request)) := by
  unfold chooseBody at chosen
  dsimp only at chosen
  split at chosen
  · cases chosen
  · rename_i notBoth
    split at chosen
    · rename_i encoded
      split at chosen
      · cases chosen
      · rename_i chunked
        cases chosen
        left
        refine ⟨?_, by simpa using chunked, rfl⟩
        simpa [encoded] using notBoth
    · rename_i plain
      split at chosen
      · cases chosen
      · split at chosen
        · cases chosen
        · rename_i parsed
          split at chosen
          · cases chosen
          · rename_i bounded
            split at chosen
            · cases chosen
            · rename_i positive
              cases chosen
              right
              refine ⟨by simpa using plain, _, ?_, Nat.pos_of_ne_zero positive,
                Nat.not_lt.mp bounded, rfl⟩
              exact Prod.ext (by simpa using parsed) rfl

theorem handle_headers_decides {data : Bytes} {parser : HttpParser} {request : HttpRequest}
    {result : Option ParseResult} {following : Reading}
    (handled : handleHeaders data parser request = (result, following))
    (decided : result = none ∨ result = some .complete) :
    ∃ headersEnd stored, parser.consumed ≤ data.length ∧
      findSub crlfCrlf (data.drop parser.consumed) = some headersEnd ∧
      headersEnd ≤ maxHeaderSize ∧
      parseHeaders ((data.drop parser.consumed).take (headersEnd + 4)) request =
        (.complete, stored) ∧
      chooseBody { parser with consumed := parser.consumed + (headersEnd + 4) } stored =
        (result, following) := by
  unfold handleHeaders at handled
  split at handled
  · cases handled
    simp at decided
  · rename_i inside
    dsimp only at handled
    split at handled
    · split at handled <;> cases handled <;> simp at decided
    · rename_i headersEnd found
      split at handled
      · cases handled
        simp at decided
      · rename_i short
        split at handled
        · cases handled
          simp at decided
        · cases handled
          simp at decided
        · rename_i stored parsed
          exact ⟨headersEnd, stored, Nat.not_lt.mp inside, found, Nat.not_lt.mp short, parsed,
            handled⟩

theorem handle_chunk_size_advances {data : Bytes} {parser following : HttpParser}
    (handled : handleChunkSize data parser = (none, following)) :
    ∃ lineEnd size, parser.consumed ≤ data.length ∧
      findSub crlf (data.drop parser.consumed) = some lineEnd ∧ lineEnd ≤ maxChunkLineSize ∧
      utils.parseChunkSize (chunkSizeText ((data.drop parser.consumed).take lineEnd))
        parser.chunkSize = (true, size) ∧
      parser.body.length + size ≤ maxBodySize ∧
      following = { parser with
        consumed := parser.consumed + (lineEnd + 2), chunkSize := size, chunkBytesRead := 0,
        state := if size = 0 then .chunkTrailer else .chunkData } := by
  unfold handleChunkSize at handled
  split at handled
  · cases handled
  · rename_i inside
    dsimp only at handled
    split at handled
    · split at handled <;> cases handled
    · rename_i lineEnd found
      split at handled
      · cases handled
      · rename_i short
        split at handled
        · cases handled
        · rename_i parsed
          split at handled
          · cases handled
          · rename_i fits
            cases handled
            simp only [Bool.or_eq_true, decide_eq_true_eq, not_or, not_lt] at fits
            have total := Nat.add_le_of_le_sub fits.1 fits.2
            exact ⟨lineEnd, _, Nat.not_lt.mp inside, found, Nat.not_lt.mp short,
              Prod.ext (by simpa using parsed) rfl, total, rfl⟩

theorem handle_chunk_data_crlf_advances {data : Bytes} {parser following : HttpParser}
    (handled : handleChunkDataCrlf data parser = (none, following)) :
    ∃ rest, parser.consumed ≤ data.length ∧ data.drop parser.consumed = 13 :: 10 :: rest ∧
      following = { parser with consumed := parser.consumed + 2, state := .chunkSize } := by
  unfold handleChunkDataCrlf at handled
  split at handled
  · cases handled
  · rename_i inside
    split at handled
    · rename_i first second rest remaining
      split at handled
      · cases handled
      · rename_i ends
        cases handled
        simp only [not_or, not_not] at ends
        rw [ends.1, ends.2] at remaining
        exact ⟨rest, Nat.not_lt.mp inside, remaining, rfl⟩
    · cases handled

theorem handle_chunk_data_advances_consumed {data : Bytes} {parser following : HttpParser}
    (handled : handleChunkData data parser = (none, following)) :
    parser.consumed ≤ following.consumed ∧ following.state = .chunkDataCrlf := by
  unfold handleChunkData at handled
  split at handled
  · cases handled
  · dsimp only at handled
    split at handled <;> cases handled
    exact ⟨Nat.le_add_right _ _, rfl⟩

inductive Advances (data : Bytes) (parser : HttpParser) (request : HttpRequest)
    (following : Reading) : Prop
  | requestLine (at_state : parser.state = .requestLine)
      (handled : handleRequestLine data parser request = (none, following))
  | headers (at_state : parser.state = .headers)
      (handled : handleHeaders data parser request = (none, following))
  | chunkSize (at_state : parser.state = .chunkSize)
      (handled : handleChunkSize data parser = (none, following.1)) (kept : following.2 = request)
  | chunkData (at_state : parser.state = .chunkData)
      (handled : handleChunkData data parser = (none, following.1)) (kept : following.2 = request)
  | chunkDataCrlf (at_state : parser.state = .chunkDataCrlf)
      (handled : handleChunkDataCrlf data parser = (none, following.1))
      (kept : following.2 = request)

theorem handle_state_advances {data : Bytes} {parser : HttpParser} {request : HttpRequest}
    {following : Reading} (handled : handleState data (parser, request) = (none, following)) :
    Advances data parser request following := by
  cases at_state : parser.state <;> simp only [handleState, at_state] at handled
  case requestLine => exact .requestLine at_state handled
  case headers => exact .headers at_state handled
  case body =>
    unfold handleBody at handled
    repeat' split at handled
    all_goals cases handled
  case chunkSize =>
    obtain ⟨handled, kept⟩ := (keep_request_eq_iff _ _ _ _).mp handled
    exact .chunkSize at_state handled kept
  case chunkData =>
    obtain ⟨handled, kept⟩ := (keep_request_eq_iff _ _ _ _).mp handled
    exact .chunkData at_state handled kept
  case chunkDataCrlf =>
    obtain ⟨handled, kept⟩ := (keep_request_eq_iff _ _ _ _).mp handled
    exact .chunkDataCrlf at_state handled kept
  case chunkTrailer =>
    unfold handleChunkTrailer finishChunked at handled
    dsimp only at handled
    repeat' split at handled
    all_goals cases handled
  all_goals cases handled

theorem parse_turn_decreases (data : Bytes) (reading following : Reading)
    (turned : parseTurn data reading = .next following) :
    parseRank data following < parseRank data reading := by
  rw [parse_turn_next_iff] at turned
  obtain ⟨parser, request⟩ := reading
  cases handle_state_advances turned with
  | requestLine at_state handled =>
      obtain ⟨lineEnd, inside, found, _, _, moved⟩ := handle_request_line_advances handled
      have bound := find_sub_bound found
      simp only [List.length_drop, crlf_length] at bound
      simp only [parseRank, moved, at_state, reduceCtorEq, if_false]
      omega
  | headers at_state handled =>
      obtain ⟨headersEnd, stored, inside, found, _, _, chosen⟩ :=
        handle_headers_decides handled (Or.inl rfl)
      have bound := find_sub_bound found
      simp only [List.length_drop, crlf_crlf_length] at bound
      rcases choose_body_advances chosen with ⟨_, _, moved⟩ | ⟨_, _, _, _, _, moved⟩
      all_goals
        simp only [parseRank, moved, at_state, reduceCtorEq, if_false]
        omega
  | chunkSize at_state handled _ =>
      obtain ⟨lineEnd, size, inside, found, _, _, _, moved⟩ := handle_chunk_size_advances handled
      have bound := find_sub_bound found
      simp only [List.length_drop, crlf_length] at bound
      simp only [parseRank, moved, at_state, reduceCtorEq, if_false]
      split_ifs <;> omega
  | chunkData at_state handled _ =>
      obtain ⟨forward, entered⟩ := handle_chunk_data_advances_consumed handled
      simp only [parseRank, entered, at_state, reduceCtorEq, if_false, if_true]
      omega
  | chunkDataCrlf at_state handled _ =>
      obtain ⟨rest, inside, remaining, moved⟩ := handle_chunk_data_crlf_advances handled
      have length := congrArg List.length remaining
      simp only [List.length_drop, List.length_cons] at length
      simp only [parseRank, moved, at_state, reduceCtorEq, if_false]
      omega

/-- `HttpParser::parse`: the `while (true)` over the state handlers. -/
def parseLoop (data : Bytes) : Loop Reading (ParseResult × Reading) where
  turn := parseTurn data
  rank := parseRank data
  decreases := parse_turn_decreases data

def parse (data : Bytes) (parser : HttpParser) (request : HttpRequest) : ParseResult × Reading :=
  (parseLoop data).run (parser, request)

end HttpParser

end HttpServer
