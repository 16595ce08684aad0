import HttpServer.ClientConnection
import HttpServer.ParserResume

/-!
# Pipelined requests

A completed message is decided by its own bytes: what stands behind it in the
buffer is neither looked at nor changed. One round of the server's reading, a
new request followed by `parseRequest` and `consumeParsedRequest`, therefore
takes exactly one message off a buffer of several, and leaves a fresh parser in
front of the next.
-/

namespace HttpServer.PipelinedRequests

open HttpParser ParserResume ClientConnection

theorem complete_run_extends {data : Bytes} (reading : Reading) {stopped : Reading}
    (ok : CountersOk reading.1)
    (complete : (parseLoop data).run reading = (.complete, stopped)) (more : Bytes) :
    (parseLoop (data ++ more)).run reading = (.complete, stopped) := by
  induction reading using (parseLoop data).run_induction with
  | done reading result turned =>
      rw [(parseLoop data).run_done turned] at complete
      subst complete
      have handled := (parse_turn_done_iff _ _ _ _).mp turned
      have extended := (handle_state_completes_extends handled more).2
      exact (parseLoop (data ++ more)).run_done ((parse_turn_done_iff _ _ _ _).mpr extended)
  | next reading following turned ih =>
      rw [(parseLoop data).run_next turned] at complete
      have handled := (parse_turn_next_iff _ _ _).mp turned
      have extended := handle_state_advances_extends ok handled more
      rw [(parseLoop (data ++ more)).run_next ((parse_turn_next_iff _ _ _).mpr extended)]
      exact ih (handle_state_counters ok handled) complete

/-- A new `HttpRequest`, `parseRequest`, `consumeParsedRequest`; `none` where
`consume` throws. -/
def readRound (connection : ClientConnection) :
    Option ((ParseResult × HttpRequest) × ClientConnection) :=
  let parsed := parseRequest connection {}
  (consumeParsedRequest parsed.2.1).map fun consumed => ((parsed.1, parsed.2.2), consumed)

def readRounds : Nat → ClientConnection →
    Option (List (ParseResult × HttpRequest) × ClientConnection)
  | 0, connection => some ([], connection)
  | count + 1, connection =>
      (readRound connection).bind fun first =>
        (readRounds count first.2).map fun later => (first.1 :: later.1, later.2)

/-- `message` is exactly one request: a fresh parser completes it as `request`
and has consumed all of it. -/
def IsRequest (message : Bytes) (request : HttpRequest) : Prop :=
  ∃ parser, parse message {} {} = (.complete, parser, request) ∧
    parser.consumedBytes = message.length

theorem read_round_takes {connection : ClientConnection} {message rest : Bytes}
    {request : HttpRequest} (whole : IsRequest message request)
    (buffered : connection.readBuffer = message ++ rest) (fresh : connection.parser = {}) :
    readRound connection =
      some ((.complete, request), { connection with readBuffer := rest, parser := {} }) := by
  obtain ⟨parser, completed, consumed⟩ := whole
  have extended : parse (message ++ rest) {} {} = (.complete, parser, request) :=
    complete_run_extends ({}, {}) fresh_counters completed rest
  have length : parser.consumed = message.length := consumed
  simp only [readRound, parseRequest, consumeParsedRequest, consume, consumedBytes, reset,
    buffered, fresh, extended, length]
  simp

/-- A buffer of pipelined requests is read back message by message. -/
theorem pipelined_requests_read_back (connection : ClientConnection)
    (messages : List (Bytes × HttpRequest)) (rest : Bytes)
    (whole : ∀ message ∈ messages, IsRequest message.1 message.2)
    (buffered : connection.readBuffer = (messages.map Prod.fst).flatten ++ rest)
    (fresh : connection.parser = {}) :
    readRounds messages.length connection =
      some (messages.map fun message => (.complete, message.2),
        { connection with readBuffer := rest, parser := {} }) := by
  induction messages generalizing connection with
  | nil =>
      simp only [List.map_nil, List.flatten_nil, List.nil_append] at buffered
      simp [readRounds, ← buffered, ← fresh]
  | cons message messages ih =>
      simp only [List.map_cons, List.flatten_cons, List.append_assoc] at buffered
      have first := read_round_takes (whole message List.mem_cons_self) buffered fresh
      have later := ih
        { connection with
          readBuffer := (messages.map Prod.fst).flatten ++ rest, parser := {} }
        (fun other member => whole other (List.mem_cons_of_mem _ member)) rfl rfl
      simp only [List.length_cons, readRounds, first, Option.bind_some, later, Option.map_some,
        List.map_cons]

def requestWithoutBody : Bytes × HttpRequest :=
  (ascii "GET /a HTTP/1.1\r\nHost: x\r\n\r\n",
    { method := .get, target := ascii "/a", version := ascii "HTTP/1.1", path := ascii "/a",
      headers := ⟨[(ascii "Host", ascii "x")]⟩ })

def requestWithBody : Bytes × HttpRequest :=
  (ascii "POST /b HTTP/1.1\r\nContent-Length: 1\r\n\r\nx",
    { method := .post, target := ascii "/b", version := ascii "HTTP/1.1", path := ascii "/b",
      headers := ⟨[(ascii "Content-Length", ascii "1")]⟩, body := ascii "x" })

/-- Two requests and the beginning of a third. -/
theorem pipelined_requests_read_back_two :
    readRounds 2 { readBuffer := requestWithoutBody.1 ++ requestWithBody.1 ++ ascii "GET" } =
      some ([(.complete, requestWithoutBody.2), (.complete, requestWithBody.2)],
        { readBuffer := ascii "GET" }) := by
  have first : IsRequest requestWithoutBody.1 requestWithoutBody.2 :=
    ⟨(parse requestWithoutBody.1 {} {}).2.1, by decide +kernel, by decide +kernel⟩
  have second : IsRequest requestWithBody.1 requestWithBody.2 :=
    ⟨(parse requestWithBody.1 {} {}).2.1, by decide +kernel, by decide +kernel⟩
  exact pipelined_requests_read_back
    { readBuffer := requestWithoutBody.1 ++ requestWithBody.1 ++ ascii "GET" }
    [requestWithoutBody, requestWithBody] (ascii "GET") (by simp [first, second]) (by simp) rfl

end HttpServer.PipelinedRequests
