import HttpServer.RequestSequence
import HttpServer.RequestRendering
import HttpServer.ResponseStream
import HttpServer.Router

/-!
# A conversation from end to end

A client writes its requests one after the other and waits for each answer; a request
may come in any number of events as long as all but the last of them end inside its
first line. Then every request reaches the router as it was written, in order, the
connection is back in its first state after each answer, and what the client reads are
the router's responses.
-/

namespace HttpServer.ConversationEnds

open TransitionSystem ListSearch MeasuredLoop HttpParser ClientConnection ClientHandling
  ParserResume RequestLine RequestRendering PipelinedRequests Session SessionResponses
  RequestSequence ResponseStream

/-- A request as a client writes it, and how it arrives: the pieces `SSL_read` returns in
the events that end inside the first line, and those of the event that brings the rest. -/
structure Sending where
  text : RequestText
  early : List (List Bytes)
  last : List Bytes
deriving DecidableEq, Repr

namespace Sending

structure WellFormed (sending : Sending) : Prop where
  text : sending.text.WellFormed
  arrives : sending.early.flatten.flatten ++ sending.last.flatten = sending.text.render
  unread : ¬crlf <:+: sending.early.flatten.flatten
  short : sending.early.flatten.flatten.length ≤ maxRequestLine
  keepsAlive : keepsAlive sending.text.request = true
  stays : wantsUpgrade sending.text.request = false

def steps (sending : Sending) (response : HttpResponse) : List SessionStep :=
  sending.early.map (fun pieces => .readable { received := pieces }) ++
    [.readable { received := sending.last }, .answer 0 (.returned response), .finish 0]

end Sending

def conversation (exchanges : List (Sending × HttpResponse)) : List SessionStep :=
  exchanges.flatMap fun exchange => exchange.1.steps exchange.2

/-- The router's responses to requests that come one after the other; `none` where a
callback throws. -/
def answerAll {World : Type} (router : Router World) :
    List HttpRequest → World → Option (List HttpResponse × World)
  | [], world => some ([], world)
  | request :: requests, world =>
      let handled := router.handle request world
      match handled.result with
      | .ok response =>
          (answerAll router requests handled.world).map fun later =>
            (response :: later.1, later.2)
      | .error _ => none

section Rendered

variable {text : RequestText}

theorem rendered_is_request (wellFormed : text.WellFormed) :
    IsRequest text.render text.request := by
  have line : parse (text.headText ++ text.body) {} {} =
      (parseLoop (text.headText ++ text.body)).run (behindLine text.method text.target) := by
    rw [head_text_block wellFormed]
    exact parse_behind_line wellFormed.line _ {}
  have head := head_text_advances wellFormed text.body
  rw [choose_body_written wellFormed] at head
  rw [IsRequest, render_eq, line]
  by_cases empty : text.body = []
  · rw [if_pos empty] at head
    have done := (parseLoop _).run_done ((parse_turn_done_iff _ _ _ _).mpr head)
    have bare : text.headed.body = [] := (line_request_parts _ _).2.2.2.2
    have same : text.request = text.headed := by
      rw [RequestText.request, HttpRequest.setBody, empty, ← bare]
    refine ⟨_, same ▸ done, ?_⟩
    rw [empty, List.append_nil]
    rfl
  · rw [if_neg empty] at head
    have next := (parseLoop _).run_next ((parse_turn_next_iff _ _ _).mpr head)
    have body := body_text_completes text []
    rw [List.append_nil] at body
    have done := (parseLoop _).run_done ((parse_turn_done_iff _ _ _ _).mpr body)
    refine ⟨_, next.trans done, ?_⟩
    rw [List.length_append]
    rfl

end Rendered

/-- The connection is in use over HTTP/1.1, its parser fresh before `buffer`. -/
structure Established (buffer : Bytes) (session : Session) : Prop where
  plain : session.connection.isHttp2 = false
  notUpgraded : session.connection.isWebSocket = false
  buffered : session.connection.readBuffer = buffer
  fresh : session.connection.parser = {}
  listed : session.inTable = true
  registered : session.registered = true
  running : session.running = true
  alive : session.terminated = false

/-- The worker waits for the connection, of whose next request `buffer` has come. -/
structure Awaits (buffer : Bytes) (session : Session) : Prop extends
    Established buffer session where
  armed : session.armed = some .readable
  idle : session.tasks = []

def Kept (session following : Session) : Prop :=
  following.answered = session.answered ∧ following.sent = session.sent

section Events

variable (crypto : Worker.Crypto) {session : Session} {buffer : Bytes}

theorem event_read (pieces : List Bytes) (awaits : Awaits buffer session) :
    ∃ opened after actions,
      opened.isHttp2 = false ∧ opened.isWebSocket = false ∧ opened.parser = {} ∧
      opened.readBuffer = buffer ++ pieces.flatten ∧
      Served crypto { received := pieces } opened after actions ∧
      session.step crypto (.readable { received := pieces }) =
        some ((session.delivered { received := pieces } after).runActions actions) := by
  obtain ⟨after, actions, handled, same⟩ :=
    receive_handled crypto session { received := pieces }
  have stepped : session.step crypto (.readable { received := pieces }) =
      some ((session.delivered { received := pieces } after).runActions actions) := by
    simp [Session.step, awaits.alive, awaits.armed, awaits.listed, same]
  have shaken : ∃ ready, session.connection.doHandshake (.accepted []) = .ready ready := by
    unfold doHandshake
    split <;> exact ⟨_, rfl⟩
  obtain ⟨ready, accepted⟩ := shaken
  have opens : ∀ opened, afterRead session.connection { received := pieces } = some opened →
      opened.isHttp2 = false ∧ opened.isWebSocket = false ∧ opened.parser = {} ∧
        opened.readBuffer = buffer ++ pieces.flatten := by
    intro opened received
    obtain ⟨upgraded, parser, bytes, _, plain⟩ := after_read_keeps received
    have other : SslAccept.accepted [] ≠ .accepted (ascii "h2") := by decide
    exact ⟨plain awaits.plain other, upgraded.trans awaits.notUpgraded,
      parser.trans awaits.fresh, awaits.buffered ▸ bytes⟩
  cases handled with
  | handshakeFailed threw => cases accepted.symm.trans threw
  | handshakePending interest pending => cases accepted.symm.trans pending
  | closed opened received ended => exact absurd rfl ended.1
  | http2 opened received reading negotiated streams _ last ended =>
      rw [(opens opened received).1] at negotiated
      cases negotiated
  | frames opened received reading plain upgraded control rest last allControl ended =>
      rw [(opens opened received).2.1] at upgraded
      cases upgraded
  | request opened received reading plain notUpgraded _ _ served =>
      obtain ⟨_, _, fresh, bytes⟩ := opens opened received
      exact ⟨opened, after, actions, plain, notUpgraded, fresh, bytes, served, stepped⟩

theorem parse_waits {data : Bytes} (unread : ¬crlf <:+: data)
    (short : data.length ≤ maxRequestLine) : parse data {} {} = (.incomplete, {}, {}) := by
  have searched := find_sub_eq_none_iff_not_infix crlf data (by decide)
  have absent : findSub crlf data = none := searched.mpr unread
  apply (parseLoop data).run_done
  apply (parse_turn_done_iff _ _ _ _).mpr
  change handleRequestLine data {} {} = _
  simp [handleRequestLine, absent, Nat.not_lt.mpr short]

theorem early_event {pieces : List Bytes} (awaits : Awaits buffer session)
    (unread : ¬crlf <:+: buffer ++ pieces.flatten)
    (short : (buffer ++ pieces.flatten).length ≤ maxRequestLine) :
    ∃ following, session.step crypto (.readable { received := pieces }) = some following ∧
      Awaits (buffer ++ pieces.flatten) following ∧ Kept session following := by
  obtain ⟨opened, after, actions, plain, notUpgraded, fresh, bytes, served, stepped⟩ :=
    event_read crypto pieces awaits
  have only : ∀ result stopped,
      parse opened.readBuffer opened.parser {} = (result, stopped) →
        (ParseResult.incomplete, ({}, {})) = (result, stopped) := by
    intro result stopped parsed
    rw [bytes, fresh, parse_waits unread short] at parsed
    exact parsed
  refine ⟨_, stepped, ?_⟩
  cases served with
  | waits stopped parsed =>
      cases only _ _ parsed
      have registered := awaits.registered
      simp only [runActions, delivered, registered, if_true]
      refine ⟨?_, rfl, rfl⟩
      exact ⟨⟨plain, notUpgraded, bytes, rfl, awaits.listed, rfl, awaits.running, awaits.alive⟩,
        rfl, awaits.idle⟩
  | refuses stopped parsed => cases only _ _ parsed
  | upgradeFails stopped greeting parsed _ => cases only _ _ parsed
  | upgrades stopped greeting parsed _ _ _ => cases only _ _ parsed
  | dispatchFails stopped parsed _ => cases only _ _ parsed
  | dispatches stopped parsed _ _ => cases only _ _ parsed

theorem last_event {message : Bytes} {request : HttpRequest} {pieces : List Bytes}
    (awaits : Awaits buffer session)
    (whole : IsRequest message request) (arrives : buffer ++ pieces.flatten = message)
    (kept : keepsAlive request = true) (stays : wantsUpgrade request = false) :
    ∃ following, session.step crypto (.readable { received := pieces }) = some following ∧
      Established [] following ∧ following.tasks = [⟨.http request true, .queued⟩] ∧
      Kept session following := by
  obtain ⟨opened, after, actions, plain, notUpgraded, fresh, bytes, served, stepped⟩ :=
    event_read crypto pieces awaits
  obtain ⟨parser, complete, consumed⟩ := whole
  have length : parser.consumed = message.length := consumed
  have only : ∀ result stopped,
      parse opened.readBuffer opened.parser {} = (result, stopped) →
        (ParseResult.complete, (parser, request)) = (result, stopped) := by
    intro result stopped parsed
    rw [bytes, fresh, arrives, complete] at parsed
    exact parsed
  refine ⟨_, stepped, ?_⟩
  cases served with
  | waits stopped parsed => cases only _ _ parsed
  | refuses stopped parsed => cases only _ _ parsed
  | upgradeFails stopped greeting parsed wanted =>
      cases only _ _ parsed
      rw [stays] at wanted
      cases wanted
  | upgrades stopped greeting parsed wanted _ _ =>
      cases only _ _ parsed
      rw [stays] at wanted
      cases wanted
  | dispatchFails stopped parsed outside =>
      cases only _ _ parsed
      rw [bytes, arrives, length] at outside
      exact absurd outside (Nat.lt_irrefl _)
  | dispatches stopped parsed _ _ =>
      cases only _ _ parsed
      have emptied : opened.readBuffer.drop parser.consumed = [] := by
        rw [bytes, arrives, length, List.drop_length]
      refine ⟨?_, ?_, rfl, rfl⟩
      · exact ⟨plain, notUpgraded, emptied, rfl, awaits.listed, awaits.registered,
          awaits.running, awaits.alive⟩
      · simp only [runActions, delivered, awaits.idle, kept, List.nil_append]

theorem task_runs {request : HttpRequest} (established : Established [] session)
    (only : session.tasks = [⟨.http request true, .queued⟩]) (response : HttpResponse) :
    ∃ following, run (step crypto) session [.answer 0 (.returned response), .finish 0] =
        some following ∧
      Awaits [] following ∧
      following.answered = session.answered ++ [(request, response)] ∧
      following.sent = session.sent ++ [responseText true response] := by
  have ran : run (step crypto) session [.answer 0 (.returned response), .finish 0] =
      some { session with
        tasks := []
        armed := some .readable
        answered := session.answered ++ [(request, response)]
        sent := session.sent ++ [responseText true response] } := by
    simp [run, Session.step, answerTask, finishTask, Task.rearms, only, established.registered,
      established.running, established.alive]
  refine ⟨_, ran, ?_, rfl, rfl⟩
  exact ⟨⟨established.plain, established.notUpgraded, established.buffered, established.fresh,
    established.listed, established.registered, established.running, established.alive⟩, rfl, rfl⟩

theorem early_events (early : List (List Bytes)) (awaits : Awaits buffer session)
    (unread : ¬crlf <:+: buffer ++ early.flatten.flatten)
    (short : (buffer ++ early.flatten.flatten).length ≤ maxRequestLine) :
    ∃ following,
      run (step crypto) session (early.map fun pieces => .readable { received := pieces }) =
        some following ∧
      Awaits (buffer ++ early.flatten.flatten) following ∧ Kept session following := by
  induction early generalizing buffer session with
  | nil =>
      refine ⟨session, rfl, ?_, rfl, rfl⟩
      simpa using awaits
  | cons pieces early ih =>
      simp only [List.flatten_cons, List.flatten_append] at unread short ⊢
      rw [← List.append_assoc] at unread short ⊢
      have first : ¬crlf <:+: buffer ++ pieces.flatten := by
        intro inside
        exact unread (inside.trans (List.prefix_append _ _).isInfix)
      have bound : (buffer ++ pieces.flatten).length ≤ maxRequestLine := by
        rw [List.length_append] at short
        omega
      obtain ⟨following, stepped, waiting, answered, sent⟩ :=
        early_event crypto awaits first bound
      obtain ⟨last, ran, arrived, answeredLast, sentLast⟩ := ih waiting unread short
      refine ⟨last, ?_, arrived, answeredLast.trans answered, sentLast.trans sent⟩
      rw [List.map_cons, run, stepped]
      exact ran

theorem exchange_runs {sending : Sending} (wellFormed : sending.WellFormed)
    (awaits : Awaits [] session) (response : HttpResponse) :
    ∃ following, run (step crypto) session (sending.steps response) = some following ∧
      Awaits [] following ∧
      following.answered = session.answered ++ [(sending.text.request, response)] ∧
      following.sent = session.sent ++ [responseText true response] := by
  obtain ⟨waiting, ran, more, answered, sent⟩ := early_events crypto sending.early
    awaits wellFormed.unread wellFormed.short
  obtain ⟨handed, stepped, established, only, answeredHanded, sentHanded⟩ :=
    last_event crypto more (rendered_is_request wellFormed.text) wellFormed.arrives
      wellFormed.keepsAlive wellFormed.stays
  obtain ⟨last, finished, back, answeredLast, sentLast⟩ :=
    task_runs crypto established only response
  refine ⟨last, ?_, back, ?_, ?_⟩
  · rw [Sending.steps, run_append, ran, Option.bind_some, run, stepped]
    exact finished
  · rw [answeredLast, answeredHanded, answered]
  · rw [sentLast, sentHanded, sent]

theorem conversation_runs (exchanges : List (Sending × HttpResponse))
    (wellFormed : ∀ exchange ∈ exchanges, exchange.1.WellFormed) (awaits : Awaits [] session) :
    ∃ last, run (step crypto) session (conversation exchanges) = some last ∧
      Awaits [] last ∧
      last.answered = session.answered ++
        exchanges.map (fun exchange => (exchange.1.text.request, exchange.2)) ∧
      last.sent = session.sent ++
        exchanges.map fun exchange => responseText true exchange.2 := by
  induction exchanges generalizing session with
  | nil => exact ⟨session, rfl, awaits, (List.append_nil _).symm, (List.append_nil _).symm⟩
  | cons exchange exchanges ih =>
      obtain ⟨following, ran, waiting, answered, sent⟩ := exchange_runs crypto
        (wellFormed exchange List.mem_cons_self) awaits exchange.2
      obtain ⟨last, later, back, answeredLast, sentLast⟩ :=
        ih (fun other member => wellFormed other (List.mem_cons_of_mem _ member)) waiting
      refine ⟨last, ?_, back, ?_, ?_⟩
      · rw [conversation, List.flatMap_cons, run_append, ran]
        exact later
      · rw [answeredLast, answered, List.append_assoc]
        rfl
      · rw [sentLast, sent, List.append_assoc]
        rfl

end Events

theorem initially_awaits : Awaits [] {} :=
  ⟨⟨rfl, rfl, rfl, rfl, rfl, rfl, rfl, rfl⟩, rfl, rfl⟩

theorem answer_all_length {World : Type} {router : Router World} {requests : List HttpRequest}
    {world after : World} {responses : List HttpResponse}
    (answered : answerAll router requests world = some (responses, after)) :
    responses.length = requests.length := by
  induction requests generalizing world responses with
  | nil =>
      cases answered
      rfl
  | cons request requests ih =>
      unfold answerAll at answered
      dsimp only at answered
      split at answered
      · obtain ⟨later, more, same⟩ := Option.map_eq_some_iff.mp answered
        cases same
        rw [List.length_cons, List.length_cons, ih more]
      · cases answered

def written (sendings : List Sending) : List HttpRequest :=
  sendings.map fun sending => sending.text.request

theorem zip_written (sendings : List Sending) (responses : List HttpResponse) :
    (sendings.zip responses).map (fun exchange => (exchange.1.text.request, exchange.2)) =
      (written sendings).zip responses := by
  rw [written, List.zip_map_left]
  rfl

/-- A form is posted in three events, then a page is asked for that no route serves. -/
def formSending : Sending where
  text := postedForm
  early := [[ascii "PO", ascii "ST /f"], [ascii "orm HTTP/1.1"]]
  last := [postedForm.render.drop 19]

def pageSending : Sending where
  text := { postedForm with
    method := ascii "GET", target := ascii "/none"
    fields := [⟨ascii "Host", [], ascii "x", []⟩], body := [] }
  early := []
  last := [ascii "GET /none HTTP/1.1\r\nHost:x\r\n\r\n"]

def formRouter : Router Nat :=
  ({} : Router Nat).post (ascii "/form") [] fun exchange =>
    (.ok (), { exchange with
      response := exchange.response.setBody exchange.request.body
      world := exchange.world + 1 })

theorem sendings_well_formed : ∀ sending ∈ [formSending, pageSending], sending.WellFormed := by
  intro sending member
  simp only [List.mem_cons, List.not_mem_nil, or_false] at member
  rcases member with rfl | rfl
  · exact ⟨posted_form_well_formed, by decide +kernel, by decide +kernel, by decide,
      by decide +kernel, by decide +kernel⟩
  · refine ⟨?_, by decide +kernel, by decide +kernel, by decide, by decide +kernel,
      by decide +kernel⟩
    refine ⟨⟨by decide, by decide, by decide, by decide, by decide⟩, ?_, by decide, by decide,
      by decide, by decide, by decide, Or.inr ⟨by decide, rfl⟩⟩
    intro field among
    rw [List.mem_singleton.mp among]
    constructor <;> decide +kernel

end HttpServer.ConversationEnds
