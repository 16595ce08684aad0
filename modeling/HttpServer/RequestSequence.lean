import HttpServer.SessionResponses
import HttpServer.PipelinedRequests
import HttpServer.ConnectionFragments
import HttpServer.MessageStreams

/-!
# The requests of a connection are those of its bytes

How the bytes of a connection are cut into readable events, what the pool has done in
between and when the worker comes back to the connection is left to chance. As long as
no event ends behind the request line of an unfinished request, none of it shows: the
requests that are completed are the messages of the byte stream, one after the other.
-/

namespace HttpServer.RequestSequence

open TransitionSystem MessageStreams ListSearch ClientConnection ClientHandling ParserResume
  ParserPrefix PipelinedRequests Session SessionResponses

section Messages

theorem request_extends {message : Bytes} {request : HttpRequest}
    (whole : IsRequest message request) (more : Bytes) :
    ∃ parser, HttpParser.parse (message ++ more) {} {} = (.complete, parser, request) ∧
      parser.consumed = message.length := by
  obtain ⟨parser, completed, consumed⟩ := whole
  exact ⟨parser, complete_run_extends ({}, {}) fresh_counters completed more, consumed⟩

theorem requests_prefix_free : PrefixFree IsRequest := by
  intro message request other meaning whole another front
  obtain ⟨more, rfl⟩ := front
  obtain ⟨parser, extended, consumed⟩ := request_extends whole more
  obtain ⟨parser', completed, consumed'⟩ := another
  rw [extended, Prod.mk.injEq, Prod.mk.injEq] at completed
  obtain ⟨_, rfl, rfl⟩ := completed
  refine ⟨?_, rfl⟩
  have length : (message ++ more).length = message.length := consumed'.symm.trans consumed
  rw [List.length_append] at length
  rw [List.eq_nil_of_length_eq_zero (show more.length = 0 by omega), List.append_nil]

theorem front_request {buffer : Bytes} {stopped : Reading}
    (complete : HttpParser.parse buffer {} {} = (.complete, stopped)) :
    IsRequest (buffer.take stopped.1.consumed) stopped.2 ∧
      stopped.1.consumed ≤ buffer.length := by
  obtain ⟨_, inside, cut⟩ :=
    complete_run_take ({}, {}) fresh_counters (Nat.zero_le _) complete
  refine ⟨⟨stopped.1, cut _ (Nat.le_refl _), ?_⟩, inside⟩
  rw [List.length_take, Nat.min_eq_left inside]
  rfl

end Messages

def appended (session : Session) : SessionStep → Bytes
  | .readable event =>
      if session.inTable then
        match afterRead session.connection event with
        | some _ => event.received.flatten
        | none => []
      else []
  | _ => []

/-- The event does not end behind the request line of an unfinished request. -/
def lineUnread (session : Session) : SessionStep → Bool
  | .readable event =>
      match afterRead session.connection event with
      | some opened =>
          decide ((HttpParser.parse opened.readBuffer opened.parser {}).1 ≠ .incomplete) ||
            (findSub crlf opened.readBuffer).isNone
      | none => true
  | _ => true

/-- The connection in isolation, its requests cut nowhere but in their first line. -/
def undisturbed (session : Session) (label : SessionStep) : Prop :=
  inIsolation session label = true ∧ lineUnread session label = true

instance (session : Session) (label : SessionStep) : Decidable (undisturbed session label) :=
  inferInstanceAs (Decidable (_ ∧ _))

structure Decodes (past : Bytes) (session : Session) : Prop where
  ordered : Ordered session
  fresh : session.registered = true → session.connection.parser = {}
  reads : Reads IsRequest past session.completed session.connection.readBuffer

section Steps

variable {session following : Session} {past : Bytes}

theorem run_actions_connection (session : Session) (actions : List Action) :
    (session.runActions actions).connection = session.connection ∧
      (session.runActions actions).completed = session.completed := by
  induction actions generalizing session with
  | nil => exact ⟨rfl, rfl⟩
  | cons action actions ih =>
      cases action with
      | modify interest =>
          unfold runActions
          split
          · exact ih _
          · unfold disconnectClient
            split <;> exact ⟨rfl, rfl⟩
      | send data => exact ih _
      | enqueue task => exact ih _
      | disconnect =>
          unfold runActions disconnectClient
          split <;> exact ⟨rfl, rfl⟩

theorem decodes_quiet (decodes : Decodes past session) (ordered : Ordered following)
    (connection : following.connection = session.connection)
    (completed : following.completed = session.completed)
    (registered : following.registered = true → session.registered = true) :
    Decodes past following := by
  refine ⟨ordered, ?_, ?_⟩
  · intro still
    rw [connection]
    exact decodes.fresh (registered still)
  · rw [connection, completed]
    exact decodes.reads

theorem disconnect_keeps (session : Session) :
    session.disconnectClient.connection = session.connection ∧
      session.disconnectClient.completed = session.completed ∧
      (session.disconnectClient.registered = true → session.registered = true) := by
  unfold disconnectClient
  split
  · rename_i registered
    exact ⟨rfl, rfl, fun _ => registered⟩
  · exact ⟨rfl, rfl, id⟩

theorem request_decodes {crypto : Worker.Crypto} {event : ClientEvent}
    {opened after : ClientConnection} {actions : List Action} (decodes : Decodes past session)
    (isArmed : session.armed.isSome = true) (ordered : Ordered (session.receive crypto event))
    (unread : lineUnread session (.readable event) = true)
    (unwanted : (completedRequest session.connection event).all
      (fun request => !wantsUpgrade request) = true)
    (received : afterRead session.connection event = some opened)
    (reading : event.readEnd = .wantRead ∨ event.readEnd = .wantWrite)
    (plain : opened.isHttp2 = false) (notUpgraded : opened.isWebSocket = false)
    (served : Served crypto event opened after actions)
    (same : session.receive crypto event = (session.delivered event after).runActions actions) :
    Decodes (past ++ event.received.flatten) (session.receive crypto event) := by
  have registered := (armed_idle decodes.ordered isArmed).1
  obtain ⟨_, parser, buffer, _, _⟩ := after_read_keeps received
  have fresh : opened.parser = {} := parser.trans (decodes.fresh registered)
  have verdict := verdict_read received reading plain notUpgraded
  have reads := reads_extended decodes.reads event.received.flatten
  rw [← buffer] at reads
  obtain ⟨connection, completed⟩ :=
    run_actions_connection (session.delivered event after) actions
  rw [← same] at connection completed
  refine ⟨ordered, ?_, ?_⟩
  · intro stays
    rw [connection]
    cases served with
    | waits stopped parsed =>
        rw [fresh] at parsed
        simp only [lineUnread, received, fresh, parsed, ne_eq, not_true_eq_false, decide_false,
          Bool.false_or, Option.isNone_iff_eq_none] at unread
        rcases ConnectionFragments.fresh_parse_cases parsed (by decide) with
          ⟨_, _, same⟩ | ⟨line, _⟩
        · exact same
        · have absent := find_sub_eq_none_iff_not_infix crlf opened.readBuffer (by decide)
          exact absurd line (absent.mp unread)
    | refuses stopped parsed =>
        rw [same] at stays
        simp [runActions, disconnectClient, delivered, registered] at stays
    | upgradeFails stopped greeting parsed wanted =>
        rw [parsed] at verdict
        simp [completedRequest, verdict, wanted] at unwanted
    | upgrades => rfl
    | dispatchFails stopped parsed outside =>
        rw [fresh] at parsed
        exact absurd outside (Nat.not_lt.mpr (front_request parsed).2)
    | dispatches => rfl
  · rw [connection, completed]
    change Reads IsRequest _ (session.completed ++ completedRequest session.connection event)
      after.readBuffer
    cases served with
    | waits stopped parsed =>
        rw [parsed] at verdict
        simpa [completedRequest, verdict] using reads
    | refuses stopped parsed =>
        rw [parsed] at verdict
        simpa [completedRequest, verdict] using reads
    | upgradeFails stopped greeting parsed wanted =>
        rw [parsed] at verdict
        simp [completedRequest, verdict, wanted] at unwanted
    | upgrades stopped greeting parsed wanted _ _ =>
        rw [parsed] at verdict
        simp [completedRequest, verdict, wanted] at unwanted
    | dispatchFails stopped parsed outside =>
        rw [fresh] at parsed
        exact absurd outside (Nat.not_lt.mpr (front_request parsed).2)
    | dispatches stopped parsed _ inside =>
        rw [parsed] at verdict
        rw [fresh] at parsed
        have message := (front_request parsed).1
        rw [← List.take_append_drop stopped.1.consumed opened.readBuffer] at reads
        simpa [completedRequest, verdict] using reads_concat reads message

theorem receive_decodes {crypto : Worker.Crypto} {event : ClientEvent}
    (decodes : Decodes past session) (armed : session.armed = some .readable)
    (listed : session.inTable = true) (condition : undisturbed session (.readable event)) :
    Decodes (past ++ appended session (.readable event)) (session.receive crypto event) := by
  obtain ⟨isolated, unread⟩ := condition
  have isArmed : session.armed.isSome = true := by simp [armed]
  have registered := (armed_idle decodes.ordered isArmed).1
  have ordered : Ordered (session.receive crypto event) :=
    receive_ordered decodes.ordered armed isolated
  simp only [inIsolation, Bool.and_eq_true, decide_eq_true_eq] at isolated
  obtain ⟨stays, unwanted⟩ := isolated
  obtain ⟨after, actions, handled, same⟩ := receive_handled crypto session event
  obtain ⟨connection, completed⟩ :=
    run_actions_connection (session.delivered event after) actions
  rw [← same] at connection completed
  have quiet : afterRead session.connection event = none → after = session.connection →
      Decodes (past ++ appended session (.readable event)) (session.receive crypto event) := by
    intro unread left
    simp only [appended, listed, if_true, unread, List.append_nil]
    apply decodes_quiet decodes ordered
    · rw [connection, ← left]
      rfl
    · rw [completed]
      simp [delivered, completedRequest, verdict_unshaken unread]
    · exact fun _ => registered
  have read : ∀ opened, afterRead session.connection event = some opened →
      appended session (.readable event) = event.received.flatten := by
    intro opened received
    simp only [appended, listed, if_true, received]
  cases handled with
  | handshakeFailed threw => exact quiet (by simp only [afterRead, threw]) rfl
  | handshakePending interest pending => exact quiet (by simp only [afterRead, pending]) rfl
  | closed opened received ended =>
      obtain ⟨_, unparsed, buffer, _, _⟩ := after_read_keeps received
      rw [read _ received]
      refine ⟨ordered, ?_, ?_⟩
      · intro _
        rw [connection]
        exact unparsed.trans (decodes.fresh registered)
      · have reads := reads_extended decodes.reads event.received.flatten
        rw [← buffer] at reads
        rw [connection, completed]
        simpa [delivered, completedRequest, verdict_closed ended] using reads
  | http2 opened received reading negotiated streams _ last ended =>
      obtain ⟨_, _, _, _, plain⟩ := after_read_keeps received
      exact absurd (plain decodes.ordered.plain stays) (by simp [negotiated])
  | request opened received reading plain notUpgraded _ _ served =>
      rw [read opened received]
      exact request_decodes decodes isArmed ordered unread unwanted received reading plain
        notUpgraded served same
  | frames opened received reading plain upgraded control rest last allControl ended =>
      obtain ⟨kept, _, _, _, _⟩ := after_read_keeps received
      rw [decodes.ordered.notUpgraded, upgraded] at kept
      cases kept

theorem answers_keep {index : Nat} {outcome : TaskOutcome}
    (answers : Answers session index outcome following) :
    following.connection = session.connection ∧ following.completed = session.completed ∧
      (following.registered = true → session.registered = true) := by
  cases answers <;> first | exact ⟨rfl, rfl, id⟩ | exact ⟨rfl, rfl, by simp [rawClose]⟩

theorem finish_keeps {index : Nat} (stepped : session.finishTask index = some following) :
    following.connection = session.connection ∧ following.completed = session.completed ∧
      (following.registered = true → session.registered = true) := by
  obtain ⟨task, _, ⟨_, _, _, rfl⟩ | rfl⟩ := finish_task_cases stepped
  · exact ⟨rfl, rfl, id⟩
  · exact ⟨rfl, rfl, by simp [rawClose]⟩

theorem step_decodes (crypto : Worker.Crypto) (past : Bytes) (session : Session)
    (label : SessionStep) (following : Session) (decodes : Decodes past session)
    (condition : undisturbed session label)
    (stepped : session.step crypto label = some following) :
    Decodes (past ++ appended session label) following := by
  have ordered := step_ordered crypto session label following decodes.ordered condition.1 stepped
  cases step_stepped stepped with
  | received event armed listed => exact receive_decodes decodes armed listed condition
  | unknown event armed dropped =>
      have nothing : appended session (.readable event) = [] := by simp [appended, dropped]
      rw [nothing, List.append_nil]
      exact decodes_quiet decodes ordered rfl rfl id
  | writable =>
      simp only [appended, List.append_nil]
      exact decodes_quiet decodes ordered rfl rfl id
  | hungUp =>
      simp only [appended, List.append_nil]
      obtain ⟨connection, completed, registered⟩ :=
        disconnect_keeps { session with armed := none }
      exact decodes_quiet decodes ordered connection completed registered
  | swept =>
      simp only [appended, List.append_nil]
      obtain ⟨connection, completed, registered⟩ := disconnect_keeps session
      exact decodes_quiet decodes ordered connection completed registered
  | answered index outcome _ answers =>
      simp only [appended, List.append_nil]
      obtain ⟨connection, completed, registered⟩ := answers_keep answers
      exact decodes_quiet decodes ordered connection completed registered
  | finished index _ finishes =>
      simp only [appended, List.append_nil]
      obtain ⟨connection, completed, registered⟩ := finish_keeps finishes
      exact decodes_quiet decodes ordered connection completed registered
  | stopped => cases condition.1
  | exited =>
      simp only [appended, List.append_nil]
      exact decodes_quiet decodes ordered rfl rfl (by simp)

end Steps

def received (crypto : Worker.Crypto) (labels : List SessionStep) : Bytes :=
  history (step crypto) appended {} labels

section Runs

variable {crypto : Worker.Crypto} {labels : List SessionStep} {last : Session}

theorem run_decodes (respects : Respects (step crypto) undisturbed {} labels)
    (reached : run (step crypto) {} labels = some last) :
    Decodes (received crypto labels) last := by
  have start : Decodes [] {} := ⟨initially_ordered, fun _ => rfl, .done []⟩
  exact run_history Decodes (step_decodes crypto) start respects reached

theorem answered_are_completed (ordered : Ordered last) :
    last.answered.map Prod.fst <+: last.completed :=
  (responses_of_ordered ordered).first

end Runs

theorem prefixes_comparable {Value : Type*} {first second whole other : List Value}
    (left : first <+: whole) (right : second <+: other)
    (comparable : whole <+: other ∨ other <+: whole) :
    first <+: second ∨ second <+: first := by
  rcases comparable with shorter | longer
  · exact List.prefix_or_prefix_of_prefix (left.trans shorter) right
  · exact List.prefix_or_prefix_of_prefix left (right.trans longer)

/-- In every run the completed requests are the messages of the bytes received, whatever
cut these into events. So of two runs in which the same bytes arrive, in whatever pieces
and with whatever steps of the pool in between, one has completed and answered the same
requests as the other or the first of them. -/
theorem requests_follow_bytes (crypto crypto' : Worker.Crypto) (labels labels' : List SessionStep)
    (last last' : Session) (respects : Respects (step crypto) undisturbed {} labels)
    (reached : run (step crypto) {} labels = some last)
    (respects' : Respects (step crypto') undisturbed {} labels')
    (reached' : run (step crypto') {} labels' = some last')
    (agree : received crypto labels <+: received crypto' labels') :
    Reads IsRequest (received crypto labels) last.completed last.connection.readBuffer ∧
      (last.completed <+: last'.completed ∨ last'.completed <+: last.completed) ∧
      (last.answered.map Prod.fst <+: last'.answered.map Prod.fst ∨
        last'.answered.map Prod.fst <+: last.answered.map Prod.fst) := by
  have one := run_decodes respects reached
  have other := run_decodes respects' reached'
  have completed := reads_comparable requests_prefix_free one.reads other.reads agree
  refine ⟨one.reads, completed, ?_⟩
  exact prefixes_comparable (answered_are_completed one.ordered)
    (answered_are_completed other.ordered) completed

/-- The two requests in one event, and the first of them cut inside its first line. -/
def inOneEvent : List SessionStep :=
  [.readable { received := [requestWithoutBody.1 ++ requestWithBody.1] }]

def inPieces : List SessionStep :=
  [.readable { received := [ascii "GE", ascii "T /a HT"] },
    .readable { received := [requestWithoutBody.1.drop 9] }, .answer 0 (.returned {}), .finish 0,
    .readable { received := [requestWithBody.1.take 5] },
    .readable { received := [requestWithBody.1.drop 5] }]

theorem requests_follow_bytes_pieces :
    ∃ last last', run (step { generateAcceptKey := id }) {} inOneEvent = some last ∧
      run (step { generateAcceptKey := id }) {} inPieces = some last' ∧
      last.completed = [requestWithoutBody.2] ∧
      last'.completed = [requestWithoutBody.2, requestWithBody.2] ∧
      (last.completed <+: last'.completed ∨ last'.completed <+: last.completed) := by
  have one : (run (step { generateAcceptKey := id }) {} inOneEvent).any
      (fun last => decide (last.completed = [requestWithoutBody.2])) = true := by
    decide +kernel
  have other : (run (step { generateAcceptKey := id }) {} inPieces).any
      (fun last => decide (last.completed = [requestWithoutBody.2, requestWithBody.2])) =
        true := by
    decide +kernel
  have respects : Respects (step { generateAcceptKey := id }) undisturbed {} inOneEvent := by
    decide +kernel
  have respects' : Respects (step { generateAcceptKey := id }) undisturbed {} inPieces := by
    decide +kernel
  have agree : received { generateAcceptKey := id } inOneEvent <+:
      received { generateAcceptKey := id } inPieces := by
    decide +kernel
  obtain ⟨last, reached, completed⟩ := run_ends one
  obtain ⟨last', reached', completed'⟩ := run_ends other
  exact ⟨last, last', reached, reached', completed, completed',
    (requests_follow_bytes _ _ _ _ last last' respects reached respects' reached' agree).2.1⟩

end HttpServer.RequestSequence
