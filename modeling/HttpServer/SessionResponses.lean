import HttpServer.ConnectionSession
import HttpServer.ParserPrefix

/-!
# Responses in request order

On a connection that stays with HTTP/1.1, requests are completed by the event
thread and answered by the pool, and one-shot arming lets them alternate. A run
is therefore always in one of three phases: no task, a queued task for the last
completed request, or a task that has sent its response and not yet finished.
-/

namespace HttpServer.SessionResponses

open TransitionSystem ClientConnection ClientHandling ParserResume ParserPrefix Session

/-- The connection is not HTTP/2 and never upgrades, handlers do not throw, and
the server keeps running. A `send` may throw. -/
def inIsolation (session : Session) : SessionStep → Bool
  | .readable event =>
      decide (event.handshake ≠ .accepted (ascii "h2")) &&
        (completedRequest session.connection event).all fun request => !wantsUpgrade request
  | .answer _ .threw => false
  | .stop => false
  | _ => true

def allKeptAlive (requests : List HttpRequest) : Prop :=
  ∀ request ∈ requests, keepsAlive request = true

inductive Phase (session : Session) : Prop
  | idle (free : session.tasks = [])
      (answers : session.answered.map Prod.fst = session.completed)
      (earlier : allKeptAlive session.completed.dropLast)
      (refusal : session.refused = true → allKeptAlive session.completed)
      (waiting : session.armed.isSome = true → session.registered = true ∧
        session.refused = false ∧ allKeptAlive session.completed)
  | queued (request : HttpRequest)
      (only : session.tasks = [⟨.http request (keepsAlive request), .queued⟩])
      (answers : session.completed = session.answered.map Prod.fst ++ [request])
      (earlier : allKeptAlive (session.answered.map Prod.fst))
      (accepted : session.refused = false) (unarmed : session.armed = none)
  | responded (request : HttpRequest) (before : List HttpRequest)
      (only : session.tasks = [⟨.http request (keepsAlive request), .answered⟩])
      (answers : session.answered.map Prod.fst = session.completed)
      (last : session.completed = before ++ [request]) (earlier : allKeptAlive before)
      (accepted : session.refused = false) (unarmed : session.armed = none)

/-- The strings sent so far are the responses so far, with one `400` at the end
when a request was refused. -/
def sentInOrder (session : Session) : Prop :=
  session.sent =
    (session.answered.map fun pair => responseText (keepsAlive pair.1) pair.2) ++
      if session.refused then [badRequestText] else []

structure Ordered (session : Session) : Prop where
  plain : session.connection.isHttp2 = false
  notUpgraded : session.connection.isWebSocket = false
  running : session.running = true
  parser : session.registered = true → CountersOk session.connection.parser ∧
    session.connection.parser.consumed ≤ session.connection.readBuffer.length
  sent : sentInOrder session
  phase : Phase session

theorem verdict_closed {connection : ClientConnection} {event : ClientEvent}
    (ended : event.readEnd ≠ .wantRead ∧ event.readEnd ≠ .wantWrite) :
    parserVerdict connection event = none := by
  unfold parserVerdict
  split
  · rw [if_neg]
    rintro ⟨reading, _⟩
    exact reading.elim ended.1 ended.2
  · rfl

theorem verdict_unshaken {connection : ClientConnection} {event : ClientEvent}
    (unshaken : afterRead connection event = none) : parserVerdict connection event = none := by
  simp only [parserVerdict, unshaken]

/-- What an armed session knows: every request so far was answered and kept alive. -/
theorem armed_idle {session : Session} (ordered : Ordered session)
    (armed : session.armed.isSome = true) :
    session.registered = true ∧ session.refused = false ∧ session.tasks = [] ∧
      session.answered.map Prod.fst = session.completed ∧ allKeptAlive session.completed := by
  cases ordered.phase with
  | idle free answers _ _ waiting =>
      obtain ⟨registered, accepted, kept⟩ := waiting armed
      exact ⟨registered, accepted, free, answers, kept⟩
  | queued _ _ _ _ _ unarmed =>
      rw [unarmed] at armed
      cases armed
  | responded _ _ _ _ _ _ _ unarmed =>
      rw [unarmed] at armed
      cases armed

theorem all_kept_drop_last {requests : List HttpRequest} (kept : allKeptAlive requests) :
    allKeptAlive requests.dropLast :=
  fun request member => kept request (List.mem_of_mem_dropLast member)

theorem idle_phase {session : Session} (free : session.tasks = [])
    (answers : session.answered.map Prod.fst = session.completed)
    (kept : allKeptAlive session.completed) (accepted : session.refused = false)
    (registered : session.armed.isSome = true → session.registered = true) : Phase session :=
  .idle free answers (all_kept_drop_last kept) (fun _ => kept)
    (fun armed => ⟨registered armed, accepted, kept⟩)

theorem parser_after_read {session : Session} {event : ClientEvent} {opened : ClientConnection}
    (ordered : Ordered session) (armed : session.armed.isSome = true)
    (received : afterRead session.connection event = some opened) :
    CountersOk opened.parser ∧ opened.parser.consumed ≤ opened.readBuffer.length := by
  obtain ⟨registered, _⟩ := armed_idle ordered armed
  obtain ⟨counters, inside⟩ := ordered.parser registered
  obtain ⟨_, parser, buffer, _, _⟩ := after_read_keeps received
  rw [parser, buffer, List.length_append]
  exact ⟨counters, Nat.le_add_right_of_le inside⟩

theorem ordered_quiet {session following : Session} (ordered : Ordered session)
    (armed : session.armed.isSome = true) (plain : following.connection.isHttp2 = false)
    (notUpgraded : following.connection.isWebSocket = false)
    (parser : following.registered = true → CountersOk following.connection.parser ∧
      following.connection.parser.consumed ≤ following.connection.readBuffer.length)
    (logs : following.completed = session.completed ∧ following.refused = false)
    (kept : following.tasks = session.tasks ∧ following.answered = session.answered ∧
      following.sent = session.sent ∧ following.running = session.running)
    (registered : following.armed.isSome = true → following.registered = true) :
    Ordered following := by
  obtain ⟨_, accepted, free, answers, allKept⟩ := armed_idle ordered armed
  obtain ⟨completed, notRefused⟩ := logs
  obtain ⟨tasks, answered, sent, running⟩ := kept
  have before := ordered.sent
  refine ⟨plain, notUpgraded, running.trans ordered.running, parser, ?_, ?_⟩
  · unfold sentInOrder at before ⊢
    rw [sent, answered, notRefused, before, accepted]
  · apply idle_phase
    · exact tasks.trans free
    · rw [answered, completed]
      exact answers
    · rw [completed]
      exact allKept
    · exact notRefused
    · exact registered

theorem request_ordered {crypto : Worker.Crypto} {session : Session} {event : ClientEvent}
    {opened after : ClientConnection} {actions : List Action} (ordered : Ordered session)
    (isArmed : session.armed.isSome = true)
    (unwanted : (completedRequest session.connection event).all
      (fun request => !wantsUpgrade request) = true)
    (received : afterRead session.connection event = some opened)
    (reading : event.readEnd = .wantRead ∨ event.readEnd = .wantWrite)
    (plain : opened.isHttp2 = false) (notUpgraded : opened.isWebSocket = false)
    (served : Served crypto event opened after actions) :
    Ordered ((session.delivered event after).runActions actions) := by
  obtain ⟨registeredBefore, accepted, free, answers, kept⟩ := armed_idle ordered isArmed
  have registered : ∀ after, (session.delivered event after).registered = true :=
    fun _ => registeredBefore
  have verdict := verdict_read received reading plain notUpgraded
  obtain ⟨counters, inside⟩ := parser_after_read ordered isArmed received
  have before := ordered.sent
  cases served with
  | waits stopped parsed =>
      rw [parsed] at verdict
      have logs :
          session.completed ++ completedRequest session.connection event =
              session.completed ∧
            (session.refused || requestRefused session.connection event) = false := by
        simp [completedRequest, requestRefused, verdict, accepted]
      have waits := waiting_run_inside (opened.parser, {}) counters parsed
      simp only [runActions, registered, if_true]
      exact ordered_quiet ordered isArmed plain notUpgraded
        (fun _ => ⟨parse_counters counters parsed, waits⟩) logs ⟨rfl, rfl, rfl, rfl⟩
        (fun _ => rfl)
  | refuses stopped parsed =>
      rw [parsed] at verdict
      simp only [runActions, disconnectClient, registered, if_true]
      refine ⟨plain, notUpgraded, ordered.running, by simp, ?_, ?_⟩
      · simpa [sentInOrder, delivered, requestRefused, verdict, accepted] using before
      · apply Phase.idle
        · exact free
        · simpa [delivered, completedRequest, verdict] using answers
        · simpa [delivered, completedRequest, verdict] using all_kept_drop_last kept
        · simpa [delivered, completedRequest, verdict] using fun _ => kept
        · simp
  | upgradeFails stopped greeting parsed wanted =>
      rw [parsed] at verdict
      simp [completedRequest, verdict, wanted] at unwanted
  | upgrades stopped greeting parsed wanted _ _ =>
      rw [parsed] at verdict
      simp [completedRequest, verdict, wanted] at unwanted
  | dispatchFails stopped parsed outside =>
      have fits := (complete_run_take (opened.parser, {}) counters inside parsed).2.1
      exact absurd outside (Nat.not_lt.mpr fits)
  | dispatches stopped parsed _ _ =>
      rw [parsed] at verdict
      simp only [runActions]
      refine ⟨plain, notUpgraded, ordered.running,
        fun _ => ⟨fresh_counters, Nat.zero_le _⟩, ?_, ?_⟩
      · simpa [sentInOrder, delivered, requestRefused, verdict, accepted] using before
      · apply Phase.queued stopped.2
        · simp [delivered, free]
        · simp [delivered, completedRequest, verdict, answers]
        · simpa [delivered, answers] using kept
        · simp [delivered, requestRefused, verdict, accepted]
        · rfl

theorem receive_ordered {crypto : Worker.Crypto} {session : Session} {event : ClientEvent}
    (ordered : Ordered session) (armed : session.armed = some .readable)
    (isolated : inIsolation session (.readable event) = true) :
    Ordered (session.receive crypto event) := by
  have isArmed : session.armed.isSome = true := by simp [armed]
  obtain ⟨registeredBefore, accepted, _, _, _⟩ := armed_idle ordered isArmed
  have registered : ∀ after, (session.delivered event after).registered = true :=
    fun _ => registeredBefore
  simp only [inIsolation, Bool.and_eq_true, decide_eq_true_eq] at isolated
  obtain ⟨stays, unwanted⟩ := isolated
  have quiet : parserVerdict session.connection event = none →
      session.completed ++ completedRequest session.connection event = session.completed ∧
        (session.refused || requestRefused session.connection event) = false := by
    intro verdict
    simp [completedRequest, requestRefused, verdict, accepted]
  obtain ⟨after, actions, handled, outcome⟩ := receive_handled crypto session event
  rw [outcome]
  cases handled with
  | handshakeFailed threw =>
      have logs := quiet (verdict_unshaken (by simp only [afterRead, threw]))
      simp only [runActions, disconnectClient, registered, if_true]
      exact ordered_quiet ordered isArmed ordered.plain ordered.notUpgraded (by simp) logs
        ⟨rfl, rfl, rfl, rfl⟩ (by simp)
  | handshakePending interest pending =>
      have logs := quiet (verdict_unshaken (by simp only [afterRead, pending]))
      simp only [runActions, registered, if_true]
      exact ordered_quiet ordered isArmed ordered.plain ordered.notUpgraded
        (fun _ => ordered.parser registeredBefore) logs ⟨rfl, rfl, rfl, rfl⟩ (fun _ => rfl)
  | closed opened received ended =>
      obtain ⟨upgraded, _, _, _, plain⟩ := after_read_keeps received
      have logs := quiet (verdict_closed ended)
      simp only [runActions, disconnectClient, registered, if_true]
      exact ordered_quiet ordered isArmed (plain ordered.plain stays)
        (upgraded.trans ordered.notUpgraded) (by simp) logs ⟨rfl, rfl, rfl, rfl⟩ (by simp)
  | http2 opened received reading negotiated streams _ last ended =>
      obtain ⟨_, _, _, _, plain⟩ := after_read_keeps received
      exact absurd (plain ordered.plain stays) (by simp [negotiated])
  | request opened received reading plain notUpgraded _ _ served =>
      exact request_ordered ordered isArmed unwanted received reading plain notUpgraded served
  | frames opened received reading plain upgraded control rest last allControl ended =>
      obtain ⟨same, _, _, _, _⟩ := after_read_keeps received
      rw [ordered.notUpgraded, upgraded] at same
      cases same

theorem phase_disarmed {session : Session} (phase : Phase session) (registered inTable : Bool) :
    Phase { session with registered := registered, armed := none, inTable := inTable } := by
  cases phase with
  | idle free answers earlier refusal _ => exact .idle free answers earlier refusal (by simp)
  | queued request only answers earlier accepted _ =>
      exact .queued request only answers earlier accepted rfl
  | responded request before only answers last earlier accepted _ =>
      exact .responded request before only answers last earlier accepted rfl

theorem ordered_disarmed {session : Session} (ordered : Ordered session) :
    Ordered { session with armed := none } :=
  ⟨ordered.plain, ordered.notUpgraded, ordered.running, ordered.parser, ordered.sent,
    phase_disarmed ordered.phase session.registered session.inTable⟩

theorem ordered_disconnect {session : Session} (ordered : Ordered session) :
    Ordered session.disconnectClient := by
  unfold disconnectClient
  split
  · exact ⟨ordered.plain, ordered.notUpgraded, ordered.running, by simp, ordered.sent,
      phase_disarmed ordered.phase false false⟩
  · refine ⟨ordered.plain, ordered.notUpgraded, ordered.running, ordered.parser, ordered.sent, ?_⟩
    cases ordered.phase with
    | idle free answers earlier refusal waiting =>
        exact .idle free answers earlier refusal waiting
    | queued request only answers earlier accepted unarmed =>
        exact .queued request only answers earlier accepted unarmed
    | responded request before only answers last earlier accepted unarmed =>
        exact .responded request before only answers last earlier accepted unarmed

theorem queued_request {session : Session} {index : Nat} {task : Task} (ordered : Ordered session)
    (found : session.tasks[index]? = some { task := task }) :
    ∃ request, index = 0 ∧ task = .http request (keepsAlive request) ∧
      session.tasks = [⟨.http request (keepsAlive request), .queued⟩] ∧
      session.completed = session.answered.map Prod.fst ++ [request] ∧
      allKeptAlive (session.answered.map Prod.fst) ∧ session.refused = false ∧
      session.armed = none := by
  cases ordered.phase with
  | idle free _ _ _ _ => simp [free] at found
  | queued request only answers earlier accepted unarmed =>
      obtain ⟨first, same⟩ := single_task (by simp [only]) found
      rw [only] at same
      cases same
      exact ⟨request, first, rfl, only, answers, earlier, accepted, unarmed⟩
  | responded request before only _ _ _ _ _ =>
      obtain ⟨_, same⟩ := single_task (by simp [only]) found
      rw [only] at same
      cases same

theorem sent_one_more {session : Session} (request : HttpRequest) (response : HttpResponse)
    (sent : sentInOrder session) (accepted : session.refused = false) :
    session.sent ++ [responseText (keepsAlive request) response] =
      (session.answered ++ [(request, response)]).map
        fun pair => responseText (keepsAlive pair.1) pair.2 := by
  simpa [sentInOrder, accepted] using sent

theorem answer_ordered {session following : Session} {index : Nat} {outcome : TaskOutcome}
    (ordered : Ordered session) (returns : outcome ≠ .threw)
    (answers : Answers session index outcome following) : Ordered following := by
  cases answers with
  | request request keepAlive response queued =>
      obtain ⟨_, rfl, same, only, completed, earlier, accepted, unarmed⟩ :=
        queued_request ordered queued
      cases same
      have longer := sent_one_more request response ordered.sent accepted
      refine ⟨ordered.plain, ordered.notUpgraded, ordered.running, ordered.parser, ?_, ?_⟩
      · simpa [sentInOrder, accepted] using longer
      · apply Phase.responded request (session.answered.map Prod.fst)
        · simp [only]
        · simp [completed]
        · exact completed
        · exact earlier
        · exact accepted
        · exact unarmed
  | requestUnsent request keepAlive response queued =>
      obtain ⟨_, rfl, same, only, completed, earlier, accepted, unarmed⟩ :=
        queued_request ordered queued
      cases same
      have longer := sent_one_more request response ordered.sent accepted
      refine ⟨ordered.plain, ordered.notUpgraded, ordered.running, by simp [rawClose], ?_, ?_⟩
      · simpa [sentInOrder, rawClose, accepted] using longer
      · apply Phase.idle
        · simp [rawClose, only]
        · simp [rawClose, completed]
        · simpa [rawClose, completed] using earlier
        · simp [rawClose, accepted]
        · simp [rawClose]
  | requestThrew _ _ _ => exact absurd rfl returns
  | frame frame response queued =>
      obtain ⟨_, _, same, _⟩ := queued_request ordered queued
      cases same
  | frameThrew frame outcome queued =>
      obtain ⟨_, _, same, _⟩ := queued_request ordered queued
      cases same
  | stream stream request outcome queued =>
      obtain ⟨_, _, same, _⟩ := queued_request ordered queued
      cases same

theorem finish_ordered {session following : Session} {index : Nat} (ordered : Ordered session)
    (stepped : session.finishTask index = some following) : Ordered following := by
  obtain ⟨task, found, outcome⟩ := finish_task_cases stepped
  cases ordered.phase with
  | idle free _ _ _ _ => simp [free] at found
  | queued request only _ _ _ _ =>
      obtain ⟨_, same⟩ := single_task (by simp [only]) found
      rw [only] at same
      cases same
  | responded request before only answers last earlier accepted unarmed =>
      obtain ⟨rfl, same⟩ := single_task (by simp [only]) found
      rw [only] at same
      cases same
      rcases outcome with ⟨rearms, _, registered, rfl⟩ | rfl
      · have kept : allKeptAlive session.completed := by
          intro member among
          rw [last] at among
          rcases List.mem_append.mp among with one | one
          · exact earlier member one
          · rw [List.mem_singleton] at one
            rw [one]
            exact rearms
        refine ⟨ordered.plain, ordered.notUpgraded, ordered.running, ordered.parser, ordered.sent,
          ?_⟩
        exact idle_phase (by simp [only]) answers kept accepted (fun _ => registered)
      · refine ⟨ordered.plain, ordered.notUpgraded, ordered.running, by simp [rawClose],
          ordered.sent, ?_⟩
        apply Phase.idle
        · simp [rawClose, only]
        · exact answers
        · simpa [rawClose, last] using earlier
        · simp [rawClose, accepted]
        · simp [rawClose]

theorem step_ordered (crypto : Worker.Crypto) (session : Session) (label : SessionStep)
    (following : Session) (ordered : Ordered session)
    (isolated : inIsolation session label = true)
    (stepped : session.step crypto label = some following) : Ordered following := by
  cases step_stepped stepped with
  | received event armed _ => exact receive_ordered ordered armed isolated
  | unknown => exact ordered_disarmed ordered
  | writable => exact ordered_disarmed ordered
  | hungUp => exact ordered_disconnect (ordered_disarmed ordered)
  | swept => exact ordered_disconnect ordered
  | answered index outcome _ answers =>
      have returns : outcome ≠ .threw := by
        rintro rfl
        cases isolated
      exact answer_ordered ordered returns answers
  | finished index _ finishes => exact finish_ordered ordered finishes
  | stopped => cases isolated
  | exited halted =>
      rw [ordered.running] at halted
      cases halted

/-- Order and completeness of the responses of one connection. -/
structure ResponsesInOrder (session : Session) : Prop where
  excluded : session.armed.isSome = true → session.tasks = []
  single : session.tasks.length ≤ 1
  /-- The router has answered the first requests that the parser completed, in their order. -/
  first : session.answered.map Prod.fst <+: session.completed
  /-- A request that is not answered yet has its task. -/
  none_skipped : session.completed.length ≤ session.answered.length + session.tasks.length
  sent : sentInOrder session
  /-- Nothing is completed behind a request that is not kept alive. -/
  closing : allKeptAlive session.completed.dropLast
  /-- The `400` comes when everything completed has been answered and kept alive. -/
  refusal : session.refused = true →
    session.answered.map Prod.fst = session.completed ∧ allKeptAlive session.completed

theorem responses_of_ordered {session : Session} (ordered : Ordered session) :
    ResponsesInOrder session := by
  cases ordered.phase with
  | idle free answers earlier refusal _ =>
      have same := congrArg List.length answers
      rw [List.length_map] at same
      constructor
      · exact fun _ => free
      · simp [free]
      · rw [answers]
      · omega
      · exact ordered.sent
      · exact earlier
      · exact fun refused => ⟨answers, refusal refused⟩
  | queued request only completed earlier accepted unarmed =>
      constructor
      · simp [unarmed]
      · simp [only]
      · rw [completed]
        exact List.prefix_append _ _
      · simp [completed, only]
      · exact ordered.sent
      · simpa [completed] using earlier
      · simp [accepted]
  | responded request before only answers last earlier accepted unarmed =>
      have same := congrArg List.length answers
      rw [List.length_map] at same
      constructor
      · simp [unarmed]
      · simp [only]
      · rw [answers]
      · omega
      · exact ordered.sent
      · simpa [last] using earlier
      · simp [accepted]

theorem initially_ordered : Ordered {} := by
  refine ⟨rfl, rfl, rfl, fun _ => ⟨fresh_counters, Nat.le_refl _⟩, rfl, ?_⟩
  exact idle_phase rfl rfl (by simp [allKeptAlive]) rfl (fun _ => rfl)

/-- Every run of an isolated HTTP/1.1 connection answers its requests in order,
once each, up to the first that is not kept alive. -/
theorem responses_in_order (crypto : Worker.Crypto) (labels : List SessionStep) (last : Session)
    (isolated : Respects (step crypto) (fun session label => inIsolation session label = true) {}
      labels)
    (reached : run (step crypto) {} labels = some last) : ResponsesInOrder last := by
  exact responses_of_ordered
    (run_invariant Ordered (step_ordered crypto) initially_ordered isolated reached)

/-- Two requests, the second with `Connection: close`. -/
def twoRequestRun : List SessionStep :=
  [.readable { received := [ascii "GET /a HTTP/1.1\r\nHost: x\r\n\r\n"] },
    .answer 0 (.returned {}), .finish 0,
    .readable { received := [ascii "GET /b HTTP/1.1\r\nConnection: close\r\n\r\n"] },
    .answer 0 (.returned {}), .finish 0]

theorem responses_in_order_two_requests :
    ∃ last, run (step { generateAcceptKey := id }) {} twoRequestRun = some last ∧
      ResponsesInOrder last := by
  obtain ⟨last, reached⟩ := Option.isSome_iff_exists.mp
    (show (run (step { generateAcceptKey := id }) {} twoRequestRun).isSome = true by
      decide +kernel)
  exact ⟨last, reached, responses_in_order { generateAcceptKey := id } twoRequestRun last
    (by decide +kernel) reached⟩

end HttpServer.SessionResponses
