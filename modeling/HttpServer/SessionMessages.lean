import HttpServer.ConnectionSession
import HttpServer.ParserResume

/-!
# Messages left in the buffer

The handler returns at the first request it dispatches, at an upgrade and at
the first data frame, and re-arming an edge-triggered descriptor reports new
socket bytes only. What lies complete behind that point waits for bytes that
may never come. `takesAll` is the condition on one readable event under which
nothing is left; it is read off the buffer by the parsers alone.
-/

namespace HttpServer.SessionMessages

open TransitionSystem ClientConnection ClientHandling ParserResume Session

/-- The unconsumed bytes begin with a complete request or, after an upgrade,
with a complete frame. -/
def holdsMessage (connection : ClientConnection) : Bool :=
  if connection.isWebSocket then (frontFrame connection.readBuffer).isSome
  else decide ((HttpParser.parse connection.readBuffer connection.parser {}).1 = .complete)

def moreBehindData (frames : List WebSocketFrame) : Bool :=
  match frames.dropWhile isControl with
  | frame :: more => isData frame && !more.isEmpty
  | [] => false

/-- Behind the request that the parser completes there is no further message,
unless the connection is not kept alive and is closed after the response. -/
def lastRequest (event : ClientEvent) (opened : ClientConnection) : Bool :=
  match HttpParser.parse opened.readBuffer opened.parser {} with
  | (.complete, stopped) =>
      let rest := opened.readBuffer.drop stopped.1.consumed
      if wantsUpgrade stopped.2 then event.sendThrows || (frontFrame rest).isNone
      else !keepsAlive stopped.2 || decide ((HttpParser.parse rest {} {}).1 ≠ .complete)
  | _ => true

/-- What nghttp2 leaves of the buffer does not begin with a request. -/
def lastStream (event : ClientEvent) (opened : ClientConnection) : Bool :=
  (opened.readBuffer.isEmpty && !holdsMessage opened) ||
    (!opened.readBuffer.isEmpty && event.http2.taken.all fun taken =>
      !holdsMessage { opened with readBuffer := opened.readBuffer.drop taken })

def takesAll (session : Session) : SessionStep → Bool
  | .readable event =>
      match afterRead session.connection event with
      | none => true
      | some opened =>
          match event.readEnd with
          | .zeroReturn | .syscall => !holdsMessage opened
          | .failed => true
          | .wantRead | .wantWrite =>
              if opened.isHttp2 then lastStream event opened
              else if opened.isWebSocket then !moreBehindData (completeFrames opened.readBuffer)
              else lastRequest event opened
  | _ => true

structure Settled (session : Session) : Prop where
  counters : CountersOk session.connection.parser
  registered : session.armed.isSome = true → session.registered = true
  plain : session.connection.isWebSocket = false → session.connection.isHttp2 = false →
    (session.armed.isSome = true → session.tasks = []) ∧ session.tasks.length ≤ 1
  kept : session.registered = true → holdsMessage session.connection = true →
    (∃ request phase, session.tasks = [⟨.http request false, phase⟩]) ∧ session.armed = none
  dropped : ∀ connection, session.closedByPeer = some connection →
    holdsMessage connection = false

theorem settled_gone {session : Session} (counters : CountersOk session.connection.parser)
    (unregistered : session.registered = false) (unarmed : session.armed = none)
    (single : session.connection.isWebSocket = false → session.connection.isHttp2 = false →
      session.tasks.length ≤ 1)
    (dropped : ∀ connection, session.closedByPeer = some connection →
      holdsMessage connection = false) : Settled session where
  counters := counters
  registered := by simp [unarmed]
  plain := fun notUpgraded plain => ⟨by simp [unarmed], single notUpgraded plain⟩
  kept := by simp [unregistered]
  dropped := dropped

theorem settled_empty {session : Session} (counters : CountersOk session.connection.parser)
    (registered : session.registered = true)
    (idle : session.connection.isWebSocket = false → session.connection.isHttp2 = false →
      session.tasks = [])
    (empty : holdsMessage session.connection = false)
    (dropped : ∀ connection, session.closedByPeer = some connection →
      holdsMessage connection = false) : Settled session where
  counters := counters
  registered := fun _ => registered
  plain := fun notUpgraded plain =>
    ⟨fun _ => idle notUpgraded plain, by simp [idle notUpgraded plain]⟩
  kept := by simp [empty]
  dropped := dropped

theorem complete_frames_eq_nil_iff (buffer : Bytes) :
    completeFrames buffer = [] ↔ frontFrame buffer = none := by
  constructor
  · intro noFrames
    cases front : frontFrame buffer with
    | none => rfl
    | some found =>
        obtain ⟨frame, rest⟩ := found
        rw [complete_frames_cons front] at noFrames
        cases noFrames
  · exact complete_frames_nil

theorem more_behind_data_eq {control more : List WebSocketFrame} {frame : WebSocketFrame}
    (allControl : ∀ member ∈ control, isControl member = true) (data : isData frame = true) :
    moreBehindData (control ++ frame :: more) = !more.isEmpty := by
  have notControl : isControl frame = false := by simp [isControl, data]
  unfold moreBehindData
  rw [List.dropWhile_append_of_pos allControl, List.dropWhile_cons_of_neg (by simp [notControl])]
  simp [data]

theorem delivered_dropped {session : Session} {event : ClientEvent} (settled : Settled session)
    (takes : takesAll session (.readable event) = true) :
    ∀ connection,
      (peerClosed session.connection event).or session.closedByPeer = some connection →
        holdsMessage connection = false := by
  intro connection closed
  unfold peerClosed at closed
  split at closed
  · rename_i ended
    cases received : afterRead session.connection event with
    | none =>
        rw [received] at closed
        exact settled.dropped connection closed
    | some opened =>
        rw [received] at closed
        cases closed
        simp only [takesAll, received] at takes
        rcases ended with ended | ended
        all_goals
          rw [ended] at takes
          simpa using takes
  · exact settled.dropped connection closed

theorem takes_all_read {session : Session} {event : ClientEvent} {opened : ClientConnection}
    (received : afterRead session.connection event = some opened)
    (reading : event.readEnd = .wantRead ∨ event.readEnd = .wantWrite)
    (takes : takesAll session (.readable event) = true) :
    (if opened.isHttp2 then lastStream event opened
      else if opened.isWebSocket then !moreBehindData (completeFrames opened.readBuffer)
      else lastRequest event opened) = true := by
  simp only [takesAll, received] at takes
  rcases reading with ended | ended
  all_goals
    rw [ended] at takes
    exact takes

theorem idle_of_read {session : Session} {event : ClientEvent} {opened : ClientConnection}
    (settled : Settled session) (isArmed : session.armed.isSome = true)
    (received : afterRead session.connection event = some opened)
    (notUpgraded : opened.isWebSocket = false) (plain : opened.isHttp2 = false) :
    session.tasks = [] := by
  obtain ⟨kept, _, _, upward, _⟩ := after_read_keeps received
  have plainBefore : session.connection.isHttp2 = false := by
    by_contra negotiated
    have still := upward (by simpa using negotiated)
    rw [plain] at still
    cases still
  exact (settled.plain (kept.symm.trans notUpgraded) plainBefore).1 isArmed

theorem last_stream_empty {event : ClientEvent} {opened : ClientConnection}
    (left : lastStream event opened = true) (noBytes : opened.readBuffer = []) :
    holdsMessage opened = false := by
  simpa [lastStream, noBytes] using left

theorem last_stream_taken {event : ClientEvent} {opened : ClientConnection} {taken : Nat}
    (left : lastStream event opened = true) (reported : event.http2.taken = some taken) :
    holdsMessage { opened with readBuffer := opened.readBuffer.drop taken } = false := by
  by_cases noBytes : opened.readBuffer = []
  · have same : ({ opened with readBuffer := opened.readBuffer.drop taken } :
        ClientConnection) = opened := by
      rw [noBytes, List.drop_nil, ← noBytes]
    rw [same]
    exact last_stream_empty left noBytes
  · simpa [lastStream, noBytes, reported] using left

section ReadEvents

variable {crypto : Worker.Crypto} {session : Session} {event : ClientEvent}
  {opened after : ClientConnection}

theorem opened_counters (settled : Settled session)
    (received : afterRead session.connection event = some opened) : CountersOk opened.parser := by
  obtain ⟨_, parser, _, _, _⟩ := after_read_keeps received
  rw [parser]
  exact settled.counters

theorem armed_empty (settled : Settled session) (armed : session.armed = some .readable) :
    holdsMessage session.connection = false := by
  have isArmed : session.armed.isSome = true := by simp [armed]
  by_contra holds
  have unarmed := (settled.kept (settled.registered isArmed) (by simpa using holds)).2
  rw [armed] at unarmed
  cases unarmed

theorem http2_settled {last : Action} (streams : List (Nat × HttpRequest))
    (settled : Settled session) (isArmed : session.armed.isSome = true)
    (takes : takesAll session (.readable event) = true)
    (received : afterRead session.connection event = some opened)
    (reading : event.readEnd = .wantRead ∨ event.readEnd = .wantWrite)
    (negotiated : opened.isHttp2 = true) (ended : Http2End event opened after last) :
    Settled ((session.delivered event after).runActions
      ((streams.map fun stream => .enqueue (.http2 stream.1 stream.2)) ++ [last])) := by
  have registered : ∀ after, (session.delivered event after).registered = true :=
    fun _ => settled.registered isArmed
  have counters := opened_counters settled received
  have dropped := delivered_dropped settled takes
  have left := takes_all_read received reading takes
  rw [if_pos negotiated] at left
  rw [run_actions_streams]
  cases ended with
  | leaves =>
      simp only [runActions, disconnectClient, registered, if_true]
      exact settled_gone counters rfl rfl
        (fun _ plain => absurd plain (by simp [delivered, negotiated])) dropped
  | idle noBytes =>
      have noMessage := last_stream_empty left noBytes
      simp only [runActions, registered, if_true]
      exact settled_empty counters rfl
        (fun _ plain => absurd plain (by simp [delivered, negotiated])) noMessage dropped
  | takes taken reported =>
      have noMessage := last_stream_taken left reported
      simp only [runActions, registered, if_true]
      exact settled_empty counters rfl
        (fun _ plain => absurd plain (by simp [delivered, negotiated])) noMessage dropped

theorem request_settled {actions : List Action} (settled : Settled session)
    (isArmed : session.armed.isSome = true)
    (takes : takesAll session (.readable event) = true)
    (received : afterRead session.connection event = some opened)
    (reading : event.readEnd = .wantRead ∨ event.readEnd = .wantWrite)
    (plain : opened.isHttp2 = false) (notUpgraded : opened.isWebSocket = false)
    (served : Served crypto event opened after actions) :
    Settled ((session.delivered event after).runActions actions) := by
  have registered : ∀ after, (session.delivered event after).registered = true :=
    fun _ => settled.registered isArmed
  have counters := opened_counters settled received
  have dropped := delivered_dropped settled takes
  have idle := idle_of_read settled isArmed received notUpgraded plain
  have left := takes_all_read received reading takes
  rw [if_neg (by simp [plain]), if_neg (by simp [notUpgraded])] at left
  cases served with
  | waits stopped parsed =>
      have again := waiting_parse_again (opened.parser, {}) counters parsed {}
      have noMessage : holdsMessage { opened with parser := stopped.1 } = false := by
        simp [holdsMessage, notUpgraded, again]
      simp only [runActions, registered, if_true]
      exact settled_empty (parse_counters counters parsed) rfl (fun _ _ => idle) noMessage dropped
  | refuses stopped parsed =>
      simp only [runActions, disconnectClient, registered, if_true]
      exact settled_gone (parse_counters counters parsed) rfl rfl
        (fun _ _ => by simp [delivered, idle]) dropped
  | upgradeFails stopped greeting parsed wanted =>
      simp only [runActions, disconnectClient, registered, if_true]
      exact settled_gone (parse_counters counters parsed) rfl rfl
        (fun _ _ => by simp [delivered, idle]) dropped
  | upgrades stopped greeting parsed wanted greeted inside =>
      simp only [lastRequest, parsed, wanted, greeted, if_true, Bool.false_or] at left
      have noMessage : holdsMessage { opened with
          isWebSocket := true, wsPath := stopped.2.path, parser := {},
          readBuffer := opened.readBuffer.drop stopped.1.consumed } = false := by
        simpa [holdsMessage] using left
      simp only [runActions, registered, if_true]
      exact settled_empty fresh_counters rfl (fun _ _ => idle) noMessage dropped
  | dispatchFails stopped parsed outside =>
      simp only [runActions, disconnectClient, registered, if_true]
      exact settled_gone (parse_counters counters parsed) rfl rfl
        (fun _ _ => by simp [delivered, idle]) dropped
  | dispatches stopped parsed unwanted inside =>
      -- a second request may lie behind this one only if the connection closes
      simp only [runActions]
      simp only [lastRequest, parsed, unwanted, Bool.false_eq_true, if_false] at left
      constructor
      · exact fresh_counters
      · simp [delivered]
      · simp [delivered, idle]
      · intro _ holds
        have another : (HttpParser.parse (opened.readBuffer.drop stopped.1.consumed)
            {} {}).1 = .complete := by
          simpa [holdsMessage, delivered, notUpgraded] using holds
        have closes : keepsAlive stopped.2 = false := by
          simpa [another] using left
        exact ⟨⟨stopped.2, .queued, by simp [delivered, idle, closes]⟩, rfl⟩
      · exact dropped

theorem frames_settled {control : List WebSocketFrame} {rest : Bytes} {last : Action}
    (settled : Settled session) (isArmed : session.armed.isSome = true)
    (takes : takesAll session (.readable event) = true)
    (received : afterRead session.connection event = some opened)
    (reading : event.readEnd = .wantRead ∨ event.readEnd = .wantWrite)
    (plain : opened.isHttp2 = false) (upgraded : opened.isWebSocket = true)
    (allControl : ∀ frame ∈ control, isControl frame = true)
    (ended : FrameEnd opened.readBuffer control rest last) :
    Settled ((session.delivered event { opened with readBuffer := rest }).runActions
      (List.replicate control.length (.modify .readable) ++ [last])) := by
  have registered : ∀ after, (session.delivered event after).registered = true :=
    fun _ => settled.registered isArmed
  have counters := opened_counters settled received
  have dropped := delivered_dropped settled takes
  have left := takes_all_read received reading takes
  rw [if_neg (by simp [plain]), if_pos upgraded] at left
  rw [run_actions_rearm _ (registered _)]
  cases ended with
  | waits taken noFrames =>
      have noMessage : holdsMessage { opened with readBuffer := rest } = false := by
        simp [holdsMessage, upgraded, (complete_frames_eq_nil_iff rest).mp noFrames]
      simp only [runActions, registered, if_true]
      exact settled_empty counters rfl
        (fun notUpgraded _ => absurd notUpgraded (by simp [delivered, upgraded])) noMessage dropped
  | leaves =>
      simp only [runActions, disconnectClient, registered, if_true]
      exact settled_gone counters rfl rfl
        (fun notUpgraded _ => absurd notUpgraded (by simp [delivered, upgraded])) dropped
  | dispatches frame data taken =>
      simp only [runActions]
      rw [taken, more_behind_data_eq allControl data] at left
      have noFrames : frontFrame rest = none := by
        apply (complete_frames_eq_nil_iff rest).mp
        simpa using left
      have noMessage : holdsMessage { opened with readBuffer := rest } = false := by
        simp [holdsMessage, upgraded, noFrames]
      exact settled_empty counters (settled.registered isArmed)
        (fun notUpgraded _ => absurd notUpgraded (by simp [delivered, upgraded])) noMessage dropped

theorem receive_settled (settled : Settled session) (armed : session.armed = some .readable)
    (takes : takesAll session (.readable event) = true) :
    Settled (session.receive crypto event) := by
  have isArmed : session.armed.isSome = true := by simp [armed]
  have registered : ∀ after, (session.delivered event after).registered = true :=
    fun _ => settled.registered isArmed
  have dropped := delivered_dropped settled takes
  obtain ⟨after, actions, handled, outcome⟩ := receive_handled crypto session event
  rw [outcome]
  cases handled with
  | handshakeFailed _ =>
      simp only [runActions, disconnectClient, registered, if_true]
      exact settled_gone settled.counters rfl rfl
        (fun notUpgraded plain => (settled.plain notUpgraded plain).2) dropped
  | handshakePending interest _ =>
      have empty := armed_empty settled armed
      simp only [runActions, registered, if_true]
      exact settled_empty settled.counters rfl
        (fun notUpgraded plain => (settled.plain notUpgraded plain).1 isArmed) empty dropped
  | closed opened received _ =>
      have idle := idle_of_read settled isArmed received
      simp only [runActions, disconnectClient, registered, if_true]
      exact settled_gone (opened_counters settled received) rfl rfl
        (fun notUpgraded plain => by simp [delivered, idle notUpgraded plain]) dropped
  | http2 opened received reading negotiated streams _ last ended =>
      exact http2_settled streams settled isArmed takes received reading negotiated ended
  | request opened received reading plain notUpgraded _ _ served =>
      exact request_settled settled isArmed takes received reading plain notUpgraded served
  | frames opened received reading plain upgraded control rest last allControl ended =>
      exact frames_settled settled isArmed takes received reading plain upgraded allControl ended

end ReadEvents

theorem settled_erased {session : Session} (settled : Settled session) (index : Nat)
    (answered : List (HttpRequest × HttpResponse)) (sent : List Bytes)
    (framesHandled : List WebSocketFrame) :
    Settled ({ session with
      tasks := session.tasks.eraseIdx index, answered := answered, sent := sent,
      framesHandled := framesHandled } : Session).rawClose := by
  apply settled_gone
  · exact settled.counters
  · rfl
  · rfl
  · intro notUpgraded plain
    have single := (settled.plain notUpgraded plain).2
    exact Nat.le_trans (List.length_eraseIdx_le _ _) single
  · exact settled.dropped

theorem settled_disconnect {session : Session} (settled : Settled session) :
    Settled session.disconnectClient := by
  unfold disconnectClient
  split
  · exact settled_gone settled.counters rfl rfl
      (fun notUpgraded plain => (settled.plain notUpgraded plain).2) settled.dropped
  · exact ⟨settled.counters, settled.registered, settled.plain, settled.kept, settled.dropped⟩

theorem settled_disarmed {session : Session} (settled : Settled session) :
    Settled { session with armed := none } where
  counters := settled.counters
  registered := by simp
  plain := fun notUpgraded plain => ⟨by simp, (settled.plain notUpgraded plain).2⟩
  kept := fun registered holds => ⟨(settled.kept registered holds).1, rfl⟩
  dropped := settled.dropped

theorem settled_tasks {session : Session} (settled : Settled session) (tasks : List SessionTask)
    (answered : List (HttpRequest × HttpResponse)) (sent : List Bytes)
    (framesHandled : List WebSocketFrame) (shorter : tasks.length ≤ session.tasks.length)
    (behind : ∀ closing phase, session.tasks = [⟨.http closing false, phase⟩] →
      ∃ request phase, tasks = [⟨.http request false, phase⟩]) :
    Settled { session with
      tasks := tasks, answered := answered, sent := sent, framesHandled := framesHandled } := by
  constructor
  · exact settled.counters
  · exact settled.registered
  · intro notUpgraded plain
    obtain ⟨idle, bound⟩ := settled.plain notUpgraded plain
    refine ⟨fun armed => ?_, Nat.le_trans shorter bound⟩
    rw [idle armed] at shorter
    exact List.eq_nil_of_length_eq_zero (Nat.le_zero.mp shorter)
  · intro registered holds
    obtain ⟨⟨closing, phase, only⟩, unarmed⟩ := settled.kept registered holds
    exact ⟨behind closing phase only, unarmed⟩
  · exact settled.dropped

theorem closing_found {tasks : List SessionTask} {index : Nat} {found : SessionTask}
    {closing : HttpRequest} {phase : TaskPhase} (only : tasks = [⟨.http closing false, phase⟩])
    (present : tasks[index]? = some found) :
    index = 0 ∧ found = ⟨.http closing false, phase⟩ := by
  obtain ⟨first, alone⟩ := single_task (by simp [only]) present
  rw [only] at alone
  cases alone
  exact ⟨first, rfl⟩

theorem answer_settled {session following : Session} {index : Nat} {outcome : TaskOutcome}
    (settled : Settled session) (answers : Answers session index outcome following) :
    Settled following := by
  cases answers with
  | request request keepAlive response queued =>
      apply settled_tasks settled
      · simp
      · intro closing phase only
        obtain ⟨rfl, same⟩ := closing_found only queued
        cases same
        exact ⟨request, .answered, by simp [only]⟩
  | requestUnsent request keepAlive response queued => exact settled_erased settled index _ _ _
  | requestThrew request keepAlive queued => exact settled_erased settled index _ _ _
  | frame frame response queued =>
      apply settled_tasks settled
      · simp
      · intro closing phase only
        obtain ⟨_, same⟩ := closing_found only queued
        cases same
  | frameThrew frame outcome queued => exact settled_erased settled index _ _ _
  | stream stream request outcome queued =>
      apply settled_tasks settled
      · exact List.length_eraseIdx_le _ _
      · intro closing phase only
        obtain ⟨_, same⟩ := closing_found only queued
        cases same

theorem finish_settled {session following : Session} {index : Nat} (settled : Settled session)
    (stepped : session.finishTask index = some following) : Settled following := by
  obtain ⟨task, answered, outcome⟩ := finish_task_cases stepped
  rcases outcome with ⟨rearms, _, registered, rfl⟩ | rfl
  · -- the one task that may find a message behind it does not re-arm
    have empty : holdsMessage session.connection = false := by
      by_contra holds
      obtain ⟨⟨closing, phase, only⟩, _⟩ := settled.kept registered (by simpa using holds)
      obtain ⟨_, same⟩ := closing_found only answered
      cases same
      cases rearms
    apply settled_empty
    · exact settled.counters
    · exact registered
    · intro notUpgraded plain
      obtain ⟨rfl, only⟩ := single_task (settled.plain notUpgraded plain).2 answered
      simp [only]
    · exact empty
    · exact settled.dropped
  · exact settled_erased settled index _ _ _

theorem step_settled (crypto : Worker.Crypto) (session : Session) (label : SessionStep)
    (following : Session) (settled : Settled session)
    (condition : takesAll session label = true)
    (stepped : session.step crypto label = some following) : Settled following := by
  cases step_stepped stepped with
  | received event armed _ => exact receive_settled settled armed condition
  | unknown => exact settled_disarmed settled
  | writable => exact settled_disarmed settled
  | hungUp => exact settled_disconnect (settled_disarmed settled)
  | swept => exact settled_disconnect settled
  | answered index outcome _ answers => exact answer_settled settled answers
  | finished index _ finishes => exact finish_settled settled finishes
  | stopped =>
      exact ⟨settled.counters, settled.registered, settled.plain, settled.kept, settled.dropped⟩
  | exited =>
      exact settled_gone settled.counters rfl rfl
        (fun notUpgraded plain => (settled.plain notUpgraded plain).2) settled.dropped

/-- In every run whose readable events all leave the buffer without a complete
message behind the one they dispatch, no message waits in the buffer of an
armed connection without a task, or of one dropped because its peer closed. -/
theorem no_message_left_behind (crypto : Worker.Crypto) (labels : List SessionStep)
    (last : Session)
    (respects : Respects (step crypto) (fun session label => takesAll session label = true) {}
      labels)
    (reached : run (step crypto) {} labels = some last) :
    (last.armed.isSome = true → last.tasks = [] → holdsMessage last.connection = false) ∧
      ∀ connection, last.closedByPeer = some connection → holdsMessage connection = false := by
  have start : Settled {} :=
    settled_empty fresh_counters rfl (fun _ _ => rfl) (by decide +kernel) (by simp)
  have settled := run_invariant Settled (step_settled crypto) start respects reached
  refine ⟨?_, settled.dropped⟩
  intro armed _
  by_contra holds
  obtain ⟨_, unarmed⟩ := settled.kept (settled.registered armed) (by simpa using holds)
  rw [unarmed] at armed
  cases armed

/-- A request with the beginning of the next one behind it, answered; then the rest
of the second, which asks for an upgrade, and a frame. -/
def cutRequestRun : List SessionStep :=
  [.readable { received := [ascii "GET / HTTP/1.1\r\nHost: x\r\n\r\nGET /chat HT"] },
    .answer 0 (.returned {}), .finish 0,
    .readable { received := [ascii ("TP/1.1\r\nUpgrade: websocket\r\nConnection: Upgrade\r\n" ++
      "Sec-WebSocket-Key: key\r\n\r\n")] },
    .readable { received := [[0x81, 0x80, 0, 0, 0, 0]] }, .answer 0 (.returned {}), .finish 0]

theorem no_message_left_behind_cut_request :
    ∃ last, run (step { generateAcceptKey := id }) {} cutRequestRun = some last ∧
      last.armed.isSome = true ∧ last.tasks = [] ∧ last.framesHandled.length = 1 ∧
      (last.armed.isSome = true → last.tasks = [] → holdsMessage last.connection = false) ∧
      ∀ connection, last.closedByPeer = some connection → holdsMessage connection = false := by
  have evaluated : (run (step { generateAcceptKey := id }) {} cutRequestRun).any
      (fun last => decide (last.armed.isSome = true ∧ last.tasks = [] ∧
        last.framesHandled.length = 1)) = true := by
    decide +kernel
  obtain ⟨last, reached, armed, idle, handled⟩ := run_ends evaluated
  exact ⟨last, reached, armed, idle, handled,
    no_message_left_behind { generateAcceptKey := id } cutRequestRun last (by decide +kernel)
      reached⟩

/-- Two pipelined requests in one batch: after the first response the descriptor
is armed and the second request lies complete in the buffer. -/
theorem pipelined_request_left_behind :
    ∃ last, run (step { generateAcceptKey := id }) {}
        [.readable { received :=
            [ascii "GET / HTTP/1.1\r\nHost: x\r\n\r\nGET / HTTP/1.1\r\nHost: x\r\n\r\n"] },
          .answer 0 (.returned {}), .finish 0] = some last ∧
      ¬(last.armed.isSome = true → last.tasks = [] → holdsMessage last.connection = false) := by
  have waiting : (run (step { generateAcceptKey := id }) {}
      [.readable { received :=
          [ascii "GET / HTTP/1.1\r\nHost: x\r\n\r\nGET / HTTP/1.1\r\nHost: x\r\n\r\n"] },
        .answer 0 (.returned {}), .finish 0]).any
      (fun last => decide ¬(last.armed.isSome = true → last.tasks = [] →
        holdsMessage last.connection = false)) = true := by
    decide +kernel
  exact run_ends waiting

end HttpServer.SessionMessages
