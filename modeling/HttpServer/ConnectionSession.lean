import HttpServer.ClientHandling
import HttpServer.TransitionSystem

/-!
# One connection from accept to close

The life of one connection, on its own: the events its worker receives for it,
the idle sweep, and the steps of the pool tasks it has enqueued. A descriptor is
registered one-shot, so a delivered event disarms it until somebody calls
`epoll_.modify` again. A task takes two steps, the call of the router with the
`send` that follows it, and its last call, which re-arms or closes the
descriptor and with which the task is over. The descriptor number is not used
again after a close; the logs are ghost state.
-/

namespace HttpServer

open ClientConnection ClientHandling

inductive TaskPhase where
  | queued | answered
deriving DecidableEq, Repr

structure SessionTask where
  task : Task
  phase : TaskPhase := .queued
deriving DecidableEq, Repr

structure Session where
  connection : ClientConnection := {}
  /-- The worker's `active_connections_` holds it. -/
  inTable : Bool := true
  registered : Bool := true
  armed : Option Interest := some .readable
  tasks : List SessionTask := []
  running : Bool := true
  /-- An exception left `Worker::run`. -/
  terminated : Bool := false
  /-- The connection as it was when `read()` reported that the peer had closed. -/
  closedByPeer : Option ClientConnection := none
  /-- Requests on which a `parse` call returned `Complete`, and whether one returned `Invalid`. -/
  completed : List HttpRequest := []
  refused : Bool := false
  /-- Requests answered by `Router::handle`, with the response. -/
  answered : List (HttpRequest × HttpResponse) := []
  sent : List Bytes := []
  /-- Data frames taken from the buffer, and those given to `Router::handleWs`. -/
  framesTaken : List WebSocketFrame := []
  framesHandled : List WebSocketFrame := []
deriving DecidableEq, Repr

/-- How the router call of a task ended: `sendThrew` is a `send` that threw
after the handler had returned. -/
inductive TaskOutcome where
  | returned (response : HttpResponse)
  | sendThrew (response : HttpResponse)
  | threw
deriving DecidableEq, Repr

inductive SessionStep where
  | readable (event : ClientEvent)
  | writable
  | hangup
  | sweep
  | answer (index : Nat) (outcome : TaskOutcome)
  | finish (index : Nat)
  | stop
  | exit
deriving DecidableEq, Repr

/-- Whether the last call of a task re-arms its descriptor while the server
runs. HTTP/2 tasks have no such call. -/
def Task.rearms : Task → Bool
  | .http _ keepAlive => keepAlive
  | .webSocket _ => true
  | .http2 _ _ => false

def responseText (keepAlive : Bool) (response : HttpResponse) : Bytes :=
  (response.setHeader (ascii "Connection")
    (if keepAlive then ascii "keep-alive" else ascii "close")).serialize

/-- What the parser answers in an event, if the event comes to call it. -/
def parserVerdict (connection : ClientConnection) (event : ClientEvent) :
    Option (ParseResult × HttpRequest) :=
  match afterRead connection event with
  | some opened =>
      if (event.readEnd = .wantRead ∨ event.readEnd = .wantWrite) ∧
          opened.isHttp2 = false ∧ opened.isWebSocket = false then
        let parsed := HttpParser.parse opened.readBuffer opened.parser {}
        some (parsed.1, parsed.2.2)
      else none
  | none => none

theorem verdict_read {connection opened : ClientConnection} {event : ClientEvent}
    (received : afterRead connection event = some opened)
    (reading : event.readEnd = .wantRead ∨ event.readEnd = .wantWrite)
    (plain : opened.isHttp2 = false) (notUpgraded : opened.isWebSocket = false) :
    parserVerdict connection event =
      some ((HttpParser.parse opened.readBuffer opened.parser {}).1,
        (HttpParser.parse opened.readBuffer opened.parser {}).2.2) := by
  simp only [parserVerdict, received]
  rw [if_pos ⟨reading, plain, notUpgraded⟩]

def completedRequest (connection : ClientConnection) (event : ClientEvent) : List HttpRequest :=
  match parserVerdict connection event with
  | some (.complete, request) => [request]
  | _ => []

def requestRefused (connection : ClientConnection) (event : ClientEvent) : Bool :=
  match parserVerdict connection event with
  | some (.invalid, _) => true
  | _ => false

/-- `read()` returned false and the buffer is dropped as it is. -/
def peerClosed (connection : ClientConnection) (event : ClientEvent) : Option ClientConnection :=
  if event.readEnd = .zeroReturn ∨ event.readEnd = .syscall then afterRead connection event
  else none

namespace Session

/-- `disconnectClient`: `epoll_.remove` throws for a descriptor that is not registered. -/
def disconnectClient (session : Session) : Session :=
  if session.registered then
    { session with registered := false, armed := none, inTable := false }
  else { session with terminated := true }

/-- `::shutdown` and `::close` on the raw descriptor number. -/
def rawClose (session : Session) : Session :=
  { session with registered := false, armed := none }

/-- The calls of `handleClientData`; one that throws ends in `disconnectClient`. -/
def runActions (session : Session) : List Action → Session
  | [] => session
  | .modify interest :: rest =>
      if session.registered then runActions { session with armed := some interest } rest
      else session.disconnectClient
  | .send data :: rest => runActions { session with sent := session.sent ++ [data] } rest
  | .enqueue task :: rest =>
      runActions
        { session with
          tasks := session.tasks ++ [{ task := task }]
          framesTaken := session.framesTaken ++
            match task with
            | .webSocket frame => [frame]
            | _ => [] } rest
  | .disconnect :: _ => session.disconnectClient

/-- The event has disarmed the descriptor and `handleClientData` has left the
connection as `after`; the logs note what the reader and the parser said. -/
def delivered (session : Session) (event : ClientEvent) (after : ClientConnection) : Session :=
  { session with
    connection := after
    armed := none
    closedByPeer := (peerClosed session.connection event).or session.closedByPeer
    completed := session.completed ++ completedRequest session.connection event
    refused := session.refused || requestRefused session.connection event }

def receive (crypto : Worker.Crypto) (session : Session) (event : ClientEvent) : Session :=
  let handled := Worker.handleClientData crypto session.connection event
  (session.delivered event handled.1).runActions handled.2

theorem receive_handled (crypto : Worker.Crypto) (session : Session) (event : ClientEvent) :
    ∃ after actions, Handled crypto session.connection event after actions ∧
      session.receive crypto event = (session.delivered event after).runActions actions :=
  ⟨_, _, handle_client_data_handled crypto session.connection event, rfl⟩

/-- The first step of the task at `index`. -/
def answerTask (session : Session) (index : Nat) (outcome : TaskOutcome) : Option Session :=
  match session.tasks[index]? with
  | some { task := .http request keepAlive, phase := .queued } =>
      match outcome with
      | .returned response =>
          some { session with
            answered := session.answered ++ [(request, response)]
            sent := session.sent ++ [responseText keepAlive response]
            tasks := session.tasks.set index
              { task := .http request keepAlive, phase := .answered } }
      | .sendThrew response =>
          some { session with
            answered := session.answered ++ [(request, response)]
            sent := session.sent ++ [responseText keepAlive response]
            tasks := session.tasks.eraseIdx index }.rawClose
      | .threw => some { session with tasks := session.tasks.eraseIdx index }.rawClose
  | some { task := .webSocket frame, phase := .queued } =>
      let handled := { session with framesHandled := session.framesHandled ++ [frame] }
      match outcome with
      | .returned _ =>
          some { handled with
            tasks := session.tasks.set index { task := .webSocket frame, phase := .answered } }
      | _ => some { handled with tasks := session.tasks.eraseIdx index }.rawClose
  | some { task := .http2 _ _, phase := .queued } =>
      some { session with tasks := session.tasks.eraseIdx index }
  | _ => none

/-- Its last step: `epoll_.modify`, or the raw close when the connection is not
kept alive, the server stops or the call throws. -/
def finishTask (session : Session) (index : Nat) : Option Session :=
  match session.tasks[index]? with
  | some { task := task, phase := .answered } =>
      let ended := { session with tasks := session.tasks.eraseIdx index }
      if task.rearms && session.running && session.registered then
        some { ended with armed := some .readable }
      else some ended.rawClose
  | _ => none

def step (crypto : Worker.Crypto) (session : Session) (label : SessionStep) : Option Session :=
  if session.terminated then none
  else
    match label with
    | .readable event =>
        if session.armed = some .readable then
          if session.inTable then some (session.receive crypto event)
          else some { session with armed := none }
        else none
    | .writable =>
        -- `run` looks at `EPOLLERR`, `EPOLLHUP` and `EPOLLIN` only
        if session.armed = some .writable then some { session with armed := none } else none
    | .hangup =>
        if session.armed.isSome then some { session with armed := none }.disconnectClient
        else none
    | .sweep => if session.inTable then some session.disconnectClient else none
    | .answer index outcome => session.answerTask index outcome
    | .finish index => session.finishTask index
    | .stop => some { session with running := false }
    | .exit =>
        -- `run` returns and the worker is destroyed, with its table and its epoll instance
        if session.running then none
        else some { session with registered := false, armed := none, inTable := false }

theorem run_actions_rearm (session : Session) (registered : session.registered = true)
    (count : Nat) (rest : List Action) :
    session.runActions (List.replicate count (.modify .readable) ++ rest) =
      { session with
        armed := if count = 0 then session.armed else some .readable }.runActions rest := by
  induction count generalizing session with
  | zero => rfl
  | succ count ih =>
      rw [List.replicate_succ, List.cons_append, runActions, if_pos registered,
        ih { session with armed := some .readable } registered]
      simp

def streamTasks (streams : List (Nat × HttpRequest)) : List SessionTask :=
  streams.map fun stream => { task := .http2 stream.1 stream.2 }

theorem run_actions_streams (session : Session) (streams : List (Nat × HttpRequest))
    (rest : List Action) :
    session.runActions
        ((streams.map fun stream => Action.enqueue (.http2 stream.1 stream.2)) ++ rest) =
      { session with
        tasks := session.tasks ++ streamTasks streams }.runActions rest := by
  induction streams generalizing session with
  | nil => simp [streamTasks]
  | cons stream streams ih =>
      simp only [List.map_cons, List.cons_append, runActions, ih, streamTasks, List.append_assoc,
        List.nil_append, List.append_nil]

theorem single_task {tasks : List SessionTask} {index : Nat} {task : SessionTask}
    (single : tasks.length ≤ 1) (found : tasks[index]? = some task) :
    index = 0 ∧ tasks = [task] := by
  obtain ⟨inside, _⟩ := List.getElem?_eq_some_iff.mp found
  have first : index = 0 := by omega
  subst first
  match tasks, single with
  | [only], _ =>
      rw [List.getElem?_cons_zero, Option.some.injEq] at found
      exact ⟨rfl, by rw [found]⟩

inductive Answers (session : Session) (index : Nat) : TaskOutcome → Session → Prop
  | request (request : HttpRequest) (keepAlive : Bool) (response : HttpResponse)
      (queued : session.tasks[index]? = some { task := .http request keepAlive }) :
      Answers session index (.returned response)
        { session with
          answered := session.answered ++ [(request, response)]
          sent := session.sent ++ [responseText keepAlive response]
          tasks := session.tasks.set index
            { task := .http request keepAlive, phase := .answered } }
  | requestUnsent (request : HttpRequest) (keepAlive : Bool) (response : HttpResponse)
      (queued : session.tasks[index]? = some { task := .http request keepAlive }) :
      Answers session index (.sendThrew response)
        { session with
          answered := session.answered ++ [(request, response)]
          sent := session.sent ++ [responseText keepAlive response]
          tasks := session.tasks.eraseIdx index }.rawClose
  | requestThrew (request : HttpRequest) (keepAlive : Bool)
      (queued : session.tasks[index]? = some { task := .http request keepAlive }) :
      Answers session index .threw { session with tasks := session.tasks.eraseIdx index }.rawClose
  | frame (frame : WebSocketFrame) (response : HttpResponse)
      (queued : session.tasks[index]? = some { task := .webSocket frame }) :
      Answers session index (.returned response)
        { session with
          framesHandled := session.framesHandled ++ [frame]
          tasks := session.tasks.set index { task := .webSocket frame, phase := .answered } }
  | frameThrew (frame : WebSocketFrame) (outcome : TaskOutcome)
      (queued : session.tasks[index]? = some { task := .webSocket frame }) :
      Answers session index outcome
        { session with
          framesHandled := session.framesHandled ++ [frame]
          tasks := session.tasks.eraseIdx index }.rawClose
  | stream (stream : Nat) (request : HttpRequest) (outcome : TaskOutcome)
      (queued : session.tasks[index]? = some { task := .http2 stream request }) :
      Answers session index outcome { session with tasks := session.tasks.eraseIdx index }

theorem answer_task_answers {session following : Session} {index : Nat} {outcome : TaskOutcome}
    (stepped : session.answerTask index outcome = some following) :
    Answers session index outcome following := by
  unfold answerTask at stepped
  split at stepped
  · rename_i request keepAlive queued
    split at stepped <;> cases stepped
    · exact .request request keepAlive _ queued
    · exact .requestUnsent request keepAlive _ queued
    · exact .requestThrew request keepAlive queued
  · rename_i frame queued
    dsimp only at stepped
    split at stepped <;> cases stepped
    · exact .frame frame _ queued
    · exact .frameThrew frame outcome queued
  · rename_i stream request queued
    cases stepped
    exact .stream stream request outcome queued
  · cases stepped

theorem finish_task_cases {session following : Session} {index : Nat}
    (stepped : session.finishTask index = some following) :
    ∃ task, session.tasks[index]? = some { task := task, phase := .answered } ∧
      ((task.rearms = true ∧ session.running = true ∧ session.registered = true ∧
          following = { session with
            tasks := session.tasks.eraseIdx index, armed := some .readable }) ∨
        following = { session with tasks := session.tasks.eraseIdx index }.rawClose) := by
  unfold finishTask at stepped
  split at stepped
  · rename_i task answered
    dsimp only at stepped
    split at stepped <;> cases stepped
    · rename_i kept
      simp only [Bool.and_eq_true] at kept
      exact ⟨task, answered, Or.inl ⟨kept.1.1, kept.1.2, kept.2, rfl⟩⟩
    · exact ⟨task, answered, Or.inr rfl⟩
  · cases stepped

inductive Stepped (crypto : Worker.Crypto) (session : Session) : SessionStep → Session → Prop
  | received (event : ClientEvent) (armed : session.armed = some .readable)
      (listed : session.inTable = true) :
      Stepped crypto session (.readable event) (session.receive crypto event)
  | unknown (event : ClientEvent) (armed : session.armed = some .readable)
      (dropped : session.inTable = false) :
      Stepped crypto session (.readable event) { session with armed := none }
  | writable (armed : session.armed = some .writable) :
      Stepped crypto session .writable { session with armed := none }
  | hungUp (armed : session.armed.isSome = true) :
      Stepped crypto session .hangup { session with armed := none }.disconnectClient
  | swept (listed : session.inTable = true) :
      Stepped crypto session .sweep session.disconnectClient
  | answered (index : Nat) (outcome : TaskOutcome) (following : Session)
      (answers : Answers session index outcome following) :
      Stepped crypto session (.answer index outcome) following
  | finished (index : Nat) (following : Session)
      (finishes : session.finishTask index = some following) :
      Stepped crypto session (.finish index) following
  | stopped : Stepped crypto session .stop { session with running := false }
  | exited (halted : session.running = false) :
      Stepped crypto session .exit
        { session with registered := false, armed := none, inTable := false }

theorem step_stepped {crypto : Worker.Crypto} {session following : Session} {label : SessionStep}
    (stepped : session.step crypto label = some following) :
    Stepped crypto session label following := by
  unfold step at stepped
  split at stepped
  · cases stepped
  · cases label with
    | readable event =>
        dsimp only at stepped
        split at stepped
        · rename_i armed
          split at stepped <;> cases stepped
          · rename_i listed
            exact .received event armed listed
          · rename_i dropped
            exact .unknown event armed (by simpa using dropped)
        · cases stepped
    | writable =>
        dsimp only at stepped
        split at stepped <;> cases stepped
        rename_i armed
        exact .writable armed
    | hangup =>
        dsimp only at stepped
        split at stepped <;> cases stepped
        rename_i armed
        exact .hungUp armed
    | sweep =>
        dsimp only at stepped
        split at stepped <;> cases stepped
        rename_i listed
        exact .swept listed
    | answer index outcome => exact .answered index outcome following (answer_task_answers stepped)
    | finish index => exact .finished index following stepped
    | stop =>
        cases stepped
        exact .stopped
    | exit =>
        dsimp only at stepped
        split at stepped <;> cases stepped
        rename_i halted
        exact .exited (by simpa using halted)

end Session

end HttpServer
