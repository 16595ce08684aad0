import HttpServer.ConnectionSession

/-!
# One-shot arming keeps tasks apart

On an HTTP/1.1 connection the event loop and the pool take turns: a descriptor
is armed only when no task is outstanding. The one place where the handler
arms a descriptor and then goes on is a frame that is neither data nor `Close`;
a data frame behind it in the same batch breaks the turn taking.
-/

namespace HttpServer.SessionExclusion

open TransitionSystem ClientConnection ClientHandling Session

def pendingFrames (tasks : List SessionTask) : List WebSocketFrame :=
  tasks.filterMap fun task =>
    match task with
    | { task := .webSocket frame, phase := .queued } => some frame
    | _ => none

structure Exclusive (session : Session) : Prop where
  plain : session.connection.isHttp2 = false
  registered : session.armed.isSome = true → session.registered = true
  free : session.armed.isSome = true → session.tasks = []
  single : session.tasks.length ≤ 1
  order : session.framesTaken = session.framesHandled ++ pendingFrames session.tasks

/-- The first frame that is not a control frame is data, and it is not the
first frame of all. -/
def dataBehindControl (frames : List WebSocketFrame) : Bool :=
  match frames.dropWhile isControl with
  | frame :: _ => isData frame && (frames.head?.any isControl)
  | [] => false

def staysPlain : SessionStep → Bool
  | .readable event => decide (event.handshake ≠ .accepted (ascii "h2"))
  | _ => true

/-- Where the handler comes to the frames, it meets no data frame behind a control
frame among those that lie complete in the buffer. -/
def framesInTurn (session : Session) : SessionStep → Bool
  | .readable event =>
      match afterRead session.connection event with
      | none => true
      | some opened =>
          match event.readEnd with
          | .zeroReturn | .syscall | .failed => true
          | .wantRead | .wantWrite =>
              !opened.isWebSocket || !dataBehindControl (completeFrames opened.readBuffer)
  | _ => true

theorem control_empty {control more : List WebSocketFrame} {frame : WebSocketFrame}
    (allControl : ∀ member ∈ control, isControl member = true) (data : isData frame = true)
    (inTurn : dataBehindControl (control ++ frame :: more) = false) : control = [] := by
  have notControl : isControl frame = false := by simp [isControl, data]
  cases control with
  | nil => rfl
  | cons first rest =>
      have skipped : ((first :: rest) ++ frame :: more).dropWhile isControl = frame :: more := by
        rw [List.dropWhile_append_of_pos allControl, List.dropWhile_cons_of_neg (by simp [notControl])]
      have firstControl : isControl first = true := allControl first (by simp)
      unfold dataBehindControl at inTurn
      rw [skipped] at inTurn
      simp [data, firstControl] at inTurn

theorem frames_in_turn_read {session : Session} {event : ClientEvent} {opened : ClientConnection}
    (received : afterRead session.connection event = some opened)
    (reading : event.readEnd = .wantRead ∨ event.readEnd = .wantWrite)
    (upgraded : opened.isWebSocket = true)
    (inTurn : framesInTurn session (.readable event) = true) :
    dataBehindControl (completeFrames opened.readBuffer) = false := by
  simp only [framesInTurn, received] at inTurn
  rcases reading with ended | ended
  all_goals
    rw [ended, upgraded] at inTurn
    simpa using inTurn

theorem exclusive_of_idle {session : Session} (plain : session.connection.isHttp2 = false)
    (registered : session.armed.isSome = true → session.registered = true)
    (idle : session.tasks = []) (order : session.framesTaken = session.framesHandled) :
    Exclusive session where
  plain := plain
  registered := registered
  free := fun _ => idle
  single := by simp [idle]
  order := by simp [idle, order, pendingFrames]

theorem exclusive_of_unarmed {session : Session} (plain : session.connection.isHttp2 = false)
    (unarmed : session.armed = none) (single : session.tasks.length ≤ 1)
    (order : session.framesTaken = session.framesHandled ++ pendingFrames session.tasks) :
    Exclusive session where
  plain := plain
  registered := by simp [unarmed]
  free := by simp [unarmed]
  single := single
  order := order

theorem exclusive_disconnect {session : Session} (exclusive : Exclusive session) :
    Exclusive session.disconnectClient := by
  unfold disconnectClient
  split
  · exact exclusive_of_unarmed exclusive.plain rfl exclusive.single exclusive.order
  · exact ⟨exclusive.plain, exclusive.registered, exclusive.free, exclusive.single,
      exclusive.order⟩

/-- A readable event starts with no task outstanding and ends with one task or
with an armed descriptor, not both. -/
theorem receive_exclusive {crypto : Worker.Crypto} {session : Session} {event : ClientEvent}
    (exclusive : Exclusive session) (armed : session.armed = some .readable)
    (stays : staysPlain (.readable event) = true)
    (inTurn : framesInTurn session (.readable event) = true) :
    Exclusive (session.receive crypto event) := by
  have stays : event.handshake ≠ .accepted (ascii "h2") := of_decide_eq_true stays
  have registered : ∀ after, (session.delivered event after).registered = true :=
    fun _ => exclusive.registered (by simp [armed])
  have idle : session.tasks = [] := exclusive.free (by simp [armed])
  have order : session.framesTaken = session.framesHandled := by
    simpa [idle, pendingFrames] using exclusive.order
  obtain ⟨after, actions, handled, outcome⟩ := receive_handled crypto session event
  rw [outcome]
  cases handled with
  | handshakeFailed _ =>
      simp only [runActions, disconnectClient, registered, if_true]
      exact exclusive_of_idle exclusive.plain (by simp) idle order
  | handshakePending interest _ =>
      simp only [runActions, registered, if_true]
      exact exclusive_of_idle exclusive.plain (fun _ => rfl) idle order
  | closed opened received _ =>
      obtain ⟨_, _, _, _, plain⟩ := after_read_keeps received
      simp only [runActions, disconnectClient, registered, if_true]
      exact exclusive_of_idle (plain exclusive.plain stays) (by simp) idle order
  | http2 opened received _ negotiated _ _ _ _ =>
      obtain ⟨_, _, _, _, plain⟩ := after_read_keeps received
      exact absurd (plain exclusive.plain stays) (by simp [negotiated])
  | request opened received _ plain _ _ _ served =>
      cases served with
      | waits stopped _ =>
          simp only [runActions, registered, if_true]
          exact exclusive_of_idle plain (fun _ => rfl) idle order
      | refuses stopped _ =>
          simp only [runActions, disconnectClient, registered, if_true]
          exact exclusive_of_idle plain (by simp) idle order
      | upgradeFails stopped greeting _ _ =>
          simp only [runActions, disconnectClient, registered, if_true]
          exact exclusive_of_idle plain (by simp) idle order
      | upgrades stopped greeting _ _ _ _ =>
          simp only [runActions, registered, if_true]
          exact exclusive_of_idle plain (fun _ => rfl) idle order
      | dispatchFails stopped _ _ =>
          simp only [runActions, disconnectClient, registered, if_true]
          exact exclusive_of_idle plain (by simp) idle order
      | dispatches stopped _ _ _ =>
          simp only [runActions]
          exact exclusive_of_unarmed plain rfl (by simp [delivered, idle])
            (by simp [delivered, idle, order, pendingFrames])
  | frames opened received reading plain upgraded control rest last allControl ended =>
      rw [run_actions_rearm _ (registered _)]
      cases ended with
      | waits taken left =>
          simp only [runActions, registered, if_true]
          exact exclusive_of_idle plain (fun _ => rfl) idle order
      | leaves =>
          simp only [runActions, disconnectClient, registered, if_true]
          exact exclusive_of_idle plain (by simp) idle order
      | dispatches frame data taken =>
          have alone : control = [] := by
            apply control_empty allControl data
            rw [← taken]
            exact frames_in_turn_read received reading upgraded inTurn
          simp only [runActions, alone, List.length_nil, if_true]
          exact exclusive_of_unarmed plain rfl (by simp [delivered, idle])
            (by simp [delivered, idle, order, pendingFrames])

theorem unarmed_of_task {session : Session} {task : SessionTask} (exclusive : Exclusive session)
    (only : session.tasks = [task]) : session.armed = none := by
  by_contra armed
  have idle := exclusive.free (Option.isSome_iff_ne_none.mpr armed)
  rw [only] at idle
  cases idle

theorem exclusive_erased {session : Session} {index : Nat} {task : SessionTask}
    (exclusive : Exclusive session) (answered : List (HttpRequest × HttpResponse))
    (sent : List Bytes) {framesHandled : List WebSocketFrame}
    (present : session.tasks[index]? = some task)
    (handled : session.tasks = [task] → session.framesTaken = framesHandled) :
    Exclusive ({ session with
      tasks := session.tasks.eraseIdx index, answered := answered, sent := sent,
      framesHandled := framesHandled } : Session).rawClose := by
  obtain ⟨rfl, only⟩ := single_task exclusive.single present
  apply exclusive_of_idle
  · exact exclusive.plain
  · simp [rawClose]
  · simp [rawClose, only]
  · exact handled only

theorem answer_exclusive {session following : Session} {index : Nat} {outcome : TaskOutcome}
    (exclusive : Exclusive session) (answers : Answers session index outcome following) :
    Exclusive following := by
  have order := exclusive.order
  cases answers with
  | request request keepAlive response queued =>
      obtain ⟨rfl, only⟩ := single_task exclusive.single queued
      have unarmed := unarmed_of_task exclusive only
      apply exclusive_of_unarmed
      · exact exclusive.plain
      · exact unarmed
      · simp [only]
      · simpa [only, pendingFrames] using order
  | requestUnsent request keepAlive response queued =>
      apply exclusive_erased exclusive _ _ queued
      intro only
      simpa [only, pendingFrames] using order
  | requestThrew request keepAlive queued =>
      apply exclusive_erased exclusive _ _ queued
      intro only
      simpa [only, pendingFrames] using order
  | frame frame response queued =>
      obtain ⟨rfl, only⟩ := single_task exclusive.single queued
      have unarmed := unarmed_of_task exclusive only
      apply exclusive_of_unarmed
      · exact exclusive.plain
      · exact unarmed
      · simp [only]
      · simpa [only, pendingFrames] using order
  | frameThrew frame outcome queued =>
      apply exclusive_erased exclusive _ _ queued
      intro only
      simpa [only, pendingFrames] using order
  | stream stream request outcome queued =>
      obtain ⟨rfl, only⟩ := single_task exclusive.single queued
      apply exclusive_of_idle
      · exact exclusive.plain
      · exact exclusive.registered
      · simp [only]
      · simpa [only, pendingFrames] using order

theorem finish_exclusive {session following : Session} {index : Nat}
    (exclusive : Exclusive session) (stepped : session.finishTask index = some following) :
    Exclusive following := by
  have order := exclusive.order
  obtain ⟨task, answered, outcome⟩ := finish_task_cases stepped
  have handled : session.tasks = [⟨task, .answered⟩] →
      session.framesTaken = session.framesHandled := by
    intro only
    simpa [only, pendingFrames] using order
  rcases outcome with ⟨_, _, registered, rfl⟩ | rfl
  · obtain ⟨rfl, only⟩ := single_task exclusive.single answered
    apply exclusive_of_idle
    · exact exclusive.plain
    · exact fun _ => registered
    · simp [only]
    · exact handled only
  · exact exclusive_erased exclusive _ _ answered handled

theorem step_exclusive (crypto : Worker.Crypto) (session : Session) (label : SessionStep)
    (following : Session) (exclusive : Exclusive session)
    (condition : staysPlain label = true ∧ framesInTurn session label = true)
    (stepped : session.step crypto label = some following) : Exclusive following := by
  have disarmed : Exclusive { session with armed := none } :=
    exclusive_of_unarmed exclusive.plain rfl exclusive.single exclusive.order
  cases step_stepped stepped with
  | received event armed _ => exact receive_exclusive exclusive armed condition.1 condition.2
  | unknown => exact disarmed
  | writable => exact disarmed
  | hungUp => exact exclusive_disconnect disarmed
  | swept => exact exclusive_disconnect exclusive
  | answered index outcome _ answers => exact answer_exclusive exclusive answers
  | finished index _ finishes => exact finish_exclusive exclusive finishes
  | stopped =>
      exact ⟨exclusive.plain, exclusive.registered, exclusive.free, exclusive.single,
        exclusive.order⟩
  | exited => exact exclusive_of_unarmed exclusive.plain rfl exclusive.single exclusive.order

/-- In every run of an HTTP/1.1 connection in which no batch holds a data frame
behind a control frame, the descriptor is never armed while a task is queued or
running, at most one task is outstanding, and data frames reach the router in
the order in which they were received. -/
theorem armed_excludes_tasks (crypto : Worker.Crypto) (labels : List SessionStep) (last : Session)
    (respects : Respects (step crypto)
      (fun session label => staysPlain label = true ∧ framesInTurn session label = true) {} labels)
    (reached : run (step crypto) {} labels = some last) :
    (last.armed.isSome = true → last.tasks = []) ∧ last.tasks.length ≤ 1 ∧
      last.framesHandled <+: last.framesTaken := by
  have start : Exclusive {} :=
    exclusive_of_idle rfl (fun _ => rfl) rfl rfl
  have exclusive := run_invariant Exclusive (step_exclusive crypto) start respects reached
  refine ⟨exclusive.free, exclusive.single, ?_⟩
  rw [exclusive.order]
  exact List.prefix_append _ _

/-- An upgrade request and the handshake answer used below. -/
def upgradeEvent : ClientEvent where
  received := [ascii ("GET /chat HTTP/1.1\r\nUpgrade: websocket\r\nConnection: Upgrade\r\n" ++
    "Sec-WebSocket-Key: key\r\n\r\n")]

def emptyFrameBytes (opcode : Byte) : Bytes := [0x80 ||| opcode, 0x80, 0, 0, 0, 0]

/-- The upgrade, a text frame and the two steps of its task. -/
def textFrameRun : List SessionStep :=
  [.readable upgradeEvent, .readable { received := [emptyFrameBytes 1] },
    .answer 0 (.returned {}), .finish 0]

theorem armed_excludes_tasks_text_frame :
    ∃ last, run (step { generateAcceptKey := id }) {} textFrameRun = some last ∧
      (last.armed.isSome = true → last.tasks = []) ∧ last.tasks.length ≤ 1 ∧
      last.framesHandled <+: last.framesTaken := by
  obtain ⟨last, reached⟩ := Option.isSome_iff_exists.mp
    (show (run (step { generateAcceptKey := id }) {} textFrameRun).isSome = true by decide +kernel)
  exact ⟨last, reached, armed_excludes_tasks { generateAcceptKey := id } textFrameRun last
    (by decide +kernel) reached⟩

/-- `Ping` and a text frame in one batch: the descriptor is armed and the text
frame is still queued. -/
theorem ping_before_text_arms_early :
    ∃ last, run (step { generateAcceptKey := id }) {}
        [.readable upgradeEvent,
          .readable { received := [emptyFrameBytes 9 ++ emptyFrameBytes 1] }] = some last ∧
      last.connection.isHttp2 = false ∧
      ¬((last.armed.isSome = true → last.tasks = []) ∧ last.tasks.length ≤ 1 ∧
        last.framesHandled <+: last.framesTaken) := by
  have early : (run (step { generateAcceptKey := id }) {}
      [.readable upgradeEvent,
        .readable { received := [emptyFrameBytes 9 ++ emptyFrameBytes 1] }]).any
      (fun last => decide (last.connection.isHttp2 = false ∧
        ¬((last.armed.isSome = true → last.tasks = []) ∧ last.tasks.length ≤ 1 ∧
          last.framesHandled <+: last.framesTaken))) = true := by
    decide +kernel
  exact run_ends early

end HttpServer.SessionExclusion
