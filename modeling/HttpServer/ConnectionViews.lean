import HttpServer.DescriptorRuns
import HttpServer.SessionExclusion

/-!
# A connection of the server is a session

`Session` follows one connection on its own, `TcpServer` all of them with their workers,
numbers and tasks. What a run of the server does to one connection is a run of `Session`
as long as no task closes a number behind its worker's back and no data frame follows a
control frame in one event: the worker's loop, the other connections and the order in
which the pool comes to its tasks are nothing a connection can tell.
-/

namespace HttpServer.ConnectionViews

open TransitionSystem TcpServer DescriptorOwnership DescriptorRuns ClientConnection SessionExclusion

def awaiting (state : WorkerState) : List PollEvent :=
  match state.phase with
  | .handling events => events
  | _ => []

/-- What epoll reports of a number, or has reported and the worker has not come to. -/
def watched (state : WorkerState) (fd : Fd) : Option Interest :=
  (state.epoll fd).bind fun registration =>
    if registration.armed || decide (fd ∈ pendingFds (awaiting state)) then
      some registration.interest
    else none

theorem watched_eq {state : WorkerState} {events : List PollEvent}
    (handled : awaiting state = events) (fd : Fd) :
    watched state fd = (state.epoll fd).bind fun registration =>
      if registration.armed || decide (fd ∈ pendingFds events) then some registration.interest
      else none := by
  subst handled
  rfl

def isOf (id : ConnectionId) (task : PoolTask) : Bool :=
  decide (task.connection = id) && !task.ended

def sessionTasks (server : TcpServer) (id : ConnectionId) : List SessionTask :=
  (server.tasks.filter (isOf id)).map fun task => { task := task.task }

/-- The session is what the connection sees of the server. -/
structure Shows (server : TcpServer) (id : ConnectionId) (object : ConnectionObject)
    (session : Session) : Prop where
  connection : session.connection = object.connection
  inTable : session.inTable = decide ((server.workers object.worker).table object.fd = some id)
  registered : session.registered = session.inTable
  armed : session.armed = watched (server.workers object.worker) object.fd
  tasks : session.tasks = sessionTasks server id
  running : session.running = server.running
  pending : ∀ readiness, .client object.fd readiness ∈ awaiting (server.workers object.worker) →
    ∃ interest, (server.workers object.worker).epoll object.fd =
        some { interest := interest, armed := false } ∧
      (readiness = .readable → interest = .readable) ∧
        (readiness = .writable → interest = .writable)

/-- It is so as long as the connection and the loop of its worker last. -/
def Viewed (server : TcpServer) (id : ConnectionId) (session : Session) : Prop :=
  ∀ object, server.objects id = some object →
    (server.workers object.worker).phase ≠ .exited → Shows server id object session

def nextEntry (server : TcpServer) (worker : WorkerId) : Option (ConnectionId × Readiness) :=
  match awaiting (server.workers worker) with
  | .client fd readiness :: _ =>
      ((server.workers worker).table fd).map fun id => (id, readiness)
  | _ => none

def deliveredAs (event : ClientEvent) : Readiness → SessionStep
  | .hangup => .hangup
  | .readable => .readable event
  | .writable => .writable

/-- The steps of its own that a connection sees in a step of the server. -/
def sessionSteps (id : ConnectionId) (server : TcpServer) : ServerStep → List SessionStep
  | .accept _ _ => if server.accepted = id ∧ server.running = false then [.stop] else []
  | .client worker event =>
      match nextEntry server worker with
      | some (entry, readiness) => if entry = id then [deliveredAs event readiness] else []
      | none => []
  | .sweep worker stale =>
      if stale.any fun fd => decide ((server.workers worker).table fd = some id) then [.sweep]
      else []
  | .finish index _ =>
      match server.tasks[index]? with
      | some task =>
          if task.connection = id ∧ (server.workers task.worker).phase ≠ .exited then
            if task.task.rearms then [.answer 0 (.returned {}), .finish 0]
            else [.answer 0 (.returned {})]
          else []
      | none => []
  | .stop => if id < server.accepted then [.stop] else []
  | _ => []

/-- An event for the connection negotiates no HTTP/2 and brings no data frame behind a
control frame. -/
def inTurn (id : ConnectionId) (server : TcpServer) : ServerStep → Bool
  | .client worker event =>
      match nextEntry server worker, server.objects id with
      | some (entry, .readable), some object =>
          decide (entry ≠ id) ||
            (staysPlain (.readable event) &&
              framesInTurn { connection := object.connection } (.readable event))
      | _, _ => true
  | _ => true

section Frames

variable {server middle after : TcpServer} {id : ConnectionId} {object : ConnectionObject}
  {session : Session}

structure Unmoved (server after : TcpServer) (id : ConnectionId) (object : ConnectionObject) :
    Prop where
  table : (after.workers object.worker).table object.fd =
    (server.workers object.worker).table object.fd
  epoll : (after.workers object.worker).epoll object.fd =
    (server.workers object.worker).epoll object.fd
  awaiting : ∀ readiness,
    PollEvent.client object.fd readiness ∈ awaiting (after.workers object.worker) ↔
      PollEvent.client object.fd readiness ∈ awaiting (server.workers object.worker)
  tasks : sessionTasks after id = sessionTasks server id
  running : after.running = server.running

theorem Unmoved.trans (first : Unmoved server middle id object)
    (second : Unmoved middle after id object) : Unmoved server after id object where
  table := second.table.trans first.table
  epoll := second.epoll.trans first.epoll
  awaiting := fun readiness => (second.awaiting readiness).trans (first.awaiting readiness)
  tasks := second.tasks.trans first.tasks
  running := second.running.trans first.running

theorem mem_pending_fds {events : List PollEvent} {fd : Fd} :
    fd ∈ pendingFds events ↔ ∃ readiness, .client fd readiness ∈ events := by
  simp only [pendingFds, List.mem_filterMap]
  constructor
  · rintro ⟨event, member, number⟩
    cases event with
    | listener => cases number
    | client other readiness =>
        cases number
        exact ⟨readiness, member⟩
  · rintro ⟨readiness, member⟩
    exact ⟨_, member, rfl⟩

theorem shows_unmoved (view : Shows server id object session)
    (unmoved : Unmoved server after id object) : Shows after id object session := by
  have pending : (object.fd ∈ pendingFds (awaiting (after.workers object.worker))) =
      (object.fd ∈ pendingFds (awaiting (server.workers object.worker))) := by
    rw [mem_pending_fds, mem_pending_fds]
    simp only [unmoved.awaiting]
  refine ⟨view.connection, ?_, view.registered, ?_, ?_, ?_, ?_⟩
  · rw [unmoved.table]
    exact view.inTable
  · rw [view.armed, watched, watched, unmoved.epoll]
    simp only [pending]
  · rw [unmoved.tasks]
    exact view.tasks
  · rw [unmoved.running]
    exact view.running
  · intro readiness member
    rw [unmoved.epoll]
    exact view.pending readiness ((unmoved.awaiting readiness).mp member)

theorem other_fd (consistent : Consistent server) {other : ConnectionId}
    {otherObject : ConnectionObject} (found : server.objects id = some object)
    (foundOther : server.objects other = some otherObject) (different : other ≠ id) :
    object.fd ≠ otherObject.fd := by
  intro same
  have owner := consistent.opened id object found
  rw [same, consistent.opened other otherObject foundOther, Option.some.injEq] at owner
  exact different owner

theorem unlisted_unregistered (consistent : Consistent server) {worker : WorkerId} {fd : Fd}
    (active : (server.workers worker).phase ≠ .exited)
    (unlisted : (server.workers worker).table fd = none) :
    (server.workers worker).epoll fd = none := by
  apply Option.not_isSome_iff_eq_none.mp
  intro registered
  have listed := consistent.registered worker fd active registered
  rw [unlisted] at listed
  cases listed

theorem unmoved_elsewhere {worker : WorkerId} {fd : Fd} (consistent : Consistent server)
    (consistentAfter : Consistent after) (elsewhere : Elsewhere server after worker fd)
    (active : (server.workers object.worker).phase ≠ .exited)
    (different : ¬(object.worker = worker ∧ object.fd = fd))
    (tasks : sessionTasks after id = sessionTasks server id) :
    Unmoved server after id object := by
  have table := elsewhere.table object.worker object.fd different
  have phase := elsewhere.phase object.worker
  refine ⟨table, ?_, ?_, tasks, elsewhere.running⟩
  · cases listed : (server.workers object.worker).table object.fd with
    | some entry => exact elsewhere.epoll object.worker object.fd different (by simp [listed])
    | none =>
        rw [unlisted_unregistered consistent active listed]
        exact unlisted_unregistered consistentAfter (by rw [phase]; exact active)
          (table.trans listed)
  · intro readiness
    simp only [awaiting, phase]

theorem unmoved_set_phase {worker : WorkerId} {phase : WorkerPhase}
    (kept : object.worker = worker → ∀ readiness,
      (PollEvent.client object.fd readiness ∈
          awaiting { server.workers worker with phase := phase } ↔
        PollEvent.client object.fd readiness ∈ awaiting (server.workers worker))) :
    Unmoved server (server.setPhase worker phase) id object := by
  by_cases here : object.worker = worker
  · subst here
    refine ⟨?_, ?_, ?_, rfl, rfl⟩
    all_goals simp only [setPhase, update_worker_same]
    exact kept rfl
  · refine ⟨?_, ?_, ?_, rfl, rfl⟩
    all_goals simp [setPhase, update_worker_other server here]

end Frames

section Tasks

theorem filter_set_of_neg {Item : Type*} {keep : Item → Bool} {items : List Item} {index : Nat}
    {item other : Item} (found : items[index]? = some item) (left : keep item = false)
    (out : keep other = false) : (items.set index other).filter keep = items.filter keep := by
  induction items generalizing index with
  | nil => cases found
  | cons first rest ih =>
      cases index with
      | zero =>
          cases found
          simp [left, out]
      | succ index =>
          rw [List.set_cons_succ, List.filter_cons, List.filter_cons, ih found]

theorem filter_erase_of_neg {Item : Type*} {keep : Item → Bool} {items : List Item}
    {index : Nat} {item : Item} (found : items[index]? = some item) (left : keep item = false) :
    (items.eraseIdx index).filter keep = items.filter keep := by
  induction items generalizing index with
  | nil => cases found
  | cons first rest ih =>
      cases index with
      | zero =>
          cases found
          simp [left]
      | succ index =>
          rw [List.eraseIdx_cons_succ, List.filter_cons, List.filter_cons, ih found]

theorem filter_set_single {Item : Type*} {keep : Item → Bool} {items : List Item} {index : Nat}
    {item : Item} (found : items[index]? = some item) (kept : keep item = true) (other : Item)
    (out : keep other = false) (single : (items.filter keep).length ≤ 1) :
    items.filter keep = [item] ∧ (items.set index other).filter keep = [] := by
  induction items generalizing index with
  | nil => cases found
  | cons first rest ih =>
      cases index with
      | zero =>
          cases found
          rw [List.filter_cons_of_pos kept, List.length_cons] at single
          have empty : rest.filter keep = [] := List.eq_nil_of_length_eq_zero (by omega)
          simp [kept, out, empty]
      | succ index =>
          have member : item ∈ rest.filter keep :=
            List.mem_filter.mpr ⟨List.mem_of_getElem? found, kept⟩
          have some := List.length_pos_of_mem member
          rw [List.filter_cons] at single
          split at single
          · rw [List.length_cons] at single
            omega
          · rename_i passed
            rw [List.set_cons_succ, List.filter_cons_of_neg passed, List.filter_cons_of_neg passed]
            exact ih found single

variable {server : TcpServer} {id : ConnectionId} {index : Nat} {task : PoolTask}

theorem tasks_set_other (queued : server.tasks[index]? = some task)
    (different : task.connection ≠ id) (ended : Bool) :
    sessionTasks (server.setTask index { task with ended := ended }) id =
      sessionTasks server id := by
  refine congrArg _ (filter_set_of_neg queued ?_ ?_) <;> simp [isOf, different]

theorem tasks_set_own (queued : server.tasks[index]? = some task) (own : task.connection = id)
    (started : task.ended = false) (single : (sessionTasks server id).length ≤ 1) :
    sessionTasks server id = [{ task := task.task }] ∧
      sessionTasks (server.setTask index { task with ended := true }) id = [] := by
  rw [sessionTasks, List.length_map] at single
  obtain ⟨before, behind⟩ := filter_set_single queued
    (show isOf id task = true by simp [isOf, own, started]) { task with ended := true }
    (by simp [isOf]) single
  refine ⟨?_, ?_⟩
  · rw [sessionTasks, before]
    rfl
  · rw [sessionTasks]
    change ((server.tasks.set index { task with ended := true }).filter (isOf id)).map _ = _
    rw [behind]
    rfl

theorem tasks_erased (queued : server.tasks[index]? = some task) (out : isOf id task = false) :
    sessionTasks { server with tasks := server.tasks.eraseIdx index } id =
      sessionTasks server id :=
  congrArg _ (filter_erase_of_neg queued out)

theorem tasks_enqueued (server : TcpServer) (id : ConnectionId) (task : PoolTask)
    (fresh : task.ended = false) :
    sessionTasks { server with tasks := server.tasks ++ [task] } id =
      sessionTasks server id ++ if task.connection = id then [{ task := task.task }] else [] := by
  unfold sessionTasks
  rw [List.filter_append, List.map_append]
  congr 1
  by_cases own : task.connection = id
  · simp [isOf, own, fresh]
  · simp [isOf, own]

end Tasks

section Operations

variable {server after : TcpServer} {id : ConnectionId} {session : Session}

theorem release_objects {other : ConnectionId} {object : ConnectionObject}
    (found : (server.releaseObject other).objects id = some object) :
    server.objects id = some object := by
  unfold releaseObject at found
  split at found
  · split at found
    · exact found
    · by_cases same : id = other
      · subst same
        simp at found
      · simpa [closeFd, same] using found
  · exact found

theorem release_accepted (server : TcpServer) (other : ConnectionId) :
    (server.releaseObject other).accepted = server.accepted := by
  unfold releaseObject
  split
  · split <;> rfl
  · rfl

theorem disconnect_keeps (id : ConnectionId) {worker : WorkerId} {fd : Fd} {other : ConnectionId}
    (consistent : Consistent server) (stored : (server.workers worker).table fd = some other)
    (handled : ∀ events, (server.workers worker).phase = .handling events →
      fd ∉ pendingFds events) :
    (server.disconnectClient worker fd).tasks = server.tasks ∧
      (server.disconnectClient worker fd).accepted = server.accepted ∧
      ∀ object, (server.disconnectClient worker fd).objects id = some object →
        server.objects id = some object := by
  rw [disconnect_eq consistent stored]
  refine ⟨?_, ?_, ?_⟩
  · exact (release_keeps (consistent_erase consistent handled) other).1
  · exact release_accepted _ other
  · intro object found
    have kept : ((server.setRegistration worker fd none).setEntry worker fd none).objects id =
        some object := release_objects found
    exact kept

theorem viewed_elsewhere {worker : WorkerId} {fd : Fd} {other : ConnectionId}
    (view : Viewed server id session) (consistent : Consistent server)
    (consistentAfter : Consistent after)
    (stored : (server.workers worker).table fd = some other) (different : other ≠ id)
    (elsewhere : Elsewhere server after worker fd)
    (tasks : sessionTasks after id = sessionTasks server id)
    (objects : ∀ object, after.objects id = some object → server.objects id = some object) :
    Viewed after id session := by
  intro object found active
  have before := objects object found
  rw [elsewhere.phase] at active
  obtain ⟨otherObject, foundOther, rfl, _⟩ := consistent.entries worker fd other stored
  have apart := other_fd consistent before foundOther different
  exact shows_unmoved (view object before active)
    (unmoved_elsewhere consistent consistentAfter elsewhere active (fun both => apart both.2) tasks)

theorem disconnect_other_viewed {worker : WorkerId} {fd : Fd} {other : ConnectionId}
    (view : Viewed server id session) (consistent : Consistent server)
    (stored : (server.workers worker).table fd = some other) (different : other ≠ id)
    (handled : ∀ events, (server.workers worker).phase = .handling events →
      fd ∉ pendingFds events) :
    Viewed (server.disconnectClient worker fd) id session := by
  obtain ⟨tasks, _, objects⟩ := disconnect_keeps id consistent stored handled
  refine viewed_elsewhere view consistent (disconnect_consistent consistent stored handled) stored
    different (disconnect_elsewhere consistent stored handled) ?_ objects
  rw [sessionTasks, tasks]
  rfl

theorem disconnect_own_viewed {worker : WorkerId} {fd : Fd} (view : Viewed server id session)
    (consistent : Consistent server) (stored : (server.workers worker).table fd = some id)
    (active : (server.workers worker).phase ≠ .exited)
    (handled : ∀ events, (server.workers worker).phase = .handling events →
      fd ∉ pendingFds events) :
    Viewed (server.disconnectClient worker fd) id session.disconnectClient ∧
      session.disconnectClient.terminated = session.terminated := by
  obtain ⟨object, found, rfl, rfl, _⟩ := consistent.entries worker fd id stored
  have shown := view object found active
  have listed : session.inTable = true := by rw [shown.inTable, stored, decide_eq_true rfl]
  have registered : session.registered = true := shown.registered.trans listed
  have left : session.disconnectClient =
      { session with registered := false, armed := none, inTable := false } := by
    rw [Session.disconnectClient, if_pos registered]
  rw [left]
  refine ⟨?_, rfl⟩
  obtain ⟨tasks, _, objects⟩ := disconnect_keeps id consistent stored handled
  have removed := disconnect_removes consistent stored handled
  have elsewhere := disconnect_elsewhere consistent stored handled
  have consistentAfter := disconnect_consistent consistent stored handled
  intro other foundAfter activeAfter
  obtain rfl := Option.some.inj (found.symm.trans (objects other foundAfter))
  have unregistered := unlisted_unregistered consistentAfter activeAfter removed
  refine ⟨shown.connection, ?_, rfl, ?_, ?_, ?_, ?_⟩
  · simp [removed]
  · simp [watched, unregistered]
  · rw [sessionTasks, tasks]
    exact shown.tasks
  · rw [elsewhere.running]
    exact shown.running
  · intro readiness member
    rw [awaiting, elsewhere.phase] at member
    split at member
    · rename_i events handling
      exact absurd (mem_pending_fds.mpr ⟨readiness, member⟩) (handled events handling)
    · cases member

theorem set_registration_same (server : TcpServer) (worker : WorkerId) (fd : Fd)
    (registration : Option Registration) :
    ((server.setRegistration worker fd registration).workers worker).epoll fd = registration := by
  simp [setRegistration, update_worker_same]

theorem set_registration_table (server : TcpServer) (worker : WorkerId) (fd : Fd)
    (registration : Option Registration) :
    ((server.setRegistration worker fd registration).workers worker).table =
      (server.workers worker).table := by
  simp [setRegistration, update_worker_same]

theorem set_registration_phase (server : TcpServer) (worker : WorkerId) (fd : Fd)
    (registration : Option Registration) :
    ((server.setRegistration worker fd registration).workers worker).phase =
      (server.workers worker).phase := by
  simp [setRegistration, update_worker_same]

theorem rearm_viewed {worker : WorkerId} {fd : Fd} (view : Viewed server id session)
    (consistent : Consistent server) (stored : (server.workers worker).table fd = some id)
    (handled : ∀ events, (server.workers worker).phase = .handling events →
      fd ∉ pendingFds events) (interest : Interest) :
    Viewed (server.setRegistration worker fd (some { interest := interest, armed := true })) id
      { session with armed := some interest } := by
  obtain ⟨object, found, rfl, rfl, _⟩ := consistent.entries worker fd id stored
  intro other foundAfter activeAfter
  obtain rfl := Option.some.inj (found.symm.trans foundAfter)
  rw [set_registration_phase] at activeAfter
  have shown := view object found activeAfter
  refine ⟨shown.connection, ?_, shown.registered, ?_, shown.tasks, shown.running, ?_⟩
  · rw [set_registration_table]
    exact shown.inTable
  · rw [watched, set_registration_same]
    rfl
  · intro readiness member
    rw [awaiting, set_registration_phase] at member
    split at member
    · rename_i events handling
      exact absurd (mem_pending_fds.mpr ⟨readiness, member⟩) (handled events handling)
    · cases member

theorem enqueue_viewed (view : Viewed server id session) (worker : WorkerId) (fd : Fd)
    (task : Task) (frames : List WebSocketFrame) :
    Viewed { server with
        tasks := server.tasks ++
          [{ connection := id, worker := worker, fd := fd, task := task }] } id
      { session with
        tasks := session.tasks ++ [{ task := task }]
        framesTaken := frames } := by
  intro object found active
  have shown := view object found active
  refine ⟨shown.connection, shown.inTable, shown.registered, shown.armed, ?_, shown.running,
    shown.pending⟩
  rw [tasks_enqueued _ _ _ rfl, if_pos rfl, shown.tasks]

theorem run_actions_own_viewed {worker : WorkerId} {fd : Fd} (actions : List Action)
    {server : TcpServer} {session : Session} (view : Viewed server id session)
    (consistent : Consistent server) (stored : (server.workers worker).table fd = some id)
    (active : (server.workers worker).phase ≠ .exited)
    (handled : ∀ events, (server.workers worker).phase = .handling events →
      fd ∉ pendingFds events) (alive : session.terminated = false) :
    Viewed (server.runActions worker fd id actions) id (session.runActions actions) ∧
      (session.runActions actions).terminated = false := by
  induction actions generalizing server session with
  | nil => exact ⟨view, alive⟩
  | cons action rest ih =>
      cases action with
      | modify interest =>
          have registered := consistent.entry_registered stored
          obtain ⟨object, found, rfl, rfl, _⟩ := consistent.entries worker fd id stored
          have shown := view object found active
          have sessionRegistered : session.registered = true := by
            rw [shown.registered, shown.inTable, stored, decide_eq_true rfl]
          rw [TcpServer.runActions, if_pos registered, Session.runActions, if_pos sessionRegistered]
          refine ih (rearm_viewed view consistent stored handled interest)
            (rearm_consistent consistent stored _) ?_ ?_ ?_ alive
          · rw [set_registration_table]
            exact stored
          · rw [set_registration_phase]
            exact active
          · rw [set_registration_phase]
            exact handled
      | send data =>
          have sent : Viewed server id { session with sent := session.sent ++ [data] } := by
            intro object found active
            have shown := view object found active
            exact ⟨shown.connection, shown.inTable, shown.registered, shown.armed, shown.tasks,
              shown.running, shown.pending⟩
          exact ih sent consistent stored active handled alive
      | enqueue task =>
          exact ih (enqueue_viewed view worker fd task _)
            (enqueue_consistent consistent stored task) stored active handled alive
      | disconnect =>
          obtain ⟨left, same⟩ := disconnect_own_viewed view consistent stored active handled
          exact ⟨left, same.trans alive⟩

theorem run_actions_rest (id : ConnectionId) {worker : WorkerId} {fd : Fd} {other : ConnectionId}
    (actions : List Action) {server : TcpServer} (consistent : Consistent server)
    (stored : (server.workers worker).table fd = some other)
    (handled : ∀ events, (server.workers worker).phase = .handling events →
      fd ∉ pendingFds events) :
    (server.runActions worker fd other actions).accepted = server.accepted ∧
      (∀ object, (server.runActions worker fd other actions).objects id = some object →
        server.objects id = some object) ∧
      (other ≠ id →
        sessionTasks (server.runActions worker fd other actions) id = sessionTasks server id) := by
  induction actions generalizing server with
  | nil => exact ⟨rfl, fun _ found => found, fun _ => rfl⟩
  | cons action rest ih =>
      cases action with
      | modify interest =>
          have registered := consistent.entry_registered stored
          simp only [TcpServer.runActions, registered, if_true]
          refine ih (rearm_consistent consistent stored _) ?_ ?_
          · rw [set_registration_table]
            exact stored
          · rw [set_registration_phase]
            exact handled
      | send data => exact ih consistent stored handled
      | enqueue task =>
          obtain ⟨accepted, objects, tasks⟩ :=
            ih (enqueue_consistent consistent stored task) stored handled
          refine ⟨accepted, objects, ?_⟩
          intro different
          refine (tasks different).trans ?_
          rw [tasks_enqueued _ _ _ rfl, if_neg different, List.append_nil]
      | disconnect =>
          obtain ⟨tasks, accepted, objects⟩ := disconnect_keeps id consistent stored handled
          refine ⟨accepted, objects, fun _ => ?_⟩
          change sessionTasks (server.disconnectClient worker fd) id = _
          rw [sessionTasks, tasks]
          rfl

end Operations

section Events

variable {server : TcpServer} {id : ConnectionId} {session : Session} {worker : WorkerId}

theorem handling_active {state : WorkerState} {events : List PollEvent}
    (phase : state.phase = .handling events) : state.phase ≠ .exited := by
  rw [phase]
  intro exited
  cases exited

theorem next_entry_eq {fd : Fd} {readiness : Readiness} {events : List PollEvent}
    {entry : ConnectionId}
    (phase : (server.workers worker).phase = .handling (.client fd readiness :: events))
    (stored : (server.workers worker).table fd = some entry) :
    nextEntry server worker = some (entry, readiness) := by
  simp only [nextEntry, awaiting, phase, stored, Option.map_some]

theorem taken_other_viewed {event : PollEvent} {events : List PollEvent}
    (view : Viewed server id session)
    (phase : (server.workers worker).phase = .handling (event :: events))
    (apart : ∀ object readiness, server.objects id = some object →
      event ≠ .client object.fd readiness) :
    Viewed (server.setPhase worker (.handling events)) id session := by
  intro object found active
  have activeBefore : (server.workers object.worker).phase ≠ .exited := by
    by_cases here : object.worker = worker
    · rw [here]
      exact handling_active phase
    · rw [setPhase, update_worker_other server here] at active
      exact active
  refine shows_unmoved (view object found activeBefore) (unmoved_set_phase ?_)
  intro _ readiness
  have passed : PollEvent.client object.fd readiness ≠ event :=
    (apart object readiness found).symm
  simp [awaiting, phase, passed]

theorem taken_own_viewed {fd : Fd} {readiness : Readiness} {events : List PollEvent}
    (view : Viewed server id session) (consistent : Consistent server)
    (phase : (server.workers worker).phase = .handling (.client fd readiness :: events))
    (stored : (server.workers worker).table fd = some id) :
    Viewed (server.setPhase worker (.handling events)) id { session with armed := none } ∧
      session.inTable = true ∧ session.armed.isSome = true ∧
      (readiness = .readable → session.armed = some .readable) ∧
      (readiness = .writable → session.armed = some .writable) := by
  obtain ⟨object, found, rfl, rfl, _⟩ := consistent.entries worker fd id stored
  have shown := view object found (handling_active phase)
  have waiting : PollEvent.client object.fd readiness ∈
      awaiting (server.workers object.worker) := by
    simp [awaiting, phase]
  obtain ⟨interest, spent, readable, writable⟩ := shown.pending readiness waiting
  have armed : session.armed = some interest := by
    rw [shown.armed, watched, spent]
    simp [mem_pending_fds.mpr ⟨readiness, waiting⟩]
  have left := (taken_entry consistent phase).2
  refine ⟨?_, by rw [shown.inTable, stored, decide_eq_true rfl], by rw [armed]; rfl, ?_, ?_⟩
  · intro other foundAfter _
    obtain rfl := Option.some.inj (found.symm.trans foundAfter)
    have gone : object.fd ∉ pendingFds events :=
      left events (by simp [setPhase, update_worker_same])
    refine ⟨shown.connection, ?_, shown.registered, ?_, shown.tasks, shown.running, ?_⟩
    · simpa [setPhase, update_worker_same] using shown.inTable
    · simp [watched, setPhase, update_worker_same, spent, awaiting, gone]
    · intro other member
      simp only [setPhase, update_worker_same, awaiting] at member
      exact absurd (mem_pending_fds.mpr ⟨other, member⟩) gone
  · intro read
    rw [armed, readable read]
  · intro written
    rw [armed, writable written]

theorem handle_own_viewed {crypto : Worker.Crypto} {fd : Fd} (event : ClientEvent)
    (view : Viewed server id { session with armed := none }) (consistent : Consistent server)
    (stored : (server.workers worker).table fd = some id)
    (active : (server.workers worker).phase ≠ .exited)
    (handled : ∀ events, (server.workers worker).phase = .handling events →
      fd ∉ pendingFds events) (alive : session.terminated = false) :
    Viewed (server.handleClientData crypto worker fd event) id (session.receive crypto event) ∧
      (session.receive crypto event).terminated = false := by
  obtain ⟨object, found, same⟩ := handle_client_data_eq consistent crypto stored event
  obtain ⟨_, foundToo, number, home, _⟩ := consistent.entries worker fd id stored
  obtain rfl := Option.some.inj (found.symm.trans foundToo)
  have shown := view object found (by rw [home]; exact active)
  rw [same, Session.receive]
  have connection : session.connection = object.connection := shown.connection
  rw [connection]
  refine run_actions_own_viewed _ ?_ (consistent_set_connection consistent found _) stored active
    handled alive
  intro other foundAfter _
  simp only [Function.update_self, Option.some.injEq] at foundAfter
  subst foundAfter
  exact ⟨rfl, shown.inTable, shown.registered, shown.armed, shown.tasks, shown.running,
    shown.pending⟩

theorem handle_other_viewed {crypto : Worker.Crypto} {fd : Fd} {other : ConnectionId}
    (event : ClientEvent) (view : Viewed server id session) (consistent : Consistent server)
    (stored : (server.workers worker).table fd = some other) (different : other ≠ id)
    (handled : ∀ events, (server.workers worker).phase = .handling events →
      fd ∉ pendingFds events) :
    Viewed (server.handleClientData crypto worker fd event) id session := by
  obtain ⟨consistentAfter, elsewhere⟩ :=
    handle_client_data_keeps consistent crypto stored handled event
  obtain ⟨object, found, same⟩ := handle_client_data_eq consistent crypto stored event
  obtain ⟨_, objects, tasks⟩ := run_actions_rest id
    (Worker.handleClientData crypto object.connection event).2
    (consistent_set_connection consistent found
      (Worker.handleClientData crypto object.connection event).1) stored handled
  rw [← same] at objects tasks
  refine viewed_elsewhere view consistent consistentAfter stored different elsewhere
    (tasks different) ?_
  intro viewed foundAfter
  have before := objects viewed foundAfter
  dsimp only at before
  rwa [Function.update_of_ne different.symm] at before

theorem handle_accepted {crypto : Worker.Crypto} {fd : Fd} {other : ConnectionId}
    (event : ClientEvent) (consistent : Consistent server)
    (stored : (server.workers worker).table fd = some other)
    (handled : ∀ events, (server.workers worker).phase = .handling events →
      fd ∉ pendingFds events) :
    (server.handleClientData crypto worker fd event).accepted = server.accepted := by
  obtain ⟨object, found, same⟩ := handle_client_data_eq consistent crypto stored event
  rw [same]
  exact (run_actions_rest other (Worker.handleClientData crypto object.connection event).2
    (consistent_set_connection consistent found
      (Worker.handleClientData crypto object.connection event).1) stored handled).1

theorem disarm_epoll (events : List PollEvent) (server : TcpServer) (fd : Fd) :
    ((server.disarm worker events).workers worker).epoll fd =
      if fd ∈ pendingFds events then
        ((server.workers worker).epoll fd).map fun registration =>
          { registration with armed := false }
      else (server.workers worker).epoll fd := by
  induction events generalizing server with
  | nil => rfl
  | cons event events ih =>
      cases event with
      | listener => exact ih server
      | client number readiness =>
          rw [disarm, ih]
          have reported : fd ∈ pendingFds (.client number readiness :: events) ↔
              fd = number ∨ fd ∈ pendingFds events := List.mem_cons
          by_cases here : fd = number
          · subst here
            simp only [set_registration_same, reported, true_or, if_true, Option.map_map]
            split <;> rfl
          · have apart : ((server.setRegistration worker number
                (((server.workers worker).epoll number).map fun registration =>
                  { registration with armed := false })).workers worker).epoll fd =
                (server.workers worker).epoll fd := by
              simp [setRegistration, update_worker_same, Function.update_of_ne here]
            simp only [apart, reported, here, false_or]

theorem disarm_objects (events : List PollEvent) (server : TcpServer) :
    (server.disarm worker events).objects = server.objects ∧
      (server.disarm worker events).accepted = server.accepted := by
  induction events generalizing server with
  | nil => exact ⟨rfl, rfl⟩
  | cons event events ih =>
      cases event with
      | listener => exact ih server
      | client number readiness => exact ih _

/-- `epoll_wait` reports and disarms: the connection is still watched. -/
theorem wait_viewed {events : List PollEvent} (view : Viewed server id session)
    (consistent : Consistent server) (phase : (server.workers worker).phase = .waiting)
    (ready : ∀ event ∈ events, isReady (server.workers worker) event = true) :
    Viewed ((server.disarm worker events).setPhase worker (.handling events)) id session := by
  obtain ⟨_, running, tasks, workers⟩ := disarm_keeps worker events consistent
  have sameTasks : sessionTasks ((server.disarm worker events).setPhase worker
      (.handling events)) id = sessionTasks server id := by
    simp only [sessionTasks, setPhase, updateWorker, tasks]
  intro object found active
  have foundBefore : server.objects id = some object := by
    rw [← (disarm_objects events server).1]
    exact found
  by_cases here : object.worker = worker
  · subst here
    have shown := view object foundBefore (by rw [phase]; intro exited; cases exited)
    have idle : awaiting (server.workers object.worker) = [] := by simp [awaiting, phase]
    have armed := shown.armed
    rw [watched_eq idle] at armed
    simp only [pendingFds, List.filterMap_nil, List.not_mem_nil, decide_false,
      Bool.or_false] at armed
    refine ⟨shown.connection, ?_, shown.registered, ?_, shown.tasks.trans sameTasks.symm,
      shown.running.trans running.symm, ?_⟩
    · rw [setPhase, update_worker_same]
      dsimp only
      rw [(workers object.worker).2.1]
      exact shown.inTable
    · rw [setPhase, update_worker_same, watched_eq rfl]
      dsimp only
      rw [armed, disarm_epoll]
      split
      · rename_i reported
        obtain ⟨readiness, member⟩ := mem_pending_fds.mp reported
        have isReady := ready _ member
        unfold TcpServer.isReady at isReady
        dsimp only at isReady
        split at isReady
        · rename_i registration registered
          rw [Bool.and_eq_true] at isReady
          simp [registered, isReady.1, awaiting, reported]
        · cases isReady
      · rename_i unreported
        simp [awaiting, unreported]
    · intro readiness member
      rw [setPhase, update_worker_same] at member ⊢
      dsimp only at member ⊢
      have reported : object.fd ∈ pendingFds events := mem_pending_fds.mpr ⟨readiness, member⟩
      have isReady := ready _ member
      unfold TcpServer.isReady at isReady
      dsimp only at isReady
      split at isReady
      · rename_i registration registered
        rw [Bool.and_eq_true] at isReady
        refine ⟨registration.interest, ?_, ?_, ?_⟩
        · rw [disarm_epoll, if_pos reported, registered]
          rfl
        all_goals
          rintro rfl
          simpa using isReady.2
      · cases isReady
  · rw [setPhase, update_worker_other _ here] at active
    obtain ⟨samePhase, table, epoll⟩ := workers object.worker
    rw [samePhase] at active
    refine shows_unmoved (view object foundBefore active) ⟨?_, ?_, ?_, sameTasks, running⟩
    · rw [setPhase, update_worker_other _ here, table]
    · rw [setPhase, update_worker_other _ here]
      exact (epoll object.fd).2 (fun both => here both.1)
    · intro readiness
      rw [setPhase, update_worker_other _ here]
      simp only [awaiting, samePhase]

theorem set_phase_viewed {phase : WorkerPhase} (view : Viewed server id session)
    (active : (server.workers worker).phase ≠ .exited)
    (kept : awaiting { server.workers worker with phase := phase } =
      awaiting (server.workers worker)) : Viewed (server.setPhase worker phase) id session := by
  intro object found activeAfter
  have activeBefore : (server.workers object.worker).phase ≠ .exited := by
    by_cases here : object.worker = worker
    · rw [here]
      exact active
    · rw [setPhase, update_worker_other server here] at activeAfter
      exact activeAfter
  refine shows_unmoved (view object found activeBefore) (unmoved_set_phase ?_)
  intro _ readiness
  rw [kept]

theorem release_viewed {other : ConnectionId} (view : Viewed server id session)
    (consistent : Consistent server) : Viewed (server.releaseObject other) id session := by
  obtain ⟨tasks, _, workers⟩ := release_keeps consistent other
  intro object found active
  rw [(workers object.worker).1] at active
  refine shows_unmoved (view object (release_objects found) active)
    (unmoved_elsewhere consistent (consistent_release consistent other)
      (release_elsewhere consistent other object.worker (object.fd + 1)) active ?_ ?_)
  · rintro ⟨_, same⟩
    exact Nat.ne_of_lt (Nat.lt_succ_self object.fd) same
  · rw [sessionTasks, tasks]
    rfl

theorem accept_other_viewed {fd : Fd} (view : Viewed server id session)
    (consistent : Consistent server) (free : server.owner fd = none)
    (active : (server.workers worker).phase ≠ .exited) (different : id ≠ server.accepted) :
    Viewed (server.acceptConnection worker fd) id session := by
  obtain ⟨elsewhere, _⟩ := accept_enters consistent free active
  have consistentAfter := accept_consistent consistent free active
  have same := accept_eq consistent free active
  intro object found activeAfter
  have before : server.objects id = some object := by
    rw [same] at found
    simpa [setRegistration, setEntry, updateWorker, Function.update_of_ne different] using found
  rw [elsewhere.phase] at activeAfter
  refine shows_unmoved (view object before activeAfter)
    (unmoved_elsewhere consistent consistentAfter elsewhere activeAfter ?_ ?_)
  · rintro ⟨_, number⟩
    have owner := consistent.opened id object before
    rw [number, free] at owner
    cases owner
  · rw [same]
    rfl

theorem accept_own_viewed {fd : Fd} (consistent : Consistent server)
    (free : server.owner fd = none) (active : (server.workers worker).phase ≠ .exited) :
    Viewed (server.acceptConnection worker fd) server.accepted { running := server.running } := by
  obtain ⟨elsewhere, registered⟩ := accept_enters consistent free active
  have same := accept_eq consistent free active
  intro object found _
  have new : object = { fd := fd, worker := worker } := by
    rw [same] at found
    simpa [setRegistration, setEntry, updateWorker, eq_comm] using found
  subst new
  refine ⟨rfl, ?_, rfl, ?_, ?_, elsewhere.running.symm, ?_⟩
  · rw [same]
    simp [setRegistration, setEntry, updateWorker]
  · simp only [watched, registered]
    rfl
  · have none : server.tasks.filter (isOf server.accepted) = [] := by
      rw [List.filter_eq_nil_iff]
      intro task member own
      obtain ⟨object, present, _⟩ := consistent.tasks task member
      have older := consistent.fresh task.connection (by simp [present])
      simp only [isOf, Bool.and_eq_true, decide_eq_true_eq] at own
      exact Nat.ne_of_lt older own.1
    rw [same]
    change _ = (server.tasks.filter (isOf server.accepted)).map _
    rw [none]
    rfl
  · intro readiness member
    rw [awaiting, elsewhere.phase] at member
    split at member
    · rename_i events handling
      have known := (consistent.pending worker events handling).2 fd
        (mem_pending_fds.mpr ⟨readiness, member⟩)
      rw [(free_number consistent free worker).2 active] at known
      cases known
    · cases member

theorem sweep_viewed (stale : List Fd) {server : TcpServer} {session : Session}
    (view : Viewed server id session) (consistent : Consistent server)
    (idle : (server.workers worker).phase = .handling []) (distinct : stale.Nodup)
    (listed : ∀ fd ∈ stale, ((server.workers worker).table fd).isSome = true) :
    Viewed (server.sweepIdleConnections worker stale) id
        (if stale.any fun fd => decide ((server.workers worker).table fd = some id) then
          session.disconnectClient
        else session) ∧
      (server.sweepIdleConnections worker stale).accepted = server.accepted := by
  induction stale generalizing server session with
  | nil => exact ⟨view, rfl⟩
  | cons fd stale ih =>
      obtain ⟨entry, stored⟩ := Option.isSome_iff_exists.mp (listed fd (by simp))
      have handled : ∀ events, (server.workers worker).phase = .handling events →
          fd ∉ pendingFds events := by
        intro events handling
        rw [idle] at handling
        cases handling
        simp [pendingFds]
      have disconnected := disconnect_consistent consistent stored handled
      have elsewhere := disconnect_elsewhere consistent stored handled
      have removed := disconnect_removes consistent stored handled
      obtain ⟨_, accepted, objects⟩ := disconnect_keeps id consistent stored handled
      rw [List.nodup_cons] at distinct
      have others : ∀ number ∈ stale,
          ((server.disconnectClient worker fd).workers worker).table number =
            (server.workers worker).table number := by
        intro number member
        apply elsewhere.table worker number
        rintro ⟨_, rfl⟩
        exact distinct.1 member
      have idleAfter := (elsewhere.phase worker).trans idle
      have listedAfter : ∀ number ∈ stale,
          (((server.disconnectClient worker fd).workers worker).table number).isSome = true := by
        intro number member
        rw [others number member]
        exact listed number (List.mem_cons_of_mem _ member)
      simp only [sweepIdleConnections, disconnected.alive, Bool.false_eq_true, if_false]
      have same : (stale.any fun number =>
          decide (((server.disconnectClient worker fd).workers worker).table number = some id)) =
            stale.any fun number => decide ((server.workers worker).table number = some id) := by
        rw [Bool.eq_iff_iff, List.any_eq_true, List.any_eq_true]
        refine exists_congr fun number => and_congr_right fun member => ?_
        rw [others number member]
      by_cases own : entry = id
      · subst own
        have left := (disconnect_own_viewed view consistent stored (handling_active idle) handled).1
        obtain ⟨viewed, after⟩ := ih left disconnected idleAfter distinct.2 listedAfter
        have once : (stale.any fun number =>
            decide ((server.workers worker).table number = some entry)) = false := by
          rw [List.any_eq_false]
          intro number member again
          obtain ⟨object, found, here, _⟩ := consistent.entries worker fd entry stored
          obtain ⟨_, foundToo, there, _⟩ :=
            consistent.entries worker number entry (of_decide_eq_true again)
          obtain rfl := Option.some.inj (found.symm.trans foundToo)
          rw [← there, here] at member
          exact distinct.1 member
        rw [same, once] at viewed
        simp only [List.any_cons, stored, decide_true, Bool.true_or, if_true]
        exact ⟨viewed, after.trans accepted⟩
      · have kept := disconnect_other_viewed view consistent stored own handled
        obtain ⟨viewed, after⟩ := ih kept disconnected idleAfter distinct.2 listedAfter
        rw [same] at viewed
        simp only [List.any_cons, stored, Option.some.injEq, own, decide_false, Bool.false_or]
        exact ⟨viewed, after.trans accepted⟩

end Events

section Finish

variable {server : TcpServer} {id : ConnectionId} {session : Session} {index : Nat}
  {task : PoolTask} {throws : Bool}

/-- A task that closes nothing re-arms the connection, or is one of HTTP/2. -/
theorem finish_rearms (queued : server.tasks[index]? = some task) (started : task.ended = false)
    (kept : rawCloses server (.finish index throws) = false) :
    (task.task.rearms = false ∧ (∃ stream request, task.task = .http2 stream request) ∧
        server.finishTask index task throws = server.setTask index { task with ended := true }) ∨
      (task.task.rearms = true ∧ server.running = true ∧
        ((server.workers task.worker).epoll task.fd).isSome = true ∧
        server.finishTask index task throws =
          (server.setTask index { task with ended := true }).setRegistration task.worker task.fd
            (some { interest := .readable, armed := true })) := by
  have rearmed : (∀ stream request, task.task ≠ .http2 stream request) →
      server.rearmsNow task throws = true := by
    intro other
    simp only [rawCloses, queued, started, Bool.not_false, Bool.true_and] at kept
    cases kind : task.task with
    | http2 stream request => exact absurd kind (other stream request)
    | http request keepAlive => simpa [kind] using kept
    | webSocket frame => simpa [kind] using kept
  cases kind : task.task with
  | http2 stream request =>
      refine Or.inl ⟨rfl, ⟨stream, request, rfl⟩, ?_⟩
      simp only [finishTask, kind]
  | http request keepAlive =>
      have now := rearmed (by rw [kind]; intro _ _ same; cases same)
      have parts := now
      simp only [rearmsNow, Bool.and_eq_true] at parts
      rw [kind] at parts
      refine Or.inr ⟨parts.1.1.1, parts.1.1.2, parts.2, ?_⟩
      simp only [finishTask, kind, now, if_true]
  | webSocket frame =>
      have now := rearmed (by rw [kind]; intro _ _ same; cases same)
      have parts := now
      simp only [rearmsNow, Bool.and_eq_true] at parts
      refine Or.inr ⟨rfl, parts.1.1.2, parts.2, ?_⟩
      simp only [finishTask, kind, now, if_true]

/-- The two steps of the only task of a session that re-arms its connection. -/
theorem session_answers {crypto : Worker.Crypto} {task : Task}
    (alive : session.terminated = false) (only : session.tasks = [{ task := task }])
    (rearms : task.rearms = true) (running : session.running = true)
    (registered : session.registered = true) :
    ∃ middle, session.step crypto (.answer 0 (.returned {})) = some middle ∧
      middle.step crypto (.finish 0) = some { middle with
        tasks := [], armed := some .readable } ∧
      middle.terminated = false ∧ middle.connection = session.connection ∧
      middle.inTable = session.inTable ∧ middle.registered = true ∧ middle.running = true := by
  cases task with
  | http2 stream request => cases rearms
  | http request keepAlive =>
      refine ⟨_, by simp only [Session.step, alive, Session.answerTask, only]; rfl, ?_⟩
      simp [Session.step, Session.finishTask, rearms, running, registered]
  | webSocket frame =>
      refine ⟨_, by simp only [Session.step, alive, Session.answerTask, only]; rfl, ?_⟩
      simp [Session.step, Session.finishTask, rearms, running, registered]

theorem session_rearms (crypto : Worker.Crypto) {task : Task} (exclusive : Exclusive session)
    (alive : session.terminated = false) (only : session.tasks = [{ task := task }])
    (rearms : task.rearms = true) (running : session.running = true)
    (registered : session.registered = true) :
    ∃ next, run (Session.step crypto) session [.answer 0 (.returned {}), .finish 0] = some next ∧
      Exclusive next ∧ next.terminated = false ∧ next.connection = session.connection ∧
      next.inTable = session.inTable ∧ next.registered = true ∧
      next.armed = some .readable ∧ next.tasks = [] ∧ next.running = true := by
  obtain ⟨middle, answered, finished, still, connection, inTable, present, runs⟩ :=
    session_answers alive only rearms running registered
  have between := step_exclusive crypto _ _ _ exclusive ⟨rfl, rfl⟩ answered
  have after := step_exclusive crypto _ _ _ between ⟨rfl, rfl⟩ finished
  refine ⟨_, ?_, after, still, connection, inTable, present, rfl, rfl, runs⟩
  simp only [run, answered, finished, Option.bind_some]

/-- The connection was not watched while its task ran. -/
theorem finish_own_viewed (crypto : Worker.Crypto) (view : Viewed server id session)
    (consistent : Consistent server) (exclusive : Exclusive session)
    (alive : session.terminated = false) (queued : server.tasks[index]? = some task)
    (started : task.ended = false) (own : task.connection = id)
    (active : (server.workers task.worker).phase ≠ .exited)
    (kept : rawCloses server (.finish index throws) = false) :
    ∃ next, run (Session.step crypto) session
          (if task.task.rearms then [.answer 0 (.returned {}), .finish 0]
          else [.answer 0 (.returned {})]) = some next ∧
        Exclusive next ∧ next.terminated = false ∧
        Viewed (server.finishTask index task throws) id next := by
  obtain ⟨object, found, number, home⟩ := consistent.tasks task (List.mem_of_getElem? queued)
  rw [own] at found
  have shown := view object found (by rw [home]; exact active)
  have single := exclusive.single
  rw [shown.tasks] at single
  obtain ⟨only, left⟩ := tasks_set_own queued own started single
  have tasks := shown.tasks.trans only
  have unarmed : session.armed = none := by
    cases armed : session.armed with
    | none => rfl
    | some interest =>
        have empty := exclusive.free (by rw [armed]; rfl)
        rw [tasks] at empty
        cases empty
  have ended : Viewed (server.setTask index { task with ended := true }) id
      { session with tasks := [] } := by
    intro other foundAfter _
    obtain rfl := Option.some.inj (found.symm.trans foundAfter)
    exact ⟨shown.connection, shown.inTable, shown.registered, shown.armed, left.symm,
      shown.running, shown.pending⟩
  rcases finish_rearms queued started kept with
    ⟨rearms, ⟨stream, request, kind⟩, same⟩ | ⟨rearms, running, registered, same⟩
  · rw [rearms, same]
    have answered : session.step crypto (.answer 0 (.returned {})) =
        some { session with tasks := [] } := by
      simp [Session.step, alive, Session.answerTask, tasks, kind]
    refine ⟨_, ?_, step_exclusive crypto _ _ _ exclusive ⟨rfl, rfl⟩ answered, alive, ended⟩
    simp only [Bool.false_eq_true, if_false, run, answered, Option.bind_some]
  · rw [if_pos rearms, same]
    have stored : (server.workers task.worker).table task.fd = some id := by
      obtain ⟨entry, listed⟩ := Option.isSome_iff_exists.mp
        (consistent.registered task.worker task.fd active registered)
      obtain ⟨_, foundToo, there, _⟩ := consistent.entries task.worker task.fd entry listed
      by_cases mine : entry = id
      · exact mine ▸ listed
      · exact absurd (number.trans there.symm) (other_fd consistent found foundToo mine)
    rw [← home, ← number] at stored
    have present : session.registered = true := by
      rw [shown.registered, shown.inTable, stored, decide_eq_true rfl]
    obtain ⟨next, ran, after, still, connection, inTable, presentAfter, armed, none, runs⟩ :=
      session_rearms crypto exclusive alive tasks rearms (shown.running.trans running) present
    refine ⟨next, ran, after, still, ?_⟩
    have handled : ∀ events, ((server.setTask index { task with ended := true }).workers
        task.worker).phase = .handling events → task.fd ∉ pendingFds events := by
      intro events handling reported
      change (server.workers task.worker).phase = .handling events at handling
      obtain ⟨readiness, member⟩ := mem_pending_fds.mp reported
      have waiting : PollEvent.client object.fd readiness ∈
          awaiting (server.workers object.worker) := by
        rw [number, home, awaiting, handling]
        exact member
      obtain ⟨interest, spent, _⟩ := shown.pending readiness waiting
      have watching := shown.armed
      rw [unarmed, watched, spent] at watching
      simp [mem_pending_fds.mpr ⟨readiness, waiting⟩] at watching
    rw [home, number] at stored
    have rearmed := rearm_viewed ended (end_task_consistent consistent queued) stored handled
      .readable
    intro other foundAfter activeAfter
    have viewed := rearmed other foundAfter activeAfter
    refine ⟨connection.trans viewed.connection, inTable.trans viewed.inTable, ?_,
      armed.trans viewed.armed, none.trans viewed.tasks, ?_, viewed.pending⟩
    · rw [presentAfter, inTable, ← shown.registered, present]
    · rw [runs, ← running]
      exact (shown.running.symm.trans viewed.running)

end Finish

/-- The session is what the connection has seen of the run so far. -/
structure Follows (id : ConnectionId) (server : TcpServer) (session : Session) : Prop where
  consistent : Consistent server
  exclusive : Exclusive session
  alive : session.terminated = false
  unborn : server.accepted ≤ id → session = {}
  view : Viewed server id session

section Steps

variable {crypto : Worker.Crypto} {server after : TcpServer} {id : ConnectionId}
  {session next : Session}

theorem stored_older (consistent : Consistent server) {worker : WorkerId} {fd : Fd}
    (stored : (server.workers worker).table fd = some id) : id < server.accepted := by
  obtain ⟨object, found, _⟩ := consistent.entries worker fd id stored
  exact consistent.fresh id (by rw [found]; rfl)

theorem follows_still (follows : Follows id server session) (consistent : Consistent after)
    (accepted : after.accepted = server.accepted) (view : Viewed after id session) :
    ∃ next, run (Session.step crypto) session [] = some next ∧ Follows id after next :=
  ⟨session, rfl, consistent, follows.exclusive, follows.alive,
    fun unborn => follows.unborn (accepted ▸ unborn), view⟩

theorem follows_step {label : SessionStep} (follows : Follows id server session)
    (consistent : Consistent after) (accepted : after.accepted = server.accepted)
    (born : id < server.accepted) (stepped : session.step crypto label = some next)
    (condition : staysPlain label = true ∧ framesInTurn session label = true)
    (alive : next.terminated = false) (view : Viewed after id next) :
    ∃ next, run (Session.step crypto) session [label] = some next ∧ Follows id after next := by
  have exclusive := step_exclusive crypto _ _ _ follows.exclusive condition stepped
  refine ⟨next, ?_, consistent, exclusive, alive, ?_, view⟩
  · simp only [run, stepped, Option.bind_some]
  · intro unborn
    rw [accepted] at unborn
    exact absurd born (Nat.not_lt.mpr unborn)

theorem accept_follows {worker : WorkerId} {fd : Fd} (follows : Follows id server session)
    (free : server.owner fd = none) (active : (server.workers worker).phase ≠ .exited) :
    ∃ next, run (Session.step crypto) session (sessionSteps id server (.accept worker fd)) =
        some next ∧ Follows id (server.acceptConnection worker fd) next := by
  have consistent := follows.consistent
  have consistentAfter := accept_consistent consistent free active
  have accepted : (server.acceptConnection worker fd).accepted = server.accepted + 1 := by
    rw [accept_eq consistent free active]
    rfl
  by_cases own : server.accepted = id
  · subst own
    rw [follows.unborn (Nat.le_refl _)]
    have view := accept_own_viewed consistent free active
    have exclusive : ∀ running, Exclusive { running := running } := fun running =>
      exclusive_of_idle rfl (fun _ => rfl) rfl rfl
    have born : ∀ running, (server.acceptConnection worker fd).accepted ≤ server.accepted →
        ({ running := running } : Session) = {} := by
      intro running unborn
      omega
    cases running : server.running with
    | true =>
        rw [running] at view
        refine ⟨_, ?_, consistentAfter, exclusive true, rfl, born true, view⟩
        simp [sessionSteps, running, run]
    | false =>
        rw [running] at view
        refine ⟨_, ?_, consistentAfter, exclusive false, rfl, born false, view⟩
        simp [sessionSteps, running, run, Session.step]
  · have nothing : sessionSteps id server (.accept worker fd) = [] := by
      simp [sessionSteps, own]
    rw [nothing]
    refine ⟨session, rfl, consistentAfter, follows.exclusive, follows.alive, ?_,
      accept_other_viewed follows.view consistent free active (Ne.symm own)⟩
    intro unborn
    exact follows.unborn (by omega)

theorem client_follows {worker : WorkerId} {event : ClientEvent} {fd : Fd}
    {readiness : Readiness} {events : List PollEvent} (follows : Follows id server session)
    (phase : (server.workers worker).phase = .handling (.client fd readiness :: events))
    (turn : inTurn id server (.client worker event) = true) (consistentAfter : Consistent after)
    (same : after = match readiness with
      | .hangup => (server.setPhase worker (.handling events)).disconnectClient worker fd
      | .readable =>
          (server.setPhase worker (.handling events)).handleClientData crypto worker fd event
      | .writable => server.setPhase worker (.handling events)) :
    ∃ next, run (Session.step crypto) session (sessionSteps id server (.client worker event)) =
        some next ∧ Follows id after next := by
  have consistent := follows.consistent
  have taken := take_event consistent phase
  obtain ⟨⟨entry, storedTaken⟩, handled⟩ := taken_entry consistent phase
  have stored : (server.workers worker).table fd = some entry := by
    simpa [setPhase, update_worker_same] using storedTaken
  have activeTaken :
      ((server.setPhase worker (.handling events)).workers worker).phase ≠ .exited := by
    simp [setPhase, update_worker_same]
  have accepted : after.accepted = server.accepted := by
    subst same
    cases readiness with
    | hangup => exact (disconnect_keeps id taken storedTaken handled).2.1
    | readable => exact handle_accepted event taken storedTaken handled
    | writable => rfl
  have next := next_entry_eq phase stored
  by_cases own : entry = id
  · subst own
    obtain ⟨view, listed, armed, readable, writable⟩ :=
      taken_own_viewed follows.view consistent phase stored
    have steps : sessionSteps entry server (.client worker event) =
        [deliveredAs event readiness] := by
      simp only [sessionSteps, next, if_true]
    rw [steps]
    have born := stored_older consistent stored
    cases readiness with
    | hangup =>
        have hungUp : session.step crypto .hangup =
            some { session with armed := none }.disconnectClient := by
          rw [Session.step, follows.alive]
          simp [armed]
        subst same
        obtain ⟨left, still⟩ :=
          disconnect_own_viewed view taken storedTaken activeTaken handled
        exact follows_step follows consistentAfter accepted born hungUp ⟨rfl, rfl⟩
          (still.trans follows.alive) left
    | readable =>
        have received : session.step crypto (.readable event) =
            some (session.receive crypto event) := by
          rw [Session.step, follows.alive]
          simp [readable rfl, listed]
        subst same
        obtain ⟨left, still⟩ :=
          handle_own_viewed event view taken storedTaken activeTaken handled follows.alive
        obtain ⟨object, found, _, home, _⟩ := consistent.entries worker fd entry stored
        have connection : session.connection = object.connection :=
          (follows.view object found (by rw [home]; exact handling_active phase)).connection
        have condition : staysPlain (.readable event) = true ∧
            framesInTurn session (.readable event) = true := by
          simp only [inTurn, next, found, ne_eq, not_true_eq_false, decide_false,
            Bool.false_or, Bool.and_eq_true] at turn
          refine ⟨turn.1, ?_⟩
          simpa only [framesInTurn, connection] using turn.2
        exact follows_step follows consistentAfter accepted born received condition still left
    | writable =>
        have written : session.step crypto .writable = some { session with armed := none } := by
          rw [Session.step, follows.alive]
          simp [writable rfl]
        subst same
        exact follows_step follows consistentAfter accepted born written ⟨rfl, rfl⟩
          follows.alive view
  · have nothing : sessionSteps id server (.client worker event) = [] := by
      simp only [sessionSteps, next, if_neg own]
    rw [nothing]
    have view : Viewed (server.setPhase worker (.handling events)) id session := by
      refine taken_other_viewed follows.view phase ?_
      intro object other found mine
      cases mine
      obtain ⟨_, foundToo, there, _⟩ := consistent.entries worker object.fd entry stored
      exact other_fd consistent found foundToo own there.symm
    subst same
    cases readiness with
    | hangup =>
        exact follows_still follows consistentAfter accepted
          (disconnect_other_viewed view taken storedTaken own handled)
    | readable =>
        exact follows_still follows consistentAfter accepted
          (handle_other_viewed event view taken storedTaken own handled)
    | writable => exact follows_still follows consistentAfter accepted view

theorem sweep_follows {worker : WorkerId} {stale : List Fd} (follows : Follows id server session)
    (phase : (server.workers worker).phase = .handling []) (distinct : stale.Nodup)
    (listed : ∀ fd ∈ stale, ((server.workers worker).table fd).isSome = true)
    (consistentAfter :
      Consistent ((server.sweepIdleConnections worker stale).setPhase worker .deciding)) :
    ∃ next, run (Session.step crypto) session (sessionSteps id server (.sweep worker stale)) =
        some next ∧
      Follows id ((server.sweepIdleConnections worker stale).setPhase worker .deciding) next := by
  have consistent := follows.consistent
  obtain ⟨view, accepted⟩ := sweep_viewed stale follows.view consistent phase distinct listed
  have idle : ((server.sweepIdleConnections worker stale).workers worker).phase = .handling [] :=
    ((sweep_keeps stale consistent phase distinct listed).2.phase worker).trans phase
  have viewed := set_phase_viewed view (handling_active idle)
    (show awaiting { (server.sweepIdleConnections worker stale).workers worker with
        phase := .deciding } = _ by simp only [awaiting, idle])
  cases swept : stale.any fun fd => decide ((server.workers worker).table fd = some id) with
  | false =>
      rw [swept] at viewed
      have nothing : sessionSteps id server (.sweep worker stale) = [] := by
        simp [sessionSteps, swept]
      rw [nothing]
      exact follows_still follows consistentAfter accepted viewed
  | true =>
      rw [swept, if_pos rfl] at viewed
      have steps : sessionSteps id server (.sweep worker stale) = [.sweep] := by
        simp [sessionSteps, swept]
      rw [steps]
      obtain ⟨fd, _, mine⟩ := List.any_eq_true.mp swept
      have stored := of_decide_eq_true mine
      obtain ⟨object, found, rfl, rfl, _⟩ := consistent.entries worker fd id stored
      have shown := follows.view object found (handling_active phase)
      have inTable : session.inTable = true := by
        rw [shown.inTable, stored, decide_eq_true rfl]
      have left : session.step crypto .sweep = some session.disconnectClient := by
        rw [Session.step, follows.alive]
        simp [inTable]
      have still : session.disconnectClient.terminated = false := by
        rw [Session.disconnectClient, if_pos (shown.registered.trans inTable)]
        exact follows.alive
      exact follows_step follows consistentAfter accepted (stored_older consistent stored) left
        ⟨rfl, rfl⟩ still viewed

theorem finish_follows {index : Nat} {throws : Bool} {task : PoolTask}
    (follows : Follows id server session) (queued : server.tasks[index]? = some task)
    (started : task.ended = false) (kept : rawCloses server (.finish index throws) = false)
    (consistentAfter : Consistent (server.finishTask index task throws)) :
    ∃ next, run (Session.step crypto) session (sessionSteps id server (.finish index throws)) =
        some next ∧ Follows id (server.finishTask index task throws) next := by
  have consistent := follows.consistent
  obtain ⟨object, found, number, home⟩ := consistent.tasks task (List.mem_of_getElem? queued)
  have accepted : (server.finishTask index task throws).accepted = server.accepted := by
    rcases finish_rearms queued started kept with ⟨_, _, same⟩ | ⟨_, _, _, same⟩
    all_goals
      rw [same]
      rfl
  by_cases own : task.connection = id
  · by_cases active : (server.workers task.worker).phase = .exited
    · have nothing : sessionSteps id server (.finish index throws) = [] := by
        simp [sessionSteps, queued, active]
      rw [nothing]
      refine follows_still follows consistentAfter accepted ?_
      intro other foundAfter activeAfter
      rcases finish_rearms queued started kept with ⟨_, _, same⟩ | ⟨_, _, _, same⟩
      all_goals
        rw [same] at foundAfter activeAfter
        rw [own] at found
        obtain rfl := Option.some.inj (found.symm.trans foundAfter)
        rw [home] at activeAfter
      · exact absurd active activeAfter
      · rw [set_registration_phase] at activeAfter
        exact absurd active activeAfter
    · have steps : sessionSteps id server (.finish index throws) =
          if task.task.rearms then [.answer 0 (.returned {}), .finish 0]
          else [.answer 0 (.returned {})] := by
        simp only [sessionSteps, queued, own, active, ne_eq, not_false_eq_true, and_self, if_true]
      rw [steps]
      obtain ⟨next, ran, exclusive, alive, view⟩ := finish_own_viewed crypto follows.view consistent
        follows.exclusive follows.alive queued started own active kept
      refine ⟨next, ran, consistentAfter, exclusive, alive, ?_, view⟩
      intro unborn
      rw [accepted] at unborn
      have born := consistent.fresh task.connection (by rw [found]; rfl)
      rw [own] at born
      exact absurd born (Nat.not_lt.mpr unborn)
  · have nothing : sessionSteps id server (.finish index throws) = [] := by
      simp [sessionSteps, queued, own]
    rw [nothing]
    refine follows_still follows consistentAfter accepted ?_
    have ended := end_task_consistent consistent queued
    have viewEnded : Viewed (server.setTask index { task with ended := true }) id session := by
      intro viewed foundAfter active
      exact shows_unmoved (follows.view viewed foundAfter active)
        ⟨rfl, rfl, fun _ => Iff.rfl, tasks_set_other queued own true, rfl⟩
    rcases finish_rearms queued started kept with ⟨_, _, same⟩ | ⟨_, _, _, same⟩
    · rw [same]
      exact viewEnded
    · rw [same] at consistentAfter ⊢
      intro viewed foundAfter active
      have elsewhere := set_registration_elsewhere
        (server.setTask index { task with ended := true }) task.worker task.fd
          (some { interest := .readable, armed := true })
      rw [elsewhere.phase] at active
      refine shows_unmoved (viewEnded viewed foundAfter active)
        (unmoved_elsewhere ended consistentAfter elsewhere active ?_ rfl)
      rintro ⟨_, mine⟩
      exact other_fd consistent foundAfter found own (mine.trans number.symm)

theorem drop_viewed {index : Nat} {task : PoolTask} (view : Viewed server id session)
    (consistent : Consistent server) (queued : server.tasks[index]? = some task)
    (finished : task.ended = true ∨ (server.workers task.worker).phase = .exited) :
    Viewed ({ server with tasks := server.tasks.eraseIdx index }.releaseObject task.connection)
      id session := by
  have dropped : Consistent { server with tasks := server.tasks.eraseIdx index } :=
    consistent_set_tasks consistent fun other member =>
      consistent.tasks other ((List.eraseIdx_sublist server.tasks index).subset member)
  refine release_viewed ?_ dropped
  intro object found active
  have shown := view object found active
  have out : isOf id task = false := by
    by_cases own : task.connection = id
    · rcases finished with ended | exited
      · simp [isOf, ended]
      · obtain ⟨_, foundToo, _, home⟩ := consistent.tasks task (List.mem_of_getElem? queued)
        rw [own] at foundToo
        obtain rfl := Option.some.inj (found.symm.trans foundToo)
        rw [← home] at exited
        exact absurd exited active
    · simp [isOf, own]
  exact shows_unmoved shown ⟨rfl, rfl, fun _ => Iff.rfl, tasks_erased queued out, rfl⟩

theorem teardown_viewed {worker : WorkerId} (fd : Fd) (view : Viewed server id session)
    (consistent : Consistent server) (left : (server.workers worker).phase = .exited) :
    Viewed (server.eraseEntry worker fd) id session ∧
      (server.eraseEntry worker fd).accepted = server.accepted := by
  have elsewhere := teardown_elsewhere consistent left fd
  have consistentAfter := teardown_consistent consistent left fd
  have rest : (server.eraseEntry worker fd).accepted = server.accepted ∧
      (server.eraseEntry worker fd).tasks = server.tasks ∧
      ∀ object, (server.eraseEntry worker fd).objects id = some object →
        server.objects id = some object := by
    unfold eraseEntry
    split
    · rename_i entry _
      refine ⟨release_accepted _ entry,
        (release_keeps (consistent_leave consistent left fd) entry).1, ?_⟩
      intro object found
      have kept : (server.setEntry worker fd none).objects id = some object :=
        release_objects found
      exact kept
    · exact ⟨rfl, rfl, fun _ found => found⟩
  obtain ⟨accepted, tasks, objects⟩ := rest
  refine ⟨?_, accepted⟩
  intro object found active
  rw [elsewhere.phase] at active
  refine shows_unmoved (view object (objects object found) active)
    (unmoved_elsewhere consistent consistentAfter elsewhere active ?_ ?_)
  · rintro ⟨here, _⟩
    rw [here] at active
    exact active left
  · rw [sessionTasks, tasks]
    rfl

theorem stop_follows (follows : Follows id server session)
    (consistentAfter : Consistent { server with running := false }) :
    ∃ next, run (Session.step crypto) session (sessionSteps id server .stop) = some next ∧
      Follows id { server with running := false } next := by
  by_cases born : id < server.accepted
  · have steps : sessionSteps id server .stop = [.stop] := if_pos born
    rw [steps]
    have stopped : session.step crypto .stop = some { session with running := false } := by
      rw [Session.step, follows.alive]
      rfl
    refine follows_step follows consistentAfter rfl born stopped ⟨rfl, rfl⟩ follows.alive ?_
    intro object found active
    have shown := follows.view object found active
    exact ⟨shown.connection, shown.inTable, shown.registered, shown.armed, shown.tasks, rfl,
      shown.pending⟩
  · have nothing : sessionSteps id server .stop = [] := if_neg born
    rw [nothing]
    refine follows_still follows consistentAfter rfl ?_
    intro object found _
    exact absurd (follows.consistent.fresh id (by rw [found]; rfl)) born

theorem step_follows {label : ServerStep} (follows : Follows id server session)
    (condition : rawCloses server label = false ∧ inTurn id server label = true)
    (stepped : server.step crypto label = some after) :
    ∃ next, run (Session.step crypto) session (sessionSteps id server label) = some next ∧
      Follows id after next := by
  obtain ⟨kept, turn⟩ := condition
  have consistent := follows.consistent
  have consistentAfter := step_consistent consistent kept stepped
  cases step_stepped stepped with
  | decide worker phase =>
      refine follows_still follows consistentAfter rfl (set_phase_viewed follows.view ?_ ?_)
      · rw [phase]
        intro exited
        cases exited
      · cases server.running <;> simp only [awaiting, phase] <;> rfl
  | wait worker events phase ready =>
      exact follows_still follows consistentAfter (disarm_objects events server).2
        (wait_viewed follows.view consistent phase ready)
  | accept worker fd events phase free => exact accept_follows follows free (handling_active phase)
  | acceptEnd worker events phase =>
      refine follows_still follows consistentAfter rfl (taken_other_viewed follows.view phase ?_)
      intro object readiness _ same
      cases same
  | hangup worker event fd events phase =>
      exact client_follows follows phase turn consistentAfter rfl
  | readable worker event fd events phase =>
      exact client_follows follows phase turn consistentAfter rfl
  | writable worker event fd events phase =>
      exact client_follows follows phase turn consistentAfter rfl
  | sweep worker stale phase distinct listed =>
      exact sweep_follows follows phase distinct listed consistentAfter
  | teardown worker fd phase =>
      obtain ⟨view, accepted⟩ := teardown_viewed fd follows.view consistent phase
      exact follows_still follows consistentAfter accepted view
  | finish index throws task queued started =>
      exact finish_follows follows queued started kept consistentAfter
  | drop index task queued finished =>
      exact follows_still follows consistentAfter (release_accepted _ task.connection)
        (drop_viewed follows.view consistent queued finished)
  | hold other live =>
      refine follows_still follows consistentAfter rfl ?_
      intro object found active
      exact shows_unmoved (follows.view object found active)
        ⟨rfl, rfl, fun _ => Iff.rfl, rfl, rfl⟩
  | release other =>
      refine follows_still follows consistentAfter (release_accepted _ other)
        (release_viewed ?_ ?_)
      · intro object found active
        exact shows_unmoved (follows.view object found active)
          ⟨rfl, rfl, fun _ => Iff.rfl, rfl, rfl⟩
      · exact { consistent with
          holds := fun held member => consistent.holds held (List.mem_of_mem_erase member) }
  | stop => exact stop_follows follows consistentAfter

end Steps

/-- In every run of the server in which no task closes a number, what happens to a
connection is a run of `Session`, and while the connection and its worker last, its
object, its place in the table, its registration and its tasks are those of the session. -/
theorem connection_runs_as_session (crypto : Worker.Crypto) (labels : List ServerStep)
    (last : TcpServer) (id : ConnectionId)
    (respects : Respects (step crypto) (fun server label =>
      rawCloses server label = false ∧ inTurn id server label = true) {} labels)
    (reached : run (step crypto) {} labels = some last) :
    ∃ session, run (Session.step crypto) {} (history (step crypto) (sessionSteps id) {} labels) =
        some session ∧ Viewed last id session := by
  have start : Follows id {} {} := by
    refine ⟨initially_consistent, exclusive_of_idle rfl (fun _ => rfl) rfl rfl, rfl,
      fun _ => rfl, ?_⟩
    intro object found
    cases found
  obtain ⟨session, ran, follows⟩ := run_simulates (Follows id)
    (fun _ _ _ _ follows condition stepped => step_follows follows condition stepped) start
    respects reached
  exact ⟨session, ran, follows.view⟩

/-- A second connection is accepted and sends a request while the first one's is with
the pool. -/
def twoConnections : List ServerStep :=
  eventRun 7 keepAliveRequest ++
    [.decide 0, .wait 0 [.listener], .accept 0 8, .acceptEnd 0, .sweep 0 [], .decide 0,
      .wait 0 [.client 8 .readable], .finish 0 false, .client 0 keepAliveRequest]

theorem connection_runs_as_session_two :
    ∃ last session, run (step { generateAcceptKey := id }) {} twoConnections = some last ∧
      run (Session.step { generateAcceptKey := id }) {}
        [.readable keepAliveRequest, .answer 0 (.returned {}), .finish 0] = some session ∧
      (last.objects 0).isSome = true ∧ Viewed last 0 session := by
  have evaluated : (run (step { generateAcceptKey := id }) {} twoConnections).any
      (fun last => decide ((last.objects 0).isSome = true)) = true := by
    decide +kernel
  have respects : Respects (step { generateAcceptKey := id }) (fun server label =>
      rawCloses server label = false ∧ inTurn 0 server label = true) {} twoConnections := by
    decide +kernel
  have own : history (step { generateAcceptKey := id }) (sessionSteps 0) {} twoConnections =
      [.readable keepAliveRequest, .answer 0 (.returned {}), .finish 0] := by
    decide +kernel
  obtain ⟨last, reached, present⟩ := run_ends evaluated
  obtain ⟨session, ran, view⟩ :=
    connection_runs_as_session _ twoConnections last 0 respects reached
  rw [own] at ran
  exact ⟨last, session, reached, ran, present, view⟩

end HttpServer.ConnectionViews
