import HttpServer.WaitingWorkers

/-!
# Nobody waits forever

A descriptor is one-shot: once its event has been delivered, somebody has to arm
it again. An entry of a table is attended to when it is armed for reading, when
its event is still to be handled, or when a task is outstanding whose last call
arms it. `run` does nothing for `EPOLLOUT`, so a handshake that is armed for
writing is never resumed; a task that ends with the raw close leaves its entry
behind. A stopped server is looked at only where a worker still waits: no other
worker comes back to `epoll_wait`.
-/

namespace HttpServer.ConnectionAttendance

open TransitionSystem TcpServer DescriptorOwnership DescriptorRuns ClientConnection ClientHandling
open WorkerLifetime WaitingWorkers

def wantsWrite (connection : ClientConnection) (event : ClientEvent) : Bool :=
  !connection.handshakeComplete && decide (event.handshake = .wantWrite)

/-- The connection whose readable event the worker handles next. -/
def readableConnection (server : TcpServer) (worker : WorkerId) : Option ClientConnection :=
  match (server.workers worker).phase with
  | .handling (.client fd .readable :: _) =>
      (((server.workers worker).table fd).bind server.objects).map ConnectionObject.connection
  | _ => none

/-- Whether the event leaves the connection to a mask that `run` ignores, or to a
task that will not arm it again. -/
def eventStrands (connection : ClientConnection) (event : ClientEvent) : Bool :=
  wantsWrite connection event ||
    (completedRequest connection event).any fun request =>
      !wantsUpgrade request && !keepsAlive request

/-- Steps of a running server; `stop` itself turns the calls of the tasks that are left
into raw closes. -/
def strands (server : TcpServer) (label : ServerStep) : Bool :=
  server.running &&
    (rawCloses server label ||
      match label with
      | .client worker event =>
          (readableConnection server worker).any fun connection => eventStrands connection event
      | .stop =>
          server.tasks.any fun task =>
            borrowsWorker task && decide ((server.workers task.worker).phase = .waiting)
      | _ => false)

/-- A call after which the entry is attended to, or gone. -/
def Attends (action : Action) : Prop :=
  action = .modify .readable ∨ action = .disconnect ∨
    ∃ task, action = .enqueue task ∧ task.rearms = true

theorem pending_mask {connection : ClientConnection} {event : ClientEvent} {interest : Interest}
    (reads : wantsWrite connection event = false)
    (pending : connection.doHandshake event.handshake = .pending interest) :
    interest = .readable := by
  unfold doHandshake at pending
  split at pending
  · cases pending
  · rename_i incomplete
    split at pending
    · cases pending
    · cases pending
      rfl
    · rename_i answer
      simp [wantsWrite, incomplete, answer] at reads
    · cases pending

/-- Every outcome of an event that does not strand its connection: the masks it
sets are for reading, and one of its calls attends to the connection. -/
theorem handled_attends {crypto : Worker.Crypto} {connection after : ClientConnection}
    {event : ClientEvent} {actions : List Action}
    (handled : Handled crypto connection event after actions)
    (kept : eventStrands connection event = false) :
    (∀ interest, Action.modify interest ∈ actions → interest = .readable) ∧
      ∃ action ∈ actions, Attends action := by
  simp only [eventStrands, Bool.or_eq_false_iff] at kept
  obtain ⟨reads, keepAlive⟩ := kept
  cases handled with
  | handshakeFailed threw => exact ⟨by simp, .disconnect, by simp, .inr (.inl rfl)⟩
  | handshakePending interest pending =>
      cases pending_mask reads pending
      exact ⟨by simp, .modify .readable, by simp, .inl rfl⟩
  | closed opened received ended => exact ⟨by simp, .disconnect, by simp, .inr (.inl rfl)⟩
  | http2 opened received reading negotiated streams _ last ended =>
      cases ended with
      | leaves => exact ⟨by simp, .disconnect, by simp, .inr (.inl rfl)⟩
      | idle empty => exact ⟨by simp, .modify .readable, by simp, .inl rfl⟩
      | takes taken reported => exact ⟨by simp, .modify .readable, by simp, .inl rfl⟩
  | request opened received reading plain notUpgraded _ _ served =>
      have verdict := verdict_read received reading plain notUpgraded
      cases served with
      | waits stopped parsed => exact ⟨by simp, .modify .readable, by simp, .inl rfl⟩
      | refuses stopped parsed => exact ⟨by simp, .disconnect, by simp, .inr (.inl rfl)⟩
      | upgradeFails stopped greeting parsed wanted =>
          exact ⟨by simp, .disconnect, by simp, .inr (.inl rfl)⟩
      | upgrades stopped greeting parsed wanted greeted inside =>
          exact ⟨by simp, .modify .readable, by simp, .inl rfl⟩
      | dispatchFails stopped parsed outside =>
          exact ⟨by simp, .disconnect, by simp, .inr (.inl rfl)⟩
      | dispatches stopped parsed unwanted inside =>
          rw [parsed] at verdict
          simp only [completedRequest, verdict, List.any_cons, List.any_nil, Bool.or_false,
            unwanted, Bool.not_false, Bool.true_and, Bool.not_eq_false'] at keepAlive
          exact ⟨by simp, _, List.mem_singleton_self _, .inr (.inr ⟨_, rfl, keepAlive⟩)⟩
  | frames opened received reading plain upgraded control rest last allControl ended =>
      cases ended with
      | waits taken left =>
          refine ⟨?_, .modify .readable, by simp, .inl rfl⟩
          intro interest member
          rcases List.mem_append.mp member with earlier | final
          · cases List.eq_of_mem_replicate earlier
            rfl
          · simpa using final
      | leaves => exact ⟨by simp, .disconnect, by simp, .inr (.inl rfl)⟩
      | dispatches frame data taken =>
          exact ⟨by simp, .enqueue (.webSocket frame), by simp, .inr (.inr ⟨_, rfl, rfl⟩)⟩

def HasTask (server : TcpServer) (id : ConnectionId) : Prop :=
  ∃ task ∈ server.tasks, task.connection = id ∧ task.ended = false ∧ task.task.rearms = true

def IsPending (server : TcpServer) (worker : WorkerId) (fd : Fd) : Prop :=
  ∃ events, (server.workers worker).phase = .handling events ∧ fd ∈ pendingFds events

structure EntryAttended (server : TcpServer) (worker : WorkerId) (fd : Fd) (id : ConnectionId) :
    Prop where
  mask : ((server.workers worker).epoll fd).map Registration.interest = some .readable
  cared : ((server.workers worker).epoll fd).map Registration.armed = some true ∨
    HasTask server id ∨ IsPending server worker fd

structure Attended (server : TcpServer) : Prop where
  running : server.running = true
  entries : ∀ worker fd id, (server.workers worker).phase ≠ .exited →
    (server.workers worker).table fd = some id → EntryAttended server worker fd id
  events : ∀ worker events, (server.workers worker).phase = .handling events →
    ∀ fd, .client fd .writable ∉ events

theorem entry_kept {server after : TcpServer} {worker : WorkerId} {fd : Fd} {id : ConnectionId}
    (attended : EntryAttended server worker fd id)
    (registration : (after.workers worker).epoll fd = (server.workers worker).epoll fd)
    (task : HasTask server id → HasTask after id)
    (pending : IsPending server worker fd → IsPending after worker fd) :
    EntryAttended after worker fd id := by
  refine ⟨by rw [registration]; exact attended.mask, ?_⟩
  rw [registration]
  rcases attended.cared with armed | queued | waiting
  · exact .inl armed
  · exact .inr (.inl (task queued))
  · exact .inr (.inr (pending waiting))

theorem task_kept {server after : TcpServer} {id : ConnectionId}
    (tasks : ∀ task ∈ server.tasks, task ∈ after.tasks) (queued : HasTask server id) :
    HasTask after id := by
  obtain ⟨task, member, properties⟩ := queued
  exact ⟨task, tasks task member, properties⟩

theorem pending_kept {server after : TcpServer} {worker : WorkerId} {fd : Fd}
    (phase : (after.workers worker).phase = (server.workers worker).phase)
    (waiting : IsPending server worker fd) : IsPending after worker fd := by
  obtain ⟨events, handling, member⟩ := waiting
  exact ⟨events, phase.trans handling, member⟩

theorem attended_same_workers {server after : TcpServer} (attended : Attended server)
    (running : after.running = server.running) (workers : after.workers = server.workers)
    (task : ∀ worker fd id, (server.workers worker).phase ≠ .exited →
      (server.workers worker).table fd = some id → HasTask server id → HasTask after id) :
    Attended after := by
  refine ⟨running.trans attended.running, ?_, ?_⟩
  · intro worker fd id active stored
    rw [workers] at active stored
    exact entry_kept (attended.entries worker fd id active stored) (by rw [workers])
      (task worker fd id active stored) (pending_kept (by rw [workers]))
  · intro worker
    rw [workers]
    exact attended.events worker

theorem attended_shrinks {server after : TcpServer} (attended : Attended server)
    (shrinks : Shrinks server after) : Attended after := by
  refine ⟨shrinks.running.trans attended.running, ?_, ?_⟩
  · intro worker fd id active stored
    obtain ⟨before, registration⟩ := shrinks.entries worker fd id stored
    rw [shrinks.phase worker] at active
    exact entry_kept (attended.entries worker fd id active before) registration
      (task_kept shrinks.tasks) (pending_kept (shrinks.phase worker))
  · intro worker events handling
    rw [shrinks.phase worker] at handling
    exact attended.events worker events handling

/-- A call for one entry: the entry itself is what is left to look at. -/
theorem attended_elsewhere {server after : TcpServer} {worker : WorkerId} {fd : Fd}
    (attended : ∀ other number id, ¬(other = worker ∧ number = fd) →
      (server.workers other).phase ≠ .exited → (server.workers other).table number = some id →
        EntryAttended server other number id)
    (readable : ∀ other events, (server.workers other).phase = .handling events →
      ∀ number, .client number .writable ∉ events)
    (elsewhere : Elsewhere server after worker fd) (running : server.running = true)
    (here : ∀ id, (after.workers worker).phase ≠ .exited →
      (after.workers worker).table fd = some id → EntryAttended after worker fd id) :
    Attended after := by
  refine ⟨elsewhere.running.trans running, ?_, ?_⟩
  · intro other number id active stored
    by_cases same : other = worker ∧ number = fd
    · obtain ⟨rfl, rfl⟩ := same
      exact here id active stored
    · rw [elsewhere.table other number same] at stored
      rw [elsewhere.phase other] at active
      exact entry_kept (attended other number id same active stored)
        (elsewhere.epoll other number same (by simp [stored]))
        (task_kept elsewhere.tasks) (pending_kept (elsewhere.phase other))
  · intro other events handling
    rw [elsewhere.phase other] at handling
    exact readable other events handling

theorem run_actions_attend {worker : WorkerId} {fd : Fd} {id : ConnectionId}
    (actions : List Action) {server : TcpServer} (consistent : Consistent server)
    (stored : (server.workers worker).table fd = some id)
    (handled : ∀ events, (server.workers worker).phase = .handling events →
      fd ∉ pendingFds events)
    (mask : ((server.workers worker).epoll fd).map Registration.interest = some .readable)
    (reads : ∀ interest, Action.modify interest ∈ actions → interest = .readable)
    (attends : ((server.workers worker).epoll fd).map Registration.armed = some true ∨
      HasTask server id ∨ ∃ action ∈ actions, Attends action)
    (entry : ConnectionId)
    (listed : ((server.runActions worker fd id actions).workers worker).table fd = some entry) :
    EntryAttended (server.runActions worker fd id actions) worker fd entry := by
  induction actions generalizing server with
  | nil =>
      have same : entry = id := Option.some.inj (listed.symm.trans stored)
      subst same
      refine ⟨mask, ?_⟩
      rcases attends with armed | queued | ⟨_, member, _⟩
      · exact .inl armed
      · exact .inr (.inl queued)
      · cases member
  | cons action rest ih =>
      have registered := consistent.entry_registered stored
      have readsRest : ∀ interest, Action.modify interest ∈ rest → interest = .readable :=
        fun interest member => reads interest (List.mem_cons_of_mem _ member)
      cases action with
      | modify interest =>
          cases reads interest (by simp)
          simp only [runActions, registered, if_true] at listed ⊢
          apply ih (rearm_consistent consistent stored _)
          · simpa [setRegistration, update_worker_same] using stored
          · simpa [setRegistration, update_worker_same] using handled
          · simp [setRegistration, update_worker_same]
          · exact readsRest
          · exact .inl (by simp [setRegistration, update_worker_same])
          · exact listed
      | send data =>
          apply ih consistent stored handled mask readsRest _ listed
          rcases attends with armed | queued | ⟨action, member, attends⟩
          · exact .inl armed
          · exact .inr (.inl queued)
          · rcases List.mem_cons.mp member with rfl | later
            · simp [Attends] at attends
            · exact .inr (.inr ⟨action, later, attends⟩)
      | enqueue task =>
          apply ih (enqueue_consistent consistent stored task) stored handled mask readsRest _
            listed
          rcases attends with armed | ⟨other, member, properties⟩ | ⟨action, member, attends⟩
          · exact .inl armed
          · exact .inr (.inl ⟨other, List.mem_append_left _ member, properties⟩)
          · rcases List.mem_cons.mp member with rfl | later
            · simp only [Attends, reduceCtorEq, Action.enqueue.injEq, exists_eq_left', false_or]
                at attends
              exact .inr (.inl ⟨_, List.mem_append_right _ (List.mem_singleton_self _), rfl, rfl,
                attends⟩)
            · exact .inr (.inr ⟨action, later, attends⟩)
      | disconnect =>
          have removed := disconnect_removes consistent stored handled
          rw [runActions, removed] at listed
          cases listed

theorem entry_set_phase {server : TcpServer} {worker other : WorkerId} {phase : WorkerPhase}
    {fd : Fd} {id : ConnectionId} (attended : EntryAttended server other fd id)
    (pending : other = worker → IsPending server worker fd →
      ∃ events, phase = .handling events ∧ fd ∈ pendingFds events) :
    EntryAttended (server.setPhase worker phase) other fd id := by
  by_cases here : other = worker
  · subst here
    apply entry_kept attended
    · simp [setPhase, update_worker_same]
    · exact fun queued => queued
    · intro waiting
      obtain ⟨events, handling, member⟩ := pending rfl waiting
      exact ⟨events, by simpa [setPhase, update_worker_same] using handling, member⟩
  · apply entry_kept attended
    · simp [setPhase, update_worker_other server here]
    · exact fun queued => queued
    · apply pending_kept
      simp [setPhase, update_worker_other server here]

theorem readable_set_phase {server : TcpServer} {worker : WorkerId} {phase : WorkerPhase}
    (before : ∀ other events, (server.workers other).phase = .handling events →
      ∀ fd, .client fd .writable ∉ events)
    (readable : ∀ events, phase = .handling events → ∀ fd, .client fd .writable ∉ events)
    (other : WorkerId) (events : List PollEvent)
    (handling : ((server.setPhase worker phase).workers other).phase = .handling events)
    (fd : Fd) : .client fd .writable ∉ events := by
  by_cases here : other = worker
  · subst here
    simp only [setPhase, update_worker_same] at handling
    exact readable events handling fd
  · simp only [setPhase, update_worker_other server here] at handling
    exact before other events handling fd

theorem set_phase_table (server : TcpServer) (worker other : WorkerId) (phase : WorkerPhase) :
    ((server.setPhase worker phase).workers other).table = (server.workers other).table := by
  by_cases here : other = worker
  · subst here
    simp [setPhase, update_worker_same]
  · simp [setPhase, update_worker_other server here]

theorem attended_set_phase {server : TcpServer} {worker : WorkerId} {phase : WorkerPhase}
    (attended : Attended server) (active : (server.workers worker).phase ≠ .exited)
    (pending : ∀ fd, IsPending server worker fd →
      ∃ events, phase = .handling events ∧ fd ∈ pendingFds events)
    (readable : ∀ events, phase = .handling events → ∀ fd, .client fd .writable ∉ events) :
    Attended (server.setPhase worker phase) := by
  refine ⟨attended.running, ?_, ?_⟩
  · intro other fd id running stored
    rw [set_phase_table] at stored
    apply entry_set_phase _ (fun _ => pending fd)
    by_cases here : other = worker
    · subst here
      exact attended.entries other fd id active stored
    · simp only [setPhase, update_worker_other server here] at running
      exact attended.entries other fd id running stored
  · exact readable_set_phase attended.events readable

/-- `epoll_wait` disarms what it reports and reports no `EPOLLOUT`. -/
theorem wait_attended {server : TcpServer} (consistent : Consistent server)
    (attended : Attended server) {worker : WorkerId} {events : List PollEvent}
    (phase : (server.workers worker).phase = .waiting)
    (ready : ∀ event ∈ events, isReady (server.workers worker) event = true) :
    Attended ((server.disarm worker events).setPhase worker (.handling events)) := by
  obtain ⟨_, running, tasks, workers⟩ := disarm_keeps worker events consistent
  refine ⟨running.trans attended.running, ?_, ?_⟩
  · intro other fd id active stored
    rw [set_phase_table, (workers other).2.1] at stored
    have before : EntryAttended server other fd id := by
      apply attended.entries other fd id _ stored
      by_cases here : other = worker
      · simp [here, phase]
      · simpa [setPhase, update_worker_other _ here, (workers other).1] using active
    by_cases reported : other = worker ∧ fd ∈ pendingFds events
    · obtain ⟨rfl, member⟩ := reported
      refine ⟨?_, .inr (.inr ⟨events, by simp [setPhase, update_worker_same], member⟩)⟩
      simpa [setPhase, update_worker_same, ((workers other).2.2 fd).1] using before.mask
    · apply entry_set_phase
      · exact entry_kept before (((workers other).2.2 fd).2 reported)
          (task_kept (by rw [tasks]; exact fun _ member => member))
          (pending_kept (workers other).1)
      · rintro rfl ⟨left, handling, _⟩
        rw [(workers other).1, phase] at handling
        cases handling
  · apply readable_set_phase
    · intro other left handling
      rw [(workers other).1] at handling
      exact attended.events other left handling
    · intro left same fd member
      cases same
      have enabled := ready _ member
      have registered := ready_registered ready fd
        (List.mem_filterMap.mpr ⟨_, member, rfl⟩)
      obtain ⟨id, stored⟩ := Option.isSome_iff_exists.mp
        (consistent.registered worker fd (by simp [phase]) registered)
      obtain ⟨registration, found⟩ := Option.isSome_iff_exists.mp registered
      have mask := (attended.entries worker fd id (by simp [phase]) stored).mask
      simp only [found, Option.map_some, Option.some.injEq] at mask
      simp [isReady, found, mask] at enabled

theorem take_attended {server : TcpServer} (attended : Attended server) {worker : WorkerId}
    {fd : Fd} {readiness : Readiness} {events : List PollEvent}
    (phase : (server.workers worker).phase = .handling (.client fd readiness :: events))
    (other : WorkerId) (number : Fd) (id : ConnectionId)
    (different : ¬(other = worker ∧ number = fd))
    (active : ((server.setPhase worker (.handling events)).workers other).phase ≠ .exited)
    (stored : ((server.setPhase worker (.handling events)).workers other).table number = some id) :
    EntryAttended (server.setPhase worker (.handling events)) other number id := by
  rw [set_phase_table] at stored
  apply entry_set_phase
  · apply attended.entries other number id _ stored
    by_cases here : other = worker
    · simp [here, phase]
    · simpa [setPhase, update_worker_other server here] using active
  · rintro rfl ⟨left, handling, member⟩
    rw [phase] at handling
    cases handling
    refine ⟨events, rfl, ?_⟩
    simp only [pendingFds, List.filterMap_cons, PollEvent.clientFd, List.mem_cons] at member
    rcases member with rfl | later
    · exact absurd ⟨rfl, rfl⟩ different
    · exact later

theorem take_readable {server : TcpServer} (attended : Attended server) {worker : WorkerId}
    {event : PollEvent} {events : List PollEvent}
    (phase : (server.workers worker).phase = .handling (event :: events)) :
    ∀ other left, ((server.setPhase worker (.handling events)).workers other).phase =
      .handling left → ∀ fd, .client fd .writable ∉ left := by
  apply readable_set_phase attended.events
  intro left same fd member
  cases same
  exact attended.events worker _ phase fd (List.mem_cons_of_mem _ member)

theorem readable_attended {crypto : Worker.Crypto} {server : TcpServer}
    (consistent : Consistent server) (attended : Attended server) {worker : WorkerId} {fd : Fd}
    {events : List PollEvent} {event : ClientEvent}
    (phase : (server.workers worker).phase = .handling (.client fd .readable :: events))
    (kept : (readableConnection server worker).any
      (fun connection => eventStrands connection event) = false) :
    Attended ((server.setPhase worker (.handling events)).handleClientData crypto worker fd
      event) := by
  have taken := take_event consistent phase
  obtain ⟨⟨id, stored⟩, handled⟩ := taken_entry consistent phase
  obtain ⟨_, elsewhere⟩ := handle_client_data_keeps taken crypto stored handled event
  obtain ⟨object, found, same⟩ := handle_client_data_eq taken crypto stored event
  apply attended_elsewhere (take_attended attended phase) (take_readable attended phase)
    elsewhere attended.running
  intro entry _ listed
  have before : (server.workers worker).table fd = some id := by
    rwa [set_phase_table] at stored
  have mask := (attended.entries worker fd id (by simp [phase]) before).mask
  have handledBy : readableConnection server worker = some object.connection := by
    change server.objects id = some object at found
    simp [readableConnection, phase, before, found]
  rw [handledBy, Option.any_some] at kept
  obtain ⟨reads, attends⟩ := handled_attends
    (handle_client_data_handled crypto object.connection event) kept
  rw [same] at listed ⊢
  apply run_actions_attend _ (consistent_set_connection taken found _) stored handled _ reads
    (.inr (.inr attends)) entry listed
  simpa [setPhase, update_worker_same] using mask

theorem other_task_kept {tasks : List PoolTask} {index : Nat} {task other : PoolTask}
    (replacement : PoolTask) (queued : tasks[index]? = some task) (member : other ∈ tasks)
    (different : other ≠ task) :
    other ∈ tasks.set index replacement ∧ other ∈ tasks.eraseIdx index := by
  obtain ⟨position, found⟩ := List.mem_iff_getElem?.mp member
  have elsewhere : index ≠ position := by
    rintro rfl
    rw [queued] at found
    exact different (Option.some.inj found).symm
  constructor
  · exact List.mem_of_getElem? ((List.getElem?_set_ne elsewhere).trans found)
  · exact List.mem_eraseIdx_iff_getElem?.mpr ⟨position, elsewhere.symm, found⟩

theorem task_of_entry {server : TcpServer} (consistent : Consistent server) {worker : WorkerId}
    {fd : Fd} {task : PoolTask} (member : task ∈ server.tasks)
    (stored : (server.workers worker).table fd = some task.connection) :
    task.worker = worker ∧ task.fd = fd := by
  obtain ⟨object, found, number, home⟩ := consistent.tasks task member
  obtain ⟨entry, present, sameNumber, sameHome, _⟩ := consistent.entries worker fd _ stored
  rw [found] at present
  cases present
  exact ⟨home.symm.trans sameHome, number.symm.trans sameNumber⟩

theorem finish_attended {server : TcpServer} (consistent : Consistent server)
    (attended : Attended server) {index : Nat} {task : PoolTask} {throws : Bool}
    (queued : server.tasks[index]? = some task) (started : task.ended = false)
    (kept : rawCloses server (.finish index throws) = false) :
    Attended (server.finishTask index task throws) := by
  have member := List.mem_of_getElem? queued
  -- the entry of the task itself aside, no entry has lost a task
  have others : ∀ id, (task.task.rearms = false ∨ id ≠ task.connection) → HasTask server id →
      HasTask (server.setTask index { task with ended := true }) id := by
    rintro id reason ⟨other, listed, owner, unended, rearms⟩
    have different : other ≠ task := by
      rintro rfl
      rcases reason with silent | elsewhere
      · rw [rearms] at silent
        cases silent
      · exact elsewhere owner.symm
    exact ⟨other, (other_task_kept _ queued listed different).1, owner, unended, rearms⟩
  rcases finish_cases queued started kept with ⟨silent, same⟩ | ⟨registered, same⟩
  · rw [same]
    exact attended_same_workers attended rfl rfl fun worker fd id _ _ => others id (.inl silent)
  · rw [same]
    have elsewhere := set_registration_elsewhere
      (server.setTask index { task with ended := true }) task.worker task.fd
      (some { interest := .readable, armed := true })
    apply attended_elsewhere _ _ elsewhere attended.running
    · intro id _ stored
      exact ⟨by simp [setRegistration, update_worker_same],
        .inl (by simp [setRegistration, update_worker_same])⟩
    · intro worker fd id different active stored
      refine entry_kept (attended.entries worker fd id active stored) rfl
        (others id (.inr ?_)) (fun waiting => waiting)
      rintro rfl
      obtain ⟨home, number⟩ := task_of_entry consistent member stored
      exact different ⟨home.symm, number.symm⟩
    · exact attended.events

theorem drop_attended {server : TcpServer} (consistent : Consistent server)
    (attended : Attended server) {index : Nat} {task : PoolTask}
    (queued : server.tasks[index]? = some task)
    (finished : task.ended = true ∨ (server.workers task.worker).phase = .exited) :
    Attended ({ server with tasks := server.tasks.eraseIdx index }.releaseObject
      task.connection) := by
  have member := List.mem_of_getElem? queued
  have dropped : Consistent { server with tasks := server.tasks.eraseIdx index } :=
    consistent_set_tasks consistent
      fun other left => consistent.tasks other (List.mem_of_mem_eraseIdx left)
  apply attended_shrinks _ (release_shrinks dropped task.connection)
  refine attended_same_workers attended rfl rfl ?_
  rintro worker fd id active stored ⟨other, listed, rfl, unended, rearms⟩
  have different : other ≠ task := by
    rintro rfl
    rcases finished with ended | left
    · rw [unended] at ended
      cases ended
    · rw [(task_of_entry consistent listed stored).1] at left
      exact active left
  exact ⟨other, (other_task_kept task queued listed different).2, rfl, unended, rearms⟩

theorem step_attended {crypto : Worker.Crypto} {server after : TcpServer} {label : ServerStep}
    (consistent : Consistent server) (attended : Attended server) (going : label ≠ .stop)
    (kept : strands server label = false) (stepped : server.step crypto label = some after) :
    Attended after := by
  simp only [strands, attended.running, Bool.true_and, Bool.or_eq_false_iff] at kept
  obtain ⟨unclosed, kept⟩ := kept
  cases step_stepped stepped with
  | decide worker phase =>
      apply attended_set_phase attended (by simp [phase])
      · rintro fd ⟨events, handling, _⟩
        rw [phase] at handling
        cases handling
      · intro events handling
        split at handling <;> cases handling
  | wait worker events phase ready distinct =>
      exact wait_attended consistent attended phase ready
  | accept worker fd events phase free =>
      have active : (server.workers worker).phase ≠ .exited := by simp [phase]
      obtain ⟨elsewhere, registration⟩ := accept_enters consistent free active
      apply attended_elsewhere (fun other number id _ => attended.entries other number id)
        attended.events elsewhere attended.running
      intro id _ stored
      exact ⟨by rw [registration]; rfl, .inl (by rw [registration]; rfl)⟩
  | acceptEnd worker events phase =>
      apply attended_set_phase attended (by simp [phase])
      · rintro fd ⟨left, handling, member⟩
        rw [phase] at handling
        cases handling
        exact ⟨events, rfl, member⟩
      · intro left same fd member
        cases same
        exact attended.events worker _ phase fd (List.mem_cons_of_mem _ member)
  | hangup worker event fd events phase =>
      obtain ⟨⟨id, stored⟩, handled⟩ := taken_entry consistent phase
      have taken := take_event consistent phase
      apply attended_elsewhere (take_attended attended phase) (take_readable attended phase)
        (disconnect_elsewhere taken stored handled) attended.running
      intro entry _ listed
      rw [disconnect_removes taken stored handled] at listed
      cases listed
  | readable worker event fd events phase =>
      exact readable_attended consistent attended phase kept
  | writable worker event fd events phase =>
      exact absurd (by simp) (attended.events worker _ phase fd)
  | sweep worker stale phase distinct listed =>
      obtain ⟨_, shrinks⟩ := sweep_keeps stale consistent phase distinct listed
      have idle := (shrinks.phase worker).trans phase
      apply attended_set_phase (attended_shrinks attended shrinks) (by simp [idle])
      · rintro fd ⟨left, handling, member⟩
        rw [idle] at handling
        cases handling
        cases member
      · intro events handling
        cases handling
  | teardown worker fd phase =>
      have elsewhere := teardown_elsewhere consistent phase fd
      apply attended_elsewhere (fun other number id _ => attended.entries other number id)
        attended.events elsewhere attended.running
      intro id active
      exact absurd ((elsewhere.phase worker).trans phase) active
  | finish index throws task queued started =>
      exact finish_attended consistent attended queued started unclosed
  | drop index task queued finished => exact drop_attended consistent attended queued finished
  | hold id live =>
      exact attended_same_workers attended rfl rfl fun _ _ _ _ _ queued => queued
  | release id =>
      have released : Consistent { server with holds := server.holds.erase id } :=
        { consistent with
          holds := fun other member => consistent.holds other (List.mem_of_mem_erase member) }
      apply attended_shrinks _ (release_shrinks released id)
      exact attended_same_workers attended rfl rfl fun _ _ _ _ _ queued => queued
  | stop => exact absurd rfl going

/-- While a worker waits, each of its connections is armed for reading or has a
task outstanding whose last call, made now, arms it. -/
def NoneStranded (server : TcpServer) : Prop :=
  ∀ worker fd id, (server.workers worker).phase = .waiting →
    (server.workers worker).table fd = some id →
      (server.workers worker).epoll fd = some { interest := .readable, armed := true } ∨
        ∃ task ∈ server.tasks, task.connection = id ∧ task.ended = false ∧
          server.rearmsNow task false = true

theorem attended_waiting {server : TcpServer} (consistent : Consistent server)
    (attended : Attended server) : NoneStranded server := by
  intro worker fd id waiting stored
  obtain ⟨mask, cared⟩ := attended.entries worker fd id (by simp [waiting]) stored
  rcases cared with armed | ⟨task, member, rfl, unended, rearms⟩ | ⟨events, handling, _⟩
  · left
    obtain ⟨registration, found, readable⟩ := Option.map_eq_some_iff.mp mask
    rw [found, Option.map_some, Option.some.injEq] at armed
    rw [found, ← readable, ← armed]
  · right
    have registered := consistent.entry_registered stored
    obtain ⟨home, number⟩ := task_of_entry consistent member stored
    refine ⟨task, member, rfl, unended, ?_⟩
    simp [rearmsNow, rearms, attended.running, home, number, registered]
  · rw [waiting] at handling
    cases handling

theorem captures_of_rearms {task : Task} (rearms : task.rearms = true) :
    capturesWorker task = true := by
  cases task with
  | http request keepAlive => rfl
  | webSocket frame => rfl
  | http2 stream request => cases rearms

/-- `stop` finds the entries of a waiting worker armed: no task is left to wait for. -/
theorem stop_guards {server : TcpServer} (consistent : Consistent server)
    (attended : Attended server) (kept : strands server .stop = false) :
    WaitersGuarded { server with running := false } := by
  intro worker fd id waiting stored
  change (server.workers worker).phase = .waiting at waiting
  have idle : ∀ task ∈ server.tasks, task.worker = worker → borrowsWorker task = false := by
    rintro task member rfl
    simp only [strands, attended.running, rawCloses, Bool.true_and, Bool.false_or,
      List.any_eq_false, Bool.and_eq_true, decide_eq_true_eq, not_and] at kept
    exact Bool.eq_false_iff.mpr fun borrows => kept task member borrows waiting
  have guarded : Guarded server worker fd id := by
    apply guarded_at_stop consistent stored _ idle
    rcases attended_waiting consistent attended worker fd id waiting stored with
      armed | ⟨task, member, rfl, unended, rearms⟩
    · exact armed
    · have borrows := idle task member (task_of_entry consistent member stored).1
      simp only [rearmsNow, Bool.and_eq_true] at rearms
      simp [borrowsWorker, unended, captures_of_rearms rearms.1.1.1] at borrows
  exact guarded_same guarded rfl rfl rfl rfl guarded.tasks

/-- A running server attends to every entry, a stopped one to those of the workers
that still wait. -/
def Tended (server : TcpServer) : Prop :=
  Consistent server ∧ Attended server ∨ server.running = false ∧ WaitersGuarded server

theorem step_tended {crypto : Worker.Crypto} {server after : TcpServer} {label : ServerStep}
    (tended : Tended server) (kept : strands server label = false)
    (stepped : server.step crypto label = some after) : Tended after := by
  rcases tended with ⟨consistent, attended⟩ | ⟨stopped, guarded⟩
  · by_cases stops : label = .stop
    · subst stops
      right
      cases step_stepped stepped
      exact ⟨rfl, stop_guards consistent attended kept⟩
    · left
      refine ⟨step_consistent consistent ?_ stepped,
        step_attended consistent attended stops kept stepped⟩
      simp only [strands, attended.running, Bool.true_and, Bool.or_eq_false_iff] at kept
      exact kept.1
  · exact .inr ⟨stopped_stays stopped stepped, stopped_step stopped guarded stepped⟩

theorem no_connection_stranded (crypto : Worker.Crypto) (labels : List ServerStep)
    (last : TcpServer)
    (kept : Respects (step crypto) (fun server label => strands server label = false) {} labels)
    (reached : run (step crypto) {} labels = some last) : NoneStranded last := by
  have start : Tended {} := .inl ⟨initially_consistent, by constructor <;> simp⟩
  have tended := run_invariant Tended
    (fun _ _ _ before unstranded stepped => step_tended before unstranded stepped)
    start kept reached
  rcases tended with ⟨consistent, attended⟩ | ⟨_, guarded⟩
  · exact attended_waiting consistent attended
  · intro worker fd id waiting stored
    exact .inl (guarded worker fd id waiting stored).armed

/-- The worker waits while the task of a kept-alive request is queued. -/
theorem no_connection_stranded_queued :
    ∃ last, run (step { generateAcceptKey := id }) {}
        (eventRun 7 keepAliveRequest ++ [.decide 0]) = some last ∧
      (last.workers 0).phase = .waiting ∧ (last.workers 0).table 7 = some 0 ∧
      NoneStranded last := by
  have queued : (run (step { generateAcceptKey := id }) {}
      (eventRun 7 keepAliveRequest ++ ([.decide 0] : List ServerStep))).any
      (fun last => decide ((last.workers 0).phase = .waiting ∧
        (last.workers 0).table 7 = some 0)) = true := by
    decide +kernel
  obtain ⟨last, reached, waiting, stored⟩ := run_ends queued
  exact ⟨last, reached, waiting, stored, no_connection_stranded { generateAcceptKey := id }
    (eventRun 7 keepAliveRequest ++ ([.decide 0] : List ServerStep)) last (by decide +kernel)
    reached⟩

/-- `SSL_accept` wants to write: the descriptor is armed for `EPOLLOUT`, `run`
ignores the event that follows, and nobody arms the descriptor again. -/
theorem handshake_write_strands :
    ∃ last, run (step { generateAcceptKey := id }) {}
        (eventRun 7 { handshake := .wantWrite } ++
          [.decide 0, .wait 0 [.client 7 .writable], .client 0 {}, .sweep 0 [], .decide 0]) =
            some last ∧
      (last.workers 0).phase = .waiting ∧ (last.workers 0).table 7 = some 0 ∧
      (last.workers 0).epoll 7 = some { interest := .writable, armed := false } ∧
      last.tasks = [] ∧ ¬NoneStranded last := by
  have ignored : (run (step { generateAcceptKey := id }) {}
      (eventRun 7 { handshake := .wantWrite } ++
        ([.decide 0, .wait 0 [.client 7 .writable], .client 0 {}, .sweep 0 [], .decide 0] :
          List ServerStep))).any
      (fun last => decide ((last.workers 0).phase = .waiting ∧
        (last.workers 0).table 7 = some 0 ∧
        (last.workers 0).epoll 7 = some { interest := .writable, armed := false } ∧
        last.tasks = [])) = true := by
    decide +kernel
  obtain ⟨last, reached, waiting, stored, disarmed, idle⟩ := run_ends ignored
  refine ⟨last, reached, waiting, stored, disarmed, idle, ?_⟩
  intro unstranded
  rcases unstranded 0 7 0 waiting stored with armed | ⟨task, member, _⟩
  · rw [disarmed] at armed
    cases armed
  · rw [idle] at member
    cases member

end HttpServer.ConnectionAttendance
