import HttpServer.DescriptorLeaks
import HttpServer.WorkerLifetime

/-!
# The entries of a waiting worker

A worker in `epoll_wait` touches neither its table nor its epoll instance, and the
others have tables and instances of their own. Its armed entries can only go with
their numbers, and the number of a connection in the table is closed by nothing but
the raw close of a task of that number. Without such a task every step of the others
leaves the entry as it is, whatever numbers are closed elsewhere.
-/

namespace HttpServer.WaitingWorkers

open TcpServer DescriptorOwnership DescriptorRuns DescriptorLeaks WorkerLifetime

/-- An armed entry whose number no other connection, table or task has. -/
structure Guarded (server : TcpServer) (worker : WorkerId) (fd : Fd) (id : ConnectionId) :
    Prop where
  stored : (server.workers worker).table fd = some id
  armed : (server.workers worker).epoll fd = some { interest := .readable, armed := true }
  owned : server.owner fd ≠ none
  object : ∃ object, server.objects id = some object ∧ object.fd = fd ∧ object.worker = worker
  alone : ∀ other object, server.objects other = some object → object.fd = fd → other = id
  tables : ∀ other, other ≠ worker → (server.workers other).table fd = none
  tasks : ∀ task ∈ server.tasks, task.fd = fd → borrowsWorker task = false
  fresh : id < server.accepted

section Steps

variable {server after : TcpServer} {worker other : WorkerId} {fd number : Fd} {id : ConnectionId}

/-- Workers and connections are as before; the tasks of the number are looked at. -/
theorem guarded_same (guarded : Guarded server worker fd id)
    (workers : after.workers = server.workers) (owner : after.owner = server.owner)
    (objects : after.objects = server.objects) (accepted : after.accepted = server.accepted)
    (tasks : ∀ task ∈ after.tasks, task.fd = fd → borrowsWorker task = false) :
    Guarded after worker fd id := by
  obtain ⟨stored, armed, owned, object, alone, tables, _, fresh⟩ := guarded
  refine ⟨?_, ?_, ?_, ?_, ?_, ?_, tasks, ?_⟩
  · rwa [workers]
  · rwa [workers]
  · rwa [owner]
  · rwa [objects]
  · rwa [objects]
  · rwa [workers]
  · rwa [accepted]

theorem guarded_other (guarded : Guarded server worker fd id) (different : other ≠ worker)
    {change : WorkerState → WorkerState}
    (free : (change (server.workers other)).table fd = none) :
    Guarded (server.updateWorker other change) worker fd id := by
  have own := update_worker_other server different.symm change
  refine { guarded with stored := ?_, armed := ?_, tables := ?_ }
  · rw [own]
    exact guarded.stored
  · rw [own]
    exact guarded.armed
  · intro third elsewhere
    by_cases here : third = other
    · subst here
      rw [update_worker_same]
      exact free
    · rw [update_worker_other server here]
      exact guarded.tables third elsewhere

theorem guarded_set_phase (guarded : Guarded server worker fd id) (different : other ≠ worker)
    (phase : WorkerPhase) : Guarded (server.setPhase other phase) worker fd id :=
  guarded_other guarded different (guarded.tables other different)

theorem guarded_set_registration (guarded : Guarded server worker fd id)
    (different : other ≠ worker) (registration : Option Registration) :
    Guarded (server.setRegistration other number registration) worker fd id :=
  guarded_other guarded different (guarded.tables other different)

theorem guarded_register (guarded : Guarded server worker fd id) (apart : number ≠ fd)
    (registration : Option Registration) :
    Guarded (server.setRegistration other number registration) worker fd id := by
  by_cases here : other = worker
  · subst here
    refine { guarded with stored := ?_, armed := ?_, tables := ?_ }
    · rw [setRegistration, update_worker_same]
      exact guarded.stored
    · rw [setRegistration, update_worker_same]
      exact (Function.update_of_ne apart.symm _ _).trans guarded.armed
    · intro third elsewhere
      rw [setRegistration, update_worker_other server elsewhere]
      exact guarded.tables third elsewhere
  · exact guarded_set_registration guarded here registration

theorem guarded_close (guarded : Guarded server worker fd id) (apart : number ≠ fd)
    (issuer : CloseIssuer) (closing : ConnectionId) :
    Guarded (server.closeFd issuer closing number) worker fd id :=
  { guarded with
    stored := guarded.stored
    armed := (Function.update_of_ne apart.symm _ _).trans guarded.armed
    owned := by
      change Function.update server.owner number none fd ≠ none
      rw [Function.update_of_ne apart.symm]
      exact guarded.owned
    tables := guarded.tables }

theorem Guarded.held (guarded : Guarded server worker fd id) : server.isHeld id = true := by
  obtain ⟨object, found, number, home⟩ := guarded.object
  refine (is_held_iff found).mpr (Or.inl ?_)
  rw [home, number]
  exact guarded.stored

/-- The entry itself holds its connection, so another one is destroyed. -/
theorem guarded_release (guarded : Guarded server worker fd id) (released : ConnectionId) :
    Guarded (server.releaseObject released) worker fd id := by
  unfold releaseObject
  split
  · rename_i object found
    split
    · exact guarded
    · rename_i unheld
      have different : id ≠ released := by
        intro same
        rw [← same] at unheld
        exact unheld guarded.held
      have apart : object.fd ≠ fd := by
        intro same
        exact different (guarded.alone released object found same).symm
      have closed := guarded_close guarded apart .destructor released
      refine { closed with object := ?_, alone := ?_ }
      · obtain ⟨own, present, places⟩ := guarded.object
        exact ⟨own, (Function.update_of_ne different _ _).trans present, places⟩
      · intro third stored present same
        change Function.update server.objects released none third = some stored at present
        by_cases gone : third = released
        · rw [gone, Function.update_self] at present
          cases present
        · rw [Function.update_of_ne gone] at present
          exact guarded.alone third stored present same
  · exact guarded

theorem guarded_erase (guarded : Guarded server worker fd id) (different : other ≠ worker) :
    Guarded (server.eraseEntry other number) worker fd id := by
  unfold eraseEntry
  split
  · apply guarded_release
    apply guarded_other guarded different
    by_cases here : fd = number
    · simp [here]
    · simpa [here] using guarded.tables other different
  · exact guarded

theorem guarded_disconnect (guarded : Guarded server worker fd id) (different : other ≠ worker) :
    Guarded (server.disconnectClient other number) worker fd id := by
  unfold disconnectClient
  split
  · exact guarded_erase (guarded_set_registration guarded different none) different
  · exact guarded_same guarded rfl rfl rfl rfl guarded.tasks

theorem guarded_enqueue (guarded : Guarded server worker fd id) {task : PoolTask}
    (apart : task.fd ≠ fd) :
    Guarded { server with tasks := server.tasks ++ [task] } worker fd id := by
  refine guarded_same guarded rfl rfl rfl rfl ?_
  intro queued member same
  rcases List.mem_append.mp member with earlier | added
  · exact guarded.tasks queued earlier same
  · rw [List.mem_singleton.mp added] at same
    exact absurd same apart

theorem guarded_actions (different : other ≠ worker) (apart : number ≠ fd)
    {served : ConnectionId} (actions : List Action) {server : TcpServer}
    (guarded : Guarded server worker fd id) :
    Guarded (server.runActions other number served actions) worker fd id := by
  induction actions generalizing server with
  | nil => exact guarded
  | cons action rest ih =>
      cases action with
      | modify interest =>
          unfold runActions
          split
          · exact ih (guarded_set_registration guarded different _)
          · exact guarded_disconnect guarded different
      | send data => exact ih guarded
      | enqueue task => exact ih (guarded_enqueue guarded apart)
      | disconnect => exact guarded_disconnect guarded different

theorem guarded_set_connection (guarded : Guarded server worker fd id)
    {served : ConnectionId} {object : ConnectionObject}
    (found : server.objects served = some object) (connection : ClientConnection) :
    Guarded { server with
      objects := Function.update server.objects served
        (some { object with connection := connection }) } worker fd id := by
  refine { guarded with
    stored := guarded.stored
    armed := guarded.armed
    tables := guarded.tables
    object := ?_
    alone := ?_ }
  · obtain ⟨own, present, places⟩ := guarded.object
    by_cases same : id = served
    · subst same
      rw [found] at present
      cases present
      exact ⟨_, Function.update_self .., places⟩
    · exact ⟨own, (Function.update_of_ne same _ _).trans present, places⟩
  · intro third stored present same
    change Function.update server.objects served _ third = some stored at present
    by_cases own : third = served
    · subst own
      rw [Function.update_self] at present
      cases present
      exact guarded.alone third object found same
    · rw [Function.update_of_ne own] at present
      exact guarded.alone third stored present same

theorem guarded_handle (guarded : Guarded server worker fd id) (different : other ≠ worker)
    (crypto : Worker.Crypto) (event : ClientEvent) :
    Guarded (server.handleClientData crypto other number event) worker fd id := by
  unfold TcpServer.handleClientData
  split
  · exact guarded
  · rename_i served stored
    have apart : number ≠ fd := by
      intro same
      rw [same, guarded.tables other different] at stored
      cases stored
    split
    · exact guarded
    · rename_i object found
      exact guarded_actions different apart _ (guarded_set_connection guarded found _)

theorem guarded_sweep (different : other ≠ worker) (stale : List Fd) {server : TcpServer}
    (guarded : Guarded server worker fd id) :
    Guarded (server.sweepIdleConnections other stale) worker fd id := by
  induction stale generalizing server with
  | nil => exact guarded
  | cons number stale ih =>
      unfold sweepIdleConnections
      dsimp only
      split
      · exact guarded_disconnect guarded different
      · exact ih (guarded_disconnect guarded different)

theorem guarded_disarm (different : other ≠ worker) (events : List PollEvent)
    {server : TcpServer} (guarded : Guarded server worker fd id) :
    Guarded (server.disarm other events) worker fd id := by
  induction events generalizing server with
  | nil => exact guarded
  | cons event events ih =>
      cases event with
      | listener => exact ih guarded
      | client number readiness => exact ih (guarded_set_registration guarded different _)

/-- The kernel hands out a number that is not open, so not this one. -/
theorem guarded_accept (guarded : Guarded server worker fd id) (different : other ≠ worker)
    (free : server.owner number = none) :
    Guarded (server.acceptConnection other number) worker fd id := by
  have apart : number ≠ fd := by
    intro same
    rw [same] at free
    exact guarded.owned free
  have opened : Guarded { server with
      owner := Function.update server.owner number (some server.accepted)
      objects := Function.update server.objects server.accepted
        (some { fd := number, worker := other })
      accepted := server.accepted + 1 } worker fd id := by
    refine { guarded with
      stored := guarded.stored
      armed := guarded.armed
      tables := guarded.tables
      owned := ?_
      object := ?_
      alone := ?_
      fresh := Nat.lt_succ_of_lt guarded.fresh }
    · change Function.update server.owner number _ fd ≠ none
      rw [Function.update_of_ne apart.symm]
      exact guarded.owned
    · obtain ⟨own, present, places⟩ := guarded.object
      have older := Nat.ne_of_lt guarded.fresh
      exact ⟨own, (Function.update_of_ne older _ _).trans present, places⟩
    · intro third stored present same
      change Function.update server.objects server.accepted _ third = some stored at present
      by_cases new : third = server.accepted
      · rw [new, Function.update_self] at present
        cases present
        exact absurd same apart
      · rw [Function.update_of_ne new] at present
        exact guarded.alone third stored present same
  have entered : Guarded ({ server with
      owner := Function.update server.owner number (some server.accepted)
      objects := Function.update server.objects server.accepted
        (some { fd := number, worker := other })
      accepted := server.accepted + 1 }.setEntry other number (some server.accepted))
      worker fd id := by
    apply guarded_other opened different
    exact (Function.update_of_ne apart.symm _ _).trans (guarded.tables other different)
  have listed : ∀ {reached : TcpServer} (refused : Bool), Guarded reached worker fd id →
      Guarded (if refused then { reached with terminated := true }
        else reached.setRegistration other number (some { interest := .readable, armed := true }))
        worker fd id := by
    intro reached refused kept
    split
    · exact guarded_same kept rfl rfl rfl rfl kept.tasks
    · exact guarded_set_registration kept different _
  unfold acceptConnection
  dsimp only
  split
  · exact listed _ (guarded_release entered _)
  · exact listed _ entered

theorem guarded_finish (guarded : Guarded server worker fd id) {index : Nat} {task : PoolTask}
    (queued : server.tasks[index]? = some task) (started : task.ended = false) (throws : Bool) :
    Guarded (server.finishTask index task throws) worker fd id := by
  have ended : Guarded (server.setTask index { task with ended := true }) worker fd id := by
    refine guarded_same guarded rfl rfl rfl rfl ?_
    intro other member same
    rcases List.mem_or_eq_of_mem_set member with earlier | rfl
    · exact guarded.tasks other earlier same
    · rfl
  unfold finishTask
  dsimp only
  split
  · exact ended
  · rename_i otherwise
    have apart : task.fd ≠ fd := by
      intro same
      have returned := guarded.tasks task (List.mem_of_getElem? queued) same
      cases kind : task.task with
      | http2 stream request => exact otherwise stream request kind
      | http request keepAlive =>
          simp [borrowsWorker, started, kind, capturesWorker] at returned
      | webSocket frame => simp [borrowsWorker, started, kind, capturesWorker] at returned
    split
    · exact guarded_register ended apart _
    · exact guarded_close ended apart _ _

theorem acting_elsewhere {label : ServerStep} (elsewhere : workerOf label ≠ some worker)
    (acting : workerOf label = some other) : other ≠ worker := by
  intro same
  rw [same] at acting
  exact elsewhere acting

/-- No step of another worker, of the pool or of a holder touches the entry. -/
theorem guarded_step {crypto : Worker.Crypto} {label : ServerStep}
    (guarded : Guarded server worker fd id) (elsewhere : workerOf label ≠ some worker)
    (stepped : server.step crypto label = some after) : Guarded after worker fd id := by
  have different : ∀ {other : WorkerId}, workerOf label = some other → other ≠ worker :=
    acting_elsewhere elsewhere
  cases step_stepped stepped with
  | decide other => exact guarded_set_phase guarded (different rfl) _
  | wait other events =>
      exact guarded_set_phase (guarded_disarm (different rfl) events guarded) (different rfl) _
  | accept other number events phase free => exact guarded_accept guarded (different rfl) free
  | acceptEnd other events => exact guarded_set_phase guarded (different rfl) _
  | hangup other event number events =>
      exact guarded_disconnect (guarded_set_phase guarded (different rfl) _) (different rfl)
  | readable other event number events =>
      exact guarded_handle (guarded_set_phase guarded (different rfl) _) (different rfl) crypto
        event
  | writable other event number events => exact guarded_set_phase guarded (different rfl) _
  | sweep other stale =>
      exact guarded_set_phase (guarded_sweep (different rfl) stale guarded) (different rfl) _
  | teardown other number => exact guarded_erase guarded (different rfl)
  | finish index throws task queued started => exact guarded_finish guarded queued started throws
  | drop index task queued =>
      apply guarded_release
      refine guarded_same guarded rfl rfl rfl rfl ?_
      exact fun other member => guarded.tasks other (List.mem_of_mem_eraseIdx member)
  | hold held => exact guarded_same guarded rfl rfl rfl rfl guarded.tasks
  | release released =>
      apply guarded_release
      exact guarded_same guarded rfl rfl rfl rfl guarded.tasks
  | stop => exact guarded_same guarded rfl rfl rfl rfl guarded.tasks

theorem phase_elsewhere {crypto : Worker.Crypto} {label : ServerStep}
    (stepped : server.step crypto label = some after) (elsewhere : workerOf label ≠ some worker) :
    (after.workers worker).phase = (server.workers worker).phase := by
  have different : ∀ {other : WorkerId}, workerOf label = some other → worker ≠ other :=
    fun acting => (acting_elsewhere elsewhere acting).symm
  cases step_stepped stepped with
  | decide other => exact set_phase_other _ _ (different rfl)
  | wait other events =>
      exact (set_phase_other _ _ (different rfl)).trans ((disarm_loops other events server).phase _)
  | accept other number => exact (accept_connection_loops other number).phase worker
  | acceptEnd other events => exact set_phase_other _ _ (different rfl)
  | hangup other event number events =>
      exact ((disconnect_client_loops other number).phase worker).trans
        (set_phase_other _ _ (different rfl))
  | readable other event number events =>
      exact ((handle_client_data_loops crypto other number event _).1 worker).trans
        (set_phase_other _ _ (different rfl))
  | writable other event number events => exact set_phase_other _ _ (different rfl)
  | sweep other stale =>
      exact (set_phase_other _ _ (different rfl)).trans ((sweep_loops other stale server).phase _)
  | teardown other number => exact (erase_entry_loops other number).phase worker
  | finish index throws task => exact (finish_loops index task throws).phase worker
  | drop index task => exact (release_object_loops task.connection).phase worker
  | hold held => rfl
  | release released => exact (release_object_loops released).phase worker
  | stop => rfl

/-- After `stop` no step of a worker leads it into `epoll_wait`. -/
theorem stopped_not_waiting {crypto : Worker.Crypto} {label : ServerStep}
    (stopped : server.running = false) (stepped : server.step crypto label = some after)
    (own : workerOf label = some worker) : (after.workers worker).phase ≠ .waiting := by
  cases step_stepped stepped with
  | decide other =>
      cases own
      simp [stopped, set_phase_same]
  | wait other events =>
      cases own
      simp [set_phase_same]
  | accept other number events phase =>
      cases own
      rw [(accept_connection_loops worker number).phase worker, phase]
      simp
  | acceptEnd other events =>
      cases own
      simp [set_phase_same]
  | hangup other event number events =>
      cases own
      rw [(disconnect_client_loops worker number).phase worker, set_phase_same]
      simp
  | readable other event number events =>
      cases own
      rw [(handle_client_data_loops crypto worker number event _).1 worker, set_phase_same]
      simp
  | writable other event number events =>
      cases own
      simp [set_phase_same]
  | sweep other stale =>
      cases own
      simp [set_phase_same]
  | teardown other number phase =>
      cases own
      rw [(erase_entry_loops worker number).phase worker, phase]
      simp
  | finish | drop | hold | release | stop => cases own

theorem stopped_survives : Survives fun server => server.running = false where
  retained off retains := retains.stopped off
  erased := by
    intro server worker fd off
    unfold eraseEntry
    split
    · unfold releaseObject
      repeat' split
      all_goals exact off
    · exact off
  dropped := by
    intro server index task _ off
    unfold releaseObject
    repeat' split
    all_goals exact off
  released := by
    intro server id off
    unfold releaseObject
    repeat' split
    all_goals exact off

theorem stopped_stays {crypto : Worker.Crypto} {label : ServerStep}
    (off : server.running = false) (stepped : server.step crypto label = some after) :
    after.running = false := by
  refine stopped_survives.step ?_ off stepped
  intro worker fd _
  apply accept_parts stopped_survives
  · intro reached id off
    unfold releaseObject
    repeat' split
    all_goals exact off
  · exact off

end Steps

def WaitersGuarded (server : TcpServer) : Prop :=
  ∀ worker fd id, (server.workers worker).phase = .waiting →
    (server.workers worker).table fd = some id → Guarded server worker fd id

theorem stopped_step {crypto : Worker.Crypto} {server after : TcpServer} {label : ServerStep}
    (stopped : server.running = false) (guarded : WaitersGuarded server)
    (stepped : server.step crypto label = some after) : WaitersGuarded after := by
  intro worker fd id waiting stored
  have elsewhere : workerOf label ≠ some worker :=
    fun own => stopped_not_waiting stopped stepped own waiting
  rw [phase_elsewhere stepped elsewhere] at waiting
  rcases step_entries stepped stored with before | ⟨rfl, _⟩
  · exact guarded_step (guarded worker fd id waiting before) elsewhere stepped
  · exact absurd rfl elsewhere

/-- What `stop` finds: every entry of a waiting worker is armed, and no task of it is
left that ends with a call on its number. -/
theorem guarded_at_stop {server : TcpServer} (consistent : Consistent server)
    {worker : WorkerId} {fd : Fd} {id : ConnectionId}
    (stored : (server.workers worker).table fd = some id)
    (armed : (server.workers worker).epoll fd = some { interest := .readable, armed := true })
    (idle : ∀ task ∈ server.tasks, task.worker = worker → borrowsWorker task = false) :
    Guarded server worker fd id := by
  obtain ⟨object, found, number, home⟩ := consistent.entry_object stored
  have opened : server.owner fd = some id := by
    rw [← number]
    exact consistent.opened id object found
  have alone : ∀ other object, server.objects other = some object → object.fd = fd →
      other = id := by
    intro other held present same
    have owner := consistent.opened other held present
    rw [same, opened] at owner
    exact (Option.some.inj owner).symm
  refine ⟨stored, armed, by simp [opened], ⟨object, found, number, home⟩, alone, ?_, ?_,
    consistent.fresh id (by simp [found])⟩
  · intro other different
    cases entry : (server.workers other).table fd with
    | none => rfl
    | some entered =>
        obtain ⟨held, present, same, place⟩ := consistent.entry_object entry
        rw [alone entered held present same, found] at present
        cases present
        exact absurd (place.symm.trans home) different
  · intro task member same
    obtain ⟨held, present, place, owner⟩ := consistent.tasks task member
    rw [alone _ held present (place.trans same), found] at present
    cases present
    exact idle task member (owner.symm.trans home)

end HttpServer.WaitingWorkers
