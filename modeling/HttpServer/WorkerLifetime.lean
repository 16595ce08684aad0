import HttpServer.DescriptorRuns

/-!
# Tasks and the worker they captured

The lambdas of the HTTP and WebSocket tasks capture `this`: they read the router
and the epoll instance of the worker that queued them. A worker is a local of its
thread and goes when `run` returns, while the pool belongs to the server and is
stopped after all threads have been joined. Nothing in between waits for the
tasks, so whether a worker outlives them depends on whether any are left at the
moment its loop finds the server stopped. The task of an HTTP/2 stream captures
its connection and the router instead.
-/

namespace HttpServer.WorkerLifetime

open TransitionSystem TcpServer DescriptorRuns

def capturesWorker : Task → Bool
  | .http _ _ => true
  | .webSocket _ => true
  | .http2 _ _ => false

def borrowsWorker (task : PoolTask) : Bool :=
  !task.ended && capturesWorker task.task

/-- Leaving `run` ends the scope of the worker. -/
def isDestroyed (server : TcpServer) (worker : WorkerId) : Prop :=
  (server.workers worker).phase = .exited

def TasksWithinWorkers (server : TcpServer) : Prop :=
  ∀ task ∈ server.tasks, borrowsWorker task = true → ¬isDestroyed server task.worker

def LeavesNoTask (server : TcpServer) : ServerStep → Prop
  | .decide worker =>
      server.running = false →
        ∀ task ∈ server.tasks, task.worker = worker → borrowsWorker task = false
  | _ => True

instance (server : TcpServer) : ∀ label, Decidable (LeavesNoTask server label)
  | .decide worker =>
      inferInstanceAs (Decidable (server.running = false →
        ∀ task ∈ server.tasks, task.worker = worker → borrowsWorker task = false))
  | .wait _ _ | .accept _ _ | .acceptEnd _ | .client _ _ | .sweep _ _ | .teardown _ _
  | .finish _ _ | .drop _ | .hold _ | .release _ | .stop => isTrue trivial

/-- The worker whose thread takes the step. -/
def workerOf : ServerStep → Option WorkerId
  | .decide worker => some worker
  | .wait worker _ => some worker
  | .accept worker _ => some worker
  | .acceptEnd worker => some worker
  | .client worker _ => some worker
  | .sweep worker _ => some worker
  | .teardown worker _ => some worker
  | .finish _ _ | .drop _ | .hold _ | .release _ | .stop => none

section Frame

variable {server middle after : TcpServer}

structure LoopsKept (server after : TcpServer) : Prop where
  tasks : after.tasks = server.tasks
  phase : ∀ worker, (after.workers worker).phase = (server.workers worker).phase

theorem LoopsKept.refl (server : TcpServer) : LoopsKept server server := ⟨rfl, fun _ => rfl⟩

theorem LoopsKept.trans (first : LoopsKept server middle) (second : LoopsKept middle after) :
    LoopsKept server after :=
  ⟨second.tasks.trans first.tasks, fun worker => (second.phase worker).trans (first.phase worker)⟩

theorem update_worker_loops (worker : WorkerId) {change : WorkerState → WorkerState}
    (same : ∀ state, (change state).phase = state.phase) :
    LoopsKept server (server.updateWorker worker change) := by
  refine ⟨rfl, ?_⟩
  intro other
  by_cases here : other = worker
  · subst here
    simp [updateWorker, same]
  · simp [updateWorker, here]

theorem set_registration_loops (worker : WorkerId) (fd : Fd) (registration : Option Registration) :
    LoopsKept server (server.setRegistration worker fd registration) :=
  update_worker_loops worker fun _ => rfl

theorem set_entry_loops (worker : WorkerId) (fd : Fd) (entry : Option ConnectionId) :
    LoopsKept server (server.setEntry worker fd entry) :=
  update_worker_loops worker fun _ => rfl

theorem release_object_loops (id : ConnectionId) : LoopsKept server (server.releaseObject id) := by
  unfold releaseObject
  repeat' split
  all_goals exact ⟨rfl, fun _ => rfl⟩

theorem erase_entry_loops (worker : WorkerId) (fd : Fd) :
    LoopsKept server (server.eraseEntry worker fd) := by
  unfold eraseEntry
  split
  · exact (set_entry_loops worker fd none).trans (release_object_loops _)
  · exact .refl server

theorem disconnect_client_loops (worker : WorkerId) (fd : Fd) :
    LoopsKept server (server.disconnectClient worker fd) := by
  unfold disconnectClient
  split
  · exact (set_registration_loops worker fd none).trans (erase_entry_loops worker fd)
  · exact ⟨rfl, fun _ => rfl⟩

theorem register_loops (kept : LoopsKept server after) (worker : WorkerId) (fd : Fd)
    (refused : Bool) :
    LoopsKept server
      (if refused then { after with terminated := true }
      else after.setRegistration worker fd (some { interest := .readable, armed := true })) := by
  split
  · exact ⟨kept.tasks, kept.phase⟩
  · exact kept.trans (set_registration_loops worker fd _)

theorem accept_connection_loops (worker : WorkerId) (fd : Fd) :
    LoopsKept server (server.acceptConnection worker fd) := by
  have entered : LoopsKept server
      ({ server with
        owner := Function.update server.owner fd (some server.accepted)
        objects := Function.update server.objects server.accepted
          (some { fd := fd, worker := worker })
        accepted := server.accepted + 1 }.setEntry worker fd (some server.accepted)) := by
    obtain ⟨tasks, phase⟩ := set_entry_loops worker fd (some server.accepted)
    exact ⟨tasks, phase⟩
  unfold acceptConnection
  dsimp only
  split
  · exact register_loops (entered.trans (release_object_loops _)) worker fd _
  · exact register_loops entered worker fd _

theorem sweep_loops (worker : WorkerId) (stale : List Fd) (server : TcpServer) :
    LoopsKept server (server.sweepIdleConnections worker stale) := by
  induction stale generalizing server with
  | nil => exact .refl server
  | cons fd stale ih =>
      simp only [sweepIdleConnections]
      split
      · exact disconnect_client_loops worker fd
      · exact (disconnect_client_loops worker fd).trans (ih _)

theorem disarm_loops (worker : WorkerId) (events : List PollEvent) (server : TcpServer) :
    LoopsKept server (server.disarm worker events) := by
  induction events generalizing server with
  | nil => exact .refl server
  | cons event events ih =>
      cases event with
      | listener => exact ih server
      | client fd readiness => exact (set_registration_loops worker fd _).trans (ih _)

/-- The calls of `handleClientData` queue tasks of the calling worker only. -/
theorem run_actions_loops (worker : WorkerId) (fd : Fd) (id : ConnectionId)
    (actions : List Action) (server : TcpServer) :
    (∀ other, ((server.runActions worker fd id actions).workers other).phase =
        (server.workers other).phase) ∧
      ∀ task ∈ (server.runActions worker fd id actions).tasks,
        task ∈ server.tasks ∨ task.worker = worker := by
  induction actions generalizing server with
  | nil => exact ⟨fun _ => rfl, fun _ member => Or.inl member⟩
  | cons action actions ih =>
      have disconnected := @disconnect_client_loops server worker fd
      have dropped : ∀ task ∈ (server.disconnectClient worker fd).tasks,
          task ∈ server.tasks ∨ task.worker = worker := by
        intro task member
        rw [disconnected.tasks] at member
        exact Or.inl member
      cases action with
      | modify interest =>
          simp only [runActions]
          split
          · have armed := @set_registration_loops server worker fd
              (some { interest := interest, armed := true })
            obtain ⟨phase, tasks⟩ := ih (server.setRegistration worker fd
              (some { interest := interest, armed := true }))
            rw [armed.tasks] at tasks
            exact ⟨fun other => (phase other).trans (armed.phase other), tasks⟩
          · exact ⟨disconnected.phase, dropped⟩
      | send data => exact ih server
      | enqueue task =>
          obtain ⟨phase, tasks⟩ := ih { server with
            tasks := server.tasks ++
              [{ connection := id, worker := worker, fd := fd, task := task }] }
          refine ⟨phase, ?_⟩
          intro other member
          rcases tasks other member with earlier | own
          · rcases List.mem_append.mp earlier with before | added
            · exact Or.inl before
            · rw [List.mem_singleton.mp added]
              exact Or.inr rfl
          · exact Or.inr own
      | disconnect => exact ⟨disconnected.phase, dropped⟩

theorem handle_client_data_loops (crypto : Worker.Crypto) (worker : WorkerId) (fd : Fd)
    (event : ClientEvent) (server : TcpServer) :
    (∀ other, ((server.handleClientData crypto worker fd event).workers other).phase =
        (server.workers other).phase) ∧
      ∀ task ∈ (server.handleClientData crypto worker fd event).tasks,
        task ∈ server.tasks ∨ task.worker = worker := by
  unfold TcpServer.handleClientData
  repeat' split
  · exact ⟨fun _ => rfl, fun _ member => Or.inl member⟩
  · exact ⟨fun _ => rfl, fun _ member => Or.inl member⟩
  · exact run_actions_loops worker fd _ _ _

theorem finish_loops (index : Nat) (task : PoolTask) (throws : Bool) :
    LoopsKept (server.setTask index { task with ended := true })
      (server.finishTask index task throws) := by
  unfold finishTask
  repeat' split
  · exact .refl _
  · exact set_registration_loops _ _ _
  · exact ⟨rfl, fun _ => rfl⟩

end Frame

section Steps

variable {crypto : Worker.Crypto} {server after : TcpServer}

theorem within_kept (within : TasksWithinWorkers server)
    (present : ∀ worker, isDestroyed after worker → isDestroyed server worker)
    (borrowed : ∀ task ∈ after.tasks, borrowsWorker task = true →
      task ∈ server.tasks ∨ ¬isDestroyed server task.worker) : TasksWithinWorkers after := by
  intro task member borrows destroyed
  rcases borrowed task member borrows with before | alive
  · exact within task before borrows (present task.worker destroyed)
  · exact alive (present task.worker destroyed)

theorem within_loops (within : TasksWithinWorkers server) (kept : LoopsKept server after) :
    TasksWithinWorkers after := by
  apply within_kept within
  · intro worker destroyed
    exact (kept.phase worker).symm.trans destroyed
  · intro task member _
    rw [kept.tasks] at member
    exact Or.inl member

theorem set_phase_same (server : TcpServer) (worker : WorkerId) (phase : WorkerPhase) :
    ((server.setPhase worker phase).workers worker).phase = phase := by
  simp [setPhase, updateWorker]

theorem set_phase_other (server : TcpServer) {worker other : WorkerId} (phase : WorkerPhase)
    (different : other ≠ worker) :
    ((server.setPhase worker phase).workers other).phase = (server.workers other).phase := by
  simp [setPhase, updateWorker, different]

theorem within_set_phase (within : TasksWithinWorkers server) {worker : WorkerId}
    {phase : WorkerPhase} (going : phase ≠ .exited) :
    TasksWithinWorkers (server.setPhase worker phase) := by
  apply within_kept within
  · intro other destroyed
    by_cases here : other = worker
    · subst here
      exact absurd ((set_phase_same server other phase).symm.trans destroyed) going
    · exact (set_phase_other server phase here).symm.trans destroyed
  · exact fun _ member _ => Or.inl member

theorem within_handling (within : TasksWithinWorkers server) (worker : WorkerId)
    (events : List PollEvent) : TasksWithinWorkers (server.setPhase worker (.handling events)) :=
  within_set_phase within nofun

theorem within_exit_iff (within : TasksWithinWorkers server) (worker : WorkerId) :
    TasksWithinWorkers (server.setPhase worker .exited) ↔
      ∀ task ∈ server.tasks, task.worker = worker → borrowsWorker task = false := by
  constructor
  · intro still task member own
    by_contra borrows
    rw [Bool.not_eq_false] at borrows
    apply still task member borrows
    rw [own]
    exact set_phase_same server worker .exited
  · intro unborrowed task member borrows destroyed
    by_cases own : task.worker = worker
    · rw [unborrowed task member own] at borrows
      cases borrows
    · exact within task member borrows
        ((set_phase_other server .exited own).symm.trans destroyed)

theorem within_finish (within : TasksWithinWorkers server) {index : Nat} (task : PoolTask)
    (throws : Bool) : TasksWithinWorkers (server.finishTask index task throws) := by
  have ended : TasksWithinWorkers (server.setTask index { task with ended := true }) := by
    apply within_kept within
    · exact fun _ destroyed => destroyed
    · intro other member borrows
      rcases List.mem_or_eq_of_mem_set member with before | same
      · exact Or.inl before
      · rw [same] at borrows
        cases borrows
  unfold finishTask
  repeat' split
  · exact ended
  · exact within_loops ended (set_registration_loops _ _ _)
  · exact within_loops ended ⟨rfl, fun _ => rfl⟩

theorem within_handled (within : TasksWithinWorkers server) {worker : WorkerId} {fd : Fd}
    {event : ClientEvent} (present : ¬isDestroyed server worker) :
    TasksWithinWorkers (server.handleClientData crypto worker fd event) := by
  obtain ⟨phase, tasks⟩ := handle_client_data_loops crypto worker fd event server
  apply within_kept within
  · intro other destroyed
    exact (phase other).symm.trans destroyed
  · intro task member _
    rcases tasks task member with before | own
    · exact Or.inl before
    · exact Or.inr (own ▸ present)

theorem within_drop (within : TasksWithinWorkers server) (index : Nat) (id : ConnectionId) :
    TasksWithinWorkers ({ server with tasks := server.tasks.eraseIdx index }.releaseObject id) := by
  have dropped : TasksWithinWorkers { server with tasks := server.tasks.eraseIdx index } :=
    fun task member => within task (List.mem_of_mem_eraseIdx member)
  exact within_loops dropped (release_object_loops id)

/-- A step keeps the workers of all tasks exactly when no worker leaves one behind. -/
theorem step_within_iff {label : ServerStep} (within : TasksWithinWorkers server)
    (stepped : server.step crypto label = some after) :
    TasksWithinWorkers after ↔ LeavesNoTask server label := by
  cases step_stepped stepped with
  | decide worker phase =>
      cases running : server.running with
      | true =>
          rw [if_pos rfl]
          refine ⟨fun _ stopped => ?_, fun _ => within_set_phase within (by decide)⟩
          rw [running] at stopped
          cases stopped
      | false =>
          rw [if_neg Bool.false_ne_true, within_exit_iff within]
          exact ⟨fun unborrowed _ => unborrowed, fun leaves => leaves running⟩
  | wait worker events phase ready distinct =>
      refine iff_of_true ?_ trivial
      exact within_set_phase (within_loops within (disarm_loops worker events server)) nofun
  | accept worker fd events phase free =>
      refine iff_of_true ?_ trivial
      exact within_loops within (accept_connection_loops worker fd)
  | acceptEnd worker events phase =>
      refine iff_of_true ?_ trivial
      exact within_set_phase within nofun
  | hangup worker event fd events phase =>
      refine iff_of_true ?_ trivial
      exact within_loops (within_handling within worker events) (disconnect_client_loops worker fd)
  | readable worker event fd events phase =>
      refine iff_of_true ?_ trivial
      apply within_handled (within_handling within worker events)
      intro destroyed
      cases (set_phase_same server worker (.handling events)).symm.trans destroyed
  | writable worker event fd events phase =>
      refine iff_of_true ?_ trivial
      exact within_set_phase within nofun
  | sweep worker stale phase distinct listed =>
      refine iff_of_true ?_ trivial
      exact within_set_phase (within_loops within (sweep_loops worker stale server)) nofun
  | teardown worker fd phase =>
      refine iff_of_true ?_ trivial
      exact within_loops within (erase_entry_loops worker fd)
  | finish index throws task queued started =>
      refine iff_of_true ?_ trivial
      exact within_finish within task throws
  | drop index task queued finished =>
      refine iff_of_true ?_ trivial
      exact within_drop within index task.connection
  | hold id live =>
      refine iff_of_true ?_ trivial
      exact within_loops within ⟨rfl, fun _ => rfl⟩
  | release id =>
      refine iff_of_true ?_ trivial
      have erased : LoopsKept server { server with holds := server.holds.erase id } :=
        ⟨rfl, fun _ => rfl⟩
      exact within_loops within (erased.trans (release_object_loops id))
  | stop =>
      refine iff_of_true ?_ trivial
      exact within_loops within ⟨rfl, fun _ => rfl⟩

end Steps

/-- Along a run no task outlives its worker exactly when no worker leaves its
loop with a task still queued or running. -/
theorem tasks_within_workers_iff (crypto : Worker.Crypto) (labels : List ServerStep)
    (last : TcpServer) (reached : run (step crypto) {} labels = some last) :
    Throughout (step crypto) TasksWithinWorkers {} labels ↔
      Respects (step crypto) LeavesNoTask {} labels := by
  apply throughout_iff_respects TasksWithinWorkers
  · intro server label after within stepped
    exact step_within_iff within stepped
  · intro task member
    cases member
  · exact reached

theorem tasks_within_workers_iff_served :
    ∃ last, run (step { generateAcceptKey := id }) {}
        (eventRun 7 keepAliveRequest ++ [.finish 0 false, .stop, .decide 0]) = some last ∧
      (last.workers 0).phase = .exited ∧
      Throughout (step { generateAcceptKey := id }) TasksWithinWorkers {}
        (eventRun 7 keepAliveRequest ++ [.finish 0 false, .stop, .decide 0]) := by
  have served : (run (step { generateAcceptKey := id }) {}
      (eventRun 7 keepAliveRequest ++
        ([.finish 0 false, .stop, .decide 0] : List ServerStep))).any
      (fun last => decide ((last.workers 0).phase = .exited)) = true := by
    decide +kernel
  obtain ⟨last, reached, left⟩ := run_ends served
  refine ⟨last, reached, left, ?_⟩
  exact (tasks_within_workers_iff _ _ last reached).mpr (by decide +kernel)

/-- A request is queued when the server is stopped; its worker leaves first. -/
theorem queued_task_outlives_worker :
    ∃ last, run (step { generateAcceptKey := id }) {}
        (eventRun 7 keepAliveRequest ++ [.stop, .decide 0]) = some last ∧
      (∃ task ∈ last.tasks, borrowsWorker task = true ∧ isDestroyed last task.worker) ∧
      ¬TasksWithinWorkers last := by
  have queued : (run (step { generateAcceptKey := id }) {}
      (eventRun 7 keepAliveRequest ++ ([.stop, .decide 0] : List ServerStep))).any
      (fun last => decide (∃ task ∈ last.tasks, borrowsWorker task = true ∧
        (last.workers task.worker).phase = .exited)) = true := by
    decide +kernel
  obtain ⟨last, reached, task, member, borrows, left⟩ := run_ends queued
  exact ⟨last, reached, ⟨task, member, borrows, left⟩,
    fun within => within task member borrows left⟩

end HttpServer.WorkerLifetime
