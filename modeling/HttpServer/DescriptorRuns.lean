import HttpServer.DescriptorOwnership
import HttpServer.TransitionSystem

/-!
# Descriptors along a run of the server

`step_consistent` carries the invariant of the descriptor table through every
step but a raw close, so it holds in every state of a run in which no pool task
ends with that call: the keys of the tables are open, registered numbers of the
connections stored under them, and every `::close` acts on the number of the
connection on whose behalf it is made. One raw close is enough to lose both.
-/

namespace HttpServer.DescriptorRuns

open TransitionSystem TcpServer DescriptorOwnership

inductive Stepped (crypto : Worker.Crypto) (server : TcpServer) : ServerStep → TcpServer → Prop
  | decide (worker : WorkerId) (phase : (server.workers worker).phase = .deciding) :
      Stepped crypto server (.decide worker)
        (server.setPhase worker (if server.running then .waiting else .exited))
  | wait (worker : WorkerId) (events : List PollEvent)
      (phase : (server.workers worker).phase = .waiting)
      (ready : ∀ event ∈ events, isReady (server.workers worker) event = true)
      (distinct : (pendingFds events).Nodup) :
      Stepped crypto server (.wait worker events)
        ((server.disarm worker events).setPhase worker (.handling events))
  | accept (worker : WorkerId) (fd : Fd) (events : List PollEvent)
      (phase : (server.workers worker).phase = .handling (.listener :: events))
      (free : server.owner fd = none) :
      Stepped crypto server (.accept worker fd) (server.acceptConnection worker fd)
  | acceptEnd (worker : WorkerId) (events : List PollEvent)
      (phase : (server.workers worker).phase = .handling (.listener :: events)) :
      Stepped crypto server (.acceptEnd worker) (server.setPhase worker (.handling events))
  | hangup (worker : WorkerId) (event : ClientEvent) (fd : Fd) (events : List PollEvent)
      (phase : (server.workers worker).phase = .handling (.client fd .hangup :: events)) :
      Stepped crypto server (.client worker event)
        ((server.setPhase worker (.handling events)).disconnectClient worker fd)
  | readable (worker : WorkerId) (event : ClientEvent) (fd : Fd) (events : List PollEvent)
      (phase : (server.workers worker).phase = .handling (.client fd .readable :: events)) :
      Stepped crypto server (.client worker event)
        ((server.setPhase worker (.handling events)).handleClientData crypto worker fd event)
  | writable (worker : WorkerId) (event : ClientEvent) (fd : Fd) (events : List PollEvent)
      (phase : (server.workers worker).phase = .handling (.client fd .writable :: events)) :
      Stepped crypto server (.client worker event) (server.setPhase worker (.handling events))
  | sweep (worker : WorkerId) (stale : List Fd)
      (phase : (server.workers worker).phase = .handling []) (distinct : stale.Nodup)
      (listed : ∀ fd ∈ stale, ((server.workers worker).table fd).isSome = true) :
      Stepped crypto server (.sweep worker stale)
        ((server.sweepIdleConnections worker stale).setPhase worker .deciding)
  | teardown (worker : WorkerId) (fd : Fd) (phase : (server.workers worker).phase = .exited) :
      Stepped crypto server (.teardown worker fd) (server.eraseEntry worker fd)
  | finish (index : Nat) (throws : Bool) (task : PoolTask)
      (queued : server.tasks[index]? = some task) (started : task.ended = false) :
      Stepped crypto server (.finish index throws) (server.finishTask index task throws)
  | drop (index : Nat) (task : PoolTask) (queued : server.tasks[index]? = some task)
      (finished : task.ended = true ∨ (server.workers task.worker).phase = .exited) :
      Stepped crypto server (.drop index)
        ({ server with tasks := server.tasks.eraseIdx index }.releaseObject task.connection)
  | hold (id : ConnectionId) (live : (server.objects id).isSome = true) :
      Stepped crypto server (.hold id) { server with holds := id :: server.holds }
  | release (id : ConnectionId) :
      Stepped crypto server (.release id)
        ({ server with holds := server.holds.erase id }.releaseObject id)
  | stop : Stepped crypto server .stop { server with running := false }

theorem step_stepped {crypto : Worker.Crypto} {server after : TcpServer} {label : ServerStep}
    (stepped : server.step crypto label = some after) : Stepped crypto server label after := by
  unfold TcpServer.step at stepped
  split at stepped
  · cases stepped
  cases label with
  | decide worker =>
      simp only [Option.ite_none_right_eq_some, Option.some.injEq] at stepped
      obtain ⟨phase, rfl⟩ := stepped
      exact .decide worker phase
  | wait worker events =>
      simp only [Option.ite_none_right_eq_some, Option.some.injEq, List.all_eq_true] at stepped
      obtain ⟨⟨phase, ready, distinct⟩, rfl⟩ := stepped
      exact .wait worker events phase ready distinct
  | accept worker fd =>
      dsimp only at stepped
      split at stepped
      · rename_i events phase
        simp only [Option.ite_none_right_eq_some, Option.some.injEq] at stepped
        obtain ⟨free, rfl⟩ := stepped
        exact .accept worker fd events phase free
      · cases stepped
  | acceptEnd worker =>
      dsimp only at stepped
      split at stepped
      · rename_i events phase
        cases stepped
        exact .acceptEnd worker events phase
      · cases stepped
  | client worker event =>
      dsimp only at stepped
      split at stepped
      · rename_i fd readiness events phase
        cases readiness with
        | hangup =>
            cases stepped
            exact .hangup worker event fd events phase
        | readable =>
            cases stepped
            exact .readable worker event fd events phase
        | writable =>
            cases stepped
            exact .writable worker event fd events phase
      · cases stepped
  | sweep worker stale =>
      simp only [Option.ite_none_right_eq_some, Option.some.injEq, List.all_eq_true] at stepped
      obtain ⟨⟨phase, distinct, listed⟩, rfl⟩ := stepped
      exact .sweep worker stale phase distinct listed
  | teardown worker fd =>
      simp only [Option.ite_none_right_eq_some, Option.some.injEq] at stepped
      obtain ⟨⟨phase, _⟩, rfl⟩ := stepped
      exact .teardown worker fd phase
  | finish index throws =>
      dsimp only at stepped
      split at stepped
      · rename_i task queued
        split at stepped
        · cases stepped
        · rename_i started
          cases stepped
          exact .finish index throws task queued (by simpa using started)
      · cases stepped
  | drop index =>
      dsimp only at stepped
      split at stepped
      · rename_i task queued
        simp only [Bool.or_eq_true, decide_eq_true_eq, Option.ite_none_right_eq_some,
          Option.some.injEq] at stepped
        obtain ⟨finished, rfl⟩ := stepped
        exact .drop index task queued finished
      · cases stepped
  | hold id =>
      simp only [Option.ite_none_right_eq_some, Option.some.injEq] at stepped
      obtain ⟨live, rfl⟩ := stepped
      exact .hold id live
  | release id =>
      simp only [Option.ite_none_right_eq_some, Option.some.injEq] at stepped
      obtain ⟨_, rfl⟩ := stepped
      exact .release id
  | stop =>
      cases stepped
      exact .stop

theorem take_event {server : TcpServer} (consistent : Consistent server) {worker : WorkerId}
    {event : PollEvent} {events : List PollEvent}
    (phase : (server.workers worker).phase = .handling (event :: events)) :
    Consistent (server.setPhase worker (.handling events)) := by
  obtain ⟨distinct, ready⟩ := consistent.pending worker _ phase
  apply consistent_set_phase consistent (by simp [phase])
  intro left same
  cases same
  have tail : (pendingFds events).Sublist (pendingFds (event :: events)) :=
    (List.sublist_cons_self event events).filterMap _
  exact ⟨distinct.sublist tail, fun fd member => ready fd (tail.subset member)⟩

theorem taken_entry {server : TcpServer} (consistent : Consistent server) {worker : WorkerId}
    {fd : Fd} {readiness : Readiness} {events : List PollEvent}
    (phase : (server.workers worker).phase = .handling (.client fd readiness :: events)) :
    (∃ id, ((server.setPhase worker (.handling events)).workers worker).table fd = some id) ∧
      ∀ left, ((server.setPhase worker (.handling events)).workers worker).phase =
        .handling left → fd ∉ pendingFds left := by
  obtain ⟨distinct, ready⟩ := consistent.pending worker _ phase
  simp only [pendingFds, List.filterMap_cons, PollEvent.clientFd, List.nodup_cons] at distinct
  have registered := ready fd (by simp [pendingFds, PollEvent.clientFd])
  have listed := consistent.registered worker fd (by simp [phase]) registered
  simp only [setPhase, update_worker_same]
  refine ⟨Option.isSome_iff_exists.mp listed, ?_⟩
  intro left same
  cases same
  exact distinct.1

theorem ready_registered {state : WorkerState} {events : List PollEvent}
    (ready : ∀ event ∈ events, isReady state event = true) :
    ∀ fd ∈ pendingFds events, (state.epoll fd).isSome = true := by
  intro fd member
  obtain ⟨event, reported, number⟩ := List.mem_filterMap.mp member
  have enabled := ready event reported
  cases event with
  | listener => cases number
  | client reportedFd readiness =>
      simp only [PollEvent.clientFd, Option.some.injEq] at number
      subst number
      simp only [isReady] at enabled
      split at enabled
      · rename_i registration found
        simp [found]
      · cases enabled

theorem step_consistent {crypto : Worker.Crypto} {server after : TcpServer} {label : ServerStep}
    (consistent : Consistent server) (kept : rawCloses server label = false)
    (stepped : server.step crypto label = some after) : Consistent after := by
  cases step_stepped stepped with
  | decide worker phase =>
      apply consistent_set_phase consistent (by simp [phase])
      intro events handling
      split at handling <;> cases handling
  | wait worker events phase ready distinct =>
      obtain ⟨disarmed, _, _, workers⟩ := disarm_keeps worker events consistent
      apply consistent_set_phase disarmed (by simp [(workers worker).1, phase])
      intro reported same
      cases same
      refine ⟨distinct, ?_⟩
      intro fd member
      have mask := congrArg Option.isSome ((workers worker).2.2 fd).1
      simp only [Option.isSome_map] at mask
      rw [mask]
      exact ready_registered ready fd member
  | accept worker fd events phase free =>
      exact accept_consistent consistent free (by simp [phase])
  | acceptEnd worker events phase => exact take_event consistent phase
  | hangup worker event fd events phase =>
      obtain ⟨⟨id, stored⟩, handled⟩ := taken_entry consistent phase
      exact disconnect_consistent (take_event consistent phase) stored handled
  | readable worker event fd events phase =>
      obtain ⟨⟨id, stored⟩, handled⟩ := taken_entry consistent phase
      exact (handle_client_data_keeps (take_event consistent phase) crypto stored handled event).1
  | writable worker event fd events phase => exact take_event consistent phase
  | sweep worker stale phase distinct listed =>
      obtain ⟨swept, shrinks⟩ := sweep_keeps stale consistent phase distinct listed
      apply consistent_set_phase swept (by simp [shrinks.phase worker, phase])
      intro events handling
      cases handling
  | teardown worker fd phase => exact teardown_consistent consistent phase fd
  | finish index throws task queued started =>
      exact finish_consistent consistent queued started kept
  | drop index task queued finished =>
      apply consistent_release
      apply consistent_set_tasks consistent
      exact fun other member => consistent.tasks other (List.mem_of_mem_eraseIdx member)
  | hold id live =>
      refine { consistent with holds := ?_ }
      intro other member
      rcases List.mem_cons.mp member with rfl | earlier
      · exact live
      · exact consistent.holds other earlier
  | release id =>
      apply consistent_release
      exact { consistent with
        holds := fun other member => consistent.holds other (List.mem_of_mem_erase member) }
  | stop => exact { consistent with }

theorem initially_consistent : Consistent {} := by
  constructor <;> simp

def NoRawClose (crypto : Worker.Crypto) (labels : List ServerStep) : Prop :=
  Respects (step crypto) (fun server label => rawCloses server label = false) {} labels

instance decidableNoRawClose (crypto : Worker.Crypto) (labels : List ServerStep) :
    Decidable (NoRawClose crypto labels) :=
  inferInstanceAs (Decidable (Respects _ _ _ _))

theorem run_consistent {crypto : Worker.Crypto} {labels : List ServerStep} {last : TcpServer}
    (kept : NoRawClose crypto labels) (reached : run (step crypto) {} labels = some last) :
    Consistent last :=
  run_invariant Consistent (fun _ _ _ => step_consistent) initially_consistent kept reached

/-- Each key of each table is an open number of the connection stored under it,
registered with that worker, and no `epoll_.remove` or `epoll_.add` has thrown. -/
def TableAgrees (server : TcpServer) : Prop :=
  server.terminated = false ∧
    ∀ worker fd id, (server.workers worker).table fd = some id →
      (∃ object, server.objects id = some object ∧ object.fd = fd) ∧
        server.owner fd = some id ∧ ((server.workers worker).epoll fd).isSome = true

theorem table_agrees_with_kernel (crypto : Worker.Crypto) (labels : List ServerStep)
    (last : TcpServer) (kept : NoRawClose crypto labels)
    (reached : run (step crypto) {} labels = some last) : TableAgrees last := by
  have consistent := run_consistent kept reached
  refine ⟨consistent.alive, ?_⟩
  intro worker fd id stored
  obtain ⟨object, found, number, _, registered⟩ := consistent.entries worker fd id stored
  have owner := consistent.opened id object found
  rw [number] at owner
  exact ⟨⟨object, found, number⟩, owner, registered⟩

/-- A worker accepts one connection and handles a readable event of it. -/
def eventRun (fd : Fd) (event : ClientEvent) : List ServerStep :=
  [.decide 0, .wait 0 [.listener], .accept 0 fd, .acceptEnd 0, .sweep 0 [], .decide 0,
    .wait 0 [.client fd .readable], .client 0 event, .sweep 0 []]

def keepAliveRequest : ClientEvent where
  received := [ascii "GET / HTTP/1.1\r\nHost: x\r\n\r\n"]

def closingRequest : ClientEvent where
  received := [ascii "GET / HTTP/1.1\r\nConnection: close\r\n\r\n"]

/-- A request whose task re-arms, and the idle sweep before the closure is gone. -/
def keptAliveRun : List ServerStep :=
  eventRun 7 keepAliveRequest ++
    [.finish 0 false, .decide 0, .wait 0 [], .sweep 0 [7], .drop 0]

theorem table_agrees_with_kernel_kept_alive :
    ∃ last, run (step { generateAcceptKey := id }) {} keptAliveRun = some last ∧
      TableAgrees last := by
  obtain ⟨last, reached⟩ := Option.isSome_iff_exists.mp
    (show (run (step { generateAcceptKey := id }) {} keptAliveRun).isSome = true by
      decide +kernel)
  exact ⟨last, reached, table_agrees_with_kernel { generateAcceptKey := id } keptAliveRun last
    (by decide +kernel) reached⟩

/-- The task of a `Connection: close` request frees the number and leaves the
entry; the idle sweep then throws out of `run`. -/
theorem raw_close_leaves_key :
    (∃ last, run (step { generateAcceptKey := id }) {}
        (eventRun 7 closingRequest ++ [.finish 0 false]) = some last ∧
      (last.workers 0).table 7 = some 0 ∧ last.owner 7 = none ∧
      (last.workers 0).epoll 7 = none ∧ ¬TableAgrees last) ∧
    ∃ last, run (step { generateAcceptKey := id }) {}
        (eventRun 7 closingRequest ++
          [.finish 0 false, .decide 0, .wait 0 [], .sweep 0 [7]]) = some last ∧
      last.terminated = true := by
  constructor
  · have freed : (run (step { generateAcceptKey := id }) {}
        (eventRun 7 closingRequest ++ ([.finish 0 false] : List ServerStep))).any
        (fun last => decide ((last.workers 0).table 7 = some 0 ∧ last.owner 7 = none ∧
          (last.workers 0).epoll 7 = none)) = true := by
      decide +kernel
    obtain ⟨last, reached, listed, free, unregistered⟩ := run_ends freed
    refine ⟨last, reached, listed, free, unregistered, ?_⟩
    intro agrees
    have owner := (agrees.2 0 7 0 listed).2.1
    rw [free] at owner
    cases owner
  · have thrown : (run (step { generateAcceptKey := id }) {}
        (eventRun 7 closingRequest ++
          ([.finish 0 false, .decide 0, .wait 0 [], .sweep 0 [7]] : List ServerStep))).any
        (fun last => decide (last.terminated = true)) = true := by
      decide +kernel
    exact run_ends thrown

/-- Every `::close` finds the number open and in the hands of the connection it
is made for, and is made once for each connection that is gone. -/
def ClosesOnce (server : TcpServer) : Prop :=
  (∀ call ∈ server.closes, call.found = some call.connection) ∧
    (server.closes.map CloseCall.connection).Nodup ∧
    ∀ id, id ∈ server.closes.map CloseCall.connection ↔
      id < server.accepted ∧ server.objects id = none

theorem descriptors_closed_once (crypto : Worker.Crypto) (labels : List ServerStep)
    (last : TcpServer) (kept : NoRawClose crypto labels)
    (reached : run (step crypto) {} labels = some last) : ClosesOnce last := by
  have consistent := run_consistent kept reached
  exact ⟨consistent.rightful, consistent.once, consistent.closed⟩

theorem descriptors_closed_once_kept_alive :
    ∃ last, run (step { generateAcceptKey := id }) {} keptAliveRun = some last ∧
      ClosesOnce last := by
  obtain ⟨last, reached⟩ := Option.isSome_iff_exists.mp
    (show (run (step { generateAcceptKey := id }) {} keptAliveRun).isSome = true by
      decide +kernel)
  exact ⟨last, reached, descriptors_closed_once { generateAcceptKey := id } keptAliveRun last
    (by decide +kernel) reached⟩

/-- The number freed by a task goes to the next connection before the first
one's `Socket` is destroyed, which then closes it under the new owner. -/
theorem destructor_closes_successor :
    ∃ last, run (step { generateAcceptKey := id }) {}
        (eventRun 7 closingRequest ++
          [.finish 0 false, .decide 0, .wait 0 [.listener], .accept 0 7, .drop 0]) = some last ∧
      { issuer := .destructor, connection := 0, fd := 7, found := some 1 } ∈ last.closes ∧
      ¬ClosesOnce last := by
  have stolen : (run (step { generateAcceptKey := id }) {}
      (eventRun 7 closingRequest ++
        ([.finish 0 false, .decide 0, .wait 0 [.listener], .accept 0 7, .drop 0] :
          List ServerStep))).any
      (fun last => decide ({ issuer := .destructor, connection := 0, fd := 7, found := some 1 } ∈
        last.closes)) = true := by
    decide +kernel
  obtain ⟨last, reached, called⟩ := run_ends stolen
  refine ⟨last, reached, called, ?_⟩
  intro once
  have rightful := once.1 _ called
  cases rightful

end HttpServer.DescriptorRuns
