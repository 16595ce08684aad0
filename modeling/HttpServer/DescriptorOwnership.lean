import HttpServer.TcpServer

/-!
# Who owns a descriptor number

`Consistent` ties the tables of the workers, the kernel's open numbers, the epoll
registrations and the connection objects together. The raw `::close` of a pool
task is the only operation that breaks it: it frees a number that a `Socket`
still counts as its own. Every other operation of the server keeps it, and a
call for one connection leaves the entries of all others alone.
-/

namespace HttpServer.DescriptorOwnership

open TransitionSystem TcpServer

def pendingFds (events : List PollEvent) : List Fd := events.filterMap PollEvent.clientFd

structure Consistent (server : TcpServer) : Prop where
  alive : server.terminated = false
  opened : ∀ id object, server.objects id = some object → server.owner object.fd = some id
  owned : ∀ fd id, server.owner fd = some id →
    ∃ object, server.objects id = some object ∧ object.fd = fd
  entries : ∀ worker fd id, (server.workers worker).table fd = some id →
    ∃ object, server.objects id = some object ∧ object.fd = fd ∧ object.worker = worker ∧
      ((server.workers worker).epoll fd).isSome = true
  registered : ∀ worker fd, (server.workers worker).phase ≠ .exited →
    ((server.workers worker).epoll fd).isSome = true →
      ((server.workers worker).table fd).isSome = true
  tasks : ∀ task ∈ server.tasks, ∃ object, server.objects task.connection = some object ∧
    object.fd = task.fd ∧ object.worker = task.worker
  holds : ∀ id ∈ server.holds, (server.objects id).isSome = true
  fresh : ∀ id, (server.objects id).isSome = true → id < server.accepted
  pending : ∀ worker events, (server.workers worker).phase = .handling events →
    (pendingFds events).Nodup ∧
      ∀ fd ∈ pendingFds events, ((server.workers worker).epoll fd).isSome = true
  rightful : ∀ call ∈ server.closes, call.found = some call.connection
  once : (server.closes.map CloseCall.connection).Nodup
  closed : ∀ id, id ∈ server.closes.map CloseCall.connection ↔
    id < server.accepted ∧ server.objects id = none

theorem Consistent.entry_registered {server : TcpServer} (consistent : Consistent server)
    {worker : WorkerId} {fd : Fd} {id : ConnectionId}
    (stored : (server.workers worker).table fd = some id) :
    ((server.workers worker).epoll fd).isSome = true := by
  obtain ⟨_, _, _, _, registered⟩ := consistent.entries worker fd id stored
  exact registered

theorem Consistent.entry_object {server : TcpServer} (consistent : Consistent server)
    {worker : WorkerId} {fd : Fd} {id : ConnectionId}
    (stored : (server.workers worker).table fd = some id) :
    ∃ object, server.objects id = some object ∧ object.fd = fd ∧ object.worker = worker := by
  obtain ⟨object, found, number, home, _⟩ := consistent.entries worker fd id stored
  exact ⟨object, found, number, home⟩

theorem update_worker_same (server : TcpServer) (worker : WorkerId)
    (change : WorkerState → WorkerState) :
    (server.updateWorker worker change).workers worker = change (server.workers worker) := by
  simp [updateWorker]

theorem update_worker_other (server : TcpServer) {worker other : WorkerId}
    (different : other ≠ worker) (change : WorkerState → WorkerState) :
    (server.updateWorker worker change).workers other = server.workers other := by
  simp [updateWorker, different]

theorem update_worker_twice (server : TcpServer) (worker : WorkerId)
    (first second : WorkerState → WorkerState) :
    (server.updateWorker worker first).updateWorker worker second =
      server.updateWorker worker fun state => second (first state) := by
  simp [updateWorker]

/-- What has to be shown of a change to one worker: its entries are registered
numbers of its own connections, its pending numbers are registered, and while
its loop runs it has an entry for every registered number. -/
theorem consistent_update_worker {server : TcpServer} (consistent : Consistent server)
    {worker : WorkerId} {change : WorkerState → WorkerState} {after : WorkerState}
    (changed : change (server.workers worker) = after)
    (entries : ∀ fd id, after.table fd = some id →
      (∃ object, server.objects id = some object ∧ object.fd = fd ∧ object.worker = worker) ∧
        (after.epoll fd).isSome = true)
    (registered : ∀ fd, after.phase ≠ .exited → (after.epoll fd).isSome = true →
      (after.table fd).isSome = true)
    (pending : ∀ events, after.phase = .handling events →
      (pendingFds events).Nodup ∧ ∀ fd ∈ pendingFds events, (after.epoll fd).isSome = true) :
    Consistent (server.updateWorker worker change) := by
  subst changed
  refine { consistent with entries := ?_, registered := ?_, pending := ?_ }
  all_goals
    intro other
    by_cases here : other = worker
  · subst here
    rw [update_worker_same]
    intro fd id stored
    obtain ⟨⟨object, found, number, home⟩, registered⟩ := entries fd id stored
    exact ⟨object, found, number, home, registered⟩
  · rw [update_worker_other server here]
    exact consistent.entries other
  · subst here
    rw [update_worker_same]
    exact registered
  · rw [update_worker_other server here]
    exact consistent.registered other
  · subst here
    rw [update_worker_same]
    exact pending
  · rw [update_worker_other server here]
    exact consistent.pending other

theorem consistent_set_registration {server : TcpServer} (consistent : Consistent server)
    {worker : WorkerId} {fd : Fd} {registration : Option Registration}
    (kept : registration.isSome = ((server.workers worker).epoll fd).isSome) :
    Consistent (server.setRegistration worker fd registration) := by
  have same : ∀ number,
      (Function.update (server.workers worker).epoll fd registration number).isSome =
        ((server.workers worker).epoll number).isSome := by
    intro number
    by_cases here : number = fd
    · subst here
      simpa using kept
    · simp [here]
  apply consistent_update_worker consistent rfl
  · intro number id stored
    exact ⟨consistent.entry_object stored,
      (same number).trans (consistent.entry_registered stored)⟩
  · intro number active registered
    exact consistent.registered worker number active ((same number).symm.trans registered)
  · intro events handling
    obtain ⟨distinct, ready⟩ := consistent.pending worker events handling
    exact ⟨distinct, fun number member => (same number).trans (ready number member)⟩

theorem consistent_set_phase {server : TcpServer} (consistent : Consistent server)
    {worker : WorkerId} {phase : WorkerPhase} (active : (server.workers worker).phase ≠ .exited)
    (ready : ∀ events, phase = .handling events → (pendingFds events).Nodup ∧
      ∀ fd ∈ pendingFds events, ((server.workers worker).epoll fd).isSome = true) :
    Consistent (server.setPhase worker phase) := by
  apply consistent_update_worker consistent rfl
  · intro fd id stored
    exact ⟨consistent.entry_object stored, consistent.entry_registered stored⟩
  · exact fun fd _ => consistent.registered worker fd active
  · exact ready

theorem consistent_set_connection {server : TcpServer} (consistent : Consistent server)
    {id : ConnectionId} {object : ConnectionObject} (found : server.objects id = some object)
    (connection : ClientConnection) :
    Consistent { server with
      objects := Function.update server.objects id
        (some { object with connection := connection }) } := by
  have carried : ∀ other kept, server.objects other = some kept →
      ∃ after, Function.update server.objects id (some { object with connection := connection })
        other = some after ∧ after.fd = kept.fd ∧ after.worker = kept.worker := by
    intro other kept present
    by_cases here : other = id
    · subst here
      rw [found] at present
      cases present
      exact ⟨{ object with connection := connection }, by simp, rfl, rfl⟩
    · exact ⟨kept, by simpa [here] using present, rfl, rfl⟩
  have emptiness : ∀ other, (Function.update server.objects id
      (some { object with connection := connection }) other).isSome =
        (server.objects other).isSome := by
    intro other
    by_cases here : other = id
    · subst here
      simp [found]
    · simp [here]
  refine { consistent with
    opened := ?_, owned := ?_, entries := ?_, tasks := ?_, holds := ?_, fresh := ?_, closed := ?_ }
  · intro other after present
    by_cases here : other = id
    · subst here
      simp only [Function.update_self, Option.some.injEq] at present
      rw [← present]
      exact consistent.opened other object found
    · simp only [Function.update_of_ne here] at present
      exact consistent.opened other after present
  · intro fd other owner
    obtain ⟨kept, present, number⟩ := consistent.owned fd other owner
    obtain ⟨after, stored, sameNumber, _⟩ := carried other kept present
    exact ⟨after, stored, sameNumber.trans number⟩
  · intro worker fd other stored
    obtain ⟨kept, present, number, home, registered⟩ := consistent.entries worker fd other stored
    obtain ⟨after, stored, sameNumber, sameHome⟩ := carried other kept present
    exact ⟨after, stored, sameNumber.trans number, sameHome.trans home, registered⟩
  · intro task member
    obtain ⟨kept, present, number, home⟩ := consistent.tasks task member
    obtain ⟨after, stored, sameNumber, sameHome⟩ := carried task.connection kept present
    exact ⟨after, stored, sameNumber.trans number, sameHome.trans home⟩
  · intro other member
    exact (emptiness other).trans (consistent.holds other member)
  · intro other present
    exact consistent.fresh other ((emptiness other).symm.trans present)
  · intro other
    have before := consistent.closed other
    have same : Function.update server.objects id (some { object with connection := connection })
        other = none ↔ server.objects other = none := by
      rw [← Option.isNone_iff_eq_none, ← Option.isNone_iff_eq_none, ← Option.not_isSome,
        ← Option.not_isSome, emptiness other]
    exact before.trans (and_congr_right fun _ => same.symm)

theorem consistent_set_tasks {server : TcpServer} (consistent : Consistent server)
    {tasks : List PoolTask}
    (live : ∀ task ∈ tasks, ∃ object, server.objects task.connection = some object ∧
      object.fd = task.fd ∧ object.worker = task.worker) :
    Consistent { server with tasks := tasks } :=
  { consistent with tasks := live }

theorem consistent_erase {server : TcpServer} (consistent : Consistent server)
    {worker : WorkerId} {fd : Fd}
    (handled : ∀ events, (server.workers worker).phase = .handling events →
      fd ∉ pendingFds events) :
    Consistent ((server.setRegistration worker fd none).setEntry worker fd none) := by
  rw [setEntry, setRegistration, update_worker_twice]
  apply consistent_update_worker consistent rfl
  · intro number id stored
    have different : number ≠ fd := by
      rintro rfl
      simp at stored
    simp only [Function.update_of_ne different] at stored ⊢
    exact ⟨consistent.entry_object stored, consistent.entry_registered stored⟩
  · intro number active registered
    have different : number ≠ fd := by
      rintro rfl
      simp at registered
    simp only [Function.update_of_ne different] at registered ⊢
    exact consistent.registered worker number active registered
  · intro events handling
    obtain ⟨distinct, ready⟩ := consistent.pending worker events handling
    refine ⟨distinct, ?_⟩
    intro number member
    have different : number ≠ fd := by
      rintro rfl
      exact handled events handling member
    simpa [different] using ready number member

/-- A worker that has left its loop drops an entry without unregistering it. -/
theorem consistent_leave {server : TcpServer} (consistent : Consistent server)
    {worker : WorkerId} (left : (server.workers worker).phase = .exited) (fd : Fd) :
    Consistent (server.setEntry worker fd none) := by
  apply consistent_update_worker consistent rfl
  · intro number id stored
    have different : number ≠ fd := by
      rintro rfl
      simp at stored
    simp only [Function.update_of_ne different] at stored
    exact ⟨consistent.entry_object stored, consistent.entry_registered stored⟩
  · exact fun number active => absurd left active
  · intro events handling
    rw [show (server.workers worker).phase = .handling events from handling] at left
    cases left

theorem not_held {server : TcpServer} {id : ConnectionId} {object : ConnectionObject}
    (found : server.objects id = some object) (unheld : server.isHeld id = false) :
    (server.workers object.worker).table object.fd ≠ some id ∧ id ∉ server.holds ∧
      ∀ task ∈ server.tasks, task.connection ≠ id := by
  simp only [isHeld, inTable, found, Bool.or_eq_false_iff, decide_eq_false_iff_not,
    List.contains_eq_mem, List.any_eq_false, decide_eq_true_eq] at unheld
  exact ⟨unheld.1.1, unheld.1.2, unheld.2⟩

theorem entry_elsewhere {server : TcpServer} (consistent : Consistent server)
    {id other : ConnectionId} {object : ConnectionObject} {worker : WorkerId} {fd : Fd}
    (found : server.objects id = some object)
    (unheld : (server.workers object.worker).table object.fd ≠ some id)
    (stored : (server.workers worker).table fd = some other) : other ≠ id ∧ fd ≠ object.fd := by
  obtain ⟨entry, present, number, home, _⟩ := consistent.entries worker fd other stored
  have different : other ≠ id := by
    rintro rfl
    rw [found] at present
    cases present
    rw [number, home] at unheld
    exact unheld stored
  refine ⟨different, ?_⟩
  rintro rfl
  have owner := consistent.opened id object found
  have otherOwner := consistent.opened other entry present
  rw [number, owner] at otherOwner
  exact different (Option.some.inj otherOwner).symm

theorem consistent_destroy {server : TcpServer} (consistent : Consistent server)
    {id : ConnectionId} {object : ConnectionObject} (found : server.objects id = some object)
    (unheld : server.isHeld id = false) :
    Consistent { server.closeFd .destructor id object.fd with
      objects := Function.update server.objects id none } := by
  obtain ⟨unlisted, unlocked, untasked⟩ := not_held found unheld
  have owner := consistent.opened id object found
  constructor
  · exact consistent.alive
  · intro other kept present
    have different : other ≠ id := by
      rintro rfl
      simp at present
    simp only [Function.update_of_ne different] at present
    have otherOwner := consistent.opened other kept present
    have elsewhere : kept.fd ≠ object.fd := by
      intro same
      rw [same, owner] at otherOwner
      exact different (Option.some.inj otherOwner).symm
    simpa [closeFd, elsewhere] using otherOwner
  · intro fd other stored
    have elsewhere : fd ≠ object.fd := by
      rintro rfl
      simp [closeFd] at stored
    simp only [closeFd, Function.update_of_ne elsewhere] at stored
    obtain ⟨kept, present, number⟩ := consistent.owned fd other stored
    have different : other ≠ id := by
      rintro rfl
      rw [found] at present
      cases present
      exact elsewhere number.symm
    exact ⟨kept, by simpa [different] using present, number⟩
  · intro worker fd other stored
    obtain ⟨different, elsewhere⟩ := entry_elsewhere consistent found unlisted stored
    obtain ⟨entry, present, number, home, registered⟩ :=
      consistent.entries worker fd other stored
    exact ⟨entry, by simpa [different] using present, number, home,
      by simpa [closeFd, elsewhere] using registered⟩
  · intro worker fd active registered
    have elsewhere : fd ≠ object.fd := by
      rintro rfl
      simp [closeFd] at registered
    simp only [closeFd, Function.update_of_ne elsewhere] at registered
    exact consistent.registered worker fd active registered
  · intro task member
    obtain ⟨kept, present, number, home⟩ := consistent.tasks task member
    exact ⟨kept, by simpa [untasked task member] using present, number, home⟩
  · intro other member
    have different : other ≠ id := by
      rintro rfl
      exact unlocked member
    simpa [different] using consistent.holds other member
  · intro other present
    have different : other ≠ id := by
      rintro rfl
      simp at present
    simp only [Function.update_of_ne different] at present
    exact consistent.fresh other present
  · intro worker events handling
    obtain ⟨distinct, ready⟩ := consistent.pending worker events handling
    refine ⟨distinct, ?_⟩
    intro fd member
    have active : (server.workers worker).phase ≠ .exited := by
      intro exited
      rw [show (server.workers worker).phase = .handling events from handling] at exited
      cases exited
    obtain ⟨other, stored⟩ :=
      Option.isSome_iff_exists.mp (consistent.registered worker fd active (ready fd member))
    obtain ⟨_, elsewhere⟩ := entry_elsewhere consistent found unlisted stored
    simpa [closeFd, elsewhere] using ready fd member
  · intro call member
    simp only [closeFd, List.mem_append, List.mem_singleton] at member
    rcases member with earlier | rfl
    · exact consistent.rightful call earlier
    · exact owner
  · simp only [closeFd, List.map_append, List.map_cons, List.map_nil]
    refine List.nodup_append.mpr ⟨consistent.once, by simp, ?_⟩
    intro earlier member last isLast
    rw [List.mem_singleton] at isLast
    rintro rfl
    obtain ⟨_, gone⟩ := (consistent.closed earlier).mp member
    rw [isLast, found] at gone
    cases gone
  · intro other
    simp only [closeFd, List.map_append, List.map_cons, List.map_nil, List.mem_append,
      List.mem_singleton, consistent.closed other]
    by_cases here : other = id
    · subst here
      have issued := consistent.fresh other (by simp [found])
      simp [issued]
    · simp [here]

theorem consistent_release {server : TcpServer} (consistent : Consistent server)
    (id : ConnectionId) : Consistent (server.releaseObject id) := by
  unfold releaseObject
  split
  · rename_i object found
    split
    · exact consistent
    · rename_i unheld
      exact consistent_destroy consistent found (by simpa using unheld)
  · exact consistent

/-- What a call for the entry `fd` of `worker` leaves alone: the loop of every
worker, every other entry with its registration, and the tasks already there. -/
structure Elsewhere (server after : TcpServer) (worker : WorkerId) (fd : Fd) : Prop where
  running : after.running = server.running
  tasks : ∀ task ∈ server.tasks, task ∈ after.tasks
  phase : ∀ other, (after.workers other).phase = (server.workers other).phase
  table : ∀ other number, ¬(other = worker ∧ number = fd) →
    (after.workers other).table number = (server.workers other).table number
  epoll : ∀ other number, ¬(other = worker ∧ number = fd) →
    ((server.workers other).table number).isSome = true →
      (after.workers other).epoll number = (server.workers other).epoll number

namespace Elsewhere

variable {server middle after : TcpServer} {worker : WorkerId} {fd : Fd}

theorem refl (server : TcpServer) (worker : WorkerId) (fd : Fd) :
    Elsewhere server server worker fd :=
  ⟨rfl, fun _ member => member, fun _ => rfl, fun _ _ _ => rfl, fun _ _ _ _ => rfl⟩

theorem trans (first : Elsewhere server middle worker fd)
    (second : Elsewhere middle after worker fd) : Elsewhere server after worker fd where
  running := second.running.trans first.running
  tasks := fun task member => second.tasks task (first.tasks task member)
  phase := fun other => (second.phase other).trans (first.phase other)
  table := fun other number different =>
    (second.table other number different).trans (first.table other number different)
  epoll := by
    intro other number different present
    have kept := first.table other number different
    rw [second.epoll other number different (by rw [kept]; exact present)]
    exact first.epoll other number different present

end Elsewhere

theorem set_registration_elsewhere (server : TcpServer) (worker : WorkerId) (fd : Fd)
    (registration : Option Registration) :
    Elsewhere server (server.setRegistration worker fd registration) worker fd := by
  constructor
  · rfl
  · exact fun _ member => member
  all_goals
    intro other
    by_cases here : other = worker
    · subst here
      simp +contextual [setRegistration, update_worker_same]
    · simp [setRegistration, update_worker_other server here]

theorem set_entry_elsewhere (server : TcpServer) (worker : WorkerId) (fd : Fd)
    (entry : Option ConnectionId) :
    Elsewhere server (server.setEntry worker fd entry) worker fd := by
  constructor
  · rfl
  · exact fun _ member => member
  all_goals
    intro other
    by_cases here : other = worker
    · subst here
      simp +contextual [setEntry, update_worker_same]
    · simp [setEntry, update_worker_other server here]

theorem release_keeps {server : TcpServer} (consistent : Consistent server) (id : ConnectionId) :
    (server.releaseObject id).tasks = server.tasks ∧
      (server.releaseObject id).running = server.running ∧
      ∀ worker, ((server.releaseObject id).workers worker).phase = (server.workers worker).phase ∧
        ((server.releaseObject id).workers worker).table = (server.workers worker).table ∧
        ∀ fd, ((server.workers worker).table fd).isSome = true →
          ((server.releaseObject id).workers worker).epoll fd =
            (server.workers worker).epoll fd := by
  unfold releaseObject
  split
  · rename_i object found
    split
    · exact ⟨rfl, rfl, fun _ => ⟨rfl, rfl, fun _ _ => rfl⟩⟩
    · rename_i unheld
      obtain ⟨unlisted, _, _⟩ := not_held found (by simpa using unheld)
      refine ⟨rfl, rfl, fun worker => ⟨rfl, rfl, ?_⟩⟩
      intro fd present
      obtain ⟨other, stored⟩ := Option.isSome_iff_exists.mp present
      obtain ⟨_, elsewhere⟩ := entry_elsewhere consistent found unlisted stored
      simp [closeFd, elsewhere]
  · exact ⟨rfl, rfl, fun _ => ⟨rfl, rfl, fun _ _ => rfl⟩⟩

theorem release_elsewhere {server : TcpServer} (consistent : Consistent server)
    (id : ConnectionId) (worker : WorkerId) (fd : Fd) :
    Elsewhere server (server.releaseObject id) worker fd := by
  obtain ⟨tasks, running, workers⟩ := release_keeps consistent id
  constructor
  · exact running
  · exact fun task member => by rw [tasks]; exact member
  · exact fun other => (workers other).1
  · exact fun other number _ => by rw [(workers other).2.1]
  · exact fun other number _ present => (workers other).2.2 number present

theorem disconnect_eq {server : TcpServer} (consistent : Consistent server) {worker : WorkerId}
    {fd : Fd} {id : ConnectionId} (stored : (server.workers worker).table fd = some id) :
    server.disconnectClient worker fd =
      ((server.setRegistration worker fd none).setEntry worker fd none).releaseObject id := by
  have registered := consistent.entry_registered stored
  have kept : ((server.setRegistration worker fd none).workers worker).table fd = some id := by
    simpa [setRegistration, update_worker_same] using stored
  simp only [disconnectClient, registered, if_true, eraseEntry, kept]

section Disconnect

variable {server : TcpServer} (consistent : Consistent server) {worker : WorkerId} {fd : Fd}
  {id : ConnectionId} (stored : (server.workers worker).table fd = some id)
  (handled : ∀ events, (server.workers worker).phase = .handling events → fd ∉ pendingFds events)

include consistent stored handled

theorem disconnect_consistent : Consistent (server.disconnectClient worker fd) := by
  rw [disconnect_eq consistent stored]
  exact consistent_release (consistent_erase consistent handled) id

theorem disconnect_elsewhere :
    Elsewhere server (server.disconnectClient worker fd) worker fd := by
  rw [disconnect_eq consistent stored]
  apply Elsewhere.trans (set_registration_elsewhere server worker fd none)
  apply Elsewhere.trans (set_entry_elsewhere _ worker fd none)
  exact release_elsewhere (consistent_erase consistent handled) id worker fd

theorem disconnect_removes :
    ((server.disconnectClient worker fd).workers worker).table fd = none := by
  rw [disconnect_eq consistent stored]
  obtain ⟨_, _, workers⟩ := release_keeps (consistent_erase consistent handled) id
  rw [(workers worker).2.1]
  simp [setEntry, update_worker_same]

end Disconnect

theorem rearm_consistent {server : TcpServer} (consistent : Consistent server)
    {worker : WorkerId} {fd : Fd} {id : ConnectionId}
    (stored : (server.workers worker).table fd = some id) (registration : Registration) :
    Consistent (server.setRegistration worker fd (some registration)) := by
  have registered := consistent.entry_registered stored
  apply consistent_set_registration consistent
  rw [registered]
  rfl

theorem enqueue_consistent {server : TcpServer} (consistent : Consistent server)
    {worker : WorkerId} {fd : Fd} {id : ConnectionId}
    (stored : (server.workers worker).table fd = some id) (task : Task) :
    Consistent { server with
      tasks := server.tasks ++
        [{ connection := id, worker := worker, fd := fd, task := task }] } := by
  obtain ⟨object, found, number, home, _⟩ := consistent.entries worker fd id stored
  apply consistent_set_tasks consistent
  intro queued member
  rcases List.mem_append.mp member with earlier | last
  · exact consistent.tasks queued earlier
  · rw [List.mem_singleton] at last
    subst last
    exact ⟨object, found, number, home⟩

theorem run_actions_keeps {worker : WorkerId} {fd : Fd} {id : ConnectionId}
    (actions : List Action) {server : TcpServer} (consistent : Consistent server)
    (stored : (server.workers worker).table fd = some id)
    (handled : ∀ events, (server.workers worker).phase = .handling events →
      fd ∉ pendingFds events) :
    Consistent (server.runActions worker fd id actions) ∧
      Elsewhere server (server.runActions worker fd id actions) worker fd := by
  induction actions generalizing server with
  | nil => exact ⟨consistent, Elsewhere.refl server worker fd⟩
  | cons action rest ih =>
      have registered := consistent.entry_registered stored
      cases action with
      | modify interest =>
          simp only [runActions, registered, if_true]
          have following := ih
            (rearm_consistent consistent stored { interest := interest, armed := true })
            (by simpa [setRegistration, update_worker_same] using stored)
            (by simpa [setRegistration, update_worker_same] using handled)
          exact ⟨following.1,
            (set_registration_elsewhere server worker fd _).trans following.2⟩
      | send data => exact ih consistent stored handled
      | enqueue task =>
          have following := ih (enqueue_consistent consistent stored task) stored handled
          have appended : Elsewhere server
              { server with
                tasks := server.tasks ++
                  [{ connection := id, worker := worker, fd := fd, task := task }] } worker fd :=
            { Elsewhere.refl server worker fd with
              tasks := fun queued member => List.mem_append_left _ member }
          exact ⟨following.1, appended.trans following.2⟩
      | disconnect =>
          exact ⟨disconnect_consistent consistent stored handled,
            disconnect_elsewhere consistent stored handled⟩

theorem handle_client_data_eq {server : TcpServer} (consistent : Consistent server)
    (crypto : Worker.Crypto) {worker : WorkerId} {fd : Fd} {id : ConnectionId}
    (stored : (server.workers worker).table fd = some id) (event : ClientEvent) :
    ∃ object, server.objects id = some object ∧
      server.handleClientData crypto worker fd event =
        { server with
          objects := Function.update server.objects id (some { object with
            connection := (Worker.handleClientData crypto object.connection event).1 })
        }.runActions worker fd id (Worker.handleClientData crypto object.connection event).2 := by
  obtain ⟨object, found, _⟩ := consistent.entries worker fd id stored
  exact ⟨object, found, by simp only [TcpServer.handleClientData, stored, found]⟩

theorem handle_client_data_keeps {server : TcpServer} (consistent : Consistent server)
    (crypto : Worker.Crypto) {worker : WorkerId} {fd : Fd} {id : ConnectionId}
    (stored : (server.workers worker).table fd = some id)
    (handled : ∀ events, (server.workers worker).phase = .handling events →
      fd ∉ pendingFds events) (event : ClientEvent) :
    Consistent (server.handleClientData crypto worker fd event) ∧
      Elsewhere server (server.handleClientData crypto worker fd event) worker fd := by
  obtain ⟨object, found, same⟩ := handle_client_data_eq consistent crypto stored event
  rw [same]
  have following := run_actions_keeps
    (Worker.handleClientData crypto object.connection event).2
    (consistent_set_connection consistent found
      (Worker.handleClientData crypto object.connection event).1) stored handled
  exact ⟨following.1, { following.2 with }⟩

/-- A number the kernel is about to hand out is in no table, and registered with
no worker whose loop still runs. -/
theorem free_number {server : TcpServer} (consistent : Consistent server) {fd : Fd}
    (free : server.owner fd = none) (worker : WorkerId) :
    (server.workers worker).table fd = none ∧
      ((server.workers worker).phase ≠ .exited → (server.workers worker).epoll fd = none) := by
  have unlisted : (server.workers worker).table fd = none := by
    apply Option.eq_none_iff_forall_ne_some.mpr
    intro id stored
    obtain ⟨object, found, number, _⟩ := consistent.entries worker fd id stored
    have owner := consistent.opened id object found
    rw [number, free] at owner
    cases owner
  refine ⟨unlisted, ?_⟩
  intro active
  apply Option.not_isSome_iff_eq_none.mp
  intro registered
  have listed := consistent.registered worker fd active registered
  rw [unlisted] at listed
  cases listed

/-- `handleNewConnection` with a free number: the map has nothing to overwrite
and `epoll_.add` succeeds. -/
theorem accept_eq {server : TcpServer} (consistent : Consistent server) {worker : WorkerId}
    {fd : Fd} (free : server.owner fd = none)
    (active : (server.workers worker).phase ≠ .exited) :
    server.acceptConnection worker fd =
      ({ server with
        owner := Function.update server.owner fd (some server.accepted)
        objects := Function.update server.objects server.accepted
          (some { fd := fd, worker := worker })
        accepted := server.accepted + 1 }.setEntry worker fd (some server.accepted)).setRegistration
          worker fd (some { interest := .readable, armed := true }) := by
  obtain ⟨unlisted, unregistered⟩ := free_number consistent free worker
  simp [acceptConnection, unlisted, setEntry, updateWorker, unregistered active]

theorem consistent_create {server : TcpServer} (consistent : Consistent server)
    {fd : Fd} (free : server.owner fd = none) (worker : WorkerId) :
    Consistent { server with
      owner := Function.update server.owner fd (some server.accepted)
      objects := Function.update server.objects server.accepted
        (some { fd := fd, worker := worker })
      accepted := server.accepted + 1 } := by
  have unused : server.objects server.accepted = none := by
    apply Option.not_isSome_iff_eq_none.mp
    intro present
    exact Nat.lt_irrefl _ (consistent.fresh _ present)
  have carried : ∀ id object, server.objects id = some object →
      Function.update server.objects server.accepted (some { fd := fd, worker := worker }) id =
        some object := by
    intro id object found
    have older : id ≠ server.accepted := by
      rintro rfl
      rw [unused] at found
      cases found
    rw [Function.update_of_ne older]
    exact found
  constructor
  · exact consistent.alive
  · intro id object found
    by_cases new : id = server.accepted
    · subst new
      simp only [Function.update_self, Option.some.injEq] at found
      simp [← found]
    · simp only [Function.update_of_ne new] at found
      have owner := consistent.opened id object found
      have elsewhere : object.fd ≠ fd := by
        intro same
        rw [same, free] at owner
        cases owner
      simpa [elsewhere] using owner
  · intro number id owner
    by_cases new : number = fd
    · subst new
      simp only [Function.update_self, Option.some.injEq] at owner
      subst owner
      exact ⟨{ fd := number, worker := worker }, by simp, rfl⟩
    · simp only [Function.update_of_ne new] at owner
      obtain ⟨object, found, same⟩ := consistent.owned number id owner
      exact ⟨object, carried id object found, same⟩
  · intro other number id stored
    obtain ⟨object, found, same⟩ := consistent.entries other number id stored
    exact ⟨object, carried id object found, same⟩
  · exact consistent.registered
  · intro task member
    obtain ⟨object, found, same⟩ := consistent.tasks task member
    exact ⟨object, carried _ object found, same⟩
  · intro id member
    obtain ⟨object, found⟩ := Option.isSome_iff_exists.mp (consistent.holds id member)
    exact Option.isSome_iff_exists.mpr ⟨object, carried id object found⟩
  · intro id present
    by_cases new : id = server.accepted
    · exact Nat.lt_succ_of_le (Nat.le_of_eq new)
    · simp only [Function.update_of_ne new] at present
      exact Nat.lt_succ_of_lt (consistent.fresh id present)
  · exact consistent.pending
  · exact consistent.rightful
  · exact consistent.once
  · intro id
    have before := consistent.closed id
    by_cases new : id = server.accepted
    · subst new
      simpa [unused] using before
    · have bound : id < server.accepted + 1 ↔ id < server.accepted := by
        rw [Nat.lt_succ_iff_lt_or_eq, or_iff_left new]
      simp only [Function.update_of_ne new]
      exact before.trans (and_congr_left fun _ => bound.symm)

theorem accept_consistent {server : TcpServer} (consistent : Consistent server)
    {worker : WorkerId} {fd : Fd} (free : server.owner fd = none)
    (active : (server.workers worker).phase ≠ .exited) :
    Consistent (server.acceptConnection worker fd) := by
  rw [accept_eq consistent free active, setRegistration, setEntry, update_worker_twice]
  have created := consistent_create consistent free worker
  apply consistent_update_worker created rfl
  · intro number id stored
    by_cases new : number = fd
    · subst new
      simp only [Function.update_self, Option.some.injEq] at stored
      subst stored
      exact ⟨⟨{ fd := number, worker := worker }, by simp, rfl, rfl⟩, by simp⟩
    · simp only [Function.update_of_ne new] at stored ⊢
      exact ⟨created.entry_object stored, created.entry_registered stored⟩
  · intro number _ registered
    by_cases new : number = fd
    · simp [new]
    · simp only [Function.update_of_ne new] at registered ⊢
      exact created.registered worker number active registered
  · intro events handling
    obtain ⟨distinct, ready⟩ := created.pending worker events handling
    refine ⟨distinct, ?_⟩
    intro number member
    by_cases new : number = fd
    · simp [new]
    · simp only [Function.update_of_ne new]
      exact ready number member

theorem accept_enters {server : TcpServer} (consistent : Consistent server) {worker : WorkerId}
    {fd : Fd} (free : server.owner fd = none)
    (active : (server.workers worker).phase ≠ .exited) :
    Elsewhere server (server.acceptConnection worker fd) worker fd ∧
      ((server.acceptConnection worker fd).workers worker).epoll fd =
        some { interest := .readable, armed := true } := by
  rw [accept_eq consistent free active]
  constructor
  · apply Elsewhere.trans _ (set_registration_elsewhere _ worker fd _)
    exact { set_entry_elsewhere server worker fd (some server.accepted) with }
  · simp [setRegistration, update_worker_same]

/-- Entries may go; those that stay keep their registration. -/
structure Shrinks (server after : TcpServer) : Prop where
  running : after.running = server.running
  tasks : ∀ task ∈ server.tasks, task ∈ after.tasks
  phase : ∀ worker, (after.workers worker).phase = (server.workers worker).phase
  entries : ∀ worker fd id, (after.workers worker).table fd = some id →
    (server.workers worker).table fd = some id ∧
      (after.workers worker).epoll fd = (server.workers worker).epoll fd

theorem release_shrinks {server : TcpServer} (consistent : Consistent server)
    (id : ConnectionId) : Shrinks server (server.releaseObject id) := by
  obtain ⟨tasks, running, workers⟩ := release_keeps consistent id
  refine ⟨running, fun task member => by rw [tasks]; exact member,
    fun worker => (workers worker).1, ?_⟩
  intro worker fd entry stored
  rw [(workers worker).2.1] at stored
  exact ⟨stored, (workers worker).2.2 fd (by simp [stored])⟩

theorem disconnect_shrinks {server : TcpServer} (consistent : Consistent server)
    {worker : WorkerId} {fd : Fd} {id : ConnectionId}
    (stored : (server.workers worker).table fd = some id)
    (handled : ∀ events, (server.workers worker).phase = .handling events →
      fd ∉ pendingFds events) :
    Shrinks server (server.disconnectClient worker fd) := by
  have elsewhere := disconnect_elsewhere consistent stored handled
  have removed := disconnect_removes consistent stored handled
  refine ⟨elsewhere.running, elsewhere.tasks, elsewhere.phase, ?_⟩
  intro other number entry present
  have different : ¬(other = worker ∧ number = fd) := by
    rintro ⟨rfl, rfl⟩
    rw [removed] at present
    cases present
  rw [elsewhere.table other number different] at present
  exact ⟨present, elsewhere.epoll other number different (by simp [present])⟩

/-- The sweep runs with every event handled, so it takes no pending number. -/
theorem sweep_keeps {worker : WorkerId} (stale : List Fd) {server : TcpServer}
    (consistent : Consistent server) (idle : (server.workers worker).phase = .handling [])
    (distinct : stale.Nodup)
    (listed : ∀ fd ∈ stale, ((server.workers worker).table fd).isSome = true) :
    Consistent (server.sweepIdleConnections worker stale) ∧
      Shrinks server (server.sweepIdleConnections worker stale) := by
  induction stale generalizing server with
  | nil =>
      exact ⟨consistent, rfl, fun _ member => member, fun _ => rfl,
        fun _ _ _ present => ⟨present, rfl⟩⟩
  | cons fd stale ih =>
      obtain ⟨id, stored⟩ := Option.isSome_iff_exists.mp (listed fd (by simp))
      have handled : ∀ events, (server.workers worker).phase = .handling events →
          fd ∉ pendingFds events := by
        intro events handling
        rw [idle] at handling
        cases handling
        simp [pendingFds]
      have disconnected := disconnect_consistent consistent stored handled
      have elsewhere := disconnect_elsewhere consistent stored handled
      have shrinks := disconnect_shrinks consistent stored handled
      rw [List.nodup_cons] at distinct
      simp only [sweepIdleConnections, disconnected.alive, Bool.false_eq_true, if_false]
      have following := ih disconnected ((elsewhere.phase worker).trans idle) distinct.2 (by
        intro number member
        have different : ¬(worker = worker ∧ number = fd) := by
          rintro ⟨_, rfl⟩
          exact distinct.1 member
        rw [elsewhere.table worker number different]
        exact listed number (List.mem_cons_of_mem _ member))
      refine ⟨following.1, following.2.running.trans shrinks.running,
        fun task member => following.2.tasks task (shrinks.tasks task member),
        fun other => (following.2.phase other).trans (shrinks.phase other), ?_⟩
      intro other number entry present
      obtain ⟨kept, same⟩ := following.2.entries other number entry present
      obtain ⟨before, sameBefore⟩ := shrinks.entries other number entry kept
      exact ⟨before, same.trans sameBefore⟩

/-- The one-shot disarming of the numbers `epoll_wait` reports: their masks stay
and so does everything else. -/
theorem disarm_keeps (worker : WorkerId) (events : List PollEvent) {server : TcpServer}
    (consistent : Consistent server) :
    Consistent (server.disarm worker events) ∧
      (server.disarm worker events).running = server.running ∧
      (server.disarm worker events).tasks = server.tasks ∧
      ∀ other, ((server.disarm worker events).workers other).phase = (server.workers other).phase ∧
        ((server.disarm worker events).workers other).table = (server.workers other).table ∧
        ∀ fd, (((server.disarm worker events).workers other).epoll fd).map Registration.interest =
            ((server.workers other).epoll fd).map Registration.interest ∧
          (¬(other = worker ∧ fd ∈ pendingFds events) →
            ((server.disarm worker events).workers other).epoll fd =
              (server.workers other).epoll fd) := by
  induction events generalizing server with
  | nil => exact ⟨consistent, rfl, rfl, fun _ => ⟨rfl, rfl, fun _ => ⟨rfl, fun _ => rfl⟩⟩⟩
  | cons event events ih =>
      cases event with
      | listener => exact ih consistent
      | client fd readiness =>
          simp only [disarm]
          have disarmed : Consistent (server.setRegistration worker fd
              (((server.workers worker).epoll fd).map fun registration =>
                { registration with armed := false })) :=
            consistent_set_registration consistent (by simp)
          obtain ⟨rest, running, tasks, workers⟩ := ih disarmed
          refine ⟨rest, running, tasks, ?_⟩
          intro other
          obtain ⟨phase, table, epoll⟩ := workers other
          rw [phase, table]
          by_cases here : other = worker
          · subst here
            refine ⟨by simp [setRegistration, update_worker_same],
              by simp [setRegistration, update_worker_same], ?_⟩
            intro number
            obtain ⟨mask, same⟩ := epoll number
            simp only [setRegistration, update_worker_same] at mask same ⊢
            by_cases reported : number = fd
            · subst reported
              refine ⟨mask.trans (by simp [Option.map_map, Function.comp_def]), ?_⟩
              intro unreported
              exact absurd ⟨trivial, by simp [pendingFds, PollEvent.clientFd]⟩ unreported
            · rw [Function.update_of_ne reported] at mask same
              refine ⟨mask, ?_⟩
              intro unreported
              apply same
              simpa [pendingFds, PollEvent.clientFd, reported] using unreported
          · simpa [setRegistration, updateWorker, here] using fun number => epoll number

def rawCloses (server : TcpServer) : ServerStep → Bool
  | .finish index throws =>
      match server.tasks[index]? with
      | some task =>
          !task.ended &&
            match task.task with
            | .http2 _ _ => false
            | _ => !server.rearmsNow task throws
      | none => false
  | _ => false

theorem end_task_consistent {server : TcpServer} (consistent : Consistent server) {index : Nat}
    {task : PoolTask} (queued : server.tasks[index]? = some task) :
    Consistent (server.setTask index { task with ended := true }) := by
  apply consistent_set_tasks consistent
  intro other member
  rcases List.mem_or_eq_of_mem_set member with earlier | rfl
  · exact consistent.tasks other earlier
  · exact consistent.tasks task (List.mem_of_getElem? queued)

/-- A task that does not close the number ends with `epoll_.modify` on a
registered number, or without a call. -/
theorem finish_cases {server : TcpServer} {index : Nat} {task : PoolTask} {throws : Bool}
    (queued : server.tasks[index]? = some task) (started : task.ended = false)
    (kept : rawCloses server (.finish index throws) = false) :
    (task.task.rearms = false ∧
        server.finishTask index task throws = server.setTask index { task with ended := true }) ∨
      (((server.workers task.worker).epoll task.fd).isSome = true ∧
        server.finishTask index task throws =
          (server.setTask index { task with ended := true }).setRegistration task.worker task.fd
            (some { interest := .readable, armed := true })) := by
  simp only [rawCloses, queued, started, Bool.not_false, Bool.true_and] at kept
  unfold finishTask
  cases kind : task.task with
  | http2 stream request => exact .inl ⟨rfl, rfl⟩
  | http request keepAlive =>
      simp only [kind, Bool.not_eq_false'] at kept
      have registered := kept
      simp only [rearmsNow, Bool.and_eq_true] at registered
      exact .inr ⟨registered.2, if_pos kept⟩
  | webSocket frame =>
      simp only [kind, Bool.not_eq_false'] at kept
      have registered := kept
      simp only [rearmsNow, Bool.and_eq_true] at registered
      exact .inr ⟨registered.2, if_pos kept⟩

theorem finish_consistent {server : TcpServer} (consistent : Consistent server) {index : Nat}
    {task : PoolTask} {throws : Bool} (queued : server.tasks[index]? = some task)
    (started : task.ended = false) (kept : rawCloses server (.finish index throws) = false) :
    Consistent (server.finishTask index task throws) := by
  have ended := end_task_consistent consistent queued
  rcases finish_cases queued started kept with ⟨_, same⟩ | ⟨registered, same⟩
  · rw [same]
    exact ended
  · rw [same]
    apply consistent_set_registration ended
    exact registered.symm

theorem teardown_consistent {server : TcpServer} (consistent : Consistent server)
    {worker : WorkerId} (left : (server.workers worker).phase = .exited) (fd : Fd) :
    Consistent (server.eraseEntry worker fd) := by
  unfold eraseEntry
  split
  · rename_i id _
    exact consistent_release (consistent_leave consistent left fd) id
  · exact consistent

theorem teardown_elsewhere {server : TcpServer} (consistent : Consistent server)
    {worker : WorkerId} (left : (server.workers worker).phase = .exited) (fd : Fd) :
    Elsewhere server (server.eraseEntry worker fd) worker fd := by
  unfold eraseEntry
  split
  · rename_i id _
    exact (set_entry_elsewhere server worker fd none).trans
      (release_elsewhere (consistent_leave consistent left fd) id worker fd)
  · exact Elsewhere.refl server worker fd

end HttpServer.DescriptorOwnership
