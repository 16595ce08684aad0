import HttpServer.DescriptorRuns

/-!
# No descriptor is lost

A raw close by a pool task can close the number of another connection, and it leaves
entries behind; no order of steps loses a number, though. An open number is that of a
connection object, and the object is in its worker's table, captured by a pool task or
held elsewhere: when tables, pool and holders are gone, every accepted number is closed.
-/

namespace HttpServer.DescriptorLeaks

open TransitionSystem TcpServer DescriptorOwnership DescriptorRuns

/-- A `shared_ptr` to the connection is left. -/
def Held (server : TcpServer) (id : ConnectionId) (object : ConnectionObject) : Prop :=
  (server.workers object.worker).table object.fd = some id ∨ id ∈ server.holds ∨
    ∃ task ∈ server.tasks, task.connection = id

/-- Open numbers belong to objects, and these are held, but for the exempt ones. -/
structure Kept (server : TcpServer) (exempt : ConnectionId → Prop) : Prop where
  owned : ∀ fd id, server.owner fd = some id →
    ∃ object, server.objects id = some object ∧ object.fd = fd
  held : ∀ id object, server.objects id = some object → ¬exempt id → Held server id object
  fresh : ∀ id object, server.objects id = some object → id < server.accepted

/-- Nothing is opened, and no object loses a holder. -/
structure Retains (server after : TcpServer) : Prop where
  owner : ∀ fd id, after.owner fd = some id → server.owner fd = some id
  objects : ∀ id, (after.objects id).map (fun object => (object.fd, object.worker)) =
    (server.objects id).map fun object => (object.fd, object.worker)
  table : ∀ worker, (after.workers worker).table = (server.workers worker).table
  tasks : ∀ task ∈ server.tasks, ∃ same ∈ after.tasks, same.connection = task.connection
  holds : ∀ id ∈ server.holds, id ∈ after.holds
  accepted : server.accepted ≤ after.accepted
  stopped : server.running = false → after.running = false

section Steps

variable {server middle after : TcpServer} {exempt : ConnectionId → Prop} {worker : WorkerId}
  {fd : Fd}

theorem Retains.refl (server : TcpServer) : Retains server server where
  owner _ _ same := same
  objects _ := rfl
  table _ := rfl
  tasks task member := ⟨task, member, rfl⟩
  holds _ member := member
  accepted := Nat.le_refl _
  stopped off := off

theorem Retains.trans (first : Retains server middle) (second : Retains middle after) :
    Retains server after where
  owner number id opened := first.owner number id (second.owner number id opened)
  objects id := (second.objects id).trans (first.objects id)
  table other := (second.table other).trans (first.table other)
  tasks task member := by
    obtain ⟨same, queued, one⟩ := first.tasks task member
    obtain ⟨still, left, other⟩ := second.tasks same queued
    exact ⟨still, left, other.trans one⟩
  holds id member := second.holds id (first.holds id member)
  accepted := Nat.le_trans first.accepted second.accepted
  stopped off := second.stopped (first.stopped off)

theorem retained_object (retains : Retains server after) {id : ConnectionId}
    {object : ConnectionObject} (found : server.objects id = some object) :
    ∃ still, after.objects id = some still ∧ still.fd = object.fd ∧
      still.worker = object.worker := by
  have same := retains.objects id
  rw [found] at same
  obtain ⟨still, left, places⟩ := Option.map_eq_some_iff.mp same
  rw [Prod.mk.injEq] at places
  exact ⟨still, left, places.1, places.2⟩

theorem retained_before (retains : Retains server after) {id : ConnectionId}
    {object : ConnectionObject} (found : after.objects id = some object) :
    ∃ before, server.objects id = some before ∧ before.fd = object.fd ∧
      before.worker = object.worker := by
  have same := (retains.objects id).symm
  rw [found] at same
  obtain ⟨before, stored, places⟩ := Option.map_eq_some_iff.mp same
  rw [Prod.mk.injEq] at places
  exact ⟨before, stored, places.1, places.2⟩

theorem kept_retains (kept : Kept server exempt) (retains : Retains server after) :
    Kept after exempt where
  owned number id opened := by
    obtain ⟨object, found, same⟩ := kept.owned number id (retains.owner number id opened)
    obtain ⟨still, left, number, _⟩ := retained_object retains found
    exact ⟨still, left, number.trans same⟩
  held id object found counts := by
    obtain ⟨before, stored, number, home⟩ := retained_before retains found
    rcases kept.held id before stored counts with entry | holder | ⟨task, queued, own⟩
    · left
      rw [retains.table, ← home, ← number]
      exact entry
    · exact Or.inr (Or.inl (retains.holds id holder))
    · obtain ⟨same, left, captured⟩ := retains.tasks task queued
      exact Or.inr (Or.inr ⟨same, left, captured.trans own⟩)
  fresh id object found := by
    obtain ⟨before, stored, _⟩ := retained_before retains found
    exact Nat.lt_of_lt_of_le (kept.fresh id before stored) retains.accepted

theorem retains_update_worker {change : WorkerState → WorkerState}
    (same : ∀ state, (change state).table = state.table) :
    Retains server (server.updateWorker worker change) :=
  { Retains.refl server with
    table := by
      intro other
      by_cases here : other = worker
      · subst here
        rw [update_worker_same, same]
      · rw [update_worker_other server here] }

theorem retains_set_phase (phase : WorkerPhase) : Retains server (server.setPhase worker phase) :=
  retains_update_worker fun _ => rfl

theorem retains_set_registration (registration : Option Registration) :
    Retains server (server.setRegistration worker fd registration) :=
  retains_update_worker fun _ => rfl

theorem retains_terminate : Retains server { server with terminated := true } :=
  { Retains.refl server with table := fun _ => rfl }

theorem retains_stop : Retains server { server with running := false } :=
  { Retains.refl server with
    table := fun _ => rfl
    stopped := fun _ => rfl }

theorem retains_close (issuer : CloseIssuer) (id : ConnectionId) :
    Retains server (server.closeFd issuer id fd) :=
  { Retains.refl server with
    owner := by
      intro number other opened
      by_cases here : number = fd
      · subst here
        simp [closeFd] at opened
      · simpa [closeFd, here] using opened
    table := fun _ => rfl }

theorem is_held_iff {id : ConnectionId} {object : ConnectionObject}
    (found : server.objects id = some object) :
    server.isHeld id = true ↔ Held server id object := by
  simp [isHeld, inTable, found, Held, or_assoc]

theorem kept_release {id : ConnectionId} (kept : Kept server fun other => other = id) :
    Kept (server.releaseObject id) fun _ => False := by
  unfold releaseObject
  cases found : server.objects id with
  | none =>
      refine ⟨kept.owned, ?_, kept.fresh⟩
      intro other object stored _
      apply kept.held other object stored
      rintro rfl
      rw [found] at stored
      cases stored
  | some object =>
      dsimp only
      split
      · rename_i still
        refine ⟨kept.owned, ?_, kept.fresh⟩
        intro other stored here _
        by_cases same : other = id
        · subst same
          exact (is_held_iff here).mp still
        · exact kept.held other stored here same
      · have others : ∀ other stored,
            Function.update server.objects id none other = some stored →
              other ≠ id ∧ server.objects other = some stored := by
          intro other stored here
          by_cases same : other = id
          · subst same
            simp at here
          · rw [Function.update_of_ne same] at here
            exact ⟨same, here⟩
        refine ⟨?_, ?_, ?_⟩
        · intro number other opened
          have before := (retains_close .destructor id).owner number other opened
          obtain ⟨stored, here, same⟩ := kept.owned number other before
          have different : other ≠ id := by
            rintro rfl
            rw [found] at here
            cases here
            rw [← same] at opened
            simp [closeFd] at opened
          refine ⟨stored, ?_, same⟩
          change Function.update server.objects id none other = some stored
          rw [Function.update_of_ne different, here]
        · intro other stored here _
          obtain ⟨different, before⟩ := others other stored here
          exact kept.held other stored before different
        · intro other stored here
          exact kept.fresh other stored (others other stored here).2

theorem kept_unlist (kept : Kept server fun _ => False) {id : ConnectionId}
    (stored : (server.workers worker).table fd = some id) :
    Kept (server.setEntry worker fd none) fun other => other = id := by
  refine ⟨kept.owned, ?_, kept.fresh⟩
  intro other object found different
  rcases kept.held other object found not_false with entry | elsewhere
  · left
    by_cases home : object.worker = worker
    · have apart : object.fd ≠ fd := by
        intro number
        rw [home, number, stored] at entry
        exact different (Option.some.inj entry).symm
      simpa [setEntry, home, update_worker_same, apart] using home ▸ entry
    · rw [setEntry, update_worker_other server home]
      exact entry
  · exact Or.inr elsewhere

theorem kept_erase (kept : Kept server fun _ => False) :
    Kept (server.eraseEntry worker fd) fun _ => False := by
  unfold eraseEntry
  split
  · rename_i id stored
    exact kept_release (kept_unlist kept stored)
  · exact kept

theorem retains_enqueue (task : PoolTask) :
    Retains server { server with tasks := server.tasks ++ [task] } :=
  { Retains.refl server with
    tasks := fun other member => ⟨other, List.mem_append_left _ member, rfl⟩ }

theorem retains_set_connection {id : ConnectionId} {object : ConnectionObject}
    (found : server.objects id = some object) (connection : ClientConnection) :
    Retains server { server with
      objects := Function.update server.objects id
        (some { object with connection := connection }) } :=
  { Retains.refl server with
    objects := by
      intro other
      by_cases same : other = id
      · subst same
        simp [found]
      · simp [same] }

theorem retains_disarm (events : List PollEvent) (server : TcpServer) :
    Retains server (server.disarm worker events) := by
  induction events generalizing server with
  | nil => exact Retains.refl server
  | cons event events ih =>
      cases event with
      | listener => exact ih server
      | client number readiness => exact (retains_set_registration _).trans (ih _)

theorem retains_set_task {index : Nat} {task same : PoolTask}
    (queued : server.tasks[index]? = some task) (captured : same.connection = task.connection) :
    Retains server (server.setTask index same) :=
  { Retains.refl server with
    tasks := by
      intro other member
      obtain ⟨place, found⟩ := List.mem_iff_getElem?.mp member
      by_cases here : place = index
      · subst here
        rw [queued] at found
        cases found
        have present : place < server.tasks.length := (List.getElem?_eq_some_iff.mp queued).1
        exact ⟨same, List.mem_set present same, captured⟩
      · have kept : (server.tasks.set index same)[place]? = some other := by
          rw [List.getElem?_set_ne (Ne.symm here), found]
        exact ⟨other, List.mem_of_getElem? kept, rfl⟩ }

theorem retains_finish {index : Nat} {task : PoolTask}
    (queued : server.tasks[index]? = some task) (throws : Bool) :
    Retains server (server.finishTask index task throws) := by
  have ended : Retains server (server.setTask index { task with ended := true }) :=
    retains_set_task queued rfl
  unfold finishTask
  dsimp only
  split
  · exact ended
  · split
    · exact ended.trans (retains_set_registration _)
    · exact ended.trans (retains_close _ _)

/-- Kept by whatever retains the objects, by the end of an entry and by the end of a
task or of another holder. -/
structure Survives (property : TcpServer → Prop) : Prop where
  retained : ∀ {server after}, property server → Retains server after → property after
  erased : ∀ {server worker fd}, property server → property (server.eraseEntry worker fd)
  dropped : ∀ {server : TcpServer} {index : Nat} {task : PoolTask},
    server.tasks[index]? = some task → property server →
      property ({ server with tasks := server.tasks.eraseIdx index }.releaseObject task.connection)
  released : ∀ {server : TcpServer} {id : ConnectionId}, property server →
    property ({ server with holds := server.holds.erase id }.releaseObject id)

namespace Survives

variable {property : TcpServer → Prop}

theorem disconnect (survives : Survives property) (holds : property server) :
    property (server.disconnectClient worker fd) := by
  unfold disconnectClient
  split
  · exact survives.erased (survives.retained holds (retains_set_registration none))
  · exact survives.retained holds retains_terminate

theorem actions (survives : Survives property) {id : ConnectionId} (actions : List Action)
    {server : TcpServer} (holds : property server) :
    property (server.runActions worker fd id actions) := by
  induction actions generalizing server with
  | nil => exact holds
  | cons action rest ih =>
      cases action with
      | modify interest =>
          unfold runActions
          split
          · exact ih (survives.retained holds (retains_set_registration _))
          · exact survives.disconnect holds
      | send data => exact ih holds
      | enqueue task => exact ih (survives.retained holds (retains_enqueue _))
      | disconnect => exact survives.disconnect holds

theorem handle (survives : Survives property) (crypto : Worker.Crypto) (event : ClientEvent)
    (holds : property server) : property (server.handleClientData crypto worker fd event) := by
  unfold handleClientData
  split
  · exact holds
  · rename_i id stored
    split
    · exact holds
    · rename_i object found
      exact survives.actions _ (survives.retained holds (retains_set_connection found _))

theorem sweep (survives : Survives property) (stale : List Fd) {server : TcpServer}
    (holds : property server) : property (server.sweepIdleConnections worker stale) := by
  induction stale generalizing server with
  | nil => exact holds
  | cons number stale ih =>
      unfold sweepIdleConnections
      dsimp only
      split
      · exact survives.disconnect holds
      · exact ih (survives.disconnect holds)

/-- Only the step that accepts a connection is left to look at. -/
theorem step (survives : Survives property) {crypto : Worker.Crypto} {label : ServerStep}
    (accepted : ∀ worker fd, label = .accept worker fd →
      property (server.acceptConnection worker fd))
    (holds : property server) (stepped : server.step crypto label = some after) :
    property after := by
  cases step_stepped stepped with
  | decide worker => exact survives.retained holds (retains_set_phase _)
  | wait worker events =>
      exact survives.retained holds ((retains_disarm events server).trans (retains_set_phase _))
  | accept worker fd => exact accepted worker fd rfl
  | acceptEnd worker events => exact survives.retained holds (retains_set_phase _)
  | hangup worker event fd events =>
      exact survives.disconnect (survives.retained holds (retains_set_phase _))
  | readable worker event fd events =>
      exact survives.handle crypto event (survives.retained holds (retains_set_phase _))
  | writable worker event fd events => exact survives.retained holds (retains_set_phase _)
  | sweep worker stale =>
      exact survives.retained (survives.sweep stale holds) (retains_set_phase _)
  | teardown worker fd => exact survives.erased holds
  | finish index throws task queued =>
      exact survives.retained holds (retains_finish queued throws)
  | drop index task queued => exact survives.dropped queued holds
  | hold id =>
      exact survives.retained holds { Retains.refl server with
        holds := fun other member => List.mem_cons_of_mem id member
        table := fun _ => rfl }
  | release id => exact survives.released holds
  | stop => exact survives.retained holds retains_stop

end Survives

theorem release_table (id : ConnectionId) (other : WorkerId) :
    ((server.releaseObject id).workers other).table = (server.workers other).table := by
  unfold releaseObject
  split
  · split
    · rfl
    · rfl
  · rfl

theorem unlist_table (number : Fd) (other : WorkerId) :
    ((server.setEntry worker fd none).workers other).table number =
      if other = worker ∧ number = fd then none else (server.workers other).table number := by
  by_cases home : other = worker
  · subst home
    by_cases here : number = fd
    · simp [setEntry, update_worker_same, here]
    · simp [setEntry, update_worker_same, here]
  · rw [setEntry, update_worker_other server home]
    simp [home]

theorem erase_table (number : Fd) (other : WorkerId) :
    ((server.eraseEntry worker fd).workers other).table number =
      if other = worker ∧ number = fd then none else (server.workers other).table number := by
  unfold eraseEntry
  split
  · rw [release_table, unlist_table]
  · rename_i none
    split
    · rename_i place
      rw [place.1, place.2, none]
    · rfl

def EntriesIn (allowed : WorkerId → Fd → ConnectionId → Prop) (server : TcpServer) : Prop :=
  ∀ worker fd id, (server.workers worker).table fd = some id → allowed worker fd id

theorem entries_survive (allowed : WorkerId → Fd → ConnectionId → Prop) :
    Survives (EntriesIn allowed) where
  retained := by
    intro server after inside retains other number id entry
    rw [retains.table] at entry
    exact inside other number id entry
  erased := by
    intro server worker fd inside other number id entry
    rw [erase_table] at entry
    split at entry
    · cases entry
    · exact inside other number id entry
  dropped := by
    intro server index task _ inside other number id entry
    rw [release_table] at entry
    exact inside other number id entry
  released := by
    intro server id inside other number entered entry
    rw [release_table] at entry
    exact inside other number entered entry

theorem accept_parts {property : TcpServer → Prop} (survives : Survives property)
    (released : ∀ {server : TcpServer} {id : ConnectionId}, property server →
      property (server.releaseObject id))
    (entered : property ({ server with
      owner := Function.update server.owner fd (some server.accepted)
      objects := Function.update server.objects server.accepted
        (some { fd := fd, worker := worker })
      accepted := server.accepted + 1 }.setEntry worker fd (some server.accepted))) :
    property (server.acceptConnection worker fd) := by
  unfold acceptConnection
  dsimp only
  cases (server.workers worker).table fd with
  | none =>
      dsimp only
      split
      · exact survives.retained entered retains_terminate
      · exact survives.retained entered (retains_set_registration _)
  | some id =>
      dsimp only
      split
      · exact survives.retained (released entered) retains_terminate
      · exact survives.retained (released entered) (retains_set_registration _)

def Placed (server : TcpServer) : Prop :=
  ∀ worker fd id, (server.workers worker).table fd = some id →
    ∃ object, server.objects id = some object ∧ object.fd = fd ∧ object.worker = worker

theorem placed_release {id : ConnectionId} (placed : Placed server) :
    Placed (server.releaseObject id) := by
  intro other number entered entry
  rw [release_table] at entry
  obtain ⟨object, found, here, home⟩ := placed other number entered entry
  refine ⟨object, ?_, here, home⟩
  unfold releaseObject
  split
  · rename_i same own
    split
    · exact found
    · rename_i unheld
      have different : entered ≠ id := by
        rintro rfl
        rw [found] at own
        cases own
        rw [← here, ← home] at entry
        exact unheld ((is_held_iff found).mpr (Or.inl entry))
      change Function.update server.objects id none entered = some object
      rw [Function.update_of_ne different, found]
  · exact found

theorem placed_erase (placed : Placed server) : Placed (server.eraseEntry worker fd) := by
  unfold eraseEntry
  split
  · apply placed_release
    intro other number entered entry
    rw [unlist_table] at entry
    split at entry
    · cases entry
    · exact placed other number entered entry
  · exact placed

theorem placed_survives : Survives Placed where
  retained := by
    intro server after placed retains other number id entry
    rw [retains.table] at entry
    obtain ⟨object, found, here, home⟩ := placed other number id entry
    obtain ⟨still, left, same, alike⟩ := retained_object retains found
    exact ⟨still, left, same.trans here, alike.trans home⟩
  erased := placed_erase
  dropped _ placed := placed_release placed
  released placed := placed_release placed

theorem enter_table (other : WorkerId) (number : Fd) (id : ConnectionId) :
    (({ server with
      owner := Function.update server.owner fd (some server.accepted)
      objects := Function.update server.objects server.accepted
        (some { fd := fd, worker := worker })
      accepted := server.accepted + 1 }.setEntry worker fd
        (some server.accepted)).workers other).table number = some id ↔
      if other = worker ∧ number = fd then id = server.accepted
      else (server.workers other).table number = some id := by
  by_cases home : other = worker
  · subst home
    by_cases here : number = fd
    · simp [setEntry, update_worker_same, here, eq_comm]
    · simp [setEntry, update_worker_same, here]
  · rw [setEntry, update_worker_other _ home]
    simp [home]

theorem placed_accept (placed : Placed server)
    (fresh : ∀ id object, server.objects id = some object → id < server.accepted) :
    Placed (server.acceptConnection worker fd) := by
  apply accept_parts placed_survives placed_release
  intro other number id entry
  rw [enter_table] at entry
  split at entry
  · rename_i place
    rw [entry]
    exact ⟨{ fd := fd, worker := worker }, Function.update_self .., place.2.symm, place.1.symm⟩
  · obtain ⟨object, found, places⟩ := placed other number id entry
    have older := Nat.ne_of_lt (fresh id object found)
    refine ⟨object, ?_, places⟩
    change Function.update server.objects server.accepted _ id = some object
    rw [Function.update_of_ne older, found]

/-- In a step the entries only go, but for that of the connection it accepts. -/
theorem step_entries {crypto : Worker.Crypto} {label : ServerStep}
    (stepped : server.step crypto label = some after) {other : WorkerId} {number : Fd}
    {id : ConnectionId} (entry : (after.workers other).table number = some id) :
    (server.workers other).table number = some id ∨
      label = .accept other number ∧ id = server.accepted := by
  have survives := entries_survive fun other number id =>
    (server.workers other).table number = some id ∨
      label = .accept other number ∧ id = server.accepted
  refine survives.step ?_ (fun _ _ _ same => Or.inl same) stepped other number id entry
  intro worker fd accepts
  apply accept_parts survives
  · intro reached gone inside other number id entry
    rw [release_table] at entry
    exact inside other number id entry
  · intro other number id entry
    rw [enter_table] at entry
    split at entry
    · rename_i place
      right
      rw [accepts, place.1, place.2]
      exact ⟨rfl, entry⟩
    · exact Or.inl entry

/-- The connection just accepted is in the table; the one whose place it takes may have
lost its last holder. -/
theorem kept_enter (kept : Kept server fun _ => False) :
    Kept ({ server with
      owner := Function.update server.owner fd (some server.accepted)
      objects := Function.update server.objects server.accepted
        (some { fd := fd, worker := worker })
      accepted := server.accepted + 1 }.setEntry worker fd (some server.accepted))
      fun other => (server.workers worker).table fd = some other := by
  refine ⟨?_, ?_, ?_⟩
  · intro number id opened
    change Function.update server.owner fd (some server.accepted) number = some id at opened
    by_cases here : number = fd
    · subst here
      rw [Function.update_self] at opened
      cases opened
      exact ⟨{ fd := number, worker := worker }, Function.update_self .., rfl⟩
    · rw [Function.update_of_ne here] at opened
      obtain ⟨object, found, same⟩ := kept.owned number id opened
      have older := Nat.ne_of_lt (kept.fresh id object found)
      refine ⟨object, ?_, same⟩
      change Function.update server.objects server.accepted _ id = some object
      rw [Function.update_of_ne older, found]
  · intro id object found counts
    change Function.update server.objects server.accepted _ id = some object at found
    by_cases new : id = server.accepted
    · subst new
      rw [Function.update_self] at found
      cases found
      left
      simp [setEntry, update_worker_same]
    · rw [Function.update_of_ne new] at found
      rcases kept.held id object found not_false with entry | elsewhere
      · left
        by_cases home : object.worker = worker
        · have apart : object.fd ≠ fd := by
            intro number
            rw [home, number] at entry
            exact counts entry
          simpa [setEntry, home, update_worker_same, apart] using home ▸ entry
        · rw [setEntry, update_worker_other _ home]
          exact entry
      · exact Or.inr elsewhere
  · intro id object found
    change Function.update server.objects server.accepted _ id = some object at found
    by_cases new : id = server.accepted
    · rw [new]
      exact Nat.lt_succ_self server.accepted
    · rw [Function.update_of_ne new] at found
      exact Nat.lt_succ_of_lt (kept.fresh id object found)

theorem kept_accept (kept : Kept server fun _ => False) :
    Kept (server.acceptConnection worker fd) fun _ => False := by
  have entered := @kept_enter server worker fd kept
  unfold acceptConnection
  dsimp only
  cases earlier : (server.workers worker).table fd with
  | none =>
      rw [earlier] at entered
      have all : Kept _ fun _ => False :=
        ⟨entered.owned, fun id object found _ => entered.held id object found (by simp), entered.fresh⟩
      dsimp only
      split
      · exact kept_retains all retains_terminate
      · exact kept_retains all (retains_set_registration _)
  | some id =>
      rw [earlier] at entered
      have all : Kept _ fun other => other = id :=
        ⟨entered.owned, fun other object found different => entered.held other object found
          (fun same => different (Option.some.inj same).symm), entered.fresh⟩
      have released := kept_release all
      dsimp only
      split
      · exact kept_retains released retains_terminate
      · exact kept_retains released (retains_set_registration _)

theorem kept_survives : Survives fun server => Kept server fun _ => False where
  retained kept retains := kept_retains kept retains
  erased kept := kept_erase kept
  dropped := by
    intro server index task queued kept
    apply kept_release
    refine ⟨kept.owned, ?_, kept.fresh⟩
    intro other object found different
    rcases kept.held other object found not_false with entry | holder | ⟨held, member, own⟩
    · exact Or.inl entry
    · exact Or.inr (Or.inl holder)
    · obtain ⟨place, found⟩ := List.mem_iff_getElem?.mp member
      have apart : place ≠ index := by
        intro same
        rw [same, queued] at found
        cases found
        exact different own.symm
      exact Or.inr (Or.inr ⟨held, List.mem_eraseIdx_iff_getElem?.mpr ⟨place, apart, found⟩, own⟩)
  released := by
    intro server id kept
    apply kept_release
    refine ⟨kept.owned, ?_, kept.fresh⟩
    intro other object found different
    rcases kept.held other object found not_false with entry | holder | task
    · exact Or.inl entry
    · exact Or.inr (Or.inl ((List.mem_erase_of_ne different).mpr holder))
    · exact Or.inr (Or.inr task)

theorem step_kept {crypto : Worker.Crypto} {label : ServerStep}
    (kept : Kept server fun _ => False) (stepped : server.step crypto label = some after) :
    Kept after fun _ => False :=
  kept_survives.step (fun _ _ _ => kept_accept kept) kept stepped

end Steps

theorem initially_kept : Kept {} fun _ => False := by
  constructor
  · intro fd id opened
    cases opened
  · intro id object found
    cases found
  · intro id object found
    cases found

theorem open_numbers_held (crypto : Worker.Crypto) (labels : List ServerStep) (last : TcpServer)
    (reached : run (step crypto) {} labels = some last) :
    (∀ fd id, last.owner fd = some id →
      ∃ object, last.objects id = some object ∧ object.fd = fd ∧ Held last id object) ∧
    ((∀ worker fd, (last.workers worker).table fd = none) → last.tasks = [] → last.holds = [] →
      ∀ fd, last.owner fd = none) := by
  have kept := run_keeps (fun server => Kept server fun _ => False)
    (fun _ _ _ kept stepped => step_kept kept stepped) initially_kept reached
  have held : ∀ fd id, last.owner fd = some id →
      ∃ object, last.objects id = some object ∧ object.fd = fd ∧ Held last id object := by
    intro fd id opened
    obtain ⟨object, found, number⟩ := kept.owned fd id opened
    exact ⟨object, found, number, kept.held id object found not_false⟩
  refine ⟨held, ?_⟩
  intro tables tasks holds fd
  cases opened : last.owner fd with
  | none => rfl
  | some id =>
      obtain ⟨object, _, _, entry | holder | ⟨task, queued, _⟩⟩ := held fd id opened
      · rw [tables] at entry
        cases entry
      · rw [holds] at holder
        cases holder
      · rw [tasks] at queued
        cases queued

/-- A task has closed the number of its connection, and the next one has it now. -/
theorem open_numbers_held_reused :
    ∃ last, run (step { generateAcceptKey := id }) {} (eventRun 7 closingRequest ++
        [.finish 0 false, .decide 0, .wait 0 [.listener], .accept 0 7]) = some last ∧
      last.owner 7 = some 1 ∧
      ∃ object, last.objects 1 = some object ∧ object.fd = 7 ∧ Held last 1 object := by
  have opens : (run (step { generateAcceptKey := id }) {} (eventRun 7 closingRequest ++
      ([.finish 0 false, .decide 0, .wait 0 [.listener], .accept 0 7] : List ServerStep))).any
        (fun last => decide (last.owner 7 = some 1)) = true := by
    decide +kernel
  obtain ⟨last, reached, opened⟩ := run_ends opens
  exact ⟨last, reached, opened,
    (open_numbers_held { generateAcceptKey := id } _ last reached).1 7 1 opened⟩

end HttpServer.DescriptorLeaks
