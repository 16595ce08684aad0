import HttpServer.DescriptorRuns
import Mathlib.Data.Set.Card

/-!
# `TcpServer::active_connections_`

The counter is raised with every accepted connection and lowered by
`disconnectClient` when it erases an entry. An entry also goes when a new connection
takes its number, which a pool task has closed, and with the table of a worker that
leaves `run`; the counter then stays as it is. So it is never below the number of
connections in the tables, and says by how much it is above.
-/

namespace HttpServer.ConnectionCount

open TransitionSystem TcpServer DescriptorOwnership DescriptorRuns

/-- The keys of the workers' tables. -/
def entries (server : TcpServer) : Set (WorkerId × Fd) :=
  {place | ((server.workers place.1).table place.2).isSome = true}

/-- Whether `disconnectClient` comes to `fetch_sub`: `epoll_.remove` has not thrown and
the table had an entry. -/
def disconnectCount (server : TcpServer) (worker : WorkerId) (fd : Fd) : Nat :=
  if ((server.workers worker).epoll fd).isSome ∧ ((server.workers worker).table fd).isSome then 1
  else 0

def actionsCount (server : TcpServer) (worker : WorkerId) (fd : Fd) (connection : ConnectionId) :
    List Action → Nat
  | [] => 0
  | .modify interest :: rest =>
      if ((server.workers worker).epoll fd).isSome then
        actionsCount
          (server.setRegistration worker fd (some { interest := interest, armed := true }))
          worker fd connection rest
      else disconnectCount server worker fd
  | .send _ :: rest => actionsCount server worker fd connection rest
  | .enqueue task :: rest =>
      actionsCount
        { server with
          tasks := server.tasks ++
            [{ connection := connection, worker := worker, fd := fd, task := task }] }
        worker fd connection rest
  | .disconnect :: _ => disconnectCount server worker fd

def handleCount (crypto : Worker.Crypto) (server : TcpServer) (worker : WorkerId) (fd : Fd)
    (event : ClientEvent) : Nat :=
  match (server.workers worker).table fd with
  | none => 0
  | some connection =>
      match server.objects connection with
      | none => 0
      | some object =>
          let handled := Worker.handleClientData crypto object.connection event
          actionsCount
            { server with
              objects := Function.update server.objects connection
                (some { object with connection := handled.1 }) }
            worker fd connection handled.2

def sweepCount (server : TcpServer) (worker : WorkerId) : List Fd → Nat
  | [] => 0
  | fd :: stale =>
      let following := server.disconnectClient worker fd
      disconnectCount server worker fd +
        if following.terminated then 0 else sweepCount following worker stale

/-- `active_connections_.fetch_add` -/
def added (_ : TcpServer) : ServerStep → Nat
  | .accept _ _ => 1
  | _ => 0

/-- `active_connections_.fetch_sub` -/
def subtracted (crypto : Worker.Crypto) (server : TcpServer) : ServerStep → Nat
  | .client worker event =>
      match (server.workers worker).phase with
      | .handling (.client fd readiness :: events) =>
          let taken := server.setPhase worker (.handling events)
          match readiness with
          | .hangup => disconnectCount taken worker fd
          | .readable => handleCount crypto taken worker fd event
          | .writable => 0
      | _ => 0
  | .sweep worker stale => sweepCount server worker stale
  | _ => 0

/-- An accepted connection takes the place of another one in the table. -/
def overwritten (server : TcpServer) : ServerStep → Nat
  | .accept worker fd => if ((server.workers worker).table fd).isSome then 1 else 0
  | _ => 0

def tornDown (_ : TcpServer) : ServerStep → Nat
  | .teardown _ _ => 1
  | _ => 0

section Entries

variable {server after : TcpServer} {worker : WorkerId} {fd : Fd}

theorem entries_same
    (same : ∀ other, (after.workers other).table = (server.workers other).table) :
    entries after = entries server := by
  ext place
  simp only [entries, Set.mem_ofPred_eq, same]

theorem entries_update_worker {change : WorkerState → WorkerState}
    (same : ∀ state, (change state).table = state.table) :
    entries (server.updateWorker worker change) = entries server := by
  apply entries_same
  intro other
  by_cases here : other = worker
  · subst here
    rw [update_worker_same, same]
  · rw [update_worker_other server here]

theorem entries_set_phase (phase : WorkerPhase) :
    entries (server.setPhase worker phase) = entries server :=
  entries_update_worker fun _ => rfl

theorem entries_set_registration (registration : Option Registration) :
    entries (server.setRegistration worker fd registration) = entries server :=
  entries_update_worker fun _ => rfl

theorem entries_release (id : ConnectionId) :
    entries (server.releaseObject id) = entries server := by
  unfold releaseObject
  split
  · split
    · rfl
    · exact entries_same fun _ => rfl
  · rfl

theorem entries_set_none :
    entries (server.setEntry worker fd none) = entries server \ {(worker, fd)} := by
  ext ⟨other, number⟩
  simp only [entries, Set.mem_ofPred_eq, Set.mem_sdiff, Set.mem_singleton_iff, Prod.mk.injEq]
  by_cases here : other = worker
  · subst here
    by_cases same : number = fd
    · simp [setEntry, update_worker_same, same]
    · simp [setEntry, update_worker_same, same]
  · simp [setEntry, update_worker_other server here, here]

theorem entries_set_some (id : ConnectionId) :
    entries (server.setEntry worker fd (some id)) = insert (worker, fd) (entries server) := by
  ext ⟨other, number⟩
  simp only [entries, Set.mem_ofPred_eq, Set.mem_insert_iff, Prod.mk.injEq]
  by_cases here : other = worker
  · subst here
    by_cases same : number = fd
    · simp [setEntry, update_worker_same, same]
    · simp [setEntry, update_worker_same, same]
  · simp [setEntry, update_worker_other server here, here]

theorem entries_erase :
    entries (server.eraseEntry worker fd) = entries server \ {(worker, fd)} := by
  unfold eraseEntry
  split
  · rw [entries_release, entries_set_none]
  · rename_i unlisted
    refine (Set.sdiff_singleton_eq_self ?_).symm
    simp [entries, unlisted]

/-- Some of the entries are gone, as many as were counted. -/
structure Loses (server after : TcpServer) (count : Nat) : Prop where
  finite : (entries server).Finite → (entries after).Finite
  count : (entries server).Finite → (entries after).ncard + count = (entries server).ncard

theorem loses_none (same : entries after = entries server) : Loses server after 0 := by
  constructor
  · rw [same]
    exact id
  · intro _
    rw [same]
    rfl

theorem Loses.trans {middle : TcpServer} {first second : Nat} (one : Loses server middle first)
    (two : Loses middle after second) : Loses server after (first + second) := by
  constructor
  · exact fun finite => two.finite (one.finite finite)
  · intro finite
    have left := one.count finite
    have right := two.count (one.finite finite)
    omega

theorem loses_from {middle : TcpServer} {count : Nat} (same : entries middle = entries server)
    (loses : Loses middle after count) : Loses server after count := by
  have whole := (loses_none same).trans loses
  rwa [Nat.zero_add] at whole

theorem erase_loses : Loses server (server.eraseEntry worker fd)
    (if ((server.workers worker).table fd).isSome then 1 else 0) := by
  constructor
  · intro finite
    rw [entries_erase]
    exact finite.sdiff
  · intro finite
    rw [entries_erase]
    split
    · rename_i listed
      have member : (worker, fd) ∈ entries server := listed
      exact Set.ncard_sdiff_singleton_add_one member finite
    · rename_i unlisted
      have gone : (worker, fd) ∉ entries server := unlisted
      rw [Set.sdiff_singleton_eq_self gone]
      rfl

theorem disconnect_loses :
    Loses server (server.disconnectClient worker fd) (disconnectCount server worker fd) := by
  unfold disconnectClient disconnectCount
  split
  · rename_i registered
    have erased : Loses (server.setRegistration worker fd none)
        ((server.setRegistration worker fd none).eraseEntry worker fd)
        (if (((server.setRegistration worker fd none).workers worker).table fd).isSome then 1
        else 0) := erase_loses
    have both := loses_from (entries_set_registration none) erased
    simpa [registered, setRegistration, update_worker_same] using both
  · rename_i unregistered
    rw [if_neg (fun both => unregistered both.1)]
    exact loses_none rfl

theorem actions_lose {connection : ConnectionId} (actions : List Action) (server : TcpServer) :
    Loses server (server.runActions worker fd connection actions)
      (actionsCount server worker fd connection actions) := by
  induction actions generalizing server with
  | nil => exact loses_none rfl
  | cons action rest ih =>
      cases action with
      | modify interest =>
          unfold runActions actionsCount
          split
          · exact loses_from (entries_set_registration _) (ih _)
          · exact disconnect_loses
      | send data => exact ih server
      | enqueue task =>
          unfold runActions actionsCount
          refine loses_from ?_ (ih _)
          exact entries_same fun _ => rfl
      | disconnect => exact disconnect_loses

theorem handle_loses (crypto : Worker.Crypto) (event : ClientEvent) :
    Loses server (server.handleClientData crypto worker fd event)
      (handleCount crypto server worker fd event) := by
  unfold handleClientData handleCount
  cases listed : (server.workers worker).table fd with
  | none => exact loses_none rfl
  | some connection =>
      dsimp only
      cases found : server.objects connection with
      | none => exact loses_none rfl
      | some object =>
          refine loses_from ?_ (actions_lose _ _)
          exact entries_same fun _ => rfl

theorem sweep_loses (stale : List Fd) (server : TcpServer) :
    Loses server (server.sweepIdleConnections worker stale) (sweepCount server worker stale) := by
  induction stale generalizing server with
  | nil => exact loses_none rfl
  | cons fd stale ih =>
      unfold sweepIdleConnections sweepCount
      dsimp only
      split
      · exact disconnect_loses
      · exact disconnect_loses.trans (ih _)

theorem entries_finish {index : Nat} (task : PoolTask) (throws : Bool) :
    entries (server.finishTask index task throws) = entries server := by
  have ended : entries (server.setTask index { task with ended := true }) = entries server :=
    entries_same fun _ => rfl
  unfold finishTask
  dsimp only
  split
  · exact ended
  · split
    · exact (entries_set_registration _).trans ended
    · exact (entries_same fun _ => rfl).trans ended

theorem disarm_entries (events : List PollEvent) (server : TcpServer) :
    entries (server.disarm worker events) = entries server := by
  induction events generalizing server with
  | nil => rfl
  | cons event events ih =>
      cases event with
      | listener => exact ih server
      | client number readiness =>
          rw [disarm, ih]
          exact entries_set_registration _

theorem accept_entries :
    entries (server.acceptConnection worker fd) = insert (worker, fd) (entries server) := by
  have entered : entries ({ server with
      owner := Function.update server.owner fd (some server.accepted)
      objects := Function.update server.objects server.accepted
        (some { fd := fd, worker := worker })
      accepted := server.accepted + 1 }.setEntry worker fd (some server.accepted)) =
        insert (worker, fd) (entries server) :=
    (entries_set_some _).trans (congrArg _ (entries_same fun _ => rfl))
  unfold acceptConnection
  dsimp only
  cases (server.workers worker).table fd with
  | none =>
      dsimp only
      split
      · exact entered
      · exact (entries_set_registration _).trans entered
  | some id =>
      dsimp only
      split
      · exact (entries_release id).trans entered
      · exact ((entries_set_registration _).trans (entries_release id)).trans entered

theorem accept_counts (finite : (entries server).Finite) :
    (entries (server.acceptConnection worker fd)).Finite ∧
      (entries (server.acceptConnection worker fd)).ncard +
          (if ((server.workers worker).table fd).isSome then 1 else 0) =
        (entries server).ncard + 1 := by
  rw [accept_entries]
  refine ⟨finite.insert _, ?_⟩
  split
  · rename_i listed
    have member : (worker, fd) ∈ entries server := listed
    rw [Set.ncard_insert_of_mem member]
  · rename_i unlisted
    have fresh : (worker, fd) ∉ entries server := unlisted
    rw [Set.ncard_insert_of_notMem fresh finite]

end Entries

section Runs

variable {crypto : Worker.Crypto} {server after : TcpServer} {label : ServerStep}

def leaving (crypto : Worker.Crypto) (server : TcpServer) (label : ServerStep) : Nat :=
  subtracted crypto server label + (overwritten server label + tornDown server label)

theorem teardown_listed {worker : WorkerId} {fd : Fd}
    (stepped : server.step crypto (.teardown worker fd) = some after) :
    ((server.workers worker).table fd).isSome = true := by
  unfold TcpServer.step at stepped
  split at stepped
  · cases stepped
  · dsimp only at stepped
    split at stepped
    · rename_i both
      exact both.2
    · cases stepped

theorem balance_of_loses {count : Nat} (finite : (entries server).Finite)
    (loses : Loses server after count) (noneAdded : added server label = 0)
    (counted : leaving crypto server label = count) :
    (entries after).Finite ∧
      (entries after).ncard + leaving crypto server label =
        (entries server).ncard + added server label := by
  refine ⟨loses.finite finite, ?_⟩
  rw [counted, noneAdded]
  exact loses.count finite

theorem step_balance (finite : (entries server).Finite)
    (stepped : server.step crypto label = some after) :
    (entries after).Finite ∧
      (entries after).ncard + leaving crypto server label =
        (entries server).ncard + added server label := by
  cases step_stepped stepped with
  | decide worker => exact balance_of_loses finite (loses_none (entries_set_phase _)) rfl rfl
  | wait worker events =>
      exact balance_of_loses finite
        (loses_none ((entries_set_phase _).trans (disarm_entries events server))) rfl rfl
  | accept worker fd =>
      obtain ⟨still, counts⟩ : (entries (server.acceptConnection worker fd)).Finite ∧ _ :=
        accept_counts finite
      refine ⟨still, ?_⟩
      simpa [leaving, subtracted, overwritten, tornDown, added] using counts
  | acceptEnd worker events =>
      exact balance_of_loses finite (loses_none (entries_set_phase _)) rfl rfl
  | hangup worker event fd events phase =>
      refine balance_of_loses finite
        (loses_from (entries_set_phase (.handling events)) disconnect_loses) rfl ?_
      simp only [leaving, subtracted, phase, overwritten, tornDown, Nat.add_zero]
  | readable worker event fd events phase =>
      refine balance_of_loses finite
        (loses_from (entries_set_phase (.handling events)) (handle_loses crypto event)) rfl ?_
      simp only [leaving, subtracted, phase, overwritten, tornDown, Nat.add_zero]
  | writable worker event fd events phase =>
      refine balance_of_loses finite (loses_none (entries_set_phase (.handling events))) rfl ?_
      simp only [leaving, subtracted, phase, overwritten, tornDown, Nat.add_zero]
  | sweep worker stale =>
      have swept : Loses server
          ((server.sweepIdleConnections worker stale).setPhase worker .deciding)
          (sweepCount server worker stale + 0) :=
        (sweep_loses stale server).trans (loses_none (entries_set_phase .deciding))
      exact balance_of_loses finite swept rfl rfl
  | teardown worker fd phase =>
      have erased : Loses server (server.eraseEntry worker fd) _ := erase_loses
      rw [if_pos (teardown_listed stepped)] at erased
      exact balance_of_loses finite erased rfl rfl
  | finish index throws task queued started =>
      exact balance_of_loses finite (loses_none (entries_finish task throws)) rfl rfl
  | drop index task queued finished =>
      exact balance_of_loses finite
        (loses_none ((entries_release _).trans (entries_same fun _ => rfl))) rfl rfl
  | hold id => exact balance_of_loses finite (loses_none (entries_same fun _ => rfl)) rfl rfl
  | release id =>
      exact balance_of_loses finite
        (loses_none ((entries_release _).trans (entries_same fun _ => rfl))) rfl rfl
  | stop => exact balance_of_loses finite (loses_none (entries_same fun _ => rfl)) rfl rfl

theorem accept_overwrites_none (consistent : Consistent server)
    (stepped : server.step crypto label = some after) : overwritten server label = 0 := by
  cases step_stepped stepped with
  | accept worker fd events phase free =>
      simp only [overwritten, ite_eq_right_iff, one_ne_zero, imp_false]
      intro listed
      obtain ⟨id, stored⟩ := Option.isSome_iff_exists.mp listed
      obtain ⟨object, found, number, _, _⟩ := consistent.entries worker fd id stored
      have opened := consistent.opened id object found
      rw [number, free] at opened
      cases opened
  | _ => rfl

end Runs

/-- `active_connections_` after a run: a `size_t` that the steps have raised and
lowered. -/
def activeConnections (crypto : Worker.Crypto) (labels : List ServerStep) : UInt64 :=
  UInt64.ofNat (tally (step crypto) added {} labels) -
    UInt64.ofNat (tally (step crypto) (subtracted crypto) {} labels)

theorem active_connections_counted (crypto : Worker.Crypto) (labels : List ServerStep)
    (last : TcpServer) (reached : run (step crypto) {} labels = some last) :
    (entries last).Finite ∧
      tally (step crypto) added {} labels =
        tally (step crypto) (subtracted crypto) {} labels + ((entries last).ncard +
          (tally (step crypto) overwritten {} labels + tally (step crypto) tornDown {} labels)) ∧
      activeConnections crypto labels =
        UInt64.ofNat ((entries last).ncard +
          (tally (step crypto) overwritten {} labels + tally (step crypto) tornDown {} labels)) ∧
      (NoRawClose crypto labels → tally (step crypto) overwritten {} labels = 0) := by
  have empty : entries {} = ∅ := by
    ext place
    simp [entries]
  have start : (entries {}).Finite := by
    rw [empty]
    exact Set.finite_empty
  have finite : (entries last).Finite :=
    run_keeps (fun server => (entries server).Finite)
      (fun _ _ _ finite stepped => (step_balance finite stepped).1) start reached
  have balance := run_balance (fun server => (entries server).Finite)
    (fun server => (entries server).ncard) added (leaving crypto)
    (fun _ _ _ finite stepped => step_balance finite stepped) start reached
  have split : tally (step crypto) (leaving crypto) {} labels =
      tally (step crypto) (subtracted crypto) {} labels +
        (tally (step crypto) overwritten {} labels + tally (step crypto) tornDown {} labels) := by
    unfold leaving
    rw [tally_add, tally_add]
  simp only [empty, Set.ncard_empty, Nat.zero_add, split] at balance
  have counted : tally (step crypto) added {} labels =
      tally (step crypto) (subtracted crypto) {} labels + ((entries last).ncard +
        (tally (step crypto) overwritten {} labels + tally (step crypto) tornDown {} labels)) := by
    omega
  refine ⟨finite, counted, ?_, ?_⟩
  · rw [activeConnections, counted, Nat.add_comm, UInt64.ofNat_add, UInt64.add_sub_cancel]
  · intro kept
    apply tally_eq_zero Consistent ?_ initially_consistent kept reached
    intro server label following consistent keeps stepped
    exact ⟨step_consistent consistent keeps stepped, accept_overwrites_none consistent stepped⟩

/-- The number closed by a task goes to the next connection. -/
def takenOverRun : List ServerStep :=
  eventRun 7 closingRequest ++
    [.finish 0 false, .decide 0, .wait 0 [.listener], .accept 0 7]

/-- Two connections accepted, one entry left, and the counter stays at two. -/
theorem active_connections_counted_taken_over :
    ∃ last, run (step { generateAcceptKey := id }) {} takenOverRun = some last ∧
      activeConnections { generateAcceptKey := id } takenOverRun = 2 ∧
      (entries last).ncard = 1 := by
  obtain ⟨last, reached⟩ := Option.isSome_iff_exists.mp
    (show (run (step { generateAcceptKey := id }) {} takenOverRun).isSome = true by
      decide +kernel)
  refine ⟨last, reached, by decide +kernel, ?_⟩
  have counted :=
    (active_connections_counted { generateAcceptKey := id } takenOverRun last reached).2.1
  have accepted : tally (step { generateAcceptKey := id }) added {} takenOverRun = 2 := by
    decide +kernel
  have erased : tally (step { generateAcceptKey := id })
      (subtracted { generateAcceptKey := id }) {} takenOverRun = 0 := by
    decide +kernel
  have replaced : tally (step { generateAcceptKey := id }) overwritten {} takenOverRun = 1 := by
    decide +kernel
  have gone : tally (step { generateAcceptKey := id }) tornDown {} takenOverRun = 0 := by
    decide +kernel
  omega

end HttpServer.ConnectionCount
