import HttpServer.ThreadPool
import HttpServer.WorkerLifetime

/-!
# The server over its thread pool

In `TcpServer` the functions handed to the pool are a bag of tasks from which any may
end next. Here the pool is that of `ThreadPool`. The thread of worker `i` is its
producer `i`: it looks at no event and at no flag before the functions of its last
event are in the ring. A task ends on the pool thread that took its function from the
ring, and the function is destroyed when that thread goes on; what is left in the ring
goes with the pool. Each function has a ticket. The mutex that tasks of an HTTP/2 connection
take is left to `Http2Deadlock`.
-/

namespace HttpServer

abbrev Ticket := Nat

structure PooledServer where
  server : TcpServer := {}
  pool : ThreadPool Ticket
  /-- The tickets of the server's tasks, in the same order. -/
  tickets : List Ticket := []
  /-- Every task there was: that of a ticket has its place. -/
  handed : List PoolTask := []
  /-- What the thread of each worker has still to call `enqueue` with. -/
  calls : List (List Ticket) := []
  finished : List Ticket := []
  discarded : List Ticket := []

inductive PooledStep where
  | serve (label : ServerStep)
  | enqueue (worker : WorkerId)
  | produce (worker : WorkerId)
  | work (thread : Nat)
  | finish (thread : Nat) (throws : Bool)
  | destroy
  | discard (ticket : Ticket)
deriving DecidableEq, Repr

namespace PooledServer

open WorkerLifetime

def initial (workers threads : Nat) : PooledServer where
  pool := ThreadPool.initial workers threads
  calls := List.replicate workers []

/-- The thread of the worker is at a statement of its own, not inside `enqueue`. -/
def IsOutside (pooled : PooledServer) (worker : WorkerId) : Prop :=
  pooled.calls[worker]? = some [] ∧ pooled.pool.producers[worker]? = some .idle

instance (pooled : PooledServer) (worker : WorkerId) : Decidable (pooled.IsOutside worker) :=
  inferInstanceAs (Decidable (_ ∧ _))

/-- The tasks end and go by steps of the pool. -/
def ofPool : ServerStep → Bool
  | .finish _ _ | .drop _ => true
  | _ => false

def Permits (pooled : PooledServer) (label : ServerStep) : Prop :=
  ofPool label = false ∧ ∀ worker ∈ workerOf label, pooled.IsOutside worker

instance (pooled : PooledServer) (label : ServerStep) : Decidable (pooled.Permits label) :=
  inferInstanceAs (Decidable (_ ∧ ∀ worker ∈ workerOf label, pooled.IsOutside worker))

def handTo (calls : List (List Ticket)) (tickets : List Ticket) :
    Option WorkerId → List (List Ticket)
  | some worker => calls.set worker tickets
  | none => calls

def handOver (pooled : PooledServer) (origin : Option WorkerId) (following : TcpServer) :
    PooledServer :=
  let new := following.tasks.drop pooled.server.tasks.length
  let tickets := List.range' pooled.handed.length new.length
  { pooled with
    server := following
    tickets := pooled.tickets ++ tickets
    handed := pooled.handed ++ new
    calls := handTo pooled.calls tickets origin }

def serve (crypto : Worker.Crypto) (pooled : PooledServer) (label : ServerStep) :
    Option PooledServer :=
  if pooled.Permits label then
    (pooled.server.step crypto label).map (pooled.handOver (workerOf label))
  else none

def enqueue (pooled : PooledServer) (worker : WorkerId) : Option PooledServer :=
  match pooled.calls[worker]? with
  | some (ticket :: rest) =>
      (pooled.pool.enqueue worker (some ticket)).map fun pool =>
        { pooled with pool := pool, calls := pooled.calls.set worker rest }
  | _ => none

def indexOf (pooled : PooledServer) (ticket : Ticket) : Nat := pooled.tickets.idxOf ticket

def runningOn : PoolWorker Ticket → Option Ticket
  | .running ticket => some ticket
  | _ => none

def runningTicket (pooled : PooledServer) (thread : Nat) : Option Ticket :=
  (pooled.pool.workers[thread]?).bind runningOn

def dropTask (crypto : Worker.Crypto) (pooled : PooledServer) (ticket : Ticket) :
    Option PooledServer :=
  (pooled.server.step crypto (.drop (pooled.indexOf ticket))).map fun following =>
    { pooled with
      server := following
      tickets := pooled.tickets.eraseIdx (pooled.indexOf ticket) }

def hasEnded (pooled : PooledServer) (ticket : Ticket) : Bool :=
  (pooled.server.tasks[pooled.indexOf ticket]?).any PoolTask.ended

/-- A step of the worker loop; it goes on from a task that has ended. -/
def work (crypto : Worker.Crypto) (pooled : PooledServer) (thread : Nat) : Option PooledServer :=
  match pooled.runningTicket thread with
  | some ticket =>
      if pooled.hasEnded ticket then
        (pooled.dropTask crypto ticket).bind fun dropped =>
          (pooled.pool.work thread).map fun pool =>
            { dropped with pool := pool, finished := pooled.finished ++ [ticket] }
      else none
  | none => (pooled.pool.work thread).map fun pool => { pooled with pool := pool }

def finish (crypto : Worker.Crypto) (pooled : PooledServer) (thread : Nat) (throws : Bool) :
    Option PooledServer :=
  (pooled.runningTicket thread).bind fun ticket =>
    (pooled.server.step crypto (.finish (pooled.indexOf ticket) throws)).map fun following =>
      { pooled with server := following }

def waiting (pool : ThreadPool Ticket) : List (Option Ticket) :=
  pool.shared.inserted.drop pool.shared.extracted.length

/-- The ring goes after the destructor has joined the threads. -/
def discard (crypto : Worker.Crypto) (pooled : PooledServer) (ticket : Ticket) :
    Option PooledServer :=
  if pooled.pool.destructor = .destroyed ∧
      pooled.pool.workers.all (fun thread => decide (thread = .exited)) = true ∧
      some ticket ∈ waiting pooled.pool ∧ ticket ∈ pooled.tickets then
    (pooled.dropTask crypto ticket).map fun dropped =>
      { dropped with discarded := pooled.discarded ++ [ticket] }
  else none

def step (crypto : Worker.Crypto) (pooled : PooledServer) (label : PooledStep) :
    Option PooledServer :=
  if pooled.server.terminated then none
  else
    match label with
    | .serve label => pooled.serve crypto label
    | .enqueue worker => pooled.enqueue worker
    | .produce worker =>
        (pooled.pool.produce worker).map fun pool => { pooled with pool := pool }
    | .work thread => pooled.work crypto thread
    | .finish thread throws => pooled.finish crypto thread throws
    | .destroy => (pooled.pool.destroy).map fun pool => { pooled with pool := pool }
    | .discard ticket => pooled.discard crypto ticket

def serverLabels (pooled : PooledServer) : PooledStep → List ServerStep
  | .serve label => [label]
  | .work thread =>
      match pooled.runningTicket thread with
      | some ticket => [.drop (pooled.indexOf ticket)]
      | none => []
  | .finish thread throws =>
      match pooled.runningTicket thread with
      | some ticket => [.finish (pooled.indexOf ticket) throws]
      | none => []
  | .discard ticket => [.drop (pooled.indexOf ticket)]
  | .enqueue _ | .produce _ | .destroy => []

def poolActions (pooled : PooledServer) : PooledStep → List (PoolAction Ticket)
  | .enqueue worker =>
      match pooled.calls[worker]? with
      | some (ticket :: _) => [.enqueue worker (some ticket)]
      | _ => []
  | .produce worker => [.produce worker]
  | .work thread => [.work thread]
  | .destroy => [.destroy]
  | .serve _ | .finish _ _ | .discard _ => []
end PooledServer

namespace PooledServer

open TcpServer DescriptorRuns WorkerLifetime

section Moves

variable {crypto : Worker.Crypto} {pooled after : PooledServer}

inductive Moves (crypto : Worker.Crypto) (pooled : PooledServer) :
    PooledStep → PooledServer → Prop
  | serve (label : ServerStep) (server : TcpServer) (permitted : pooled.Permits label)
      (stepped : pooled.server.step crypto label = some server) :
      Moves crypto pooled (.serve label) (pooled.handOver (workerOf label) server)
  | enqueue (worker : WorkerId) (ticket : Ticket) (rest : List Ticket) (pool : ThreadPool Ticket)
      (calls : pooled.calls[worker]? = some (ticket :: rest))
      (stepped : pooled.pool.enqueue worker (some ticket) = some pool) :
      Moves crypto pooled (.enqueue worker)
        { pooled with pool := pool, calls := pooled.calls.set worker rest }
  | produce (worker : WorkerId) (pool : ThreadPool Ticket)
      (stepped : pooled.pool.produce worker = some pool) :
      Moves crypto pooled (.produce worker) { pooled with pool := pool }
  | goOn (thread : Nat) (ticket : Ticket) (server : TcpServer) (pool : ThreadPool Ticket)
      (running : pooled.runningTicket thread = some ticket)
      (dropped : pooled.server.step crypto (.drop (pooled.indexOf ticket)) = some server)
      (stepped : pooled.pool.work thread = some pool) :
      Moves crypto pooled (.work thread)
        { pooled with
          server := server
          pool := pool
          tickets := pooled.tickets.eraseIdx (pooled.indexOf ticket)
          finished := pooled.finished ++ [ticket] }
  | work (thread : Nat) (pool : ThreadPool Ticket)
      (running : pooled.runningTicket thread = none)
      (stepped : pooled.pool.work thread = some pool) :
      Moves crypto pooled (.work thread) { pooled with pool := pool }
  | finish (thread : Nat) (throws : Bool) (ticket : Ticket) (server : TcpServer)
      (running : pooled.runningTicket thread = some ticket)
      (stepped : pooled.server.step crypto (.finish (pooled.indexOf ticket) throws) =
        some server) :
      Moves crypto pooled (.finish thread throws) { pooled with server := server }
  | destroy (pool : ThreadPool Ticket) (stepped : pooled.pool.destroy = some pool) :
      Moves crypto pooled .destroy { pooled with pool := pool }
  | discard (ticket : Ticket) (server : TcpServer)
      (gone : ∀ thread ∈ pooled.pool.workers, thread = .exited)
      (inside : some ticket ∈ waiting pooled.pool) (listed : ticket ∈ pooled.tickets)
      (dropped : pooled.server.step crypto (.drop (pooled.indexOf ticket)) = some server) :
      Moves crypto pooled (.discard ticket)
        { pooled with
          server := server
          tickets := pooled.tickets.eraseIdx (pooled.indexOf ticket)
          discarded := pooled.discarded ++ [ticket] }

theorem step_moves {label : PooledStep} (stepped : pooled.step crypto label = some after) :
    Moves crypto pooled label after := by
  unfold step at stepped
  split at stepped
  · cases stepped
  · cases label with
    | serve label =>
        dsimp only [serve] at stepped
        split at stepped
        · rename_i permitted
          obtain ⟨server, moved, rfl⟩ := Option.map_eq_some_iff.mp stepped
          exact .serve label server permitted moved
        · cases stepped
    | enqueue worker =>
        dsimp only [enqueue] at stepped
        split at stepped
        · rename_i ticket rest calls
          obtain ⟨pool, moved, rfl⟩ := Option.map_eq_some_iff.mp stepped
          exact .enqueue worker ticket rest pool calls moved
        · cases stepped
    | produce worker =>
        obtain ⟨pool, moved, rfl⟩ := Option.map_eq_some_iff.mp stepped
        exact .produce worker pool moved
    | work thread =>
        dsimp only [work] at stepped
        split at stepped
        · rename_i ticket running
          split at stepped
          · obtain ⟨dropped, moved, onward⟩ := Option.bind_eq_some_iff.mp stepped
            obtain ⟨server, erased, rfl⟩ := Option.map_eq_some_iff.mp moved
            obtain ⟨pool, worked, rfl⟩ := Option.map_eq_some_iff.mp onward
            exact .goOn thread ticket server pool running erased worked
          · cases stepped
        · rename_i running
          obtain ⟨pool, worked, rfl⟩ := Option.map_eq_some_iff.mp stepped
          exact .work thread pool running worked
    | finish thread throws =>
        obtain ⟨ticket, running, moved⟩ := Option.bind_eq_some_iff.mp stepped
        obtain ⟨server, ended, rfl⟩ := Option.map_eq_some_iff.mp moved
        exact .finish thread throws ticket server running ended
    | destroy =>
        obtain ⟨pool, moved, rfl⟩ := Option.map_eq_some_iff.mp stepped
        exact .destroy pool moved
    | discard ticket =>
        dsimp only [discard] at stepped
        split at stepped
        · rename_i allowed
          obtain ⟨_, exited, inside, listed⟩ := allowed
          obtain ⟨dropped, moved, rfl⟩ := Option.map_eq_some_iff.mp stepped
          obtain ⟨server, erased, rfl⟩ := Option.map_eq_some_iff.mp moved
          refine .discard ticket server ?_ inside listed erased
          intro thread member
          exact of_decide_eq_true (List.all_eq_true.mp exited thread member)
        · cases stepped

end Moves

section ServerTasks

variable {crypto : Worker.Crypto} {server after : TcpServer} {label : ServerStep}

/-- Tasks are added at the end, each for the worker that is at work. -/
def AddsTasks (origin : Option WorkerId) (server after : TcpServer) : Prop :=
  ∃ new, after.tasks = server.tasks ++ new ∧
    ∀ task ∈ new, task.ended = false ∧ origin = some task.worker

theorem adds_none {origin : Option WorkerId} (same : after.tasks = server.tasks) :
    AddsTasks origin server after :=
  ⟨[], by rw [same, List.append_nil], fun _ member => (by cases member)⟩

theorem actions_add {worker : WorkerId} {fd : Fd} {id : ConnectionId} (actions : List Action)
    (server : TcpServer) :
    AddsTasks (some worker) server (server.runActions worker fd id actions) := by
  induction actions generalizing server with
  | nil => exact adds_none rfl
  | cons action actions ih =>
      cases action with
      | modify interest =>
          unfold runActions
          split
          · exact ih _
          · exact adds_none (disconnect_client_loops worker fd).tasks
      | send data => exact ih server
      | enqueue task =>
          obtain ⟨new, added, fresh⟩ := ih { server with
            tasks := server.tasks ++
              [{ connection := id, worker := worker, fd := fd, task := task }] }
          refine ⟨{ connection := id, worker := worker, fd := fd, task := task } :: new, ?_, ?_⟩
          · unfold runActions
            rw [added, List.append_assoc, List.singleton_append]
          · intro other member
            rcases List.mem_cons.mp member with rfl | later
            · exact ⟨rfl, rfl⟩
            · exact fresh other later
      | disconnect => exact adds_none (disconnect_client_loops worker fd).tasks

theorem handle_adds (worker : WorkerId) (fd : Fd) (event : ClientEvent) (server : TcpServer) :
    AddsTasks (some worker) server (server.handleClientData crypto worker fd event) := by
  unfold TcpServer.handleClientData
  split
  · exact adds_none rfl
  · split
    · exact adds_none rfl
    · exact actions_add _ _

theorem serve_adds (own : ofPool label = false) (stepped : server.step crypto label = some after) :
    AddsTasks (workerOf label) server after := by
  cases step_stepped stepped with
  | decide worker => exact adds_none rfl
  | wait worker events => exact adds_none (disarm_loops worker events server).tasks
  | accept worker fd => exact adds_none (accept_connection_loops worker fd).tasks
  | acceptEnd worker => exact adds_none rfl
  | hangup worker event fd events => exact adds_none (disconnect_client_loops worker fd).tasks
  | readable worker event fd events =>
      exact handle_adds worker fd event (server.setPhase worker (.handling events))
  | writable worker => exact adds_none rfl
  | sweep worker stale => exact adds_none (sweep_loops worker stale server).tasks
  | teardown worker fd => exact adds_none (erase_entry_loops worker fd).tasks
  | finish => cases own
  | drop => cases own
  | hold => exact adds_none rfl
  | release id => exact adds_none (release_object_loops id).tasks
  | stop => exact adds_none rfl

theorem finish_ends {index : Nat} {throws : Bool}
    (stepped : server.step crypto (.finish index throws) = some after) :
    ∃ task, server.tasks[index]? = some task ∧
      after.tasks = server.tasks.set index { task with ended := true } := by
  cases step_stepped stepped with
  | finish _ _ task queued => exact ⟨task, queued, (finish_loops index task throws).tasks⟩

theorem drop_erases {index : Nat} (stepped : server.step crypto (.drop index) = some after) :
    after.tasks = server.tasks.eraseIdx index := by
  cases step_stepped stepped with
  | drop _ task => exact (release_object_loops _).tasks

end ServerTasks

end PooledServer

end HttpServer
