import HttpServer.Http2Pool
import HttpServer.ThreadPoolInvariant

/-!
# The wait cycle between a connection and the pool

An event thread that waits for space while it holds a mutex, and workers that wait
for this mutex, wait for each other. The cycle needs a thread that waits under its
mutex for a permit that is not there. So it is enough that a completed stream finds a
permit, and that nobody takes this permit away before the thread has it; how full the
ring gets otherwise does not matter. Without that the cycle is reachable, and
`deadlock_reached` walks into it with the eight workers the server starts.
-/

namespace HttpServer.Http2Deadlock

open ThreadPool ThreadPoolInvariant Http2Server Census TransitionSystem

/-- A permit of `space_available_` is left when all that wait for one have theirs. -/
def HasPermit (pool : ThreadPool PoolJob) : Prop :=
  total producerWaits pool.producers < pool.shared.spaceAvailable

instance (pool : ThreadPool PoolJob) : Decidable (HasPermit pool) :=
  inferInstanceAs (Decidable (_ < _))

def waitsInside : EventThread × Producer PoolJob → Bool
  | (.receiving _, .counted _) => true
  | _ => false

/-- An event thread waits in `enqueue` and holds a connection's mutex. -/
def mutexWaits (server : Http2Server) : Bool :=
  (List.zip server.events server.pool.producers).any waitsInside

/-- A completed stream finds a permit, and nobody takes it before its thread has it. -/
def HasRoom (server : Http2Server) : Http2Action → Prop
  | .completeStream _ => HasPermit server.pool
  | .enqueuePlain _ => mutexWaits server = true → HasPermit server.pool
  | _ => True

instance decidableHasRoom (server : Http2Server) : ∀ action, Decidable (HasRoom server action)
  | .completeStream _ => inferInstanceAs (Decidable (HasPermit server.pool))
  | .enqueuePlain _ =>
      inferInstanceAs (Decidable (mutexWaits server = true → HasPermit server.pool))
  | .enter _ _ | .lock _ | .leave _ | .produce _ | .work _ | .respond _ | .abandon _
  | .acquire _ | .release _ => isTrue trivial

section Moves

variable {server following : Http2Server}

theorem advance_keeps_pool {worker : Nat} {place next : Submission}
    {locked : Nat → Option (List Nat)}
    (stepped : server.advance worker place next locked = some following) :
    following.pool = server.pool ∧ following.events = server.events := by
  unfold Http2Server.advance at stepped
  split at stepped
  · split_ifs at stepped
    obtain ⟨held, _, rfl⟩ := Option.map_eq_some_iff.mp stepped
    exact ⟨rfl, rfl⟩
  · cases stepped

theorem work_moves_pool {worker : Nat} (stepped : server.work worker = some following) :
    server.pool.work worker = some following.pool ∧ following.events = server.events := by
  unfold Http2Server.work at stepped
  split at stepped
  · obtain ⟨pool, moved, rfl⟩ := Option.map_eq_some_iff.mp stepped
    exact ⟨moved, rfl⟩
  · cases stepped
  · obtain ⟨pool, moved, rfl⟩ := Option.map_eq_some_iff.mp stepped
    exact ⟨moved, rfl⟩

theorem mutex_waits_iff :
    mutexWaits server = true ↔ ∃ (event connection : Nat) (task : Option PoolJob),
      server.events[event]? = some (.receiving connection) ∧
        server.pool.producers[event]? = some (.counted task) := by
  rw [mutexWaits, List.any_eq_true]
  constructor
  · rintro ⟨⟨thread, phase⟩, member, waits⟩
    obtain ⟨event, found⟩ := List.mem_iff_getElem?.mp member
    obtain ⟨here, there⟩ := List.getElem?_zip_eq_some.mp found
    cases thread with
    | receiving connection =>
        cases phase with
        | counted task => exact ⟨event, connection, task, here, there⟩
        | _ => cases waits
    | free => cases waits
    | locking connection => cases waits
  · rintro ⟨event, connection, task, here, there⟩
    exact ⟨(.receiving connection, .counted task),
      List.mem_of_getElem? (List.getElem?_zip_eq_some.mpr ⟨here, there⟩), rfl⟩

theorem producer_waits_once {phase next : Producer PoolJob} {before after : PoolShared PoolJob}
    (stepped : phase.step before = some (after, next)) :
    (∀ task, next ≠ .counted task) ∧ producerWaits next = 0 ∧
      after.spaceAvailable + producerWaits phase = before.spaceAvailable := by
  cases phase with
  | idle => cases stepped
  | counted task =>
      rw [Producer.step] at stepped
      split at stepped
      · cases stepped
      · rename_i permits
        cases stepped
        have taken : before.spaceAvailable - 1 + 1 = before.spaceAvailable := by omega
        exact ⟨fun _ same => (by cases same), rfl, taken⟩
  | _ =>
      simp only [Producer.step] at stepped
      try split at stepped
      all_goals
        cases stepped <;>
        exact ⟨fun _ same => (by cases same), rfl, rfl⟩

theorem worker_takes_no_permit {phase next : PoolWorker PoolJob}
    {before after : PoolShared PoolJob} (stepped : phase.step before = some (after, next)) :
    before.spaceAvailable ≤ after.spaceAvailable := by
  cases phase with
  | exited => cases stepped
  | unlocked task =>
      cases stepped
      exact Nat.le_succ _
  | released task => cases task <;> cases stepped <;> exact Nat.le_refl _
  | _ =>
      simp only [PoolWorker.step] at stepped
      try split at stepped
      all_goals
        cases stepped <;>
        exact Nat.le_refl _

end Moves

/-- While a thread waits under its mutex there is a permit for all that wait. A thread
is outside `enqueue` when it comes to a mutex. -/
structure RoomKept (server : Http2Server) : Prop where
  entering : ∀ event connection : Nat, server.events[event]? = some (.locking connection) →
    server.pool.producers[event]? = some .idle
  room : mutexWaits server = true →
    total producerWaits server.pool.producers ≤ server.pool.shared.spaceAvailable

section Room

variable {server following : Http2Server} {event : Nat}

theorem initial_room (events workers : Nat) : RoomKept (Http2Server.initial events workers) where
  entering := by
    intro event connection found
    simp only [Http2Server.initial, List.getElem?_replicate] at found
    split at found <;> cases found
  room := by
    intro waits
    obtain ⟨event, connection, _, found, _⟩ := mutex_waits_iff.mp waits
    simp only [Http2Server.initial, List.getElem?_replicate] at found
    split at found <;> cases found

theorem serve_room (kept : RoomKept server) (pool : following.pool = server.pool)
    (events : following.events = server.events) : RoomKept following := by
  obtain ⟨entering, room⟩ := kept
  refine ⟨?_, ?_⟩
  · rw [pool, events]
    exact entering
  · rw [mutexWaits, pool, events]
    exact room

theorem event_room {next : EventThread} {locked : List Nat} (kept : RoomKept server)
    (outside : server.pool.producers[event]? = some .idle ∨ next = .free) :
    RoomKept { server with events := server.events.set event next, locked := locked } where
  entering := by
    intro other connection found
    rcases found_set found with ⟨rfl, rfl⟩ | ⟨_, before⟩
    · rcases outside with idle | free
      · exact idle
      · cases free
    · exact kept.entering other connection before
  room := by
    intro waits
    obtain ⟨other, connection, task, found, counted⟩ := mutex_waits_iff.mp waits
    rcases found_set found with ⟨rfl, rfl⟩ | ⟨_, before⟩
    · rcases outside with idle | free
      · rw [idle] at counted
        cases counted
      · cases free
    · exact kept.room (mutex_waits_iff.mpr ⟨other, connection, task, before, counted⟩)

theorem enqueue_room {thread : EventThread} {task : Option PoolJob} {pool : ThreadPool PoolJob}
    (kept : RoomKept server) (found : server.events[event]? = some thread)
    (unlocking : ∀ connection, thread ≠ .locking connection)
    (room : HasPermit server.pool ∨
      (∀ connection, thread ≠ .receiving connection) ∧ ¬mutexWaits server = true)
    (stepped : server.pool.enqueue event task = some pool) :
    RoomKept { server with pool := pool } := by
  obtain ⟨idle, rfl⟩ := enqueue_inversion stepped
  refine ⟨?_, ?_⟩
  · intro other connection locking
    have different : event ≠ other := by
      rintro rfl
      rw [found] at locking
      exact unlocking connection (Option.some.inj locking)
    dsimp only
    rw [List.getElem?_set_ne different]
    exact kept.entering other connection locking
  · intro waits
    have more := total_set producerWaits idle (.counted task)
    simp only [producerWaits, Nat.add_zero] at more
    dsimp only [PoolShared.count]
    rw [more]
    rcases room with permit | ⟨unheld, quiet⟩
    · exact permit
    · exfalso
      obtain ⟨other, connection, counted, receives, present⟩ := mutex_waits_iff.mp waits
      rcases found_set present with ⟨rfl, _⟩ | ⟨_, before⟩
      · rw [found] at receives
        exact unheld connection (Option.some.inj receives)
      · exact quiet (mutex_waits_iff.mpr ⟨other, connection, counted, receives, before⟩)

theorem produce_room {pool : ThreadPool PoolJob} (kept : RoomKept server)
    (stepped : server.pool.produce event = some pool) : RoomKept { server with pool := pool } := by
  obtain ⟨phase, shared, next, found, moved, rfl⟩ := produce_inversion stepped
  obtain ⟨onward, done, permits⟩ := producer_waits_once moved
  refine ⟨?_, ?_⟩
  · intro other connection locking
    have idle := kept.entering other connection locking
    have different : event ≠ other := by
      rintro rfl
      rw [found] at idle
      cases idle
      cases moved
    dsimp only
    rw [List.getElem?_set_ne different]
    exact idle
  · intro waits
    obtain ⟨other, connection, counted, receives, present⟩ := mutex_waits_iff.mp waits
    rcases found_set present with ⟨_, same⟩ | ⟨_, before⟩
    · exact absurd same.symm (onward counted)
    · have room := kept.room (mutex_waits_iff.mpr ⟨other, connection, counted, receives, before⟩)
      have fewer := total_set producerWaits found next
      dsimp only
      omega

theorem work_room {worker : Nat} {pool : ThreadPool PoolJob} (kept : RoomKept server)
    (stepped : server.pool.work worker = some pool) : RoomKept { server with pool := pool } := by
  obtain ⟨phase, shared, next, _, moved, rfl⟩ := work_inversion stepped
  exact ⟨kept.entering, fun waits => (kept.room waits).trans (worker_takes_no_permit moved)⟩

theorem step_keeps_room {action : Http2Action} (kept : RoomKept server)
    (room : HasRoom server action) (stepped : server.step action = some following) :
    RoomKept following := by
  cases action with
  | enter event connection =>
      simp only [Http2Server.step, Http2Server.enter] at stepped
      split at stepped
      · rename_i outside
        cases stepped
        exact event_room kept (Or.inl outside.2)
      · cases stepped
  | lock event =>
      simp only [Http2Server.step, Http2Server.lock] at stepped
      split at stepped
      · rename_i connection found
        split at stepped
        · cases stepped
        · cases stepped
          exact event_room kept (Or.inl (kept.entering event connection found))
      · cases stepped
  | completeStream event =>
      simp only [Http2Server.step, Http2Server.completeStream] at stepped
      split at stepped
      · rename_i connection found
        obtain ⟨pool, moved, rfl⟩ := Option.map_eq_some_iff.mp stepped
        exact enqueue_room kept found (fun _ same => (by cases same)) (Or.inl room) moved
      · cases stepped
  | leave event =>
      simp only [Http2Server.step, Http2Server.leave] at stepped
      split at stepped
      · split at stepped
        · cases stepped
          exact event_room kept (Or.inr rfl)
        · cases stepped
      · cases stepped
  | enqueuePlain event =>
      simp only [Http2Server.step, Http2Server.enqueuePlain] at stepped
      split at stepped
      · rename_i found
        obtain ⟨pool, moved, rfl⟩ := Option.map_eq_some_iff.mp stepped
        have permit : HasPermit server.pool ∨
            (∀ connection, EventThread.free ≠ .receiving connection) ∧
              ¬mutexWaits server = true := by
          by_cases waits : mutexWaits server = true
          · exact Or.inl (room waits)
          · exact Or.inr ⟨fun _ same => (by cases same), waits⟩
        exact enqueue_room kept found (fun _ same => (by cases same)) permit moved
      · cases stepped
  | produce event =>
      obtain ⟨pool, moved, rfl⟩ := Option.map_eq_some_iff.mp stepped
      exact produce_room kept moved
  | work worker =>
      obtain ⟨moved, events⟩ := work_moves_pool stepped
      exact serve_room (work_room kept moved) rfl events
  | respond worker =>
      obtain ⟨pool, events⟩ := advance_keeps_pool stepped
      exact serve_room kept pool events
  | abandon worker =>
      obtain ⟨pool, events⟩ := advance_keeps_pool stepped
      exact serve_room kept pool events
  | acquire worker =>
      obtain ⟨pool, events⟩ := advance_keeps_pool stepped
      exact serve_room kept pool events
  | release worker =>
      obtain ⟨pool, events⟩ := advance_keeps_pool stepped
      exact serve_room kept pool events

theorem room_for_waiting {connection : Nat} {task : Option PoolJob} (kept : RoomKept server)
    (holds : server.events[event]? = some (.receiving connection))
    (waiting : server.pool.producers[event]? = some (.counted task)) :
    0 < server.pool.shared.spaceAvailable := by
  have room := kept.room (mutex_waits_iff.mpr ⟨event, connection, task, holds, waiting⟩)
  have one := weight_le_total producerWaits waiting
  simp only [producerWaits] at one
  omega

end Room

/-- In a run in which every completed stream finds a permit for its `enqueue`, which no
other call takes away before, no state is deadlocked. -/
theorem no_deadlock_while_room (events workers : Nat) (actions : List Http2Action)
    (last : Http2Server)
    (room : Respects Http2Server.step HasRoom (Http2Server.initial events workers) actions)
    (reached : run Http2Server.step (Http2Server.initial events workers) actions = some last) :
    ¬ last.Deadlocked := by
  have kept : RoomKept last := run_invariant RoomKept
    (fun _ _ _ here hasRoom stepped => step_keeps_room here hasRoom stepped)
    (initial_room events workers) room reached
  rintro ⟨event, connection, task, holds, waiting, full, _⟩
  have permit := room_for_waiting kept holds waiting
  omega

/-- A stream of connection 5 is completed and handled, and a plain task enqueued. -/
def oneStream : List Http2Action :=
  ([.enter 0 5, .lock 0, .completeStream 0] : List Http2Action) ++
    List.replicate 6 (Http2Action.produce 0) ++ List.replicate 8 (Http2Action.work 1) ++
    ([.respond 1, .leave 0, .enqueuePlain 0] : List Http2Action)

/-- One HTTP/2 stream is served from its completion to the mutex while another
connection is served too. -/
theorem no_deadlock_while_room_two :
    ∃ last, run Http2Server.step (Http2Server.initial 1 2)
        ([.enter 0 5, .lock 0, .completeStream 0] ++ List.replicate 6 (.produce 0) ++
          List.replicate 8 (.work 1) ++ [.respond 1, .leave 0, .enqueuePlain 0]) = some last ∧
      last.submissions = [.handling, .submitting] ∧ ¬ last.Deadlocked := by
  have evaluated : (run Http2Server.step (Http2Server.initial 1 2) oneStream).any
      (fun last => decide (last.submissions = [.handling, .submitting])) = true := by
    decide +kernel
  obtain ⟨last, reached, submissions⟩ := run_ends evaluated
  have room : Respects Http2Server.step HasRoom (Http2Server.initial 1 2) oneStream := by
    decide +kernel
  exact ⟨last, reached, submissions,
    no_deadlock_while_room 1 2 oneStream last room reached⟩

section Cycle

/-- An HTTP/1.1 request enqueued by event thread 0. -/
def plainCycle : List Http2Action := .enqueuePlain 0 :: List.replicate 6 (.produce 0)

def atRest (shared : PoolShared PoolJob) (workers : List (PoolWorker PoolJob))
    (submissions : List Submission) : Http2Server where
  pool := { shared := shared, producers := [.idle], workers := workers, destructor := .alive }
  events := [.free]
  submissions := submissions
  locked := []

variable {workers : List (PoolWorker PoolJob)} {submissions : List Submission}

def withPlainTask (shared : PoolShared PoolJob) : PoolShared PoolJob :=
  { shared.count (some .plain) with
    ringBuffer := Function.update shared.ringBuffer shared.tail (some .plain)
    tail := shared.tail + 1
    lock := false
    tasksAvailable := shared.tasksAvailable + 1
    spaceAvailable := shared.spaceAvailable - 1
    inserted := shared.inserted ++ [some .plain] }

theorem plain_cycle_runs {shared : PoolShared PoolJob} (unlocked : shared.lock = false)
    (space : shared.spaceAvailable ≠ 0) :
    run Http2Server.step (atRest shared workers submissions) plainCycle =
      some (atRest (withPlainTask shared) workers submissions) := by
  simp [plainCycle, run, atRest, withPlainTask, Http2Server.step, Http2Server.enqueuePlain,
    ThreadPool.enqueue, Http2Server.produce, ThreadPool.produce, Producer.step, List.replicate,
    PoolShared.count, space, unlocked]

theorem plain_cycles_run (count : Nat) {shared : PoolShared PoolJob}
    (unlocked : shared.lock = false) (space : count ≤ shared.spaceAvailable) :
    ∃ filled : PoolShared PoolJob,
      run Http2Server.step (atRest shared workers submissions)
          (List.replicate count plainCycle).flatten =
        some (atRest filled workers submissions) ∧
      filled.spaceAvailable = shared.spaceAvailable - count := by
  induction count generalizing shared with
  | zero => exact ⟨shared, rfl, rfl⟩
  | succ count ih =>
      have one : (withPlainTask shared).spaceAvailable = shared.spaceAvailable - 1 := rfl
      have less : count ≤ (withPlainTask shared).spaceAvailable := by omega
      obtain ⟨filled, ran, left⟩ := ih rfl less
      refine ⟨filled, ?_, ?_⟩
      · rw [List.replicate_succ, List.flatten_cons, run_append,
          plain_cycle_runs unlocked (by omega), Option.bind_some, ran]
      · rw [left, one]
        omega

/-- Eight streams of connection 0 are completed and each worker takes one. -/
def startStreams : List Http2Action :=
  [.enter 0 0, .lock 0] ++
    (List.replicate 8 (.completeStream 0 :: List.replicate 6 (.produce 0))).flatten ++ [.leave 0] ++
    (List.range 8).flatMap fun worker => List.replicate 8 (.work worker)

/-- The event thread enters the connection again, the workers come to its mutex and
one more stream is complete. -/
def closeCycle : List Http2Action :=
  [.enter 0 0, .lock 0] ++ (List.range 8).map .respond ++ [.completeStream 0]

theorem streams_started :
    ∃ shared : PoolShared PoolJob,
      run Http2Server.step (Http2Server.initial 1 8) startStreams =
        some (atRest shared (List.replicate 8 (.running (.http2 0)))
          (List.replicate 8 .handling)) ∧
      shared.lock = false ∧ shared.spaceAvailable = capacity := by
  have evaluated : (run Http2Server.step (Http2Server.initial 1 8) startStreams).any
      (fun last => decide (last.pool.producers = [.idle] ∧
        last.pool.workers = List.replicate 8 (.running (.http2 0)) ∧
        last.pool.destructor = .alive ∧ last.events = [.free] ∧
        last.submissions = List.replicate 8 .handling ∧ last.locked = [] ∧
        last.pool.shared.lock = false ∧ last.pool.shared.spaceAvailable = capacity)) = true := by
    decide +kernel
  obtain ⟨⟨⟨shared, producers, workers, destructor⟩, events, submissions, locked⟩, reached, rfl, rfl,
    rfl, rfl, rfl, rfl, unlocked, space⟩ := run_ends evaluated
  exact ⟨shared, reached, unlocked, space⟩

def cycleClosed (shared : PoolShared PoolJob) : Http2Server where
  pool := { shared := shared.count (some (.http2 0))
            producers := [.counted (some (.http2 0))]
            workers := List.replicate 8 (.running (.http2 0))
            destructor := .alive }
  events := [.receiving 0]
  submissions := List.replicate 8 .submitting
  locked := [0]

/-- The cycle closes: a full ring, the mutex held and every worker behind it. -/
theorem deadlock_reached :
    ∃ actions last, run Http2Server.step (Http2Server.initial 1 8) actions = some last ∧
      last.Deadlocked := by
  obtain ⟨shared, started, unlocked, space⟩ := streams_started
  obtain ⟨filled, ran, left⟩ := plain_cycles_run capacity unlocked (Nat.le_of_eq space.symm)
  rw [space, Nat.sub_self] at left
  have closed : run Http2Server.step (atRest filled (List.replicate 8 (.running (.http2 0)))
      (List.replicate 8 .handling)) closeCycle = some (cycleClosed filled) := rfl
  refine ⟨startStreams ++ ((List.replicate capacity plainCycle).flatten ++ closeCycle),
    cycleClosed filled, ?_, ?_⟩
  · rw [run_append, started, Option.bind_some, run_append, ran, Option.bind_some, closed]
  · refine ⟨0, 0, some (.http2 0), rfl, rfl, left, ?_⟩
    intro worker below
    simp only [cycleClosed, List.length_replicate] at below
    simp only [cycleClosed, List.getElem?_replicate, below, if_true, and_self]

end Cycle

end HttpServer.Http2Deadlock
