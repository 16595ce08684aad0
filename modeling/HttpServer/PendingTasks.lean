import HttpServer.ThreadPoolInvariant

/-!
# The counter of pending tasks

`pending_tasks_` is raised before `enqueue` waits for a place and lowered after the
worker has given its place back, both outside the lock. Between these points a task is
in the hands of a producer, in the ring or in the hands of a worker, and the counter
is the sum of the three, for any number of threads, as a `std::size_t` counts it. Each
thread and each place of the ring has an address of its own, which is a nonzero
`std::size_t`; so the sum is one too, and neither the addition nor the subtraction wraps.
-/

namespace HttpServer.PendingTasks

open ThreadPool Census RingBuffer ThreadPoolInvariant

universe u

variable {Task : Type u}

def isEntering : Producer Task → Bool
  | .counted _ | .permitted _ | .locked _ | .stored _ => true
  | .idle | .advanced | .unlocked => false

def isLeaving : PoolWorker Task → Bool
  | .advanced _ | .unlocked _ | .released _ => true
  | .waiting | .permitted | .admitted | .locked | .moved _ | .running _ | .exited => false

def occupancy (pool : ThreadPool Task) : Nat :=
  pool.shared.inserted.length - pool.shared.extracted.length

/-- The tasks between the two points, wherever they are. -/
def places (pool : ThreadPool Task) : Nat :=
  pool.producers.countP isEntering + occupancy pool + pool.workers.countP isLeaving

structure PendingCounts (pool : ThreadPool Task) : Prop where
  exact : pool.shared.pendingTasks =
    pool.producers.countP isEntering + occupancy pool + pool.workers.countP isLeaving
  started : pool.shared.extracted.length ≤ pool.shared.inserted.length
  bounded : occupancy pool ≤ capacity
  indices : pool.shared.tail.val = (pool.shared.head.val + occupancy pool) % capacity
  quiet : (∀ producer ∈ pool.producers, producer = .idle) →
    (∀ worker ∈ pool.workers, isLeaving worker = false) →
      pool.shared.pendingTasks = occupancy pool
  raised : ∀ (producer : Nat) (task : Option Task) (following : ThreadPool Task),
    pool.step (.enqueue producer task) = some following →
      following.shared.pendingTasks = pool.shared.pendingTasks + 1
  lowered : ∀ (worker : Nat) (task : Option Task) (following : ThreadPool Task),
    pool.workers[worker]? = some (.released task) →
      pool.step (.work worker) = some following →
        following.shared.pendingTasks + 1 = pool.shared.pendingTasks

section Sums

theorem entering_eq (producers : List (Producer Task)) :
    total producerEnters producers = producers.countP isEntering := by
  apply total_eq_countP
  intro producer
  cases producer <;> rfl

theorem leaving_eq (workers : List (PoolWorker Task)) :
    total workerLeaves workers = workers.countP isLeaving := by
  apply total_eq_countP
  intro worker
  cases worker <;> rfl

variable {pool : ThreadPool Task}

theorem places_counted (permits : PermitsKept pool) :
    places pool + pool.shared.extracted.length = counted pool := by
  have started := permits.admitted
  rw [places, counted, entering_eq, leaving_eq, occupancy]
  omega

theorem filled_le_capacity (permits : PermitsKept pool) :
    total producerSpace pool.producers + occupancy pool ≤ capacity := by
  have places := permits.space
  have started := permits.admitted
  unfold occupancy
  omega

theorem waits_le_producers (producers : List (Producer Task)) :
    total producerWaits producers ≤ producers.length := by
  have each : ∀ producer : Producer Task, producerWaits producer ≤ 1 := by
    intro producer
    cases producer <;> simp only [producerWaits, Nat.le_refl, Nat.zero_le]
  have most := total_le_mul producerWaits 1 each producers
  rwa [Nat.one_mul] at most

theorem leaves_le_workers (workers : List (PoolWorker Task)) :
    total workerLeaves workers ≤ workers.length := by
  rw [leaving_eq]
  exact List.countP_le_length

theorem places_bound (permits : PermitsKept pool) :
    places pool ≤ pool.producers.length + capacity + pool.workers.length := by
  have enters : total producerEnters pool.producers =
      total producerWaits pool.producers + total producerSpace pool.producers :=
    total_add producerWaits producerSpace pool.producers
  have waits := waits_le_producers pool.producers
  have filled := filled_le_capacity permits
  have leaves := leaves_le_workers pool.workers
  rw [entering_eq] at enters
  rw [leaving_eq] at leaves
  unfold places
  omega

end Sums

section Runs

variable {pool following : ThreadPool Task}

/-- The counter with the tasks extracted is the count of tasks, both as far as a
`std::size_t` counts them. -/
structure PendingModulo (pool : ThreadPool Task) : Prop where
  sized : pool.shared.pendingTasks ≤ sizeMax
  counts : (pool.shared.pendingTasks + pool.shared.extracted.length) % (sizeMax + 1) =
    counted pool % (sizeMax + 1)

theorem fetch_add_one_le (value : Nat) (sized : value ≤ sizeMax) : fetchAddOne value ≤ sizeMax := by
  unfold fetchAddOne
  split_ifs <;> omega

theorem fetch_sub_one_le (value : Nat) (sized : value ≤ sizeMax) : fetchSubOne value ≤ sizeMax := by
  unfold fetchSubOne
  split_ifs <;> omega

theorem enqueue_modulo {producer : Nat} (task : Option Task) (modulo : PendingModulo pool)
    (found : pool.producers[producer]? = some .idle) :
    PendingModulo { pool with
      shared := pool.shared.count task
      producers := pool.producers.set producer (.counted task) } := by
  have counts := modulo.counts
  constructor
  · exact fetch_add_one_le _ modulo.sized
  · rw [enqueue_counted task found]
    simp only [PoolShared.count, fetchAddOne]
    unfold sizeMax at counts ⊢
    split_ifs <;> omega

theorem producer_modulo {producer : Nat} {phase next : Producer Task} {shared : PoolShared Task}
    (modulo : PendingModulo pool) (found : pool.producers[producer]? = some phase)
    (stepped : phase.step pool.shared = some (shared, next)) :
    PendingModulo { pool with
      shared := shared
      producers := pool.producers.set producer next } := by
  obtain ⟨tasks, extracted, pending⟩ := producer_counted found stepped
  constructor
  · rw [pending]
    exact modulo.sized
  · rw [tasks, extracted, pending]
    exact modulo.counts

theorem worker_modulo {worker : Nat} {phase next : PoolWorker Task} {shared : PoolShared Task}
    (modulo : PendingModulo pool) (found : pool.workers[worker]? = some phase)
    (stepped : phase.step pool.shared = some (shared, next)) :
    PendingModulo { pool with
      shared := shared
      workers := pool.workers.set worker next } := by
  have counts := modulo.counts
  rcases worker_counted found stepped with ⟨pending, tasks⟩ | ⟨lowered, tasks, _, extracted⟩
  · constructor
    · rw [pending]
      exact modulo.sized
    · unfold sizeMax at counts ⊢
      dsimp only
      omega
  · constructor
    · rw [lowered]
      exact fetch_sub_one_le _ modulo.sized
    · dsimp only
      rw [lowered, extracted, fetchSubOne]
      unfold sizeMax at counts ⊢
      split_ifs <;> omega

theorem destructor_modulo {next : Destructor} {shared : PoolShared Task}
    (modulo : PendingModulo pool)
    (stepped : pool.destructor.step pool.shared pool.workers = some (shared, next)) :
    PendingModulo { pool with shared := shared, destructor := next } := by
  cases phase : pool.destructor <;> rw [phase] at stepped <;>
    simp only [Destructor.step] at stepped <;> (try split at stepped) <;> cases stepped <;>
    exact ⟨modulo.sized, modulo.counts⟩

structure PendingKept (producers workers : Nat) (pool : ThreadPool Task) : Prop where
  permits : PermitsKept pool
  modulo : PendingModulo pool
  producers : pool.producers.length = producers
  workers : pool.workers.length = workers

variable {producers workers : Nat}

theorem step_pending {action : PoolAction Task} (kept : PendingKept producers workers pool)
    (stepped : pool.step action = some following) : PendingKept producers workers following := by
  obtain ⟨permits, modulo, sameProducers, sameWorkers⟩ := kept
  cases action with
  | enqueue producer task =>
      obtain ⟨found, rfl⟩ := enqueue_inversion stepped
      refine ⟨enqueue_permits permits found, enqueue_modulo task modulo found, ?_, sameWorkers⟩
      rwa [List.length_set]
  | produce producer =>
      obtain ⟨phase, shared, next, found, moved, rfl⟩ := produce_inversion stepped
      refine ⟨producer_permits permits found moved, producer_modulo modulo found moved, ?_,
        sameWorkers⟩
      rwa [List.length_set]
  | work worker =>
      obtain ⟨phase, shared, next, found, moved, rfl⟩ := work_inversion stepped
      refine ⟨worker_permits permits found moved, worker_modulo modulo found moved,
        sameProducers, ?_⟩
      rwa [List.length_set]
  | destroy =>
      obtain ⟨shared, next, moved, rfl⟩ := destroy_inversion stepped
      exact ⟨destructor_permits permits moved, destructor_modulo modulo moved, sameProducers,
        sameWorkers⟩

theorem run_pending {actions : List (PoolAction Task)} (kept : PendingKept producers workers pool)
    (reached : TransitionSystem.run ThreadPool.step pool actions = some following) :
    PendingKept producers workers following := by
  refine TransitionSystem.run_keeps (PendingKept producers workers) ?_ kept reached
  intro state action after keptHere stepped
  exact step_pending keptHere stepped

theorem initial_kept_pending (producers workers : Nat) :
    PendingKept producers workers (ThreadPool.initial producers workers : ThreadPool Task) := by
  refine ⟨initial_permits producers workers, ⟨Nat.zero_le _, ?_⟩, List.length_replicate,
    List.length_replicate⟩
  rw [initial_counted]
  rfl

theorem pending_eq (kept : PendingKept producers workers pool) :
    pool.shared.pendingTasks = places pool % (sizeMax + 1) := by
  have whole := places_counted kept.permits
  have sized := kept.modulo.sized
  have counts := kept.modulo.counts
  unfold sizeMax at sized counts ⊢
  omega

theorem places_le (kept : PendingKept producers workers pool)
    (addresses : producers + capacity + workers ≤ sizeMax) : places pool ≤ sizeMax := by
  have bound := places_bound kept.permits
  rw [kept.producers, kept.workers] at bound
  exact Nat.le_trans bound addresses

theorem pending_exact (kept : PendingKept producers workers pool)
    (addresses : producers + capacity + workers ≤ sizeMax) :
    pool.shared.pendingTasks = places pool := by
  rw [pending_eq kept, Nat.mod_eq_of_lt (Nat.lt_succ_of_le (places_le kept addresses))]

theorem enqueue_raises {producer : Nat} {task : Option Task}
    (kept : PendingKept producers workers pool)
    (addresses : producers + capacity + workers ≤ sizeMax)
    (stepped : pool.step (.enqueue producer task) = some following) :
    following.shared.pendingTasks = pool.shared.pendingTasks + 1 := by
  have after := step_pending kept stepped
  have whole := places_counted kept.permits
  have wholeAfter := places_counted after.permits
  rw [pending_exact kept addresses, pending_exact after addresses]
  obtain ⟨found, rfl⟩ := enqueue_inversion stepped
  rw [enqueue_counted task found] at wholeAfter
  change _ + pool.shared.extracted.length = _ at wholeAfter
  omega

theorem release_lowers {worker : Nat} {task : Option Task}
    (kept : PendingKept producers workers pool)
    (addresses : producers + capacity + workers ≤ sizeMax)
    (found : pool.workers[worker]? = some (.released task))
    (stepped : pool.step (.work worker) = some following) :
    following.shared.pendingTasks + 1 = pool.shared.pendingTasks := by
  obtain ⟨phase, shared, next, foundPhase, moved, rfl⟩ := work_inversion stepped
  cases foundPhase.symm.trans found
  have leaves := weight_le_total workerLeaves found
  rw [leaving_eq] at leaves
  have whole : places pool ≠ 0 := by
    simp only [workerLeaves] at leaves
    unfold places
    omega
  have positive : pool.shared.pendingTasks ≠ 0 := by
    rwa [pending_exact kept addresses]
  cases task <;> cases moved <;>
    simp only [fetchSubOne, if_neg positive] <;>
    omega

theorem pending_counts (kept : PendingKept producers workers pool) (ring : RingKept pool)
    (addresses : producers + capacity + workers ≤ sizeMax) : PendingCounts pool := by
  have started : pool.shared.extracted.length ≤ pool.shared.inserted.length := by
    have admitted := kept.permits.admitted
    omega
  have pending := pending_exact kept addresses
  constructor
  · exact pending
  · exact started
  · have filled := filled_le_capacity kept.permits
    omega
  · rw [ring.tail, ring.head, cell_val, cell_val, Nat.mod_add_mod, occupancy,
      Nat.add_sub_of_le started]
  · intro idle settled
    have entering : pool.producers.countP isEntering = 0 := by
      rw [List.countP_eq_zero]
      intro producer member
      rw [idle producer member]
      exact Bool.false_ne_true
    have leaving : pool.workers.countP isLeaving = 0 := by
      rw [List.countP_eq_zero]
      intro worker member
      rw [settled worker member]
      exact Bool.false_ne_true
    rw [pending, places, entering, leaving, Nat.zero_add, Nat.add_zero]
  · exact fun producer task following stepped => enqueue_raises kept addresses stepped
  · exact fun worker task following found stepped => release_lowers kept addresses found stepped

end Runs

/-- Whatever any number of producers, the workers and the destructor do, the counter
is the number of these tasks modulo `2 ^ 64`; it is exact as long as each thread and each
place of the ring has an address of its own. -/
theorem pending_tasks_exact (producers workers : Nat) (actions : List (PoolAction Task))
    (last : ThreadPool Task)
    (reached : TransitionSystem.run ThreadPool.step (ThreadPool.initial producers workers)
      actions = some last) :
    last.shared.pendingTasks = places last % 2 ^ 64 ∧
      (producers + capacity + workers < 2 ^ 64 → PendingCounts last) := by
  have kept := run_pending (initial_kept_pending producers workers) reached
  have ring := (run_kept (initial_kept producers workers) reached).ring
  refine ⟨pending_eq kept, ?_⟩
  intro addresses
  exact pending_counts kept ring (Nat.le_of_lt_succ addresses)

/-- A producer that waits for the lock, a task in the ring, a worker about to lower the
counter, and the destructor under way. -/
def threePlaces : List (PoolAction Nat) :=
  [.enqueue 0 (some 7)] ++ List.replicate 6 (.produce 0) ++ List.replicate 7 (.work 0) ++
    [.enqueue 0 (some 8)] ++ List.replicate 6 (.produce 0) ++
    [.enqueue 1 (some 9), .produce 1, .destroy]

theorem pending_tasks_exact_three :
    ∃ last, TransitionSystem.run ThreadPool.step (ThreadPool.initial 2 1) threePlaces = some last ∧
      last.shared.pendingTasks = 3 ∧ occupancy last = 1 ∧ PendingCounts last := by
  have evaluated : (TransitionSystem.run ThreadPool.step (ThreadPool.initial 2 1) threePlaces).any
      (fun last => decide (last.shared.pendingTasks = 3 ∧ occupancy last = 1)) = true := by
    decide +kernel
  obtain ⟨last, reached, pending, occupied⟩ := TransitionSystem.run_ends evaluated
  exact ⟨last, reached, pending, occupied,
    (pending_tasks_exact 2 1 threePlaces last reached).2 (by decide)⟩

end HttpServer.PendingTasks
