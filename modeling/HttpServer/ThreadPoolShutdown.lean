import HttpServer.ThreadPoolInvariant

/-!
# The destructor of the thread pool

A permit of `tasks_available_` stands for a queued task or for a release of the
destructor, and a worker cannot tell which it took. Counted together there are
enough for every worker that waits. With `stop_` stored a worker that is not past
its check leaves, so that every step brings the pool nearer to its end, and an
executor that goes on while some thread can move comes to it.
-/

namespace HttpServer.ThreadPoolShutdown

open TransitionSystem ThreadPool Census ThreadPoolInvariant

universe u

variable {Task : Type u}

section Weights

def workerWaits : PoolWorker Task → Nat
  | .waiting => 1
  | _ => 0

/-- The steps a worker has before it, if it finds `stop_` stored. -/
def workerRank : PoolWorker Task → Nat
  | .admitted => 9
  | .locked => 8
  | .moved _ => 7
  | .advanced _ => 6
  | .unlocked _ => 5
  | .released _ => 4
  | .running _ => 3
  | .waiting => 2
  | .permitted => 1
  | .exited => 0

def workerAhead : PoolWorker Task → Nat
  | .admitted | .locked | .moved _ | .advanced _ | .unlocked _ | .released _ => 1
  | _ => 0

def workerStarts : PoolWorker Task → Nat
  | .released (some _) => 1
  | _ => 0

def destructorRank (workers : Nat) : Destructor → Nat
  | .alive => 2 * workers + 3
  | .releasing count => workers - count + workers + 2
  | .joining index => workers - index + 1
  | .destroyed => 0

end Weights

/-- The steps of the workers and of the thread that destroys the pool. -/
def WithoutEnqueue : PoolAction Task → Prop
  | .work _ | .destroy => True
  | .enqueue _ _ | .produce _ => False

def Released (pool : ThreadPool Task) : Prop :=
  pool.destructor ≠ .alive ∧ releases pool.workers pool.destructor = pool.workers.length

def startedBy (worker : Nat) (pool : ThreadPool Task) : PoolAction Task → Nat
  | .work index => if index = worker then (pool.workers[worker]?.map workerStarts).getD 0 else 0
  | _ => 0

def startsAlong (worker : Nat) : ThreadPool Task → List (PoolAction Task) → Nat
  | _, [] => 0
  | pool, action :: actions =>
      startedBy worker pool action +
        match pool.step action with
        | some following => startsAlong worker following actions
        | none => 0

/-- The worker can take a step, or it spins on `lock_` and the worker that holds
the lock can take one. -/
def Moves (pool : ThreadPool Task) (worker : Nat) : Prop :=
  (pool.work worker).isSome = true ∨
    ∃ holder phase, pool.workers[holder]? = some phase ∧ workerLocks phase = 1 ∧
      (pool.work holder).isSome = true

structure ShutsDown (pool : ThreadPool Task) : Prop where
  permits : Released pool → total workerWaits pool.workers ≤ pool.shared.tasksAvailable
  moves : Released pool → ∀ (worker : Nat) (phase : PoolWorker Task),
    pool.workers[worker]? = some phase → phase ≠ .exited → Moves pool worker
  bounded : ∀ (actions : List (PoolAction Task)) (last : ThreadPool Task),
    (∀ action ∈ actions, WithoutEnqueue action) → run ThreadPool.step pool actions = some last →
      actions.length ≤ 11 * pool.workers.length + 2
  starts : ∀ (actions : List (PoolAction Task)) (last : ThreadPool Task),
    (∀ action ∈ actions, WithoutEnqueue action) → run ThreadPool.step pool actions = some last →
      ∀ worker, startsAlong worker pool actions ≤ 1
  ends : ∀ (actions : List (PoolAction Task)) (last : ThreadPool Task),
    (∀ action ∈ actions, WithoutEnqueue action) → run ThreadPool.step pool actions = some last →
      (∀ action, WithoutEnqueue action → last.step action = none) →
        last.destructor = .destroyed ∧ ∀ phase ∈ last.workers, phase = .exited

/-- A pool that is being destroyed while no thread is in `enqueue`. -/
structure Closing (pool : ThreadPool Task) : Prop where
  permits : PermitsKept pool
  idle : ∀ producer ∈ pool.producers, producer = .idle
  destroying : pool.destructor ≠ .alive

section Steps

variable {pool following : ThreadPool Task}

theorem closing_stop (closing : Closing pool) : pool.shared.stop = true := by
  cases stop : pool.shared.stop with
  | true => rfl
  | false => exact absurd (closing.permits.alive stop) closing.destroying

theorem closing_producers (closing : Closing pool) (weight : Producer Task → Nat)
    (none : weight .idle = 0) : total weight pool.producers = 0 := by
  rw [List.eq_replicate_of_mem closing.idle]
  exact total_replicate weight .idle none _

theorem worker_closing_step {shared after : PoolShared Task} {phase next : PoolWorker Task}
    (stop : shared.stop = true) (stepped : phase.step shared = some (after, next)) :
    workerRank next < workerRank phase ∧
      workerStarts phase + workerAhead next ≤ workerAhead phase := by
  cases phase with
  | exited => cases stepped
  | permitted =>
      rw [PoolWorker.step, stop, if_pos rfl] at stepped
      cases stepped
      exact ⟨Nat.zero_lt_one, Nat.le_refl 0⟩
  | released task =>
      cases task <;> cases stepped <;> simp [workerRank, workerStarts, workerAhead]
  | _ =>
      simp only [PoolWorker.step] at stepped
      try split at stepped
      all_goals
        cases stepped <;>
        simp [workerRank, workerStarts, workerAhead]

theorem destructor_closing_step {shared after : PoolShared Task}
    {workers : List (PoolWorker Task)} {phase next : Destructor} (destroying : phase ≠ .alive)
    (stepped : phase.step shared workers = some (after, next)) :
    next ≠ .alive ∧
      destructorRank workers.length next < destructorRank workers.length phase := by
  cases phase with
  | alive => exact absurd rfl destroying
  | destroyed => cases stepped
  | releasing count =>
      simp only [Destructor.step] at stepped
      split at stepped <;> cases stepped <;> refine ⟨by simp, ?_⟩ <;>
        simp only [destructorRank] <;> omega
  | joining index =>
      simp only [Destructor.step] at stepped
      split at stepped <;> cases stepped
      · exact ⟨by simp, Nat.succ_pos _⟩
      · rename_i found
        have inside := (List.getElem?_eq_some_iff.mp found).1
        refine ⟨by simp, ?_⟩
        simp only [destructorRank]
        omega

def shutdownRank (pool : ThreadPool Task) : Nat :=
  total workerRank pool.workers + destructorRank pool.workers.length pool.destructor

theorem closing_step {action : PoolAction Task} (closing : Closing pool)
    (internal : WithoutEnqueue action) (stepped : pool.step action = some following) :
    Closing following ∧ shutdownRank following < shutdownRank pool := by
  cases action with
  | enqueue producer task => exact internal.elim
  | produce producer => exact internal.elim
  | work worker =>
      obtain ⟨phase, shared, next, found, moved, rfl⟩ := work_inversion stepped
      obtain ⟨lower, _⟩ := worker_closing_step (closing_stop closing) moved
      have change := total_set workerRank found next
      refine ⟨⟨worker_permits closing.permits found moved, closing.idle, closing.destroying⟩, ?_⟩
      simp only [shutdownRank, List.length_set]
      omega
  | destroy =>
      obtain ⟨shared, next, moved, rfl⟩ := destroy_inversion stepped
      obtain ⟨destroying, lower⟩ := destructor_closing_step closing.destroying moved
      refine ⟨⟨destructor_permits closing.permits moved, closing.idle, destroying⟩, ?_⟩
      simp only [shutdownRank]
      omega

theorem worker_rank_le (phase : PoolWorker Task) : workerRank phase ≤ 9 := by
  cases phase <;> simp [workerRank]

theorem shutdown_rank_le (closing : Closing pool) :
    shutdownRank pool ≤ 11 * pool.workers.length + 2 := by
  have workers := total_le_mul workerRank 9 worker_rank_le pool.workers
  have destroying := closing.destroying
  unfold shutdownRank
  cases phase : pool.destructor with
  | alive => exact absurd phase destroying
  | _ =>
      simp only [destructorRank]
      omega

def ahead (pool : ThreadPool Task) (worker : Nat) : Nat :=
  (pool.workers[worker]?.map workerAhead).getD 0

theorem ahead_le_one (pool : ThreadPool Task) (worker : Nat) : ahead pool worker ≤ 1 := by
  unfold ahead
  cases pool.workers[worker]? with
  | none => exact Nat.zero_le 1
  | some phase => cases phase <;> simp [workerAhead]

theorem started_step {action : PoolAction Task} (closing : Closing pool)
    (internal : WithoutEnqueue action) (stepped : pool.step action = some following)
    (worker : Nat) : startedBy worker pool action + ahead following worker ≤ ahead pool worker := by
  cases action with
  | enqueue producer task => exact internal.elim
  | produce producer => exact internal.elim
  | work index =>
      obtain ⟨phase, shared, next, found, moved, rfl⟩ := work_inversion stepped
      obtain ⟨_, started⟩ := worker_closing_step (closing_stop closing) moved
      by_cases own : index = worker
      · subst own
        have inside := (List.getElem?_eq_some_iff.mp found).1
        simp only [startedBy, ahead, if_true, found, List.getElem?_set_self inside,
          Option.map_some, Option.getD_some]
        exact started
      · simp only [startedBy, ahead, if_neg own, List.getElem?_set_ne own, Nat.zero_add,
          Nat.le_refl]
  | destroy =>
      obtain ⟨shared, next, moved, rfl⟩ := destroy_inversion stepped
      exact Nat.le_of_eq (Nat.zero_add _)

end Steps

section Runs

variable {pool last : ThreadPool Task} {actions : List (PoolAction Task)}

theorem closing_run (closing : Closing pool)
    (internal : ∀ action ∈ actions, WithoutEnqueue action)
    (reached : run ThreadPool.step pool actions = some last) : Closing last := by
  refine run_invariant Closing ?_ closing
    (respects_of_labels ThreadPool.step internal pool) reached
  intro state action following holds allowed stepped
  exact (closing_step holds allowed stepped).1

theorem closing_run_length (closing : Closing pool)
    (internal : ∀ action ∈ actions, WithoutEnqueue action)
    (reached : run ThreadPool.step pool actions = some last) :
    actions.length ≤ 11 * pool.workers.length + 2 := by
  have ranked := run_length_le_rank Closing shutdownRank
    (fun _ _ _ holds allowed stepped => closing_step holds allowed stepped) closing
    (respects_of_labels ThreadPool.step internal pool) reached
  have bound := shutdown_rank_le closing
  omega

theorem starts_at_most (closing : Closing pool)
    (internal : ∀ action ∈ actions, WithoutEnqueue action)
    (reached : run ThreadPool.step pool actions = some last) (worker : Nat) :
    startsAlong worker pool actions + ahead last worker ≤ ahead pool worker := by
  induction actions generalizing pool with
  | nil =>
      cases reached
      exact Nat.le_of_eq (Nat.zero_add _)
  | cons action actions ih =>
      obtain ⟨following, stepped, rest⟩ := run_cons reached
      have allowed := internal action List.mem_cons_self
      have here := started_step closing allowed stepped worker
      have later := ih (closing_step closing allowed stepped).1
        (fun other member => internal other (List.mem_cons_of_mem _ member)) rest
      simp only [startsAlong, stepped]
      omega

end Runs

section Progress

variable {pool : ThreadPool Task}

/-- The permits of tasks and those of the destructor together suffice. -/
theorem waiting_le_permits (closing : Closing pool) (released : Released pool) :
    total workerWaits pool.workers ≤ pool.shared.tasksAvailable := by
  have tasks := closing.permits.tasks
  have queued := closing.permits.admitted
  rw [released.2, closing_producers closing producerOwes rfl] at tasks
  have single : ∀ phase : PoolWorker Task, workerWaits phase + workerPermit phase ≤ 1 := by
    intro phase
    cases phase <;> simp [workerWaits, workerPermit]
  have each := total_le_mul _ 1 single pool.workers
  rw [total_add] at each
  omega

theorem work_enabled {worker : Nat} {phase : PoolWorker Task}
    (found : pool.workers[worker]? = some phase)
    (enabled : (phase.step pool.shared).isSome = true) : (pool.work worker).isSome = true := by
  rw [ThreadPool.work, found, Option.bind_some, Option.isSome_map]
  exact enabled

theorem holder_enabled (shared : PoolShared Task) {phase : PoolWorker Task}
    (holds : 0 < workerLocks phase) :
    workerLocks phase = 1 ∧ (phase.step shared).isSome = true := by
  cases phase <;> first | exact ⟨rfl, rfl⟩ | exact absurd holds (Nat.lt_irrefl 0)

theorem lock_holder_moves (closing : Closing pool) (held : pool.shared.lock = true) :
    ∃ holder phase, pool.workers[holder]? = some phase ∧ workerLocks phase = 1 ∧
      (pool.work holder).isSome = true := by
  have lock := closing.permits.lock
  rw [closing_producers closing producerLocks rfl, held, Nat.zero_add] at lock
  obtain ⟨holder, phase, found, holds⟩ := exists_of_total_pos workerLocks
    (lock ▸ Nat.zero_lt_one : 0 < total workerLocks pool.workers)
  obtain ⟨one, enabled⟩ := holder_enabled pool.shared holds
  exact ⟨holder, phase, found, one, work_enabled found enabled⟩

theorem worker_moves (closing : Closing pool) (released : Released pool) {worker : Nat}
    {phase : PoolWorker Task} (found : pool.workers[worker]? = some phase)
    (stays : phase ≠ .exited) : Moves pool worker := by
  cases phase with
  | exited => exact absurd rfl stays
  | waiting =>
      have enough := waiting_le_permits closing released
      have counted := weight_le_total workerWaits found
      have permit : pool.shared.tasksAvailable ≠ 0 := by
        simp only [workerWaits] at counted
        omega
      apply Or.inl
      apply work_enabled found
      rw [PoolWorker.step, if_neg permit]
      rfl
  | admitted =>
      cases held : pool.shared.lock with
      | true => exact Or.inr (lock_holder_moves closing held)
      | false =>
          apply Or.inl
          apply work_enabled found
          rw [PoolWorker.step, held]
          rfl
  | released task => cases task <;> exact Or.inl (work_enabled found rfl)
  | _ => exact Or.inl (work_enabled found rfl)

/-- Where nothing can move, every worker has exited and is joined. -/
theorem stuck_ended (closing : Closing pool)
    (stuck : ∀ action, WithoutEnqueue action → pool.step action = none) :
    pool.destructor = .destroyed ∧ ∀ phase ∈ pool.workers, phase = .exited := by
  have blocked : pool.destructor.step pool.shared pool.workers = none :=
    Option.map_eq_none_iff.mp (stuck .destroy trivial)
  have exits : Released pool → ∀ phase ∈ pool.workers, phase = .exited := by
    intro released phase member
    by_contra stays
    obtain ⟨worker, found⟩ := List.mem_iff_getElem?.mp member
    rcases worker_moves closing released found stays with moves | ⟨holder, _, _, _, moves⟩
    · have halted : pool.work worker = none := stuck (.work worker) trivial
      rw [halted] at moves
      cases moves
    · have halted : pool.work holder = none := stuck (.work holder) trivial
      rw [halted] at moves
      cases moves
  cases phase : pool.destructor with
  | alive => exact absurd phase closing.destroying
  | destroyed => exact ⟨rfl, exits ⟨closing.destroying, by rw [phase, releases]⟩⟩
  | releasing count =>
      rw [phase, Destructor.step] at blocked
      split at blocked <;> cases blocked
  | joining index =>
      have all := exits ⟨closing.destroying, by rw [phase, releases]⟩
      rw [phase, Destructor.step] at blocked
      split at blocked
      · cases blocked
      · cases blocked
      · rename_i worker running found
        exact absurd (all worker (List.mem_of_getElem? found)) running

end Progress

/-- A pool whose destruction has begun with no thread in `enqueue` has a permit for
every worker that waits once the releases are made. Its threads have a bounded
number of steps left, each worker starts at most one more task, and the pool comes
to rest with every worker exited and joined. -/
theorem pool_shuts_down (producers workers : Nat) (actions : List (PoolAction Task))
    (pool : ThreadPool Task)
    (reached : run ThreadPool.step (ThreadPool.initial producers workers) actions = some pool)
    (idle : ∀ producer ∈ pool.producers, producer = .idle)
    (destroying : pool.destructor ≠ .alive) : ShutsDown pool := by
  have kept := run_kept (initial_kept producers workers) reached
  have closing : Closing pool := ⟨kept.permits, idle, destroying⟩
  constructor
  · exact waiting_le_permits closing
  · intro released worker phase found stays
    exact worker_moves closing released found stays
  · intro further last internal onward
    exact closing_run_length closing internal onward
  · intro further last internal onward worker
    have ahead := ahead_le_one pool worker
    have starts := starts_at_most closing internal onward worker
    omega
  · intro further last internal onward stuck
    exact stuck_ended (closing_run closing internal onward) stuck

/-- Two tasks are queued, a worker is past its check, and the destructor has stored
`stop_` and made both releases. -/
def busyShutdown : List (PoolAction Nat) :=
  [PoolAction.enqueue 0 (some 7)] ++ List.replicate 6 (PoolAction.produce 0) ++
    List.replicate 2 (PoolAction.work 0) ++ [PoolAction.enqueue 0 (some 9)] ++
    List.replicate 6 (PoolAction.produce 0) ++ List.replicate 3 PoolAction.destroy

theorem pool_shuts_down_busy :
    ∃ pool, run ThreadPool.step (ThreadPool.initial 1 2) busyShutdown = some pool ∧
      pool.workers = [.admitted, .waiting] ∧ pool.destructor = .releasing 2 ∧
      pool.shared.tasksAvailable = 3 ∧ ShutsDown pool := by
  have evaluated : (run ThreadPool.step (ThreadPool.initial 1 2) busyShutdown).any
      (fun pool => decide (pool.workers = [.admitted, .waiting] ∧
        pool.destructor = .releasing 2 ∧ pool.shared.tasksAvailable = 3 ∧
        pool.producers = [.idle])) = true := by
    decide +kernel
  obtain ⟨pool, reached, workers, destructor, permits, producers⟩ := run_ends evaluated
  refine ⟨pool, reached, workers, destructor, permits, ?_⟩
  apply pool_shuts_down 1 2 busyShutdown pool reached
  · rw [producers]
    simp
  · rw [destructor]
    exact nofun

end HttpServer.ThreadPoolShutdown
