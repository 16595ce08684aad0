import HttpServer.ThreadPoolShutdown

/-!
# The thread pool while it serves

Until the destructor is entered, the threads inside `enqueue` and the workers take
finitely many steps between two calls of `enqueue`, and they come to rest only when
every task that was enqueued has been run. A full ring, a held lock or an empty
semaphore never stops all of them.
-/

namespace HttpServer.PoolDrain

open TransitionSystem ThreadPool Census ThreadPoolInvariant ThreadPoolShutdown

universe u

variable {Task : Type u}

/-- The steps of threads inside `enqueue` and of the workers. -/
def Internal : PoolAction Task → Prop
  | .produce _ | .work _ => True
  | .enqueue _ _ | .destroy => False

section Weights

def producerRest : Producer Task → Nat
  | .idle => 0
  | .counted _ => 16
  | .permitted _ => 15
  | .locked _ => 14
  | .stored _ => 13
  | .advanced => 12
  | .unlocked => 11

/-- The steps back to the head of the worker loop. -/
def workerRest : PoolWorker Task → Nat
  | .permitted => 9
  | .admitted => 8
  | .locked => 7
  | .moved _ => 6
  | .advanced _ => 5
  | .unlocked _ => 4
  | .released _ => 3
  | .running _ => 2
  | .waiting | .exited => 0

def drainRank (pool : ThreadPool Task) : Nat :=
  10 * pool.shared.tasksAvailable + total producerRest pool.producers +
    total workerRest pool.workers

end Weights

structure Serving (pool : ThreadPool Task) : Prop where
  kept : PoolKept pool
  alive : pool.destructor = .alive
  going : pool.shared.stop = false
  present : ∀ phase ∈ pool.workers, phase ≠ .exited

/-- Every task has been run and every thread is where it started. -/
structure Drained (pool : ThreadPool Task) : Prop where
  producers : ∀ phase ∈ pool.producers, phase = .idle
  workers : ∀ phase ∈ pool.workers, phase = .waiting
  ring : pool.shared.inserted = pool.shared.extracted
  space : pool.shared.spaceAvailable = capacity
  executed : (pool.shared.executed : Multiset Task) = pool.shared.called.reduceOption

section Steps

variable {pool following : ThreadPool Task}

theorem producer_rest_step {phase next : Producer Task} {before after : PoolShared Task}
    (stepped : phase.step before = some (after, next)) :
    10 * after.tasksAvailable + producerRest next <
        10 * before.tasksAvailable + producerRest phase ∧
      after.stop = before.stop := by
  cases phase <;> simp only [Producer.step] at stepped <;> (try split at stepped) <;>
    cases stepped <;> simp [producerRest, Nat.mul_add]

theorem worker_rest_step {phase next : PoolWorker Task} {before after : PoolShared Task}
    (going : before.stop = false) (stepped : phase.step before = some (after, next)) :
    10 * after.tasksAvailable + workerRest next <
        10 * before.tasksAvailable + workerRest phase ∧
      after.stop = before.stop ∧ next ≠ .exited := by
  cases phase with
  | exited => cases stepped
  | permitted =>
      rw [PoolWorker.step, going] at stepped
      cases stepped
      simp [workerRest]
  | waiting =>
      simp only [PoolWorker.step] at stepped
      split at stepped <;> cases stepped
      refine ⟨?_, rfl, by simp⟩
      simp only [workerRest]
      omega
  | released task => cases task <;> cases stepped <;> simp [workerRest]
  | _ =>
      simp only [PoolWorker.step] at stepped
      try split at stepped
      all_goals
        cases stepped <;>
        simp [workerRest]

theorem present_set {workers : List (PoolWorker Task)} {next : PoolWorker Task}
    (present : ∀ phase ∈ workers, phase ≠ .exited) (stays : next ≠ .exited) (worker : Nat) :
    ∀ phase ∈ workers.set worker next, phase ≠ .exited := by
  intro phase member
  rcases List.mem_or_eq_of_mem_set member with before | rfl
  · exact present phase before
  · exact stays

theorem serving_step {action : PoolAction Task} (serving : Serving pool)
    (internal : Internal action) (stepped : pool.step action = some following) :
    Serving following ∧ drainRank following < drainRank pool := by
  have kept := step_kept serving.kept stepped
  cases action with
  | enqueue producer task => exact internal.elim
  | destroy => exact internal.elim
  | produce producer =>
      obtain ⟨phase, shared, next, found, moved, rfl⟩ := produce_inversion stepped
      obtain ⟨lower, stop⟩ := producer_rest_step moved
      have rests := total_set producerRest found next
      refine ⟨⟨kept, serving.alive, stop.trans serving.going, serving.present⟩, ?_⟩
      simp only [drainRank]
      omega
  | work worker =>
      obtain ⟨phase, shared, next, found, moved, rfl⟩ := work_inversion stepped
      obtain ⟨lower, stop, stays⟩ := worker_rest_step serving.going moved
      have rests := total_set workerRest found next
      refine ⟨⟨kept, serving.alive, stop.trans serving.going,
        present_set serving.present stays worker⟩, ?_⟩
      simp only [drainRank]
      omega

end Steps

section Rest

variable {pool : ThreadPool Task}

theorem produce_enabled {producer : Nat} {phase : Producer Task}
    (found : pool.producers[producer]? = some phase)
    (enabled : (phase.step pool.shared).isSome = true) :
    (pool.produce producer).isSome = true := by
  rw [ThreadPool.produce, found, Option.bind_some, Option.isSome_map]
  exact enabled

def Resting (pool : ThreadPool Task) : Prop :=
  ∀ action, Internal action → pool.step action = none

theorem resting_producer (resting : Resting pool) {producer : Nat} {phase : Producer Task}
    (found : pool.producers[producer]? = some phase) : phase.step pool.shared = none := by
  by_contra enabled
  have moves := produce_enabled found (Option.isSome_iff_ne_none.mpr enabled)
  rw [show pool.produce producer = none from resting (.produce producer) trivial] at moves
  cases moves

theorem resting_worker (resting : Resting pool) {worker : Nat} {phase : PoolWorker Task}
    (found : pool.workers[worker]? = some phase) : phase.step pool.shared = none := by
  by_contra enabled
  have moves := work_enabled found (Option.isSome_iff_ne_none.mpr enabled)
  rw [show pool.work worker = none from resting (.work worker) trivial] at moves
  cases moves

/-- Whoever holds the lock can go on, so the lock is free once nobody who holds it
takes a step. -/
theorem unlocked_of_stuck (permits : PermitsKept pool)
    (producers : ∀ phase ∈ pool.producers, 0 < producerLocks phase →
      phase.step pool.shared = none)
    (workers : ∀ phase ∈ pool.workers, 0 < workerLocks phase →
      phase.step pool.shared = none) : pool.shared.lock = false := by
  by_contra held
  have lock := permits.lock
  rw [Bool.not_eq_false] at held
  rw [held, Bool.toNat_true] at lock
  have holder : 0 < total producerLocks pool.producers ∨ 0 < total workerLocks pool.workers := by
    omega
  rcases holder with byProducer | byWorker
  · obtain ⟨producer, phase, found, holds⟩ := exists_of_total_pos producerLocks byProducer
    have stuck := producers phase (List.mem_of_getElem? found) holds
    cases phase <;> first | exact absurd holds (Nat.lt_irrefl 0) | cases stuck
  · obtain ⟨worker, phase, found, holds⟩ := exists_of_total_pos workerLocks byWorker
    have stuck := workers phase (List.mem_of_getElem? found) holds
    cases phase <;> first | exact absurd holds (Nat.lt_irrefl 0) | cases stuck

theorem stuck_producer_waits {shared : PoolShared Task} {phase : Producer Task}
    (free : shared.lock = false) (stuck : phase.step shared = none) :
    phase = .idle ∨ (∃ task, phase = .counted task) ∧ shared.spaceAvailable = 0 := by
  cases phase with
  | idle => exact Or.inl rfl
  | counted task =>
      right
      refine ⟨⟨task, rfl⟩, ?_⟩
      by_contra room
      rw [Producer.step, if_neg room] at stuck
      cases stuck
  | permitted task =>
      rw [Producer.step, free] at stuck
      cases stuck
  | _ => cases stuck

theorem resting_unlocked (permits : PermitsKept pool) (resting : Resting pool) :
    pool.shared.lock = false := by
  apply unlocked_of_stuck permits
  · intro phase member _
    obtain ⟨producer, found⟩ := List.mem_iff_getElem?.mp member
    exact resting_producer resting found
  · intro phase member _
    obtain ⟨worker, found⟩ := List.mem_iff_getElem?.mp member
    exact resting_worker resting found

theorem resting_producer_waits (permits : PermitsKept pool) (resting : Resting pool)
    {phase : Producer Task} (member : phase ∈ pool.producers) :
    phase = .idle ∨ (∃ task, phase = .counted task) ∧ pool.shared.spaceAvailable = 0 := by
  obtain ⟨producer, found⟩ := List.mem_iff_getElem?.mp member
  exact stuck_producer_waits (resting_unlocked permits resting)
    (resting_producer resting found)

theorem resting_worker_waits (serving : Serving pool) (resting : Resting pool)
    {phase : PoolWorker Task} (member : phase ∈ pool.workers) :
    phase = .waiting ∧ pool.shared.tasksAvailable = 0 := by
  obtain ⟨worker, found⟩ := List.mem_iff_getElem?.mp member
  have stuck := resting_worker resting found
  have free := resting_unlocked serving.kept.permits resting
  cases phase with
  | waiting =>
      refine ⟨rfl, ?_⟩
      by_contra permit
      rw [PoolWorker.step, if_neg permit] at stuck
      cases stuck
  | admitted =>
      rw [PoolWorker.step, free] at stuck
      cases stuck
  | released task => cases task <;> cases stuck
  | exited => exact absurd rfl (serving.present _ member)
  | _ => cases stuck

/-- A semaphore at zero with nobody between it and its release means a full or an
empty ring; it cannot be both. -/
theorem resting_drained (serving : Serving pool) (staffed : 0 < pool.workers.length)
    (resting : Resting pool) : Drained pool := by
  have permits := serving.kept.permits
  have waiting : ∀ phase ∈ pool.workers, phase = .waiting :=
    fun phase member => (resting_worker_waits serving resting member).1
  obtain ⟨first, member⟩ := List.exists_mem_of_length_pos staffed
  have noTask := (resting_worker_waits serving resting member).2
  have entering : ∀ phase ∈ pool.producers, phase = .idle ∨ ∃ task, phase = .counted task := by
    intro phase inside
    rcases resting_producer_waits permits resting inside with idle | ⟨waits, _⟩
    · exact Or.inl idle
    · exact Or.inr waits
  have noneOf : ∀ weight : Producer Task → Nat, weight .idle = 0 →
      (∀ task, weight (.counted task) = 0) → total weight pool.producers = 0 := by
    intro weight idle waits
    rw [total, List.sum_eq_zero_iff]
    intro value among
    obtain ⟨phase, inside, rfl⟩ := List.mem_map.mp among
    rcases entering phase inside with rfl | ⟨task, rfl⟩
    · exact idle
    · exact waits task
  have tasks := permits.tasks
  have space := permits.space
  rw [noneOf producerOwes rfl (fun _ => rfl), total_of_same waiting workerPermit rfl,
    serving.alive, noTask] at tasks
  rw [noneOf producerSpace rfl (fun _ => rfl), total_of_same waiting workerOwes rfl] at space
  simp only [releases] at tasks
  have empty : pool.shared.spaceAvailable = capacity := by omega
  have idle : ∀ phase ∈ pool.producers, phase = .idle := by
    intro phase inside
    rcases resting_producer_waits permits resting inside with idle | ⟨_, full⟩
    · exact idle
    · rw [empty] at full
      exact absurd full (by decide)
  have ring : pool.shared.inserted = pool.shared.extracted := by
    apply Eq.symm
    apply serving.kept.ring.order.eq_of_length
    omega
  refine ⟨idle, waiting, ring, empty, ?_⟩
  have called := serving.kept.tasks.called
  have executed := serving.kept.tasks.executed
  rw [total_of_same idle producerTask rfl, add_zero, Multiset.coe_eq_coe] at called
  rw [total_of_same waiting workerTask rfl, add_zero] at executed
  rw [← executed, ← ring, Multiset.coe_eq_coe]
  exact (called.filterMap id).symm

end Rest

section Runs

variable {pool last : ThreadPool Task}

structure Staffed (workers : Nat) (pool : ThreadPool Task) : Prop where
  kept : PoolKept pool
  count : pool.workers.length = workers
  serving : pool.destructor = .alive →
    pool.shared.stop = false ∧ ∀ phase ∈ pool.workers, phase ≠ .exited

theorem initial_staffed (producers workers : Nat) :
    Staffed workers (ThreadPool.initial producers workers : ThreadPool Task) := by
  refine ⟨initial_kept producers workers, List.length_replicate, fun _ => ⟨rfl, ?_⟩⟩
  intro phase member
  rw [List.eq_of_mem_replicate member]
  simp

theorem destructor_stays_entered {shared after : PoolShared Task}
    {workers : List (PoolWorker Task)} {phase next : Destructor}
    (stepped : phase.step shared workers = some (after, next)) : next ≠ .alive := by
  cases phase <;> simp only [Destructor.step] at stepped <;> (try split at stepped) <;>
    cases stepped <;> simp

theorem step_staffed {workers : Nat} {action : PoolAction Task} (staffed : Staffed workers pool)
    (stepped : pool.step action = some last) : Staffed workers last := by
  have kept := step_kept staffed.kept stepped
  cases action with
  | enqueue producer task =>
      obtain ⟨found, rfl⟩ := enqueue_inversion stepped
      exact ⟨kept, staffed.count, staffed.serving⟩
  | produce producer =>
      obtain ⟨phase, shared, next, found, moved, rfl⟩ := produce_inversion stepped
      refine ⟨kept, staffed.count, ?_⟩
      intro alive
      obtain ⟨going, present⟩ := staffed.serving alive
      exact ⟨(producer_rest_step moved).2.trans going, present⟩
  | work worker =>
      obtain ⟨phase, shared, next, found, moved, rfl⟩ := work_inversion stepped
      refine ⟨kept, List.length_set.trans staffed.count, ?_⟩
      intro alive
      obtain ⟨going, present⟩ := staffed.serving alive
      obtain ⟨_, stop, stays⟩ := worker_rest_step going moved
      exact ⟨stop.trans going, present_set present stays worker⟩
  | destroy =>
      obtain ⟨shared, next, moved, rfl⟩ := destroy_inversion stepped
      exact ⟨kept, staffed.count, fun alive => absurd alive (destructor_stays_entered moved)⟩

theorem run_serving {producers workers : Nat} {actions : List (PoolAction Task)}
    (reached : run ThreadPool.step (ThreadPool.initial producers workers) actions = some last)
    (alive : last.destructor = .alive) : Serving last ∧ last.workers.length = workers := by
  have staffed : Staffed workers last := by
    refine run_keeps (Staffed workers) ?_ (initial_staffed producers workers) reached
    intro state action following here stepped
    exact step_staffed here stepped
  obtain ⟨going, present⟩ := staffed.serving alive
  exact ⟨⟨staffed.kept, alive, going, present⟩, staffed.count⟩

theorem serving_run {more : List (PoolAction Task)} (serving : Serving pool)
    (internal : ∀ action ∈ more, Internal action)
    (reached : run ThreadPool.step pool more = some last) :
    Serving last ∧ last.workers.length = pool.workers.length ∧
      more.length + drainRank last ≤ drainRank pool := by
  have respects := respects_of_labels ThreadPool.step internal pool
  have still := run_invariant
    (fun state => Serving state ∧ state.workers.length = pool.workers.length) (by
      rintro state action following ⟨here, count⟩ allowed stepped
      refine ⟨(serving_step here allowed stepped).1, ?_⟩
      have staffed : Staffed state.workers.length state :=
        ⟨here.kept, rfl, fun _ => ⟨here.going, here.present⟩⟩
      exact (step_staffed staffed stepped).count.trans count)
    ⟨serving, rfl⟩ respects reached
  exact ⟨still.1, still.2, run_length_le_rank Serving drainRank
    (fun _ _ _ here allowed stepped => serving_step here allowed stepped) serving respects
    reached⟩

end Runs

end HttpServer.PoolDrain
