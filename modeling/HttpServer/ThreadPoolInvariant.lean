import HttpServer.ThreadPool
import HttpServer.Census
import HttpServer.RingBuffer
import Mathlib.Data.List.ReduceOption
import Mathlib.Data.Multiset.AddSub
import Mathlib.Algebra.Order.Group.Multiset

/-!
# The ring is a bounded queue

A thread between an acquire and the matching release holds a permit that is in
neither semaphore, and between the write of a slot and the move of its index the
ring and the indices disagree. The weights below say what each program counter
holds; `PermitsKept` balances the counters with them, `RingKept` relates the ring
to the two logs and `TasksKept` follows the tasks themselves.
-/

namespace HttpServer.ThreadPoolInvariant

open ThreadPool Census RingBuffer

universe u

variable {Task : Type u}

section Weights

def producerLocks : Producer Task → Nat
  | .locked _ | .stored _ | .advanced => 1
  | _ => 0

/-- A permit of `space_available_` for a slot that is not yet counted as filled. -/
def producerSpace : Producer Task → Nat
  | .permitted _ | .locked _ | .stored _ => 1
  | _ => 0

/-- A filled slot that `tasks_available_` does not count yet. -/
def producerOwes : Producer Task → Nat
  | .advanced | .unlocked => 1
  | _ => 0

def producerTask : Producer Task → Multiset (Option Task)
  | .counted task | .permitted task | .locked task | .stored task => {task}
  | _ => 0

def workerLocks : PoolWorker Task → Nat
  | .locked | .moved _ | .advanced _ => 1
  | _ => 0

/-- A permit of `tasks_available_` for a slot that is not yet counted as empty; a
worker that leaves its loop keeps the permit it came with. -/
def workerPermit : PoolWorker Task → Nat
  | .permitted | .admitted | .locked | .moved _ | .exited => 1
  | _ => 0

/-- A worker past the check of `stop_`, which will take a task. -/
def workerAdmitted : PoolWorker Task → Nat
  | .admitted | .locked | .moved _ => 1
  | _ => 0

def workerMoving : PoolWorker Task → Nat
  | .moved _ => 1
  | _ => 0

/-- An empty slot that `space_available_` does not count yet. -/
def workerOwes : PoolWorker Task → Nat
  | .advanced _ | .unlocked _ => 1
  | _ => 0

def workerTask : PoolWorker Task → Multiset Task
  | .advanced task | .unlocked task | .released task => task.toList
  | _ => 0

end Weights

/-- The releases of `tasks_available_` the destructor has made. -/
def releases (workers : List (PoolWorker Task)) : Destructor → Nat
  | .alive => 0
  | .releasing count => count
  | .joining _ | .destroyed => workers.length

structure PermitsKept (pool : ThreadPool Task) : Prop where
  lock : total producerLocks pool.producers + total workerLocks pool.workers =
    pool.shared.lock.toNat
  space : pool.shared.spaceAvailable + total producerSpace pool.producers +
      total workerOwes pool.workers + pool.shared.inserted.length =
    capacity + pool.shared.extracted.length
  tasks : pool.shared.tasksAvailable + total workerPermit pool.workers +
      total producerOwes pool.producers + pool.shared.extracted.length =
    pool.shared.inserted.length + releases pool.workers pool.destructor
  admitted : total workerAdmitted pool.workers + pool.shared.extracted.length ≤
    pool.shared.inserted.length
  alive : pool.shared.stop = false → pool.destructor = .alive
  bounded : releases pool.workers pool.destructor ≤ pool.workers.length

structure RingKept (pool : ThreadPool Task) : Prop where
  tail : pool.shared.tail = cell capacity pool.shared.inserted.length
  head : pool.shared.head = cell capacity pool.shared.extracted.length
  window : Window pool.shared.ringBuffer pool.shared.inserted
    (pool.shared.extracted.length + total workerMoving pool.workers)
  stored : ∀ (index : Nat) (task : Option Task),
    pool.producers[index]? = some (.stored task) →
      pool.shared.ringBuffer pool.shared.tail = task
  moved : ∀ (index : Nat) (task : Option Task),
    pool.workers[index]? = some (.moved task) →
      pool.shared.inserted[pool.shared.extracted.length]? = some task
  order : pool.shared.extracted <+: pool.shared.inserted

structure TasksKept (pool : ThreadPool Task) : Prop where
  called : (pool.shared.called : Multiset (Option Task)) =
    pool.shared.inserted + total producerTask pool.producers
  executed : (pool.shared.extracted.reduceOption : Multiset Task) =
    pool.shared.executed + total workerTask pool.workers

section Inversion

variable {pool following : ThreadPool Task}

theorem enqueue_inversion {producer : Nat} {task : Option Task}
    (stepped : pool.enqueue producer task = some following) :
    pool.producers[producer]? = some .idle ∧
      following = { pool with
        shared := pool.shared.count task
        producers := pool.producers.set producer (.counted task) } := by
  unfold ThreadPool.enqueue at stepped
  split at stepped
  · rename_i found
    exact ⟨found, (Option.some.inj stepped).symm⟩
  · cases stepped

theorem produce_inversion {producer : Nat} (stepped : pool.produce producer = some following) :
    ∃ phase shared next, pool.producers[producer]? = some phase ∧
      phase.step pool.shared = some (shared, next) ∧
      following = { pool with
        shared := shared
        producers := pool.producers.set producer next } := by
  unfold ThreadPool.produce at stepped
  obtain ⟨phase, found, mapped⟩ := Option.bind_eq_some_iff.mp stepped
  obtain ⟨⟨shared, next⟩, moved, same⟩ := Option.map_eq_some_iff.mp mapped
  exact ⟨phase, shared, next, found, moved, same.symm⟩

theorem work_inversion {worker : Nat} (stepped : pool.work worker = some following) :
    ∃ phase shared next, pool.workers[worker]? = some phase ∧
      phase.step pool.shared = some (shared, next) ∧
      following = { pool with
        shared := shared
        workers := pool.workers.set worker next } := by
  unfold ThreadPool.work at stepped
  obtain ⟨phase, found, mapped⟩ := Option.bind_eq_some_iff.mp stepped
  obtain ⟨⟨shared, next⟩, moved, same⟩ := Option.map_eq_some_iff.mp mapped
  exact ⟨phase, shared, next, found, moved, same.symm⟩

theorem destroy_inversion (stepped : pool.destroy = some following) :
    ∃ shared next, pool.destructor.step pool.shared pool.workers = some (shared, next) ∧
      following = { pool with shared := shared, destructor := next } := by
  obtain ⟨⟨shared, next⟩, moved, same⟩ := Option.map_eq_some_iff.mp stepped
  exact ⟨shared, next, moved, same.symm⟩

end Inversion

section Permits

variable {pool : ThreadPool Task}

theorem initial_permits (producers workers : Nat) :
    PermitsKept (ThreadPool.initial producers workers : ThreadPool Task) := by
  constructor <;>
    simp only [ThreadPool.initial, PoolShared.initial, total_replicate producerLocks .idle rfl,
      total_replicate producerSpace .idle rfl, total_replicate producerOwes .idle rfl,
      total_replicate workerLocks .waiting rfl, total_replicate workerOwes .waiting rfl,
      total_replicate workerPermit .waiting rfl, total_replicate workerAdmitted .waiting rfl,
      releases, Bool.toNat_false, Nat.add_zero, List.length_nil, Nat.le_refl, Nat.zero_le,
      implies_true]

theorem enqueue_permits {producer : Nat} {task : Option Task} (kept : PermitsKept pool)
    (found : pool.producers[producer]? = some .idle) :
    PermitsKept { pool with
      shared := pool.shared.count task
      producers := pool.producers.set producer (.counted task) } := by
  have locks := total_set producerLocks found (.counted task)
  have space := total_set producerSpace found (.counted task)
  have owes := total_set producerOwes found (.counted task)
  simp only [producerLocks, producerSpace, producerOwes, Nat.add_zero] at locks space owes
  constructor <;> simp only [PoolShared.count, locks, space, owes]
  · exact kept.lock
  · exact kept.space
  · exact kept.tasks
  · exact kept.admitted
  · exact kept.alive
  · exact kept.bounded

theorem producer_permits {producer : Nat} {phase next : Producer Task}
    {shared : PoolShared Task} (kept : PermitsKept pool)
    (found : pool.producers[producer]? = some phase)
    (stepped : phase.step pool.shared = some (shared, next)) :
    PermitsKept { pool with
      shared := shared
      producers := pool.producers.set producer next } := by
  have locks := total_set producerLocks found next
  have space := total_set producerSpace found next
  have owes := total_set producerOwes found next
  have single := pool.shared.lock.toNat_le
  obtain ⟨lockKept, spaceKept, tasksKept, admittedKept, alive, bounded⟩ := kept
  -- Each step moves its permit between one counter and one weight.
  cases phase <;> simp only [Producer.step] at stepped <;> (try split at stepped) <;>
    cases stepped <;>
    simp only [producerLocks, producerSpace, producerOwes] at locks space owes <;>
    refine ⟨?_, ?_, ?_, ?_, alive, bounded⟩ <;>
    simp_all only [List.length_append, List.length_singleton, Bool.toNat_true, Bool.toNat_false,
      Bool.not_eq_true] <;>
    omega

theorem releases_set (workers : List (PoolWorker Task)) (worker : Nat) (next : PoolWorker Task)
    (destructor : Destructor) :
    releases (workers.set worker next) destructor = releases workers destructor := by
  cases destructor <;> simp only [releases, List.length_set]

theorem admitted_le_permit (worker : PoolWorker Task) :
    workerAdmitted worker ≤ workerPermit worker := by
  cases worker <;> simp only [workerAdmitted, workerPermit, Nat.le_refl, Nat.zero_le]

theorem worker_permits {worker : Nat} {phase next : PoolWorker Task}
    {shared : PoolShared Task} (kept : PermitsKept pool)
    (found : pool.workers[worker]? = some phase)
    (stepped : phase.step pool.shared = some (shared, next)) :
    PermitsKept { pool with
      shared := shared
      workers := pool.workers.set worker next } := by
  have locks := total_set workerLocks found next
  have permit := total_set workerPermit found next
  have admitted := total_set workerAdmitted found next
  have owes := total_set workerOwes found next
  have covered := total_le_total admitted_le_permit (pool.workers.set worker next)
  have unreleased : pool.shared.stop = false → releases pool.workers pool.destructor = 0 := by
    intro running
    rw [kept.alive running, releases]
  have single := pool.shared.lock.toNat_le
  obtain ⟨lockKept, spaceKept, tasksKept, admittedKept, alive, bounded⟩ := kept
  cases phase with
  | exited => cases stepped
  | permitted =>
      cases stepped
      refine ⟨?_, ?_, ?_, ?_, alive, ?_⟩ <;>
        cases stop : pool.shared.stop <;>
        simp_all only [workerLocks, workerPermit, workerAdmitted, workerOwes, releases_set,
          List.length_set, Bool.false_eq_true, ↓reduceIte, forall_const] <;>
        omega
  | released task =>
      cases task <;> cases stepped <;>
        simp only [workerLocks, workerPermit, workerAdmitted, workerOwes]
          at locks permit admitted owes <;>
        refine ⟨?_, ?_, ?_, ?_, alive, ?_⟩ <;>
        simp only [releases_set, List.length_set] <;>
        omega
  | _ =>
      simp only [PoolWorker.step] at stepped
      try split at stepped
      all_goals
        cases stepped <;>
        simp only [workerLocks, workerPermit, workerAdmitted, workerOwes]
          at locks permit admitted owes <;>
        refine ⟨?_, ?_, ?_, ?_, alive, ?_⟩ <;>
        simp_all only [releases_set, List.length_set, List.length_append, List.length_singleton,
          Bool.toNat_true, Bool.toNat_false, Bool.not_eq_true] <;>
        omega

theorem destructor_permits {next : Destructor} {shared : PoolShared Task}
    (kept : PermitsKept pool)
    (stepped : pool.destructor.step pool.shared pool.workers = some (shared, next)) :
    PermitsKept { pool with shared := shared, destructor := next } := by
  obtain ⟨lockKept, spaceKept, tasksKept, admittedKept, alive, bounded⟩ := kept
  cases phase : pool.destructor with
  | alive =>
      rw [phase] at stepped tasksKept
      cases stepped
      exact ⟨lockKept, spaceKept, tasksKept, admittedKept, nofun, Nat.zero_le _⟩
  | destroyed =>
      rw [phase] at stepped
      cases stepped
  | releasing count =>
      rw [phase] at stepped tasksKept alive bounded
      have stopping : pool.shared.stop ≠ false := by
        intro running
        cases alive running
      simp only [Destructor.step] at stepped
      simp only [releases] at tasksKept bounded
      split at stepped
      · cases stepped
        refine ⟨lockKept, spaceKept, ?_, admittedKept, fun running => absurd running stopping, ?_⟩
        all_goals
          simp only [releases]
          omega
      · cases stepped
        refine ⟨lockKept, spaceKept, ?_, admittedKept, fun running => absurd running stopping, ?_⟩
        all_goals
          simp only [releases]
          omega
  | joining index =>
      rw [phase] at stepped tasksKept alive bounded
      have stopping : pool.shared.stop ≠ false := by
        intro running
        cases alive running
      simp only [Destructor.step] at stepped
      simp only [releases] at tasksKept
      split at stepped <;> cases stepped <;>
        exact ⟨lockKept, spaceKept, tasksKept, admittedKept,
          fun running => absurd running stopping, Nat.le_refl _⟩

end Permits

section Ring

variable {pool : ThreadPool Task}

theorem initial_ring (producers workers : Nat) :
    RingKept (ThreadPool.initial producers workers : ThreadPool Task) where
  tail := rfl
  head := rfl
  window := by
    intro position entry _ present
    simp [ThreadPool.initial, PoolShared.initial] at present
  stored := by
    intro index task found
    have idle := List.eq_of_mem_replicate (List.mem_of_getElem? found)
    cases idle
  moved := by
    intro index task found
    have waiting := List.eq_of_mem_replicate (List.mem_of_getElem? found)
    cases waiting
  order := List.prefix_refl []

theorem ring_frame {following : ThreadPool Task} (kept : RingKept pool)
    (ringBuffer : following.shared.ringBuffer = pool.shared.ringBuffer)
    (tail : following.shared.tail = pool.shared.tail)
    (head : following.shared.head = pool.shared.head)
    (inserted : following.shared.inserted = pool.shared.inserted)
    (extracted : following.shared.extracted = pool.shared.extracted)
    (moving : total workerMoving following.workers = total workerMoving pool.workers)
    (stored : ∀ (index : Nat) (task : Option Task),
      following.producers[index]? = some (.stored task) →
        pool.producers[index]? = some (.stored task))
    (moved : ∀ (index : Nat) (task : Option Task),
      following.workers[index]? = some (.moved task) →
        pool.workers[index]? = some (.moved task)) :
    RingKept following := by
  constructor
  · rw [tail, inserted]
    exact kept.tail
  · rw [head, extracted]
    exact kept.head
  · rw [ringBuffer, inserted, extracted, moving]
    exact kept.window
  · intro index task found
    rw [ringBuffer, tail]
    exact kept.stored index task (stored index task found)
  · intro index task found
    rw [inserted, extracted]
    exact kept.moved index task (moved index task found)
  · rw [inserted, extracted]
    exact kept.order

theorem stored_excluded {holder index : Nat} {phase : Producer Task} {task : Option Task}
    (permits : PermitsKept pool) (found : pool.producers[holder]? = some phase)
    (holds : producerLocks phase = 1)
    (stored : pool.producers[index]? = some (.stored task)) : holder = index := by
  have bound : total producerLocks pool.producers ≤ 1 := by
    have single := pool.shared.lock.toNat_le
    have lock := permits.lock
    omega
  exact sole_holder producerLocks bound found stored holds rfl

theorem moved_excluded {holder index : Nat} {phase : PoolWorker Task} {task : Option Task}
    (permits : PermitsKept pool) (found : pool.workers[holder]? = some phase)
    (holds : workerLocks phase = 1)
    (moved : pool.workers[index]? = some (.moved task)) : holder = index := by
  have bound : total workerLocks pool.workers ≤ 1 := by
    have single := pool.shared.lock.toNat_le
    have lock := permits.lock
    omega
  exact sole_holder workerLocks bound found moved holds rfl

theorem lock_excludes {producer worker : Nat} {left : Producer Task} {right : PoolWorker Task}
    (permits : PermitsKept pool) (foundLeft : pool.producers[producer]? = some left)
    (foundRight : pool.workers[worker]? = some right) (holdsLeft : producerLocks left = 1)
    (holdsRight : workerLocks right = 1) : False := by
  have single := pool.shared.lock.toNat_le
  have lock := permits.lock
  have held := weight_le_total producerLocks foundLeft
  have taken := weight_le_total workerLocks foundRight
  omega

theorem stored_of_set {producer index : Nat} {next : Producer Task} {task : Option Task}
    (fresh : ∀ other, next ≠ .stored other)
    (present : (pool.producers.set producer next)[index]? = some (.stored task)) :
    pool.producers[index]? = some (.stored task) := by
  rcases found_set present with ⟨-, new⟩ | ⟨-, old⟩
  · exact absurd new.symm (fresh task)
  · exact old

theorem moved_of_set {worker index : Nat} {next : PoolWorker Task} {task : Option Task}
    (fresh : ∀ other, next ≠ .moved other)
    (present : (pool.workers.set worker next)[index]? = some (.moved task)) :
    pool.workers[index]? = some (.moved task) := by
  rcases found_set present with ⟨-, new⟩ | ⟨-, old⟩
  · exact absurd new.symm (fresh task)
  · exact old

theorem enqueue_ring {producer : Nat} {task : Option Task} (kept : RingKept pool) :
    RingKept { pool with
      shared := pool.shared.count task
      producers := pool.producers.set producer (.counted task) } :=
  ring_frame kept rfl rfl rfl rfl rfl rfl (fun _ _ => stored_of_set nofun) (fun _ _ => id)

theorem producer_ring {producer : Nat} {phase next : Producer Task} {shared : PoolShared Task}
    (permits : PermitsKept pool) (kept : RingKept pool)
    (found : pool.producers[producer]? = some phase)
    (stepped : phase.step pool.shared = some (shared, next)) :
    RingKept { pool with
      shared := shared
      producers := pool.producers.set producer next } := by
  cases phase with
  | locked task =>
      cases stepped
      have space : pool.shared.inserted.length <
          pool.shared.extracted.length + total workerMoving pool.workers + capacity := by
        have spaceKept := permits.space
        have room := weight_le_total producerSpace found
        simp only [producerSpace] at room
        omega
      refine ⟨kept.tail, kept.head, ?_, ?_, kept.moved, kept.order⟩
      · simp only [kept.tail]
        exact kept.window.store task space
      · intro index other present
        rcases found_set present with ⟨-, new⟩ | ⟨different, old⟩
        · cases new
          simp only [Function.update_self]
        · exact absurd (stored_excluded permits found rfl old) different
  | stored task =>
      cases stepped
      refine ⟨?_, kept.head, ?_, ?_, ?_, ?_⟩
      · simp only [kept.tail, List.length_append, List.length_singleton, cell_succ]
      · apply kept.window.append
        rw [← kept.tail]
        exact kept.stored producer task found
      · intro index other present
        rcases found_set present with ⟨-, new⟩ | ⟨different, old⟩
        · cases new
        · exact absurd (stored_excluded permits found rfl old) different
      · intro index other present
        have earlier := kept.moved index other present
        have inside := (List.getElem?_eq_some_iff.mp earlier).1
        simp only [List.getElem?_append_left inside, earlier]
      · exact kept.order.trans (List.prefix_append _ _)
  | idle => cases stepped
  | _ =>
      simp only [Producer.step] at stepped
      try split at stepped
      all_goals
        cases stepped <;>
        exact ring_frame kept rfl rfl rfl rfl rfl rfl (fun _ _ => stored_of_set nofun)
          (fun _ _ => id)

theorem moving_le_locks (worker : PoolWorker Task) : workerMoving worker ≤ workerLocks worker := by
  cases worker <;> simp only [workerMoving, workerLocks, Nat.le_refl, Nat.zero_le]

theorem none_moving {worker : Nat} (permits : PermitsKept pool)
    (found : pool.workers[worker]? = some .locked) : total workerMoving pool.workers = 0 := by
  have locks := total_set workerLocks found (.moved none)
  have moving := total_set workerMoving found (.moved none)
  have below := total_le_total moving_le_locks (pool.workers.set worker (.moved none))
  have single := pool.shared.lock.toNat_le
  have lock := permits.lock
  simp only [workerLocks, workerMoving] at locks moving
  omega

/-- A worker that is about to move a slot finds the oldest queued task there. -/
theorem extraction_slot {worker : Nat} (permits : PermitsKept pool) (kept : RingKept pool)
    (found : pool.workers[worker]? = some .locked) :
    pool.shared.inserted[pool.shared.extracted.length]? =
      some (pool.shared.ringBuffer pool.shared.head) := by
  have admitted := permits.admitted
  have permit := weight_le_total workerAdmitted found
  simp only [workerAdmitted] at permit
  have inside : pool.shared.extracted.length < pool.shared.inserted.length := by omega
  have still := none_moving permits found
  have present := List.getElem?_eq_getElem inside
  have filled := kept.window pool.shared.extracted.length _ (by omega) present
  rw [present, kept.head, filled]

theorem worker_ring {worker : Nat} {phase next : PoolWorker Task} {shared : PoolShared Task}
    (permits : PermitsKept pool) (kept : RingKept pool)
    (found : pool.workers[worker]? = some phase)
    (stepped : phase.step pool.shared = some (shared, next)) :
    RingKept { pool with
      shared := shared
      workers := pool.workers.set worker next } := by
  have moving := total_set workerMoving found next
  cases phase with
  | locked =>
      cases stepped
      have still := none_moving permits found
      have room : pool.shared.inserted.length ≤ pool.shared.extracted.length + capacity := by
        have spaceKept := permits.space
        omega
      have first : pool.shared.extracted.length + 1 = pool.shared.extracted.length +
          total workerMoving (pool.workers.set worker
            (.moved (pool.shared.ringBuffer pool.shared.head))) := by
        simp only [workerMoving] at moving
        omega
      refine ⟨kept.tail, kept.head, ?_, ?_, ?_, kept.order⟩
      · have window := kept.window
        rw [still, Nat.add_zero] at window
        have taken := window.take none room
        rw [← kept.head, first] at taken
        exact taken
      · intro index other present
        exact (lock_excludes permits present found rfl rfl).elim
      · intro index other present
        rcases found_set present with ⟨-, new⟩ | ⟨different, old⟩
        · cases new
          exact extraction_slot permits kept found
        · exact absurd (moved_excluded permits found rfl old) different
  | moved task =>
      cases stepped
      have present := kept.moved worker task found
      have first : pool.shared.extracted.length + total workerMoving pool.workers =
          (pool.shared.extracted ++ [task]).length +
            total workerMoving (pool.workers.set worker (.advanced task)) := by
        simp only [workerMoving] at moving
        simp only [List.length_append, List.length_singleton]
        omega
      refine ⟨kept.tail, ?_, ?_, kept.stored, ?_, ?_⟩
      · simp only [kept.head, List.length_append, List.length_singleton, cell_succ]
      · have window := kept.window
        rw [first] at window
        exact window
      · intro index other again
        rcases found_set again with ⟨-, new⟩ | ⟨different, old⟩
        · cases new
        · exact absurd (moved_excluded permits found rfl old) different
      · obtain ⟨rest, split⟩ := kept.order
        simp only [← split, List.getElem?_append_right (Nat.le_refl _), Nat.sub_self] at present ⊢
        obtain ⟨tail, rfl⟩ := List.head?_eq_some_iff.mp (List.head?_eq_getElem?.trans present)
        exact ⟨tail, by simp only [List.append_assoc, List.singleton_append]⟩
  | released task =>
      cases task <;> cases stepped <;>
        exact ring_frame kept rfl rfl rfl rfl rfl moving (fun _ _ => id)
          (fun _ _ => moved_of_set nofun)
  | permitted =>
      cases stop : pool.shared.stop <;> rw [PoolWorker.step, stop] at stepped <;>
        cases stepped <;>
        exact ring_frame kept rfl rfl rfl rfl rfl moving (fun _ _ => id)
          (fun _ _ => moved_of_set nofun)
  | exited => cases stepped
  | _ =>
      simp only [PoolWorker.step] at stepped
      try split at stepped
      all_goals
        cases stepped <;>
        exact ring_frame kept rfl rfl rfl rfl rfl moving (fun _ _ => id)
          (fun _ _ => moved_of_set nofun)

theorem destructor_ring {next : Destructor} {shared : PoolShared Task} (kept : RingKept pool)
    (stepped : pool.destructor.step pool.shared pool.workers = some (shared, next)) :
    RingKept { pool with shared := shared, destructor := next } := by
  cases phase : pool.destructor <;> rw [phase] at stepped <;>
    simp only [Destructor.step] at stepped <;> (try split at stepped) <;> cases stepped <;>
    exact ring_frame kept rfl rfl rfl rfl rfl rfl (fun _ _ => id) (fun _ _ => id)

end Ring

section Tasks

variable {pool : ThreadPool Task}

theorem initial_tasks (producers workers : Nat) :
    TasksKept (ThreadPool.initial producers workers : ThreadPool Task) := by
  constructor <;>
    simp only [ThreadPool.initial, PoolShared.initial, total_replicate producerTask .idle rfl,
      total_replicate workerTask .waiting rfl, Multiset.coe_nil, List.reduceOption_nil, add_zero]

theorem enqueue_tasks {producer : Nat} {task : Option Task} (kept : TasksKept pool)
    (found : pool.producers[producer]? = some .idle) :
    TasksKept { pool with
      shared := pool.shared.count task
      producers := pool.producers.set producer (.counted task) } := by
  have carried := total_set producerTask found (.counted task)
  simp only [producerTask, add_zero] at carried
  refine ⟨?_, kept.executed⟩
  simp only [PoolShared.count, carried, ← Multiset.coe_add, kept.called, Multiset.coe_singleton,
    add_assoc]

theorem producer_tasks {producer : Nat} {phase next : Producer Task} {shared : PoolShared Task}
    (kept : TasksKept pool) (found : pool.producers[producer]? = some phase)
    (stepped : phase.step pool.shared = some (shared, next)) :
    TasksKept { pool with
      shared := shared
      producers := pool.producers.set producer next } := by
  have carried := total_set producerTask found next
  cases phase with
  | idle => cases stepped
  | stored task =>
      cases stepped
      refine ⟨?_, kept.executed⟩
      simp only [producerTask, add_zero] at carried
      simp only [kept.called, ← carried, ← Multiset.coe_add, Multiset.coe_singleton]
      ac_rfl
  | _ =>
      simp only [Producer.step] at stepped
      try split at stepped
      all_goals
        cases stepped <;>
        refine ⟨?_, kept.executed⟩ <;>
        simp only [producerTask, add_zero, add_left_inj] at carried <;>
        simp only [kept.called, carried]

theorem worker_tasks {worker : Nat} {phase next : PoolWorker Task} {shared : PoolShared Task}
    (kept : TasksKept pool) (found : pool.workers[worker]? = some phase)
    (stepped : phase.step pool.shared = some (shared, next)) :
    TasksKept { pool with
      shared := shared
      workers := pool.workers.set worker next } := by
  have carried := total_set workerTask found next
  cases phase with
  | exited => cases stepped
  | moved task =>
      cases stepped
      refine ⟨kept.called, ?_⟩
      simp only [workerTask, add_zero] at carried
      simp only [carried, List.reduceOption_append, List.reduceOption_singleton,
        ← Multiset.coe_add, kept.executed, add_assoc]
  | released task =>
      cases task with
      | none =>
          cases stepped
          refine ⟨kept.called, ?_⟩
          simp only [workerTask, Option.toList_none, Multiset.coe_nil, add_zero] at carried
          simp only [kept.executed, carried]
      | some task =>
          cases stepped
          refine ⟨kept.called, ?_⟩
          simp only [workerTask, Option.toList_some, add_zero] at carried
          simp only [kept.executed, ← carried, ← Multiset.coe_add]
          ac_rfl
  | permitted =>
      cases stop : pool.shared.stop <;> rw [PoolWorker.step, stop] at stepped <;>
        cases stepped <;>
        refine ⟨kept.called, ?_⟩ <;>
        simp only [workerTask, add_zero, Bool.false_eq_true, ↓reduceIte] at carried <;>
        simp only [kept.executed, Bool.false_eq_true, ↓reduceIte, carried]
  | _ =>
      simp only [PoolWorker.step] at stepped
      try split at stepped
      all_goals
        cases stepped <;>
        refine ⟨kept.called, ?_⟩ <;>
        simp only [workerTask, add_zero, add_left_inj] at carried <;>
        simp only [kept.executed, carried]

theorem destructor_tasks {next : Destructor} {shared : PoolShared Task} (kept : TasksKept pool)
    (stepped : pool.destructor.step pool.shared pool.workers = some (shared, next)) :
    TasksKept { pool with shared := shared, destructor := next } := by
  cases phase : pool.destructor <;> rw [phase] at stepped <;>
    simp only [Destructor.step] at stepped <;> (try split at stepped) <;> cases stepped <;>
    exact ⟨kept.called, kept.executed⟩

end Tasks

section Pending

variable {pool : ThreadPool Task}

def producerWaits : Producer Task → Nat
  | .counted _ => 1
  | _ => 0

def producerEnters (producer : Producer Task) : Nat :=
  producerWaits producer + producerSpace producer

def workerLeaves : PoolWorker Task → Nat
  | .advanced _ | .unlocked _ | .released _ => 1
  | _ => 0

/-- The tasks that have been inserted or are on their way in, and those on their
way out, which are inserted already. -/
def counted (pool : ThreadPool Task) : Nat :=
  total producerEnters pool.producers + total workerLeaves pool.workers +
    pool.shared.inserted.length

theorem initial_counted (producers workers : Nat) :
    counted (ThreadPool.initial producers workers : ThreadPool Task) = 0 := by
  simp only [counted, ThreadPool.initial, PoolShared.initial,
    total_replicate producerEnters .idle rfl, total_replicate workerLeaves .waiting rfl,
    List.length_nil, Nat.add_zero]

theorem enqueue_counted {producer : Nat} (task : Option Task)
    (found : pool.producers[producer]? = some .idle) :
    counted { pool with
      shared := pool.shared.count task
      producers := pool.producers.set producer (.counted task) } = counted pool + 1 := by
  have enters := total_set producerEnters found (.counted task)
  simp only [producerEnters, producerWaits, producerSpace] at enters
  simp only [counted, PoolShared.count]
  omega

theorem producer_counted {producer : Nat} {phase next : Producer Task}
    {shared : PoolShared Task} (found : pool.producers[producer]? = some phase)
    (stepped : phase.step pool.shared = some (shared, next)) :
    counted { pool with
        shared := shared
        producers := pool.producers.set producer next } = counted pool ∧
      shared.extracted = pool.shared.extracted ∧
      shared.pendingTasks = pool.shared.pendingTasks := by
  have enters := total_set producerEnters found next
  unfold counted
  cases phase <;> simp only [Producer.step] at stepped <;> (try split at stepped) <;>
    cases stepped <;>
    simp only [producerEnters, producerWaits, producerSpace] at enters <;>
    simp only [List.length_append, List.length_singleton, and_true] <;>
    omega

theorem worker_counted {worker : Nat} {phase next : PoolWorker Task}
    {shared : PoolShared Task} (found : pool.workers[worker]? = some phase)
    (stepped : phase.step pool.shared = some (shared, next)) :
    (shared.pendingTasks = pool.shared.pendingTasks ∧
        counted { pool with shared := shared, workers := pool.workers.set worker next } +
            pool.shared.extracted.length =
          counted pool + shared.extracted.length) ∨
      (shared.pendingTasks = fetchSubOne pool.shared.pendingTasks ∧
        counted { pool with shared := shared, workers := pool.workers.set worker next } + 1 =
          counted pool ∧
        shared.inserted = pool.shared.inserted ∧ shared.extracted = pool.shared.extracted) := by
  have leaves := total_set workerLeaves found next
  unfold counted
  cases phase with
  | exited => cases stepped
  | permitted =>
      left
      cases stop : pool.shared.stop <;> rw [PoolWorker.step, stop] at stepped <;>
        cases stepped <;>
        simp only [workerLeaves, Bool.false_eq_true, ↓reduceIte] at leaves <;>
        simp only [Bool.false_eq_true, ↓reduceIte, true_and] <;>
        omega
  | released task =>
      right
      cases task <;> cases stepped <;>
        simp only [workerLeaves] at leaves <;>
        simp only [true_and, and_true, and_self] <;>
        omega
  | _ =>
      left
      simp only [PoolWorker.step] at stepped
      try split at stepped
      all_goals
        cases stepped <;>
        simp only [workerLeaves] at leaves <;>
        simp only [List.length_append, List.length_singleton, true_and] <;>
        omega

end Pending

structure PoolKept (pool : ThreadPool Task) : Prop where
  permits : PermitsKept pool
  ring : RingKept pool
  tasks : TasksKept pool

section Runs

variable {pool following : ThreadPool Task}

theorem initial_kept (producers workers : Nat) :
    PoolKept (ThreadPool.initial producers workers : ThreadPool Task) :=
  ⟨initial_permits producers workers, initial_ring producers workers,
    initial_tasks producers workers⟩

theorem step_kept {action : PoolAction Task} (kept : PoolKept pool)
    (stepped : pool.step action = some following) : PoolKept following := by
  obtain ⟨permits, ring, tasks⟩ := kept
  cases action with
  | enqueue producer task =>
      obtain ⟨found, rfl⟩ := enqueue_inversion stepped
      exact ⟨enqueue_permits permits found, enqueue_ring ring, enqueue_tasks tasks found⟩
  | produce producer =>
      obtain ⟨phase, shared, next, found, moved, rfl⟩ := produce_inversion stepped
      exact ⟨producer_permits permits found moved, producer_ring permits ring found moved,
        producer_tasks tasks found moved⟩
  | work worker =>
      obtain ⟨phase, shared, next, found, moved, rfl⟩ := work_inversion stepped
      exact ⟨worker_permits permits found moved, worker_ring permits ring found moved,
        worker_tasks tasks found moved⟩
  | destroy =>
      obtain ⟨shared, next, moved, rfl⟩ := destroy_inversion stepped
      exact ⟨destructor_permits permits moved, destructor_ring ring moved,
        destructor_tasks tasks moved⟩

theorem run_kept {actions : List (PoolAction Task)} (kept : PoolKept pool)
    (reached : TransitionSystem.run ThreadPool.step pool actions = some following) :
    PoolKept following := by
  refine TransitionSystem.run_keeps PoolKept ?_ kept reached
  intro state action after keptHere stepped
  exact step_kept keptHere stepped

end Runs

/-- What a bounded first-in first-out queue of `capacity` places promises, read off
the ring, the indices and the four logs. -/
structure BoundedFifo (pool : ThreadPool Task) : Prop where
  nonnegative : pool.shared.extracted.length ≤ pool.shared.inserted.length
  bounded : pool.shared.inserted.length - pool.shared.extracted.length ≤ capacity
  tail : pool.shared.tail.val = pool.shared.inserted.length % capacity
  head : pool.shared.head.val = pool.shared.extracted.length % capacity
  noOverwrite : ∀ (producer : Nat) (task : Option Task),
    pool.producers[producer]? = some (.locked task) →
      ∀ position < pool.shared.inserted.length, position % capacity = pool.shared.tail.val →
        position < pool.shared.extracted.length
  filled : ∀ worker : Nat, pool.workers[worker]? = some .locked →
    pool.shared.inserted[pool.shared.extracted.length]? =
      some (pool.shared.ringBuffer pool.shared.head)
  waits : Window pool.shared.ringBuffer pool.shared.inserted
    (pool.shared.extracted.length + total workerMoving pool.workers)
  fifo : pool.shared.extracted = pool.shared.inserted.take pool.shared.extracted.length
  noneLost : (pool.shared.called : Multiset (Option Task)) =
    pool.shared.inserted + total producerTask pool.producers
  noneDropped : (pool.shared.extracted.reduceOption : Multiset Task) =
    pool.shared.executed + total workerTask pool.workers
  atMostOnce : (pool.shared.executed.map some : Multiset (Option Task)) ≤ pool.shared.called

/-- A filled slot is overwritten only by the insertion one round later. -/
theorem insertion_slot {pool : ThreadPool Task} {producer : Nat} {task : Option Task}
    (kept : PoolKept pool) (found : pool.producers[producer]? = some (.locked task))
    {position : Nat} (inside : position < pool.shared.inserted.length)
    (same : position % capacity = pool.shared.tail.val) :
    position < pool.shared.extracted.length := by
  have spaceKept := kept.permits.space
  have room := weight_le_total producerSpace found
  simp only [producerSpace] at room
  by_contra queued
  have different : cell capacity position ≠ cell capacity pool.shared.inserted.length := by
    apply cell_ne inside
    omega
  apply different
  apply Fin.ext
  rw [cell_val, same, kept.ring.tail]

theorem some_reduceOption_sublist (functions : List (Option Task)) :
    List.Sublist (functions.reduceOption.map some) functions := by
  induction functions with
  | nil => exact List.Sublist.slnil
  | cons function functions ih =>
      cases function with
      | none =>
          rw [List.reduceOption_cons_of_none]
          exact ih.cons none
      | some task =>
          rw [List.reduceOption_cons_of_some, List.map_cons]
          exact ih.cons_cons (some task)

theorem executed_le_called {pool : ThreadPool Task} (kept : PoolKept pool) :
    (pool.shared.executed.map some : Multiset (Option Task)) ≤ pool.shared.called := by
  have started : (pool.shared.executed : Multiset Task) ≤ pool.shared.extracted.reduceOption := by
    rw [kept.tasks.executed]
    exact Multiset.le_add_right _ _
  have callable := Multiset.coe_le.mpr (some_reduceOption_sublist pool.shared.extracted).subperm
  have taken := Multiset.coe_le.mpr kept.ring.order.sublist.subperm
  calc (pool.shared.executed.map some : Multiset (Option Task))
      ≤ (pool.shared.extracted.reduceOption.map some : List (Option Task)) := by
        simpa only [Multiset.map_coe] using Multiset.map_le_map started
    _ ≤ pool.shared.extracted := callable
    _ ≤ pool.shared.inserted := taken
    _ ≤ pool.shared.called := by
        rw [kept.tasks.called]
        exact Multiset.le_add_right _ _

theorem pool_is_bounded_fifo (producers workers : Nat) (actions : List (PoolAction Task))
    (last : ThreadPool Task)
    (reached : TransitionSystem.run ThreadPool.step (ThreadPool.initial producers workers)
      actions = some last) : BoundedFifo last := by
  have kept := run_kept (initial_kept producers workers) reached
  have spaceKept := kept.permits.space
  have admittedKept := kept.permits.admitted
  constructor
  · omega
  · omega
  · rw [kept.ring.tail, cell_val]
  · rw [kept.ring.head, cell_val]
  · intro producer task found position inside same
    exact insertion_slot kept found inside same
  · intro worker found
    exact extraction_slot kept.permits kept.ring found
  · exact kept.ring.window
  · exact List.prefix_iff_eq_take.mp kept.ring.order
  · exact kept.tasks.called
  · exact kept.tasks.executed
  · exact executed_le_called kept

/-- Two producers and two workers: both tasks are enqueued, one has run and the
other is in the hands of a worker that still holds the lock. -/
def twoTasks : List (PoolAction Nat) :=
  [.enqueue 0 (some 7), .enqueue 1 (some 9)] ++ List.replicate 6 (.produce 1) ++
    List.replicate 9 (.work 0) ++ List.replicate 6 (.produce 0) ++ List.replicate 5 (.work 1)

theorem pool_is_bounded_fifo_two :
    ∃ last, TransitionSystem.run ThreadPool.step (ThreadPool.initial 2 2) twoTasks = some last ∧
      last.shared.executed = [9] ∧ last.workers = [.waiting, .advanced (some 7)] ∧
      BoundedFifo last := by
  have evaluated : (TransitionSystem.run ThreadPool.step (ThreadPool.initial 2 2) twoTasks).any
      (fun last => decide (last.shared.executed = [9] ∧
        last.workers = [.waiting, .advanced (some 7)])) = true := by
    decide +kernel
  obtain ⟨last, reached, executed, workers⟩ := TransitionSystem.run_ends evaluated
  exact ⟨last, reached, executed, workers, pool_is_bounded_fifo 2 2 twoTasks last reached⟩

end HttpServer.ThreadPoolInvariant
