import HttpServer.TransitionSystem
import Mathlib.Algebra.GroupWithZero.Nat
import Mathlib.Data.Fin.Basic
import Mathlib.Logic.Function.Basic

/-!
# The thread pool

`enqueue` and the worker loop share a ring of `capacity` slots, two indices, a
spin lock, two counting semaphores and two atomics. Each access to one of them is
a step of its own, so a thread is a program counter: `Producer` for a thread in
`enqueue`, `PoolWorker` for the body of the worker loop and `Destructor` for the
thread that destroys the pool. A step that would block (an acquire at zero, a
test-and-set of a lock that is held, a join of a running thread) is not enabled.

`inserted`, `extracted`, `executed` and `called` record what happened; no step
reads them. A `std::function` is an `Option`: an empty one is `none`, and so is
one that was moved from.
-/

namespace HttpServer

universe u

namespace ThreadPool

def capacity : Nat := 1024

instance capacityNeZero : NeZero capacity := ⟨by decide⟩

def sizeMax : Nat := 2 ^ 64 - 1

/-- `fetch_add(1)` on a `std::atomic<std::size_t>`. -/
def fetchAddOne (value : Nat) : Nat := if value = sizeMax then 0 else value + 1

/-- `fetch_sub(1)` on a `std::atomic<std::size_t>`. -/
def fetchSubOne (value : Nat) : Nat := if value = 0 then sizeMax else value - 1

end ThreadPool

open ThreadPool

/-- Where a thread is in `enqueue`: each constructor stands before the step that
`Producer.step` gives it. -/
inductive Producer (Task : Type u) where
  | idle
  | counted (task : Option Task)
  | permitted (task : Option Task)
  | locked (task : Option Task)
  | stored (task : Option Task)
  | advanced
  | unlocked
deriving DecidableEq

/-- Where a worker is in its loop. -/
inductive PoolWorker (Task : Type u) where
  | waiting
  | permitted
  | admitted
  | locked
  | moved (task : Option Task)
  | advanced (task : Option Task)
  | unlocked (task : Option Task)
  | released (task : Option Task)
  | running (task : Task)
  | exited
deriving DecidableEq

inductive Destructor where
  | alive
  | releasing (count : Nat)
  | joining (index : Nat)
  | destroyed
deriving DecidableEq

structure PoolShared (Task : Type u) where
  ringBuffer : Fin capacity → Option Task
  head : Fin capacity
  tail : Fin capacity
  lock : Bool
  tasksAvailable : Nat
  spaceAvailable : Nat
  stop : Bool
  pendingTasks : Nat
  called : List (Option Task)
  inserted : List (Option Task)
  extracted : List (Option Task)
  executed : List Task

structure ThreadPool (Task : Type u) where
  shared : PoolShared Task
  producers : List (Producer Task)
  workers : List (PoolWorker Task)
  destructor : Destructor

inductive PoolAction (Task : Type u) where
  | enqueue (producer : Nat) (task : Option Task)
  | produce (producer : Nat)
  | work (worker : Nat)
  | destroy

variable {Task : Type u}

namespace PoolShared

def initial : PoolShared Task where
  ringBuffer := fun _ => none
  head := 0
  tail := 0
  lock := false
  tasksAvailable := 0
  spaceAvailable := capacity
  stop := false
  pendingTasks := 0
  called := []
  inserted := []
  extracted := []
  executed := []

/-- `pending_tasks_.fetch_add(1)`, the first line of `enqueue`. -/
def count (shared : PoolShared Task) (task : Option Task) : PoolShared Task :=
  { shared with
    pendingTasks := fetchAddOne shared.pendingTasks
    called := shared.called ++ [task] }

end PoolShared

/-- The steps of `enqueue` after `pending_tasks_.fetch_add(1)`. -/
def Producer.step (shared : PoolShared Task) :
    Producer Task → Option (PoolShared Task × Producer Task)
  | .idle => none
  | .counted task =>
      if shared.spaceAvailable = 0 then none
      else some ({ shared with spaceAvailable := shared.spaceAvailable - 1 }, .permitted task)
  | .permitted task =>
      if shared.lock then none
      else some ({ shared with lock := true }, .locked task)
  | .locked task =>
      some ({ shared with ringBuffer := Function.update shared.ringBuffer shared.tail task },
        .stored task)
  | .stored task =>
      some ({ shared with tail := shared.tail + 1, inserted := shared.inserted ++ [task] },
        .advanced)
  | .advanced => some ({ shared with lock := false }, .unlocked)
  | .unlocked => some ({ shared with tasksAvailable := shared.tasksAvailable + 1 }, .idle)

/-- The steps of the worker loop. An empty function is dropped, any other is run:
`running` stands for the whole of `task()`, its step for the return. -/
def PoolWorker.step (shared : PoolShared Task) :
    PoolWorker Task → Option (PoolShared Task × PoolWorker Task)
  | .waiting =>
      if shared.tasksAvailable = 0 then none
      else some ({ shared with tasksAvailable := shared.tasksAvailable - 1 }, .permitted)
  | .permitted => some (shared, if shared.stop then .exited else .admitted)
  | .admitted =>
      if shared.lock then none
      else some ({ shared with lock := true }, .locked)
  | .locked =>
      some ({ shared with ringBuffer := Function.update shared.ringBuffer shared.head none },
        .moved (shared.ringBuffer shared.head))
  | .moved task =>
      some ({ shared with head := shared.head + 1, extracted := shared.extracted ++ [task] },
        .advanced task)
  | .advanced task => some ({ shared with lock := false }, .unlocked task)
  | .unlocked task =>
      some ({ shared with spaceAvailable := shared.spaceAvailable + 1 }, .released task)
  | .released none =>
      some ({ shared with pendingTasks := fetchSubOne shared.pendingTasks }, .waiting)
  | .released (some task) =>
      some ({ shared with
        pendingTasks := fetchSubOne shared.pendingTasks
        executed := shared.executed ++ [task] }, .running task)
  | .running _ => some (shared, .waiting)
  | .exited => none

/-- The steps of `~ThreadPool`: store `stop_`, one release for each worker, then
the joins. -/
def Destructor.step (shared : PoolShared Task) (workers : List (PoolWorker Task)) :
    Destructor → Option (PoolShared Task × Destructor)
  | .alive => some ({ shared with stop := true }, .releasing 0)
  | .releasing count =>
      if count < workers.length then
        some ({ shared with tasksAvailable := shared.tasksAvailable + 1 }, .releasing (count + 1))
      else some (shared, .joining 0)
  | .joining index =>
      match workers[index]? with
      | none => some (shared, .destroyed)
      | some .exited => some (shared, .joining (index + 1))
      | some _ => none
  | .destroyed => none

namespace ThreadPool

/-- A pool with `workers` threads and `producers` threads that may call `enqueue`. -/
def initial (producers workers : Nat) : ThreadPool Task where
  shared := PoolShared.initial
  producers := List.replicate producers .idle
  workers := List.replicate workers .waiting
  destructor := .alive

def enqueue (pool : ThreadPool Task) (producer : Nat) (task : Option Task) :
    Option (ThreadPool Task) :=
  match pool.producers[producer]? with
  | some .idle =>
      some { pool with
        shared := pool.shared.count task
        producers := pool.producers.set producer (.counted task) }
  | _ => none

def produce (pool : ThreadPool Task) (producer : Nat) : Option (ThreadPool Task) :=
  (pool.producers[producer]?).bind fun phase =>
    (phase.step pool.shared).map fun following =>
      { pool with
        shared := following.1
        producers := pool.producers.set producer following.2 }

def work (pool : ThreadPool Task) (worker : Nat) : Option (ThreadPool Task) :=
  (pool.workers[worker]?).bind fun phase =>
    (phase.step pool.shared).map fun following =>
      { pool with
        shared := following.1
        workers := pool.workers.set worker following.2 }

def destroy (pool : ThreadPool Task) : Option (ThreadPool Task) :=
  (pool.destructor.step pool.shared pool.workers).map fun following =>
    { pool with shared := following.1, destructor := following.2 }

def step (pool : ThreadPool Task) : PoolAction Task → Option (ThreadPool Task)
  | .enqueue producer task => pool.enqueue producer task
  | .produce producer => pool.produce producer
  | .work worker => pool.work worker
  | .destroy => pool.destroy

end ThreadPool

end HttpServer
