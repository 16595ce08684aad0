import HttpServer.Http2Deadlock
import HttpServer.PoolDrain

/-!
# Every completed stream is answered once

Two things are followed over whole runs. The mutex of a connection is held exactly
when one thread is inside nghttp2 for it, an event thread or a worker. A stream that
was completed is in one place: with the thread that enqueues it, in the ring, with
the worker that took it, or answered, or given up because its handler threw.

As long as every completed stream finds room, the threads come to rest only when no
stream is left.
-/

namespace HttpServer.Http2Answers

open ThreadPool ThreadPoolInvariant PoolDrain Http2Server Http2Deadlock Census TransitionSystem

def jobs (server : Http2Server) : List (PoolWorker PoolJob × Submission) :=
  List.zip server.pool.workers server.submissions

section Weights

def eventInside (connection : Nat) : EventThread → Nat
  | .receiving entered => if entered = connection then 1 else 0
  | _ => 0

def jobInside (connection : Nat) : PoolWorker PoolJob × Submission → Nat
  | (.running (.http2 served), .sending) => if served = connection then 1 else 0
  | _ => 0

/-- The threads that are inside nghttp2 for a connection. -/
def inside (connection : Nat) (server : Http2Server) : Nat :=
  total (eventInside connection) server.events + total (jobInside connection) (jobs server)

/-- A task that has been called and has neither answered nor given up. -/
def jobOpen (connection : Nat) : PoolWorker PoolJob × Submission → Nat
  | (.running (.http2 _), .submitted) => 0
  | (.running (.http2 served), _) => if served = connection then 1 else 0
  | _ => 0

/-- The streams of a connection in the hands of the pool: inside `enqueue`, in the
ring, taken from it, and called. -/
def unanswered (connection : Nat) (server : Http2Server) : Nat :=
  (total producerTask server.pool.producers).count (some (.http2 connection)) +
    (server.pool.shared.inserted.drop server.pool.shared.extracted.length).count
      (some (.http2 connection)) +
    (total workerTask server.pool.workers).count (.http2 connection) +
    total (jobOpen connection) (jobs server)

def completes (connection : Nat) (server : Http2Server) : Http2Action → Nat
  | .completeStream event =>
      if server.events[event]? = some (.receiving connection) then 1 else 0
  | _ => 0

def answers (connection : Nat) (server : Http2Server) : Http2Action → Nat
  | .release worker =>
      if server.pool.workers[worker]? = some (.running (.http2 connection)) then 1 else 0
  | _ => 0

def abandons (connection : Nat) (server : Http2Server) : Http2Action → Nat
  | .abandon worker =>
      if server.pool.workers[worker]? = some (.running (.http2 connection)) then 1 else 0
  | _ => 0

end Weights

section Jobs

variable {server following : Http2Server}

theorem zip_set {Left Right : Type*} (left : List Left) (right : List Right) (index : Nat)
    (first : Left) (second : Right) :
    List.zip (left.set index first) (right.set index second) =
      (List.zip left right).set index (first, second) := by
  induction left generalizing right index with
  | nil => rfl
  | cons head left ih =>
      cases right with
      | nil => cases index <;> rfl
      | cons other right =>
          cases index with
          | zero => rfl
          | succ index =>
              simp only [List.set_cons_succ, List.zip_cons_cons]
              rw [ih]

theorem set_found {Thread : Type*} {threads : List Thread} {index : Nat} {thread : Thread}
    (found : threads[index]? = some thread) : threads.set index thread = threads := by
  obtain ⟨below, same⟩ := List.getElem?_eq_some_iff.mp found
  rw [← same, List.set_getElem_self]

theorem job_iff {worker : Nat} {phase : PoolWorker PoolJob} {place : Submission} :
    (jobs server)[worker]? = some (phase, place) ↔
      server.pool.workers[worker]? = some phase ∧ server.submissions[worker]? = some place := by
  rw [jobs, List.getElem?_zip_eq_some]

theorem advance_inversion {worker : Nat} {place next : Submission}
    {locked : Nat → Option (List Nat)}
    (stepped : server.advance worker place next locked = some following) :
    ∃ connection held, (jobs server)[worker]? = some (.running (.http2 connection), place) ∧
      locked connection = some held ∧
      following = { server with
        submissions := server.submissions.set worker next
        locked := held } ∧
      jobs following = (jobs server).set worker (.running (.http2 connection), next) := by
  unfold Http2Server.advance at stepped
  split at stepped
  · rename_i connection current foundWorker foundPlace
    split at stepped
    · rename_i same
      obtain ⟨held, free, rfl⟩ := Option.map_eq_some_iff.mp stepped
      refine ⟨connection, held, job_iff.mpr ⟨foundWorker, same ▸ foundPlace⟩, free, rfl, ?_⟩
      rw [jobs, jobs, ← zip_set, set_found foundWorker]
    · cases stepped
  · cases stepped

def Http2Running (phase : PoolWorker PoolJob) : Prop :=
  ∃ connection, phase = .running (.http2 connection)

theorem work_plain {worker : Nat} {phase : PoolWorker PoolJob}
    (found : server.pool.workers[worker]? = some phase) (plain : ¬ Http2Running phase) :
    server.work worker = (server.pool.work worker).map fun pool => { server with pool := pool } := by
  unfold Http2Server.work
  split
  · rename_i connection foundPhase _
    rw [found] at foundPhase
    exact absurd ⟨connection, Option.some.inj foundPhase⟩ plain
  · rename_i connection foundPhase _
    rw [found] at foundPhase
    exact absurd ⟨connection, Option.some.inj foundPhase⟩ plain
  · rfl

theorem work_cases {worker : Nat} (sized : server.submissions.length = server.pool.workers.length)
    (stepped : server.work worker = some following) :
    ∃ phase place shared next after,
      (jobs server)[worker]? = some (phase, place) ∧
      phase.step server.pool.shared = some (shared, next) ∧
      (Http2Running phase ∧ place = .submitted ∧ after = .handling ∨
        ¬ Http2Running phase ∧ after = place) ∧
      following = { server with
        pool := { server.pool with
          shared := shared
          workers := server.pool.workers.set worker next }
        submissions := server.submissions.set worker after } ∧
      jobs following = (jobs server).set worker (next, after) := by
  have moved := (work_moves_pool stepped).1
  obtain ⟨phase, shared, next, found, ran, same⟩ := work_inversion moved
  have below : worker < server.submissions.length := by
    rw [sized]
    exact (List.getElem?_eq_some_iff.mp found).1
  obtain ⟨place, foundPlace⟩ : ∃ place, server.submissions[worker]? = some place :=
    ⟨_, List.getElem?_eq_getElem below⟩
  have job : (jobs server)[worker]? = some (phase, place) := job_iff.mpr ⟨found, foundPlace⟩
  by_cases running : Http2Running phase
  · obtain ⟨connection, rfl⟩ := running
    simp only [Http2Server.work, found, foundPlace] at stepped
    cases place with
    | submitted =>
        obtain ⟨pool, again, rfl⟩ := Option.map_eq_some_iff.mp stepped
        refine ⟨_, _, shared, next, .handling, job, ran, Or.inl ⟨⟨_, rfl⟩, rfl, rfl⟩, ?_, ?_⟩
        · rw [show pool = _ from same]
        · rw [jobs, jobs, ← zip_set, show pool = _ from same]
    | handling => cases stepped
    | submitting => cases stepped
    | sending => cases stepped
  · have plain := work_plain found running
    rw [plain] at stepped
    obtain ⟨pool, again, rfl⟩ := Option.map_eq_some_iff.mp stepped
    refine ⟨phase, place, shared, next, place, job, ran, Or.inr ⟨running, rfl⟩, ?_, ?_⟩
    · rw [show pool = _ from same, set_found foundPlace]
    · rw [jobs, jobs, ← zip_set, set_found foundPlace, show pool = _ from same]

end Jobs

def Fresh (job : PoolWorker PoolJob × Submission) : Prop :=
  Http2Running job.1 ∨ job.2 = .handling

structure ServerKept (server : Http2Server) : Prop where
  serving : Serving server.pool
  sized : server.submissions.length = server.pool.workers.length
  paired : server.events.length = server.pool.producers.length
  fresh : ∀ job ∈ jobs server, Fresh job
  mutex : ∀ connection, inside connection server = server.locked.count connection
  single : server.locked.Nodup

section Weights

variable {connection : Nat}

theorem job_inside_handling (phase : PoolWorker PoolJob) :
    jobInside connection (phase, .handling) = 0 := by
  unfold jobInside
  split <;> simp_all

theorem job_inside_plain {phase : PoolWorker PoolJob} (plain : ¬ Http2Running phase)
    (place : Submission) : jobInside connection (phase, place) = 0 := by
  unfold jobInside
  split
  · rename_i served same
    simp only [Prod.mk.injEq] at same
    exact absurd ⟨served, same.1⟩ plain
  · rfl

theorem job_open_plain {phase : PoolWorker PoolJob} (plain : ¬ Http2Running phase)
    (place : Submission) : jobOpen connection (phase, place) = 0 := by
  unfold jobOpen
  split
  · rfl
  · rename_i served _ _ same
    simp only [Prod.mk.injEq] at same
    exact absurd ⟨served, same.1⟩ plain
  · rfl

end Weights

section Mutex

variable {locked : List Nat} {before after : Nat → Nat}

theorem mutex_taken (kept : ∀ connection, before connection = locked.count connection)
    {taken : Nat}
    (changed : ∀ connection,
      after connection = before connection + if taken = connection then 1 else 0) :
    ∀ connection, after connection = (taken :: locked).count connection := by
  intro connection
  rw [changed, kept, List.count_cons]
  simp only [beq_iff_eq]

theorem mutex_freed (kept : ∀ connection, before connection = locked.count connection)
    {freed : Nat}
    (changed : ∀ connection,
      after connection + (if freed = connection then 1 else 0) = before connection) :
    ∀ connection, after connection = (locked.erase freed).count connection := by
  intro connection
  have balance := changed connection
  have same := kept connection
  rw [List.count_erase]
  simp only [beq_iff_eq]
  omega

end Mutex

section Steps

variable {server following : Http2Server}

theorem event_moves {event : Nat} {thread next : EventThread}
    (found : server.events[event]? = some thread) (connection : Nat) (locked : List Nat) :
    inside connection { server with
        events := server.events.set event next
        locked := locked } + eventInside connection thread =
      inside connection server + eventInside connection next := by
  have moved := total_set (eventInside connection) found next
  simp only [inside, jobs]
  omega

theorem job_moves {worker : Nat} {job next : PoolWorker PoolJob × Submission}
    (found : (jobs server)[worker]? = some job)
    (same : following.events = server.events)
    (moved : jobs following = (jobs server).set worker next) (connection : Nat) :
    inside connection following + jobInside connection job =
      inside connection server + jobInside connection next := by
  have change := total_set (jobInside connection) found next
  simp only [inside, same, moved]
  omega

theorem fresh_set {worker : Nat} {next : PoolWorker PoolJob × Submission}
    (fresh : ∀ job ∈ jobs server, Fresh job) (here : Fresh next)
    (moved : jobs following = (jobs server).set worker next) :
    ∀ job ∈ jobs following, Fresh job := by
  intro job member
  rw [moved] at member
  rcases List.mem_or_eq_of_mem_set member with before | rfl
  · exact fresh job before
  · exact here

theorem advance_kept {worker : Nat} {place next : Submission}
    {locked : Nat → Option (List Nat)} (kept : ServerKept server)
    (stepped : server.advance worker place next locked = some following)
    (mutex : ∀ connection held, locked connection = some held →
      (∀ entered, inside entered following +
          jobInside entered (.running (.http2 connection), place) =
        inside entered server + jobInside entered (.running (.http2 connection), next)) →
      (∀ entered, inside entered following = held.count entered) ∧ held.Nodup) :
    ServerKept following := by
  obtain ⟨connection, held, found, free, same, moved⟩ := advance_inversion stepped
  have changed := job_moves found (by rw [same]) moved
  obtain ⟨counted, single⟩ := mutex connection held free changed
  refine ⟨?_, ?_, ?_, fresh_set kept.fresh (Or.inl ⟨connection, rfl⟩) moved, ?_, ?_⟩
  · rw [same]
    exact kept.serving
  · rw [same]
    exact List.length_set.trans kept.sized
  · rw [same]
    exact kept.paired
  · intro entered
    rw [counted, same]
  · rw [same]
    exact single

theorem enqueue_serving {pool following : ThreadPool PoolJob} {producer : Nat}
    {task : Option PoolJob} (serving : Serving pool)
    (stepped : pool.enqueue producer task = some following) : Serving following := by
  have kept := step_kept serving.kept
    (show pool.step (.enqueue producer task) = some following from stepped)
  obtain ⟨found, rfl⟩ := enqueue_inversion stepped
  exact ⟨kept, serving.alive, serving.going, serving.present⟩

theorem pool_kept {pool : ThreadPool PoolJob} (kept : ServerKept server)
    (serving : Serving pool) (workers : pool.workers = server.pool.workers)
    (producers : pool.producers.length = server.pool.producers.length) :
    ServerKept { server with pool := pool } := by
  have same : jobs { server with pool := pool } = jobs server := by
    simp only [jobs, workers]
  refine ⟨serving, ?_, ?_, ?_, ?_, kept.single⟩
  · rw [workers]
    exact kept.sized
  · rw [producers]
    exact kept.paired
  · rw [same]
    exact kept.fresh
  · intro connection
    simp only [inside, same]
    exact kept.mutex connection

theorem plain_step_fresh {phase next : PoolWorker PoolJob} {before after : PoolShared PoolJob}
    {place : Submission} (fresh : Fresh (phase, place)) (plain : ¬ Http2Running phase)
    (stepped : phase.step before = some (after, next)) (connection : Nat) :
    place = .handling ∧
      jobOpen connection (next, place) + before.executed.count (.http2 connection) =
        after.executed.count (.http2 connection) := by
  have handling : place = .handling := fresh.resolve_left plain
  refine ⟨handling, ?_⟩
  rw [handling]
  cases phase with
  | released task =>
      cases task with
      | none =>
          cases stepped
          exact Nat.zero_add _
      | some job =>
          cases stepped
          rw [List.count_append]
          cases job <;> simp [jobOpen, List.count_cons, Nat.add_comm]
  | running job =>
      cases stepped
      exact Nat.zero_add _
  | _ =>
      simp only [PoolWorker.step] at stepped
      try split at stepped
      all_goals
        cases stepped <;>
        simp [jobOpen]

theorem work_kept {worker : Nat} (kept : ServerKept server)
    (stepped : server.work worker = some following) : ServerKept following := by
  obtain ⟨phase, place, shared, next, after, found, ran, change, same, moved⟩ :=
    work_cases kept.sized stepped
  have internal : Internal (.work worker : PoolAction PoolJob) := trivial
  have serving := (serving_step kept.serving internal (work_moves_pool stepped).1).1
  have fresh := kept.fresh _ (List.mem_of_getElem? found)
  have settled : after = .handling ∧ ∀ connection,
      jobInside connection (phase, place) = 0 := by
    rcases change with ⟨⟨served, rfl⟩, rfl, rfl⟩ | ⟨plain, rfl⟩
    · exact ⟨rfl, fun _ => rfl⟩
    · exact ⟨fresh.resolve_left plain, fun _ => job_inside_plain plain _⟩
  obtain ⟨rfl, outside⟩ := settled
  refine ⟨serving, ?_, ?_, fresh_set kept.fresh (Or.inr rfl) moved, ?_, ?_⟩
  · simp only [same, List.length_set]
    exact kept.sized
  · rw [same]
    exact kept.paired
  · intro connection
    have balance := job_moves found (by rw [same]) moved connection
    rw [outside, job_inside_handling, Nat.add_zero, Nat.add_zero] at balance
    rw [balance, same]
    exact kept.mutex connection
  · rw [same]
    exact kept.single

theorem event_kept {event : Nat} {thread next : EventThread} {locked : List Nat}
    (kept : ServerKept server) (found : server.events[event]? = some thread)
    (mutex : (∀ connection, inside connection { server with
          events := server.events.set event next
          locked := locked } + eventInside connection thread =
        inside connection server + eventInside connection next) →
      (∀ connection, inside connection { server with
          events := server.events.set event next
          locked := locked } = locked.count connection) ∧ locked.Nodup) :
    ServerKept { server with events := server.events.set event next, locked := locked } := by
  obtain ⟨counted, single⟩ := mutex (fun connection => event_moves found connection locked)
  exact ⟨kept.serving, kept.sized, List.length_set.trans kept.paired, kept.fresh, counted, single⟩

theorem step_keeps {action : Http2Action} (kept : ServerKept server)
    (stepped : server.step action = some following) : ServerKept following := by
  cases action with
  | enter event connection =>
      simp only [Http2Server.step, Http2Server.enter] at stepped
      split at stepped
      · rename_i free
        cases stepped
        apply event_kept kept free.1
        intro balance
        refine ⟨?_, kept.single⟩
        intro entered
        exact (balance entered).trans (kept.mutex entered)
      · cases stepped
  | lock event =>
      simp only [Http2Server.step, Http2Server.lock] at stepped
      split at stepped
      · rename_i connection found
        split at stepped
        · cases stepped
        · rename_i free
          cases stepped
          apply event_kept kept found
          intro balance
          refine ⟨mutex_taken kept.mutex ?_, List.nodup_cons.mpr ⟨free, kept.single⟩⟩
          intro entered
          exact balance entered
      · cases stepped
  | completeStream event =>
      simp only [Http2Server.step, Http2Server.completeStream] at stepped
      split at stepped
      · obtain ⟨pool, moved, rfl⟩ := Option.map_eq_some_iff.mp stepped
        have serving := enqueue_serving kept.serving moved
        obtain ⟨_, rfl⟩ := enqueue_inversion moved
        exact pool_kept kept serving rfl List.length_set
      · cases stepped
  | leave event =>
      simp only [Http2Server.step, Http2Server.leave] at stepped
      split at stepped
      · rename_i connection found
        split at stepped
        · cases stepped
          apply event_kept kept found
          intro balance
          refine ⟨mutex_freed kept.mutex ?_, kept.single.erase connection⟩
          intro entered
          exact balance entered
        · cases stepped
      · cases stepped
  | enqueuePlain event =>
      simp only [Http2Server.step, Http2Server.enqueuePlain] at stepped
      split at stepped
      · obtain ⟨pool, moved, rfl⟩ := Option.map_eq_some_iff.mp stepped
        have serving := enqueue_serving kept.serving moved
        obtain ⟨_, rfl⟩ := enqueue_inversion moved
        exact pool_kept kept serving rfl List.length_set
      · cases stepped
  | produce event =>
      obtain ⟨pool, moved, rfl⟩ := Option.map_eq_some_iff.mp stepped
      have internal : Internal (.produce event : PoolAction PoolJob) := trivial
      have serving := (serving_step kept.serving internal moved).1
      obtain ⟨phase, shared, next, _, _, rfl⟩ := produce_inversion moved
      exact pool_kept kept serving rfl List.length_set
  | work worker => exact work_kept kept stepped
  | respond worker =>
      apply advance_kept kept stepped
      intro connection held free balance
      cases free
      refine ⟨?_, kept.single⟩
      intro entered
      exact (balance entered).trans (kept.mutex entered)
  | abandon worker =>
      apply advance_kept kept stepped
      intro connection held free balance
      cases free
      refine ⟨?_, kept.single⟩
      intro entered
      exact (balance entered).trans (kept.mutex entered)
  | acquire worker =>
      apply advance_kept kept stepped
      intro connection held free balance
      split at free
      · cases free
      · rename_i unheld
        cases free
        refine ⟨mutex_taken kept.mutex ?_, List.nodup_cons.mpr ⟨unheld, kept.single⟩⟩
        intro entered
        exact balance entered
  | release worker =>
      apply advance_kept kept stepped
      intro connection held free balance
      cases free
      refine ⟨mutex_freed kept.mutex ?_, kept.single.erase connection⟩
      intro entered
      exact balance entered

end Steps

section Accounts

variable {server following : Http2Server}

/-- `Option` compares its values with a test of its own. -/
theorem count_coe {Value : Type*} [DecidableEq Value] [BEq Value] [LawfulBEq Value]
    (value : Value) (values : List Value) :
    (values : Multiset Value).count value = values.count value := by
  induction values with
  | nil => rfl
  | cons head values ih =>
      rw [← Multiset.cons_coe, Multiset.count_cons, ih, List.count_cons]
      simp only [beq_iff_eq, @eq_comm _ head value]

theorem count_reduceOption (tasks : List (Option PoolJob)) (job : PoolJob) :
    tasks.reduceOption.count job = tasks.count (some job) := by
  rw [List.reduceOption, List.count_filterMap, List.count]
  rfl

theorem unanswered_balance (kept : PoolKept server.pool) (connection : Nat) :
    unanswered connection server + server.pool.shared.executed.count (.http2 connection) =
      server.pool.shared.called.count (some (.http2 connection)) +
        total (jobOpen connection) (jobs server) := by
  have called := congrArg (Multiset.count (some (PoolJob.http2 connection))) kept.tasks.called
  have executed := congrArg (Multiset.count (PoolJob.http2 connection)) kept.tasks.executed
  rw [Multiset.count_add, count_coe, count_coe] at called
  rw [Multiset.count_add, count_coe, count_coe] at executed
  have taken := count_reduceOption server.pool.shared.extracted (.http2 connection)
  have queued := congrArg (List.count (some (PoolJob.http2 connection)))
    (List.take_append_drop server.pool.shared.extracted.length server.pool.shared.inserted)
  rw [List.count_append, ← List.prefix_iff_eq_take.mp kept.ring.order] at queued
  simp only [unanswered]
  omega

theorem balance_of_still (same : following.pool = server.pool) {connection gain loss : Nat}
    (kept : PoolKept server.pool)
    (opened : total (jobOpen connection) (jobs following) + loss =
      total (jobOpen connection) (jobs server) + gain) :
    unanswered connection following + loss = unanswered connection server + gain := by
  have before := unanswered_balance kept connection
  have after := unanswered_balance (same ▸ kept) connection
  rw [same] at after
  omega

theorem job_open_moves {worker : Nat} {job next : PoolWorker PoolJob × Submission}
    (found : (jobs server)[worker]? = some job)
    (moved : jobs following = (jobs server).set worker next) (connection : Nat) :
    total (jobOpen connection) (jobs following) + jobOpen connection job =
      total (jobOpen connection) (jobs server) + jobOpen connection next := by
  rw [moved]
  exact total_set (jobOpen connection) found next

theorem advance_balance {worker : Nat} {place next : Submission}
    {locked : Nat → Option (List Nat)} (kept : PoolKept server.pool)
    (stepped : server.advance worker place next locked = some following) (connection : Nat) :
    ∃ served, server.pool.workers[worker]? = some (.running (.http2 served)) ∧
      unanswered connection following +
          jobOpen connection (.running (.http2 served), place) =
        unanswered connection server + jobOpen connection (.running (.http2 served), next) := by
  obtain ⟨served, held, found, _, same, moved⟩ := advance_inversion stepped
  refine ⟨served, (job_iff.mp found).1, ?_⟩
  exact balance_of_still (advance_keeps_pool stepped).1 kept
    (job_open_moves found moved connection)

theorem enqueue_balance {pool : ThreadPool PoolJob} {producer : Nat} {job : PoolJob}
    (kept : PoolKept server.pool)
    (stepped : server.pool.enqueue producer (some job) = some pool) (connection : Nat) :
    unanswered connection { server with pool := pool } =
      unanswered connection server + if job = .http2 connection then 1 else 0 := by
  have later : PoolKept pool :=
    step_kept kept (show server.pool.step (.enqueue producer (some job)) = some pool from stepped)
  have before := unanswered_balance kept connection
  have after := unanswered_balance
    (show PoolKept { server with pool := pool }.pool from later) connection
  obtain ⟨_, rfl⟩ := enqueue_inversion stepped
  simp only [PoolShared.count, List.count_append, List.count_singleton, jobs, beq_iff_eq,
    Option.some.injEq] at before after ⊢
  omega

theorem produce_balance {pool : ThreadPool PoolJob} {producer : Nat}
    (kept : PoolKept server.pool) (stepped : server.pool.produce producer = some pool)
    (connection : Nat) :
    unanswered connection { server with pool := pool } = unanswered connection server := by
  have later : PoolKept pool :=
    step_kept kept (show server.pool.step (.produce producer) = some pool from stepped)
  have before := unanswered_balance kept connection
  have after := unanswered_balance
    (show PoolKept { server with pool := pool }.pool from later) connection
  obtain ⟨phase, shared, next, _, moved, rfl⟩ := produce_inversion stepped
  have logs : shared.called = server.pool.shared.called ∧
      shared.executed = server.pool.shared.executed := by
    cases phase <;> simp only [Producer.step] at moved <;> (try split at moved) <;>
      cases moved <;> exact ⟨rfl, rfl⟩
  simp only [jobs, logs.1, logs.2] at before after
  omega

theorem work_called {phase next : PoolWorker PoolJob} {before after : PoolShared PoolJob}
    (stepped : phase.step before = some (after, next)) : after.called = before.called := by
  cases phase with
  | released task => cases task <;> cases stepped <;> rfl
  | _ =>
      simp only [PoolWorker.step] at stepped
      try split at stepped
      all_goals
        cases stepped <;>
        rfl

theorem work_balance {worker : Nat} (kept : ServerKept server)
    (stepped : server.work worker = some following) (connection : Nat) :
    unanswered connection following = unanswered connection server := by
  have later := (work_kept kept stepped).serving.kept
  have before := unanswered_balance kept.serving.kept connection
  have after := unanswered_balance later connection
  obtain ⟨phase, place, shared, next, place', found, ran, change, same, moved⟩ :=
    work_cases kept.sized stepped
  have opened := job_open_moves found moved connection
  have fresh := kept.fresh _ (List.mem_of_getElem? found)
  have called := work_called ran
  have pool : following.pool.shared = shared := by rw [same]
  rw [pool, called] at after
  rcases change with ⟨⟨served, rfl⟩, rfl, rfl⟩ | ⟨plain, rfl⟩
  · cases ran
    simp only [jobOpen, Nat.add_zero] at opened
    omega
  · obtain ⟨_, executed⟩ := plain_step_fresh fresh plain ran connection
    rw [job_open_plain plain] at opened
    omega

theorem step_balance {action : Http2Action} (kept : ServerKept server)
    (stepped : server.step action = some following) (connection : Nat) :
    unanswered connection following +
        (answers connection server action + abandons connection server action) =
      unanswered connection server + completes connection server action := by
  have pool := kept.serving.kept
  cases action with
  | enter event entered =>
      simp only [Http2Server.step, Http2Server.enter] at stepped
      split at stepped
      · cases stepped
        rfl
      · cases stepped
  | lock event =>
      simp only [Http2Server.step, Http2Server.lock] at stepped
      split at stepped
      · split at stepped <;> cases stepped
        rfl
      · cases stepped
  | completeStream event =>
      simp only [Http2Server.step, Http2Server.completeStream] at stepped
      split at stepped
      · rename_i entered found
        obtain ⟨after, moved, rfl⟩ := Option.map_eq_some_iff.mp stepped
        rw [enqueue_balance pool moved connection]
        simp [completes, answers, abandons, found]
      · cases stepped
  | leave event =>
      simp only [Http2Server.step, Http2Server.leave] at stepped
      split at stepped
      · split at stepped <;> cases stepped
        rfl
      · cases stepped
  | enqueuePlain event =>
      simp only [Http2Server.step, Http2Server.enqueuePlain] at stepped
      split at stepped
      · obtain ⟨after, moved, rfl⟩ := Option.map_eq_some_iff.mp stepped
        exact enqueue_balance pool moved connection
      · cases stepped
  | produce event =>
      obtain ⟨after, moved, rfl⟩ := Option.map_eq_some_iff.mp stepped
      exact produce_balance pool moved connection
  | work worker => exact work_balance kept stepped connection
  | respond worker =>
      obtain ⟨served, found, balance⟩ := advance_balance pool stepped connection
      exact Nat.add_right_cancel balance
  | abandon worker =>
      obtain ⟨served, found, balance⟩ := advance_balance pool stepped connection
      simpa [completes, answers, abandons, found, jobOpen] using balance
  | acquire worker =>
      obtain ⟨served, found, balance⟩ := advance_balance pool stepped connection
      exact Nat.add_right_cancel balance
  | release worker =>
      obtain ⟨served, found, balance⟩ := advance_balance pool stepped connection
      simpa [completes, answers, abandons, found, jobOpen] using balance

end Accounts

section Runs

variable {events workers : Nat} {actions : List Http2Action} {last : Http2Server}

theorem initial_jobs (events workers : Nat) :
    ∀ job ∈ jobs (Http2Server.initial events workers), job = (.waiting, .handling) := by
  intro job member
  have pair := List.of_mem_zip (show (job.1, job.2) ∈ _ from member)
  exact Prod.ext (List.eq_of_mem_replicate pair.1) (List.eq_of_mem_replicate pair.2)

theorem initial_server_kept (events workers : Nat) :
    ServerKept (Http2Server.initial events workers) := by
  have idle := initial_jobs events workers
  refine ⟨⟨initial_kept events workers, rfl, rfl, ?_⟩, ?_, ?_, ?_, ?_, List.nodup_nil⟩
  · intro phase member
    rw [List.eq_of_mem_replicate member]
    simp
  · simp only [Http2Server.initial, ThreadPool.initial, List.length_replicate]
  · simp only [Http2Server.initial, ThreadPool.initial, List.length_replicate]
  · intro job member
    rw [idle job member]
    exact Or.inr rfl
  · intro connection
    rw [inside, total_of_same idle _ rfl]
    exact total_replicate (eventInside connection) .free rfl events

theorem run_server_kept
    (reached : run Http2Server.step (Http2Server.initial events workers) actions = some last) :
    ServerKept last := by
  refine run_keeps ServerKept ?_ (initial_server_kept events workers) reached
  intro server action following kept stepped
  exact step_keeps kept stepped

theorem one_inside (kept : ServerKept last) (connection : Nat) :
    inside connection last ≤ 1 ∧
      (connection ∈ last.locked ↔ inside connection last = 1) := by
  have counted := kept.mutex connection
  have single := List.nodup_iff_count_le_one.mp kept.single connection
  rw [← List.count_pos_iff]
  omega

theorem initial_unanswered (events workers connection : Nat) :
    unanswered connection (Http2Server.initial events workers) = 0 := by
  have balance := unanswered_balance
    (initial_server_kept events workers).serving.kept connection
  rw [total_of_same (initial_jobs events workers) _ rfl] at balance
  exact Nat.eq_zero_of_le_zero (Nat.le_of_add_right_le (Nat.le_of_eq balance))

theorem run_streams {server : Http2Server} (kept : ServerKept server)
    (reached : run Http2Server.step server actions = some last) (connection : Nat) :
    unanswered connection last + (tally Http2Server.step (answers connection) server actions +
        tally Http2Server.step (abandons connection) server actions) =
      unanswered connection server +
        tally Http2Server.step (completes connection) server actions := by
  rw [← tally_add]
  refine run_balance ServerKept (unanswered connection) (completes connection) _ ?_ kept reached
  intro state action following here stepped
  exact ⟨step_keeps here stepped, step_balance here stepped connection⟩

end Runs

def twoStreams : List Http2Action :=
  [.enter 0 5, .lock 0] ++
    (List.replicate 2 (.completeStream 0 :: List.replicate 6 (.produce 0))).flatten ++
    (List.range 2).flatMap (fun worker => List.replicate 8 (.work worker)) ++
    [.leave 0, .respond 1, .respond 0, .acquire 1, .release 1, .acquire 0]

/-- In every run a completed stream is answered once or given up once or still with the
pool, and at most one thread is inside nghttp2 for a connection: the one that holds its
mutex. -/
theorem streams_answered_once (events workers : Nat) (actions : List Http2Action)
    (last : Http2Server)
    (reached : run Http2Server.step (Http2Server.initial events workers) actions = some last)
    (connection : Nat) :
    tally Http2Server.step (completes connection) (Http2Server.initial events workers) actions =
        tally Http2Server.step (answers connection) (Http2Server.initial events workers) actions +
          tally Http2Server.step (abandons connection) (Http2Server.initial events workers)
            actions +
          unanswered connection last ∧
      inside connection last ≤ 1 ∧
      (connection ∈ last.locked ↔ inside connection last = 1) := by
  have balance := run_streams (initial_server_kept events workers) reached connection
  rw [initial_unanswered] at balance
  refine ⟨by omega, ?_⟩
  exact one_inside (run_server_kept reached) connection

/-- Two streams of connection 5: one is answered, the other one's worker holds the
mutex. -/
theorem streams_answered_once_two :
    ∃ last, run Http2Server.step (Http2Server.initial 1 2) twoStreams = some last ∧
      unanswered 5 last = 1 ∧ 5 ∈ last.locked ∧
      tally Http2Server.step (completes 5) (Http2Server.initial 1 2) twoStreams =
        tally Http2Server.step (answers 5) (Http2Server.initial 1 2) twoStreams +
          tally Http2Server.step (abandons 5) (Http2Server.initial 1 2) twoStreams + 1 ∧
      inside 5 last = 1 := by
  have evaluated : (run Http2Server.step (Http2Server.initial 1 2) twoStreams).any
      (fun last => decide (unanswered 5 last = 1 ∧ 5 ∈ last.locked)) = true := by
    decide +kernel
  obtain ⟨last, reached, one, held⟩ := run_ends evaluated
  obtain ⟨balance, _, holds⟩ := streams_answered_once 1 2 twoStreams last reached 5
  exact ⟨last, reached, one, held, one ▸ balance, holds.mp held⟩

/-- The steps of threads that are underway: no connection is entered, no stream is
completed and no other task enqueued. -/
def Underway : Http2Action → Prop
  | .enter _ _ | .completeStream _ | .enqueuePlain _ => False
  | _ => True

def Resting (server : Http2Server) : Prop :=
  ∀ action, Underway action → server.step action = none

structure Settled (server : Http2Server) : Prop where
  events : ∀ thread ∈ server.events, thread = .free
  locked : server.locked = []
  pool : Drained server.pool

section Rank

def eventRest : EventThread → Nat
  | .locking _ => 2
  | .receiving _ => 1
  | .free => 0

def placeRest : Submission → Nat
  | .handling => 3
  | .submitting => 2
  | .sending => 1
  | .submitted => 0

/-- A worker that leaves the task of a stream goes back to `handling`, which the step
of the worker loop pays for. -/
def settleRank (server : Http2Server) : Nat :=
  4 * drainRank server.pool + total eventRest server.events + total placeRest server.submissions

variable {server following : Http2Server}

theorem advance_rank {worker : Nat} {place next : Submission}
    {locked : Nat → Option (List Nat)} (lower : placeRest next < placeRest place)
    (stepped : server.advance worker place next locked = some following) :
    settleRank following < settleRank server := by
  obtain ⟨connection, held, found, _, rfl, _⟩ := advance_inversion stepped
  have moved := total_set placeRest (job_iff.mp found).2 next
  simp only [settleRank]
  omega

theorem place_rest_le (place : Submission) : placeRest place ≤ 3 := by
  cases place <;> decide

theorem underway_rank {action : Http2Action} (kept : ServerKept server)
    (underway : Underway action) (stepped : server.step action = some following) :
    settleRank following < settleRank server := by
  cases action with
  | enter event connection => exact underway.elim
  | completeStream event => exact underway.elim
  | enqueuePlain event => exact underway.elim
  | lock event =>
      simp only [Http2Server.step, Http2Server.lock] at stepped
      split at stepped
      · rename_i connection found
        split at stepped <;> cases stepped
        have moved := total_set eventRest found (.receiving connection)
        simp only [settleRank]
        simp only [eventRest] at moved
        omega
      · cases stepped
  | leave event =>
      simp only [Http2Server.step, Http2Server.leave] at stepped
      split at stepped
      · rename_i connection found
        split at stepped <;> cases stepped
        have moved := total_set eventRest found .free
        simp only [settleRank]
        simp only [eventRest] at moved
        omega
      · cases stepped
  | produce event =>
      obtain ⟨pool, moved, rfl⟩ := Option.map_eq_some_iff.mp stepped
      have internal : Internal (.produce event : PoolAction PoolJob) := trivial
      have lower := (serving_step kept.serving internal moved).2
      simp only [settleRank]
      omega
  | work worker =>
      have internal : Internal (.work worker : PoolAction PoolJob) := trivial
      have lower := (serving_step kept.serving internal (work_moves_pool stepped).1).2
      obtain ⟨phase, place, shared, next, after, found, _, _, same, _⟩ :=
        work_cases kept.sized stepped
      have moved := total_set placeRest (job_iff.mp found).2 after
      have bound := place_rest_le after
      have submissions : following.submissions = server.submissions.set worker after := by
        rw [same]
      have events : following.events = server.events := by
        rw [same]
      simp only [settleRank, submissions, events]
      omega
  | respond worker => exact advance_rank (by decide) stepped
  | abandon worker => exact advance_rank (by decide) stepped
  | acquire worker => exact advance_rank (by decide) stepped
  | release worker => exact advance_rank (by decide) stepped

end Rank

section Rest

variable {server : Http2Server}

theorem resting_event (resting : Resting server) {producer : Nat} {phase : Producer PoolJob}
    (found : server.pool.producers[producer]? = some phase) :
    phase.step server.pool.shared = none := by
  by_contra enabled
  have moves := produce_enabled found (Option.isSome_iff_ne_none.mpr enabled)
  have stuck := resting (.produce producer) trivial
  rw [Http2Server.step, Http2Server.produce, Option.map_eq_none_iff] at stuck
  rw [stuck] at moves
  cases moves

theorem resting_plain (resting : Resting server) {worker : Nat} {phase : PoolWorker PoolJob}
    (found : server.pool.workers[worker]? = some phase) (plain : ¬ Http2Running phase) :
    phase.step server.pool.shared = none := by
  by_contra enabled
  have moves := ThreadPoolShutdown.work_enabled found (Option.isSome_iff_ne_none.mpr enabled)
  have stuck := resting (.work worker) trivial
  rw [Http2Server.step, work_plain found plain, Option.map_eq_none_iff] at stuck
  rw [stuck] at moves
  cases moves

/-- With room for it a thread that holds a mutex does not stay inside `enqueue`. -/
theorem resting_outside (kept : ServerKept server) (room : RoomKept server)
    (resting : Resting server) {event connection : Nat}
    (receives : server.events[event]? = some (.receiving connection)) :
    server.isOutside event := by
  have free : server.pool.shared.lock = false := by
    apply unlocked_of_stuck kept.serving.kept.permits
    · intro phase member _
      obtain ⟨producer, found⟩ := List.mem_iff_getElem?.mp member
      exact resting_event resting found
    · intro phase member holds
      obtain ⟨worker, found⟩ := List.mem_iff_getElem?.mp member
      apply resting_plain resting found
      rintro ⟨connection, rfl⟩
      exact absurd holds (Nat.lt_irrefl 0)
  have below : event < server.pool.producers.length := by
    rw [← kept.paired]
    exact (List.getElem?_eq_some_iff.mp receives).1
  have found := List.getElem?_eq_getElem below
  rcases stuck_producer_waits free (resting_event resting found) with idle | ⟨⟨task, waits⟩, full⟩
  · rw [Http2Server.isOutside, found, idle]
  · rw [waits] at found
    have permit := room_for_waiting room receives found
    omega

/-- So none stays inside nghttp2, and then no worker does. -/
theorem resting_unheld (kept : ServerKept server) (room : RoomKept server)
    (resting : Resting server) : server.locked = [] := by
  rw [List.eq_nil_iff_forall_not_mem]
  intro connection held
  have counted := kept.mutex connection
  have holds := List.count_pos_iff.mpr held
  have holder : 0 < total (eventInside connection) server.events ∨
      0 < total (jobInside connection) (jobs server) := by
    rw [inside] at counted
    omega
  rcases holder with byEvent | byWorker
  · obtain ⟨event, thread, found, receives⟩ := exists_of_total_pos _ byEvent
    cases thread with
    | receiving entered =>
        have idle := resting_outside kept room resting found
        have stuck := resting (.leave event) trivial
        simp only [Http2Server.step, Http2Server.leave, found, if_pos idle] at stuck
        cases stuck
    | free => exact absurd receives (Nat.lt_irrefl 0)
    | locking entered => exact absurd receives (Nat.lt_irrefl 0)
  · obtain ⟨worker, ⟨phase, place⟩, found, sends⟩ := exists_of_total_pos _ byWorker
    obtain ⟨foundPhase, foundPlace⟩ := job_iff.mp found
    unfold jobInside at sends
    split at sends
    · rename_i served same
      cases same
      have stuck := resting (.release worker) trivial
      simp [Http2Server.step, Http2Server.release, Http2Server.advance, foundPhase,
        foundPlace] at stuck
    · exact absurd sends (Nat.lt_irrefl 0)

theorem resting_idle_workers (kept : ServerKept server) (resting : Resting server)
    (unheld : server.locked = []) {worker : Nat} {phase : PoolWorker PoolJob}
    (found : server.pool.workers[worker]? = some phase) : ¬ Http2Running phase := by
  rintro ⟨connection, rfl⟩
  have below : worker < server.submissions.length := by
    rw [kept.sized]
    exact (List.getElem?_eq_some_iff.mp found).1
  obtain ⟨place, foundPlace⟩ : ∃ place, server.submissions[worker]? = some place :=
    ⟨_, List.getElem?_eq_getElem below⟩
  cases place with
  | handling =>
      have stuck := resting (.respond worker) trivial
      simp [Http2Server.step, Http2Server.respond, Http2Server.advance, found,
        foundPlace] at stuck
  | submitting =>
      have stuck := resting (.acquire worker) trivial
      simp [Http2Server.step, Http2Server.acquire, Http2Server.advance, found, foundPlace,
        unheld] at stuck
  | sending =>
      have stuck := resting (.release worker) trivial
      simp [Http2Server.step, Http2Server.release, Http2Server.advance, found,
        foundPlace] at stuck
  | submitted =>
      have stuck := resting (.work worker) trivial
      simp [Http2Server.step, Http2Server.work, ThreadPool.work, found, foundPlace,
        PoolWorker.step] at stuck

theorem resting_settled (kept : ServerKept server) (room : RoomKept server)
    (staffed : 0 < server.submissions.length) (resting : Resting server) :
    Settled server := by
  rw [kept.sized] at staffed
  have unheld := resting_unheld kept room resting
  have plain : ∀ (worker : Nat) (phase : PoolWorker PoolJob),
      server.pool.workers[worker]? = some phase → ¬ Http2Running phase :=
    fun _ _ found => resting_idle_workers kept resting unheld found
  have poolRests : PoolDrain.Resting server.pool := by
    intro action internal
    cases action with
    | enqueue producer task => exact internal.elim
    | destroy => exact internal.elim
    | produce producer =>
        cases found : server.pool.producers[producer]? with
        | none => simp [ThreadPool.step, ThreadPool.produce, found]
        | some phase =>
            simp [ThreadPool.step, ThreadPool.produce, found,
              resting_event resting found]
    | work worker =>
        cases found : server.pool.workers[worker]? with
        | none => simp [ThreadPool.step, ThreadPool.work, found]
        | some phase =>
            simp [ThreadPool.step, ThreadPool.work, found,
              resting_plain resting found (plain worker phase found)]
  refine ⟨?_, unheld, resting_drained kept.serving staffed poolRests⟩
  intro thread member
  obtain ⟨event, found⟩ := List.mem_iff_getElem?.mp member
  cases thread with
  | free => rfl
  | locking connection =>
      have stuck := resting (.lock event) trivial
      simp [Http2Server.step, Http2Server.lock, found, unheld] at stuck
  | receiving connection =>
      have here := weight_le_total (eventInside connection) found
      have counted := kept.mutex connection
      rw [unheld, List.count_nil, inside] at counted
      simp only [eventInside, if_true] at here
      omega

theorem settled_unanswered (kept : ServerKept server) (settled : Settled server)
    (connection : Nat) : unanswered connection server = 0 := by
  have balance := unanswered_balance kept.serving.kept connection
  have executed := congrArg (Multiset.count (PoolJob.http2 connection)) settled.pool.executed
  have called := count_reduceOption server.pool.shared.called (.http2 connection)
  have closed : total (jobOpen connection) (jobs server) = 0 := by
    rw [total, List.sum_eq_zero_iff]
    intro value among
    obtain ⟨⟨phase, place⟩, member, rfl⟩ := List.mem_map.mp among
    rw [settled.pool.workers phase (List.of_mem_zip member).1]
    rfl
  rw [count_coe, count_coe] at executed
  omega

end Rest

section Settling

variable {server last : Http2Server} {more : List Http2Action}

/-- A server with a worker in which every completed stream has found room so far. -/
structure Roomy (server : Http2Server) : Prop where
  kept : ServerKept server
  room : RoomKept server
  staffed : 0 < server.submissions.length

theorem advance_keeps_staff {worker : Nat} {place next : Submission}
    {locked : Nat → Option (List Nat)}
    (stepped : server.advance worker place next locked = some last) :
    last.submissions.length = server.submissions.length := by
  obtain ⟨_, _, _, _, rfl, _⟩ := advance_inversion stepped
  exact List.length_set

theorem step_keeps_staff {action : Http2Action} (kept : ServerKept server)
    (stepped : server.step action = some last) :
    last.submissions.length = server.submissions.length := by
  cases action with
  | enter event connection =>
      simp only [Http2Server.step, Http2Server.enter] at stepped
      split at stepped <;> cases stepped
      rfl
  | lock event =>
      simp only [Http2Server.step, Http2Server.lock] at stepped
      split at stepped
      · split at stepped <;> cases stepped
        rfl
      · cases stepped
  | completeStream event =>
      simp only [Http2Server.step, Http2Server.completeStream] at stepped
      split at stepped
      · obtain ⟨pool, _, rfl⟩ := Option.map_eq_some_iff.mp stepped
        rfl
      · cases stepped
  | leave event =>
      simp only [Http2Server.step, Http2Server.leave] at stepped
      split at stepped
      · split at stepped <;> cases stepped
        rfl
      · cases stepped
  | enqueuePlain event =>
      simp only [Http2Server.step, Http2Server.enqueuePlain] at stepped
      split at stepped
      · obtain ⟨pool, _, rfl⟩ := Option.map_eq_some_iff.mp stepped
        rfl
      · cases stepped
  | produce event =>
      obtain ⟨pool, _, rfl⟩ := Option.map_eq_some_iff.mp stepped
      rfl
  | work worker =>
      obtain ⟨_, _, _, _, after, _, _, _, rfl, _⟩ := work_cases kept.sized stepped
      exact List.length_set
  | respond worker => exact advance_keeps_staff stepped
  | abandon worker => exact advance_keeps_staff stepped
  | acquire worker => exact advance_keeps_staff stepped
  | release worker => exact advance_keeps_staff stepped

theorem step_roomy {action : Http2Action} (roomy : Roomy server)
    (room : HasRoom server action) (stepped : server.step action = some last) : Roomy last := by
  refine ⟨step_keeps roomy.kept stepped, step_keeps_room roomy.room room stepped, ?_⟩
  rw [step_keeps_staff roomy.kept stepped]
  exact roomy.staffed

theorem run_roomy {events workers : Nat} {actions : List Http2Action} (staffed : 0 < workers)
    (room : Respects Http2Server.step HasRoom (Http2Server.initial events workers) actions)
    (reached : run Http2Server.step (Http2Server.initial events workers) actions = some last) :
    Roomy last := by
  refine run_invariant Roomy ?_ ?_ room reached
  · intro state action following roomy hasRoom stepped
    exact step_roomy roomy hasRoom stepped
  · refine ⟨initial_server_kept events workers, initial_room events workers, ?_⟩
    simpa only [Http2Server.initial, ThreadPool.initial, List.length_replicate] using staffed

theorem underway_has_room (server : Http2Server) {action : Http2Action}
    (underway : Underway action) : HasRoom server action := by
  cases action <;> trivial

theorem underway_step {action : Http2Action} (roomy : Roomy server)
    (underway : Underway action) (stepped : server.step action = some last) :
    Roomy last ∧ settleRank last < settleRank server :=
  ⟨step_roomy roomy (underway_has_room server underway) stepped,
    underway_rank roomy.kept underway stepped⟩

theorem underway_run (roomy : Roomy server) (underway : ∀ action ∈ more, Underway action)
    (reached : run Http2Server.step server more = some last) :
    Roomy last ∧ more.length + settleRank last ≤ settleRank server := by
  have respects := respects_of_labels Http2Server.step underway server
  refine ⟨run_invariant Roomy ?_ roomy respects reached,
    run_length_le_rank Roomy settleRank ?_ roomy respects reached⟩
  · intro state action following here allowed stepped
    exact (underway_step here allowed stepped).1
  · intro state action following here allowed stepped
    exact underway_step here allowed stepped

end Settling

/-- As long as every completed stream finds room, the threads take at most `settleRank`
steps until a connection is entered or a task handed over. Wherever these have led, they can go
on until every stream is answered or given up, every mutex is free and every thread is
back where it started, and they rest in no other state. -/
theorem streams_settle_while_room (events workers : Nat) (staffed : 0 < workers)
    (actions : List Http2Action) (server : Http2Server)
    (room : Respects Http2Server.step HasRoom (Http2Server.initial events workers) actions)
    (reached : run Http2Server.step (Http2Server.initial events workers) actions = some server)
    (more : List Http2Action) (later : Http2Server)
    (underway : ∀ action ∈ more, Underway action)
    (onward : run Http2Server.step server more = some later) :
    more.length ≤ settleRank server ∧ (Resting later → Settled later) ∧
      ∃ rest settled, (∀ action ∈ rest, Underway action) ∧
        run Http2Server.step later rest = some settled ∧ Settled settled ∧
        ∀ connection,
          tally Http2Server.step (completes connection) (Http2Server.initial events workers)
              (actions ++ (more ++ rest)) =
            tally Http2Server.step (answers connection) (Http2Server.initial events workers)
                (actions ++ (more ++ rest)) +
              tally Http2Server.step (abandons connection) (Http2Server.initial events workers)
                (actions ++ (more ++ rest)) := by
  have roomy := run_roomy staffed room reached
  obtain ⟨roomyLater, steps⟩ := underway_run roomy underway onward
  refine ⟨by omega, ?_, ?_⟩
  · intro resting
    exact resting_settled roomyLater.kept roomyLater.room roomyLater.staffed resting
  · obtain ⟨rest, settled, allowed, ends, roomyEnd, rests⟩ := run_to_rest Roomy settleRank
      (fun _ _ _ here permitted stepped => underway_step here permitted stepped) roomyLater
    have done := resting_settled roomyEnd.kept roomyEnd.room roomyEnd.staffed rests
    refine ⟨rest, settled, allowed, ends, done, ?_⟩
    intro connection
    have whole : run Http2Server.step (Http2Server.initial events workers)
        (actions ++ (more ++ rest)) = some settled := by
      rw [run_append, reached, Option.bind_some, run_append, onward, Option.bind_some, ends]
    have balance := run_streams (initial_server_kept events workers) whole connection
    rw [initial_unanswered, settled_unanswered roomyEnd.kept done] at balance
    omega

/-- The worker of one stream waits for the mutex, whose holder enqueues another one. -/
def heldBack : List Http2Action :=
  [.enter 0 5, .lock 0, .completeStream 0] ++ List.replicate 6 (.produce 0) ++
    List.replicate 8 (.work 1) ++ [.respond 1, .completeStream 0]

theorem streams_settle_while_room_held :
    ∃ server later, run Http2Server.step (Http2Server.initial 1 2) heldBack = some server ∧
      run Http2Server.step server [.produce 0] = some later ∧
      later.submissions = [.handling, .submitting] ∧ later.events = [.receiving 5] ∧
      ∃ rest settled, (∀ action ∈ rest, Underway action) ∧
        run Http2Server.step later rest = some settled ∧ Settled settled := by
  have evaluated : (run Http2Server.step (Http2Server.initial 1 2) heldBack).any
      (fun server => decide ((run Http2Server.step server [.produce 0]).any (fun later =>
        decide (later.submissions = [.handling, .submitting] ∧
          later.events = [.receiving 5])) = true)) = true := by
    decide +kernel
  have room : Respects Http2Server.step HasRoom (Http2Server.initial 1 2) heldBack := by
    decide +kernel
  obtain ⟨server, reached, onward⟩ := run_ends evaluated
  obtain ⟨later, continued, submissions, events⟩ := run_ends onward
  have underway : ∀ action ∈ [Http2Action.produce 0], Underway action := by
    simp [Underway]
  obtain ⟨_, _, rest, settled, allowed, ends, done, _⟩ := streams_settle_while_room 1 2
    (by decide) heldBack server room reached [.produce 0] later underway continued
  exact ⟨server, later, reached, continued, submissions, events, rest, settled, allowed, ends,
    done⟩

end HttpServer.Http2Answers
