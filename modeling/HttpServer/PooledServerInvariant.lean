import HttpServer.PooledServer
import HttpServer.ThreadPoolInvariant

/-!
# What becomes of the functions in the pool

Every function an event thread hands over is in one place: still to be handed over, on
its way through `enqueue`, in the ring, on a pool thread, or destroyed with the ring. So
none runs twice, a task ends only on a pool thread, and the server over its pool is the
server of `TcpServer`, with fewer orders in which tasks end.
-/

namespace HttpServer.PooledServer

open TransitionSystem TcpServer DescriptorRuns WorkerLifetime
open Census ThreadPoolInvariant

section PoolSteps

variable {pool after : ThreadPool Ticket}

def runningTickets (pool : ThreadPool Ticket) : Multiset Ticket :=
  total (fun thread => ((runningOn thread).toList : Multiset Ticket)) pool.workers

theorem waiting_le (kept : PoolKept pool)
    (extracted : after.shared.extracted = pool.shared.extracted)
    (inserted : pool.shared.inserted <+: after.shared.inserted) :
    (waiting pool : Multiset (Option Ticket)) ≤ waiting after := by
  obtain ⟨more, whole⟩ := inserted
  have below := kept.ring.order.length_le
  rw [waiting, waiting, extracted, ← whole, List.drop_append_of_le_length below,
    ← Multiset.coe_add]
  exact Multiset.le_add_right _ _

theorem produce_keeps {worker : WorkerId} (kept : PoolKept pool)
    (stepped : pool.produce worker = some after) :
    after.shared.called = pool.shared.called ∧ after.shared.executed = pool.shared.executed ∧
      after.workers = pool.workers ∧ (waiting pool : Multiset (Option Ticket)) ≤ waiting after := by
  obtain ⟨phase, shared, next, _, moved, rfl⟩ := produce_inversion stepped
  have added : shared.called = pool.shared.called ∧ shared.executed = pool.shared.executed ∧
      shared.extracted = pool.shared.extracted ∧ pool.shared.inserted <+: shared.inserted := by
    cases phase with
    | idle => cases moved
    | stored task =>
        cases moved
        exact ⟨rfl, rfl, rfl, List.prefix_append _ _⟩
    | _ =>
        simp only [Producer.step] at moved
        try split at moved
        all_goals
          cases moved <;>
          exact ⟨rfl, rfl, rfl, List.prefix_rfl⟩
  obtain ⟨called, executed, extracted, inserted⟩ := added
  exact ⟨called, executed, rfl, waiting_le kept extracted inserted⟩

theorem destroy_keeps (stepped : pool.destroy = some after) :
    ∃ stop permits destructor, after = { pool with
      shared := { pool.shared with stop := stop, tasksAvailable := permits }
      destructor := destructor } := by
  obtain ⟨shared, next, moved, rfl⟩ := destroy_inversion stepped
  cases phase : pool.destructor <;> rw [phase] at moved <;>
    simp only [Destructor.step] at moved <;> (try split at moved) <;> cases moved <;>
    exact ⟨_, _, _, rfl⟩

theorem work_starts {thread : Nat} {phase : PoolWorker Ticket}
    (stepped : pool.work thread = some after) (found : pool.workers[thread]? = some phase)
    (free : runningOn phase = none) :
    phase ≠ .exited ∧ after.shared.called = pool.shared.called ∧
      ∃ begun : Multiset Ticket, after.shared.executed = pool.shared.executed + begun ∧
        runningTickets after = runningTickets pool + begun := by
  obtain ⟨same, shared, next, here, moved, rfl⟩ := work_inversion stepped
  rw [found] at here
  cases here
  have carried := total_set (fun thread => ((runningOn thread).toList : Multiset Ticket)) found next
  have begun : shared.called = pool.shared.called ∧ (shared.executed : Multiset Ticket) =
      pool.shared.executed + ((runningOn next).toList : Multiset Ticket) := by
    cases phase with
    | exited => cases moved
    | running ticket => cases free
    | released task =>
        cases task with
        | none =>
            cases moved
            exact ⟨rfl, (add_zero _).symm⟩
        | some ticket =>
            cases moved
            exact ⟨rfl, (Multiset.coe_add _ _).symm⟩
    | permitted =>
        cases stop : pool.shared.stop <;> rw [PoolWorker.step, stop] at moved <;>
          cases moved <;>
          exact ⟨rfl, (add_zero _).symm⟩
    | _ =>
        simp only [PoolWorker.step] at moved
        try split at moved
        all_goals
          cases moved <;>
          exact ⟨rfl, (add_zero _).symm⟩
  rw [free, Option.toList_none, Multiset.coe_nil, add_zero] at carried
  refine ⟨?_, begun.1, _, begun.2, carried⟩
  rintro rfl
  cases moved

theorem work_returns {thread : Nat} {ticket : Ticket} (stepped : pool.work thread = some after)
    (found : pool.workers[thread]? = some (.running ticket)) :
    after.shared = pool.shared ∧ runningTickets after + {ticket} = runningTickets pool := by
  obtain ⟨same, shared, next, here, moved, rfl⟩ := work_inversion stepped
  rw [found] at here
  cases here
  cases moved
  have carried := total_set (fun thread => ((runningOn thread).toList : Multiset Ticket)) found
    .waiting
  exact ⟨rfl, carried.trans (add_zero _)⟩

end PoolSteps

section Coupling

variable {crypto : Worker.Crypto} {pooled after : PooledServer} {ticket : Ticket} {thread : Nat}

def calledLater (pooled : PooledServer) : Multiset Ticket :=
  total (fun calls : List Ticket => (calls : Multiset Ticket)) pooled.calls

/-- A task has ended only while a pool thread is at its function. -/
def Matches (pooled : PooledServer) (ticket : Ticket) (task : PoolTask) : Prop :=
  pooled.handed[ticket]? = some { task with ended := false } ∧
    (task.ended = true → ticket ∈ runningTickets pooled.pool)

/-- How the tickets of the server's tasks go with the functions in the pool. -/
structure Coupled (pooled : PooledServer) : Prop where
  pool : PoolKept pooled.pool
  length : pooled.tickets.length = pooled.server.tasks.length
  issued : (pooled.tickets : Multiset Ticket) + pooled.finished + pooled.discarded =
    List.range pooled.handed.length
  called : (pooled.pool.shared.called : Multiset (Option Ticket)) +
    (calledLater pooled).map some = (List.range pooled.handed.length : Multiset Ticket).map some
  started : (pooled.pool.shared.executed : Multiset Ticket) =
    pooled.finished + runningTickets pooled.pool
  matched : ∀ (index : Nat) (ticket : Ticket) (task : PoolTask),
    pooled.tickets[index]? = some ticket → pooled.server.tasks[index]? = some task →
      Matches pooled ticket task
  joined : pooled.discarded ≠ [] → ∀ thread ∈ pooled.pool.workers, thread = .exited
  ring : (pooled.discarded.map some : Multiset (Option Ticket)) ≤ waiting pooled.pool

def places (pooled : PooledServer) : Multiset (Option Ticket) :=
  (calledLater pooled).map some + total producerTask pooled.pool.producers +
    waiting pooled.pool +
    (total workerTask pooled.pool.workers + runningTickets pooled.pool).map some

theorem reduced_whole {functions : List (Option Ticket)}
    (present : ∀ function ∈ functions, function.isSome = true) :
    functions.reduceOption.map some = functions := by
  induction functions with
  | nil => rfl
  | cons function functions ih =>
      have rest := ih fun other member => present other (List.mem_cons_of_mem _ member)
      cases function with
      | none => cases present none List.mem_cons_self
      | some ticket => rw [List.reduceOption_cons_of_some, List.map_cons, rest]

theorem coupled_places (coupled : Coupled pooled) :
    ((pooled.tickets : Multiset Ticket) + pooled.discarded).map some = places pooled := by
  have called := coupled.pool.tasks.called
  have cut : pooled.pool.shared.inserted =
      pooled.pool.shared.extracted ++ waiting pooled.pool := by
    obtain ⟨rest, whole⟩ := coupled.pool.ring.order
    rw [waiting, ← whole, List.drop_left]
  have present : ∀ function ∈ pooled.pool.shared.extracted, function.isSome = true := by
    intro function member
    have inside : function ∈ (List.range pooled.handed.length : Multiset Ticket).map some := by
      rw [← coupled.called, called, cut]
      simp [member]
    obtain ⟨ticket, _, rfl⟩ := Multiset.mem_map.mp inside
    rfl
  have taken : (pooled.pool.shared.extracted : Multiset (Option Ticket)) =
      ((pooled.finished : Multiset Ticket) + runningTickets pooled.pool +
        total workerTask pooled.pool.workers).map some := by
    rw [← coupled.started, ← coupled.pool.tasks.executed, Multiset.map_coe, reduced_whole present]
  have whole := coupled.called
  rw [called, cut, ← Multiset.coe_add, taken, ← coupled.issued] at whole
  simp only [Multiset.map_add] at whole ⊢
  rw [places, Multiset.map_add]
  apply add_left_cancel (a := (pooled.finished : Multiset Ticket).map some)
  calc (pooled.finished : Multiset Ticket).map some +
        ((pooled.tickets : Multiset Ticket).map some +
          (pooled.discarded : Multiset Ticket).map some)
      = (pooled.tickets : Multiset Ticket).map some +
          (pooled.finished : Multiset Ticket).map some +
          (pooled.discarded : Multiset Ticket).map some := by ac_rfl
    _ = _ := whole.symm
    _ = _ := by ac_rfl

theorem issued_once (coupled : Coupled pooled) :
    ((pooled.tickets : Multiset Ticket) + pooled.finished + pooled.discarded).Nodup := by
  rw [coupled.issued]
  exact Multiset.coe_nodup.mpr List.nodup_range

theorem tickets_distinct (coupled : Coupled pooled) :
    ((pooled.tickets : Multiset Ticket) + pooled.discarded).Nodup := by
  apply Multiset.nodup_of_le _ (issued_once coupled)
  rw [add_right_comm]
  exact Multiset.le_add_right _ _

theorem running_listed (coupled : Coupled pooled)
    (running : ticket ∈ runningTickets pooled.pool) : ticket ∈ pooled.tickets := by
  have whole := coupled_places coupled
  have apart : (places pooled).Nodup := by
    rw [← whole]
    exact (tickets_distinct coupled).map (Option.some_injective _)
  have placed : some ticket ∈ (total workerTask pooled.pool.workers +
      runningTickets pooled.pool).map some :=
    Multiset.mem_map_of_mem some (Multiset.mem_add.mpr (Or.inr running))
  have inside : some ticket ∈
      ((pooled.tickets : Multiset Ticket) + pooled.discarded).map some := by
    rw [whole, places]
    exact Multiset.mem_add.mpr (Or.inr placed)
  obtain ⟨same, member, equal⟩ := Multiset.mem_map.mp inside
  cases equal
  rcases Multiset.mem_add.mp member with listed | gone
  · exact listed
  · -- what was discarded was in the ring
    have ringed : some ticket ∈ (waiting pooled.pool : Multiset (Option Ticket)) :=
      Multiset.mem_of_le coupled.ring (Multiset.mem_coe.mpr (List.mem_map_of_mem gone))
    rw [places, Multiset.nodup_add] at apart
    exact absurd placed
      (Multiset.disjoint_left.mp apart.2.2 (Multiset.mem_add.mpr (Or.inr ringed)))

theorem initially_coupled (workers threads : Nat) : Coupled (initial workers threads) where
  pool := initial_kept workers threads
  length := rfl
  issued := rfl
  called := by
    have nothing : calledLater (initial workers threads) = 0 :=
      total_replicate (fun calls : List Ticket => (calls : Multiset Ticket)) [] rfl workers
    rw [nothing]
    rfl
  started := by
    have idle : runningTickets (initial workers threads).pool = 0 :=
      total_replicate (fun thread => ((runningOn thread).toList : Multiset Ticket))
        PoolWorker.waiting rfl threads
    rw [idle]
    rfl
  matched := by
    intro index ticket task listed
    cases listed
  joined := fun some => absurd rfl some
  ring := Multiset.zero_le _

theorem listed_once (coupled : Coupled pooled) : pooled.tickets.Nodup :=
  Multiset.coe_nodup.mp
    (Multiset.nodup_of_le (Multiset.le_add_right _ _) (tickets_distinct coupled))

theorem running_thread (running : pooled.runningTicket thread = some ticket) :
    pooled.pool.workers[thread]? = some (.running ticket) := by
  obtain ⟨phase, found, same⟩ := Option.bind_eq_some_iff.mp running
  cases phase with
  | running other =>
      cases same
      exact found
  | _ => cases same

theorem running_member (running : pooled.runningTicket thread = some ticket) :
    ticket ∈ runningTickets pooled.pool := by
  have carried := total_set (fun thread => ((runningOn thread).toList : Multiset Ticket))
    (running_thread running) .waiting
  have inside : ticket ∈ ((runningOn (.running ticket)).toList : Multiset Ticket) :=
    List.mem_singleton_self ticket
  rw [runningTickets, ← add_zero (total _ _)]
  exact carried ▸ Multiset.mem_add.mpr (Or.inr inside)

theorem indexed (listed : ticket ∈ pooled.tickets) :
    pooled.tickets[pooled.indexOf ticket]? = some ticket :=
  List.getElem?_idxOf listed

section Drops

variable {server : TcpServer}

theorem erased_whole (listed : ticket ∈ pooled.tickets) :
    (pooled.tickets.eraseIdx (pooled.indexOf ticket) : Multiset Ticket) + {ticket} =
      pooled.tickets := by
  have same := List.erase_eq_eraseIdx_of_idxOf (l := pooled.tickets) (i := pooled.indexOf ticket)
    rfl
  rw [← same, ← Multiset.coe_erase, add_comm, Multiset.singleton_add]
  exact Multiset.cons_erase listed

theorem erased_length (coupled : Coupled pooled)
    (dropped : pooled.server.step crypto (.drop (pooled.indexOf ticket)) = some server) :
    (pooled.tickets.eraseIdx (pooled.indexOf ticket)).length = server.tasks.length := by
  rw [drop_erases dropped, List.length_eraseIdx, List.length_eraseIdx, coupled.length]

theorem erased_matched (coupled : Coupled pooled) (listed : ticket ∈ pooled.tickets)
    (dropped : pooled.server.step crypto (.drop (pooled.indexOf ticket)) = some server)
    {index : Nat} {other : Ticket} {task : PoolTask}
    (here : (pooled.tickets.eraseIdx (pooled.indexOf ticket))[index]? = some other)
    (queued : server.tasks[index]? = some task) : other ≠ ticket ∧ Matches pooled other task := by
  constructor
  · rintro rfl
    have apart := listed_once coupled
    rw [← Multiset.coe_nodup, ← erased_whole listed, Multiset.nodup_add] at apart
    exact Multiset.disjoint_left.mp apart.2.2 (Multiset.mem_coe.mpr (List.mem_of_getElem? here))
      (Multiset.mem_singleton_self other)
  · rw [drop_erases dropped] at queued
    rw [List.getElem?_eraseIdx] at here queued
    split at here
    · rename_i before
      rw [if_pos before] at queued
      exact coupled.matched index other task here queued
    · rename_i after
      rw [if_neg after] at queued
      exact coupled.matched (index + 1) other task here queued

end Drops

theorem handed_over {origin : Option WorkerId} {server : TcpServer} {new : List PoolTask}
    (added : server.tasks = pooled.server.tasks ++ new) :
    pooled.handOver origin server = { pooled with
      server := server
      tickets := pooled.tickets ++ List.range' pooled.handed.length new.length
      handed := pooled.handed ++ new
      calls := handTo pooled.calls (List.range' pooled.handed.length new.length) origin } := by
  rw [handOver, added, List.drop_left]

theorem range_more (handed new : List PoolTask) :
    List.range (handed ++ new).length =
      List.range handed.length ++ List.range' handed.length new.length := by
  rw [List.length_append, List.range_eq_range', List.range_eq_range', ← List.range'_append_1,
    Nat.zero_add]

theorem none_new {origin : Option WorkerId} {new : List PoolTask} (quiet : origin = none)
    (fresh : ∀ task ∈ new, task.ended = false ∧ origin = some task.worker) : new = [] := by
  refine List.eq_nil_iff_forall_not_mem.mpr fun task member => ?_
  have acting := (fresh task member).2
  rw [quiet] at acting
  cases acting

theorem serve_coupled {label : ServerStep} {server : TcpServer} (coupled : Coupled pooled)
    (permitted : pooled.Permits label) (stepped : pooled.server.step crypto label = some server) :
    Coupled (pooled.handOver (workerOf label) server) := by
  obtain ⟨new, added, fresh⟩ := serve_adds permitted.1 stepped
  have later : total (fun calls : List Ticket => (calls : Multiset Ticket))
        (handTo pooled.calls (List.range' pooled.handed.length new.length) (workerOf label)) =
      calledLater pooled + List.range' pooled.handed.length new.length := by
    cases acting : workerOf label with
    | none =>
        rw [none_new acting fresh]
        exact (add_zero _).symm
    | some worker =>
        have outside := (permitted.2 worker acting).1
        have carried := total_set (fun calls : List Ticket => (calls : Multiset Ticket)) outside
          (List.range' pooled.handed.length new.length)
        exact (add_zero _).symm.trans carried
  rw [handed_over added]
  refine {
    pool := coupled.pool
    length := ?_
    issued := ?_
    called := ?_
    started := coupled.started
    matched := ?_
    joined := coupled.joined
    ring := coupled.ring }
  · rw [List.length_append, List.length_range', coupled.length, added, List.length_append]
  · rw [range_more, ← Multiset.coe_add, ← Multiset.coe_add, ← coupled.issued]
    ac_rfl
  · rw [range_more, ← Multiset.coe_add, Multiset.map_add, ← coupled.called]
    change _ + Multiset.map some (total _ _) = _
    rw [later, Multiset.map_add, add_assoc]
  · intro index ticket task listed queued
    dsimp only at listed queued
    rw [added] at queued
    by_cases old : index < pooled.server.tasks.length
    · rw [List.getElem?_append_left old] at queued
      rw [List.getElem?_append_left (coupled.length ▸ old)] at listed
      obtain ⟨known, ended⟩ := coupled.matched index ticket task listed queued
      obtain ⟨inside, _⟩ := List.getElem?_eq_some_iff.mp known
      refine ⟨?_, ended⟩
      rw [List.getElem?_append_left inside, known]
    · -- a new ticket is the place of its task among all
      rw [List.getElem?_append_right (Nat.le_of_not_lt old)] at queued
      rw [List.getElem?_append_right (coupled.length ▸ Nat.le_of_not_lt old), coupled.length]
        at listed
      have unended := (fresh task (List.mem_of_getElem? queued)).1
      obtain ⟨inside, here⟩ := List.getElem?_eq_some_iff.mp listed
      rw [List.getElem_range', Nat.one_mul] at here
      refine ⟨?_, fun ended => absurd ended (unended ▸ Bool.false_ne_true)⟩
      rw [← here, List.getElem?_append_right (Nat.le_add_right _ _), Nat.add_sub_cancel_left,
        queued, ← unended]

theorem enqueue_coupled {worker : WorkerId} {rest : List Ticket} {pool : ThreadPool Ticket}
    (coupled : Coupled pooled) (calls : pooled.calls[worker]? = some (ticket :: rest))
    (stepped : pooled.pool.enqueue worker (some ticket) = some pool) :
    Coupled { pooled with pool := pool, calls := pooled.calls.set worker rest } := by
  have acted : pooled.pool.step (.enqueue worker (some ticket)) = some pool := stepped
  have kept := step_kept coupled.pool acted
  obtain ⟨_, rfl⟩ := enqueue_inversion stepped
  have carried := total_set (fun calls : List Ticket => (calls : Multiset Ticket)) calls rest
  have less : calledLater pooled =
      total (fun calls : List Ticket => (calls : Multiset Ticket)) (pooled.calls.set worker rest) +
        {ticket} := by
    rw [← Multiset.cons_coe, ← Multiset.singleton_add, ← add_assoc] at carried
    exact (add_right_cancel carried).symm
  exact {
    pool := kept
    length := coupled.length
    issued := coupled.issued
    called := by
      rw [← coupled.called, less]
      change ((pooled.pool.shared.called ++ [some ticket] : List (Option Ticket)) :
        Multiset (Option Ticket)) + Multiset.map some (total _ _) = _
      rw [← Multiset.coe_add, Multiset.map_add, Multiset.map_singleton, add_assoc]
      exact congrArg _ (add_comm _ _)
    started := coupled.started
    matched := coupled.matched
    joined := coupled.joined
    ring := coupled.ring }

theorem pool_coupled {pool : ThreadPool Ticket} (coupled : Coupled pooled) (kept : PoolKept pool)
    (called : pool.shared.called = pooled.pool.shared.called)
    (executed : pool.shared.executed = pooled.pool.shared.executed)
    (workers : pool.workers = pooled.pool.workers)
    (inside : (waiting pooled.pool : Multiset (Option Ticket)) ≤ waiting pool) :
    Coupled { pooled with pool := pool } where
  pool := kept
  length := coupled.length
  issued := coupled.issued
  called := called ▸ coupled.called
  started := by rw [executed, coupled.started, runningTickets, runningTickets, workers]
  matched := by
    intro index ticket task listed queued
    have matching := coupled.matched index ticket task listed queued
    rwa [Matches, runningTickets, workers]
  joined := workers ▸ coupled.joined
  ring := coupled.ring.trans inside

/-- The ring goes only when every pool thread has left its loop. -/
theorem none_discarded {phase : PoolWorker Ticket} (coupled : Coupled pooled)
    (found : pooled.pool.workers[thread]? = some phase) (going : phase ≠ .exited) :
    pooled.discarded = [] := by
  by_contra gone
  exact going (coupled.joined gone phase (List.mem_of_getElem? found))

theorem starts_coupled {pool : ThreadPool Ticket} (coupled : Coupled pooled)
    (free : pooled.runningTicket thread = none) (stepped : pooled.pool.work thread = some pool) :
    Coupled { pooled with pool := pool } := by
  obtain ⟨phase, _, _, found, _, _⟩ := work_inversion stepped
  have idle : runningOn phase = none := by
    rw [runningTicket, found] at free
    exact free
  obtain ⟨going, called, begun, executed, running⟩ := work_starts stepped found idle
  have alive := none_discarded coupled found going
  have acted : pooled.pool.step (.work thread) = some pool := stepped
  exact {
    pool := step_kept coupled.pool acted
    length := coupled.length
    issued := coupled.issued
    called := called ▸ coupled.called
    started := by rw [executed, coupled.started, running, add_assoc]
    matched := by
      intro index ticket task listed queued
      obtain ⟨known, ended⟩ := coupled.matched index ticket task listed queued
      refine ⟨known, fun stopped => ?_⟩
      rw [running]
      exact Multiset.mem_add.mpr (Or.inl (ended stopped))
    joined := fun gone => absurd alive gone
    ring := by
      rw [alive]
      exact Multiset.zero_le _ }

theorem returns_coupled {server : TcpServer} {pool : ThreadPool Ticket} (coupled : Coupled pooled)
    (running : pooled.runningTicket thread = some ticket)
    (dropped : pooled.server.step crypto (.drop (pooled.indexOf ticket)) = some server)
    (stepped : pooled.pool.work thread = some pool) :
    Coupled { pooled with
      server := server
      pool := pool
      tickets := pooled.tickets.eraseIdx (pooled.indexOf ticket)
      finished := pooled.finished ++ [ticket] } := by
  have found := running_thread running
  have listed := running_listed coupled (running_member running)
  obtain ⟨shared, fewer⟩ := work_returns stepped found
  have alive := none_discarded coupled found (by rintro ⟨⟩)
  have acted : pooled.pool.step (.work thread) = some pool := stepped
  exact {
    pool := step_kept coupled.pool acted
    length := erased_length coupled dropped
    issued := by
      rw [← coupled.issued, ← erased_whole listed, ← Multiset.coe_add, Multiset.coe_singleton]
      ac_rfl
    called := shared ▸ coupled.called
    started := by
      rw [shared, coupled.started, ← fewer, ← Multiset.coe_add, Multiset.coe_singleton]
      ac_rfl
    matched := by
      intro index other task here queued
      obtain ⟨different, known, ended⟩ := erased_matched coupled listed dropped here queued
      refine ⟨known, fun stopped => ?_⟩
      have member := ended stopped
      rw [← fewer] at member
      rcases Multiset.mem_add.mp member with still | gone
      · exact still
      · exact absurd (Multiset.mem_singleton.mp gone) different
    joined := fun gone => absurd alive gone
    ring := by
      rw [alive]
      exact Multiset.zero_le _ }

theorem finish_coupled {throws : Bool} {server : TcpServer} (coupled : Coupled pooled)
    (running : pooled.runningTicket thread = some ticket)
    (stepped : pooled.server.step crypto (.finish (pooled.indexOf ticket) throws) = some server) :
    Coupled { pooled with server := server } := by
  obtain ⟨done, queuedDone, marked⟩ := finish_ends stepped
  exact {
    pool := coupled.pool
    length := by rw [marked, List.length_set, coupled.length]
    issued := coupled.issued
    called := coupled.called
    started := coupled.started
    matched := by
      intro index other task listed queued
      rw [marked] at queued
      rcases found_set queued with ⟨rfl, rfl⟩ | ⟨_, before⟩
      · -- the task that ends is the one the thread runs
        have member := running_member running
        have known := (coupled.matched _ other done listed queuedDone).1
        rw [indexed (running_listed coupled member)] at listed
        cases listed
        exact ⟨known, fun _ => member⟩
      · exact coupled.matched index other task listed before
    joined := coupled.joined
    ring := coupled.ring }

theorem discard_coupled {server : TcpServer} (coupled : Coupled pooled)
    (gone : ∀ thread ∈ pooled.pool.workers, thread = .exited)
    (inside : some ticket ∈ waiting pooled.pool) (listed : ticket ∈ pooled.tickets)
    (dropped : pooled.server.step crypto (.drop (pooled.indexOf ticket)) = some server) :
    Coupled { pooled with
      server := server
      tickets := pooled.tickets.eraseIdx (pooled.indexOf ticket)
      discarded := pooled.discarded ++ [ticket] } := by
  have unlisted : some ticket ∉ (pooled.discarded.map some : Multiset (Option Ticket)) := by
    intro member
    have apart := tickets_distinct coupled
    rw [Multiset.nodup_add] at apart
    refine Multiset.disjoint_left.mp apart.2.2 (Multiset.mem_coe.mpr listed) ?_
    exact List.mem_map_of_injective (Option.some_injective _) |>.mp member
  exact {
    pool := coupled.pool
    length := erased_length coupled dropped
    issued := by
      rw [← coupled.issued, ← erased_whole listed, ← Multiset.coe_add, Multiset.coe_singleton]
      ac_rfl
    called := coupled.called
    started := coupled.started
    matched := fun index other task here queued =>
      (erased_matched coupled listed dropped here queued).2
    joined := fun _ => gone
    ring := by
      rw [List.map_append, ← Multiset.coe_add, add_comm]
      exact (Multiset.cons_le_of_notMem unlisted).mpr ⟨inside, coupled.ring⟩ }

theorem step_coupled {label : PooledStep} (coupled : Coupled pooled)
    (stepped : pooled.step crypto label = some after) : Coupled after := by
  cases step_moves stepped with
  | serve label server permitted moved => exact serve_coupled coupled permitted moved
  | enqueue worker ticket rest pool calls moved => exact enqueue_coupled coupled calls moved
  | produce worker pool moved =>
      have acted : pooled.pool.step (.produce worker) = some pool := moved
      have kept := step_kept coupled.pool acted
      obtain ⟨called, executed, workers, inside⟩ := produce_keeps coupled.pool moved
      exact pool_coupled coupled kept called executed workers inside
  | goOn thread ticket server pool running dropped worked =>
      exact returns_coupled coupled running dropped worked
  | work thread pool free worked => exact starts_coupled coupled free worked
  | finish thread throws ticket server running ended =>
      exact finish_coupled coupled running ended
  | destroy pool moved =>
      have acted : pooled.pool.step .destroy = some pool := moved
      have kept := step_kept coupled.pool acted
      obtain ⟨stop, permits, destructor, rfl⟩ := destroy_keeps moved
      exact pool_coupled coupled kept rfl rfl rfl (le_refl _)
  | discard ticket server gone inside listed dropped =>
      exact discard_coupled coupled gone inside listed dropped

section Line

def ofWorker (handed : List PoolTask) (worker : WorkerId) (tickets : List Ticket) : List Ticket :=
  tickets.filter fun ticket => (handed[ticket]?).any fun task => decide (task.worker = worker)

/-- What a thread in `enqueue` has still to put into the ring. -/
def inHand : Producer Ticket → List Ticket
  | .counted task | .permitted task | .locked task | .stored task => task.toList
  | _ => []

def held (pooled : PooledServer) (worker : WorkerId) : List Ticket :=
  ((pooled.pool.producers[worker]?).map inHand).getD [] ++ (pooled.calls[worker]?).getD []

/-- The functions of a worker go through its thread into the ring one after the other. -/
def InLine (pooled : PooledServer) : Prop :=
  ∀ worker,
    ofWorker pooled.handed worker pooled.pool.shared.inserted.reduceOption ++
        held pooled worker =
      ofWorker pooled.handed worker (List.range pooled.handed.length)

variable {handed new : List PoolTask} {worker : WorkerId}

theorem of_worker_more {tickets : List Ticket}
    (issued : ∀ ticket ∈ tickets, ticket < handed.length) :
    ofWorker (handed ++ new) worker tickets = ofWorker handed worker tickets := by
  apply List.filter_congr
  intro ticket member
  rw [List.getElem?_append_left (issued ticket member)]

theorem of_worker_append (left right : List Ticket) :
    ofWorker handed worker (left ++ right) =
      ofWorker handed worker left ++ ofWorker handed worker right :=
  List.filter_append ..

theorem of_worker_self (handed : List PoolTask) (own : ∀ task ∈ new, task.worker = worker) :
    ofWorker (handed ++ new) worker (List.range' handed.length new.length) =
      List.range' handed.length new.length := by
  refine List.filter_eq_self.mpr fun ticket member => ?_
  obtain ⟨low, high⟩ := List.mem_range'_1.mp member
  rw [List.getElem?_append_right low, List.getElem?_eq_getElem (by omega)]
  exact decide_eq_true (own _ (List.getElem_mem _))

theorem of_worker_other (handed : List PoolTask) (others : ∀ task ∈ new, task.worker ≠ worker) :
    ofWorker (handed ++ new) worker (List.range' handed.length new.length) = [] := by
  refine List.filter_eq_nil_iff.mpr fun ticket member => ?_
  obtain ⟨low, high⟩ := List.mem_range'_1.mp member
  rw [List.getElem?_append_right low, List.getElem?_eq_getElem (by omega)]
  exact fun same => others _ (List.getElem_mem _) (of_decide_eq_true same)

theorem inserted_issued (coupled : Coupled pooled) :
    ∀ ticket ∈ pooled.pool.shared.inserted.reduceOption, ticket < pooled.handed.length := by
  intro ticket member
  have inside : some ticket ∈ (List.range pooled.handed.length : Multiset Ticket).map some := by
    rw [← coupled.called, coupled.pool.tasks.called]
    have stored := List.reduceOption_mem_iff.mp member
    apply Multiset.mem_add.mpr
    exact Or.inl (Multiset.mem_add.mpr (Or.inl (Multiset.mem_coe.mpr stored)))
  obtain ⟨same, ranged, equal⟩ := Multiset.mem_map.mp inside
  cases equal
  exact List.mem_range.mp ranged

theorem initially_in_line (workers threads : Nat) : InLine (initial workers threads) := by
  intro worker
  have idle : held (initial workers threads) worker = [] := by
    simp only [held, initial, ThreadPool.initial, List.getElem?_replicate]
    split <;> rfl
  rw [idle]
  rfl

theorem serve_in_line {label : ServerStep} {server : TcpServer} (coupled : Coupled pooled)
    (line : InLine pooled) (permitted : pooled.Permits label)
    (stepped : pooled.server.step crypto label = some server) :
    InLine (pooled.handOver (workerOf label) server) := by
  obtain ⟨new, added, fresh⟩ := serve_adds permitted.1 stepped
  rw [handed_over added]
  intro worker
  have before := line worker
  have old : ofWorker (pooled.handed ++ new) worker (List.range pooled.handed.length) =
      ofWorker pooled.handed worker (List.range pooled.handed.length) :=
    of_worker_more fun ticket member => List.mem_range.mp member
  dsimp only
  rw [range_more, of_worker_append, of_worker_more (inserted_issued coupled), old, ← before,
    List.append_assoc]
  congr 1
  cases acting : workerOf label with
  | none =>
      rw [none_new acting fresh]
      exact (List.append_nil _).symm
  | some own =>
      obtain ⟨called, idle⟩ := permitted.2 own acting
      by_cases same : own = worker
      · rw [same] at called idle acting
        have mine : ∀ task ∈ new, task.worker = worker := fun task member =>
          Option.some.inj ((fresh task member).2.symm.trans acting)
        have inside := (List.getElem?_eq_some_iff.mp called).1
        rw [of_worker_self _ mine, held, held, called, idle, same, handTo,
          List.getElem?_set_self inside]
        rfl
      · have others : ∀ task ∈ new, task.worker ≠ worker := fun task member here =>
          same (Option.some.inj (acting.symm.trans ((fresh task member).2.trans
            (congrArg some here))))
        rw [of_worker_other _ others, List.append_nil, held, held, handTo,
          List.getElem?_set_ne same]

theorem enqueue_in_line {rest : List Ticket} {pool : ThreadPool Ticket} (line : InLine pooled)
    (calls : pooled.calls[worker]? = some (ticket :: rest))
    (stepped : pooled.pool.enqueue worker (some ticket) = some pool) :
    InLine { pooled with pool := pool, calls := pooled.calls.set worker rest } := by
  obtain ⟨idle, rfl⟩ := enqueue_inversion stepped
  intro other
  rw [← line other]
  dsimp only [PoolShared.count]
  congr 1
  by_cases same : worker = other
  · rw [← same, held, held, calls, idle,
      List.getElem?_set_self (List.getElem?_eq_some_iff.mp calls).1,
      List.getElem?_set_self (List.getElem?_eq_some_iff.mp idle).1]
    rfl
  · rw [held, held, List.getElem?_set_ne same, List.getElem?_set_ne same]

theorem producer_stores {phase next : Producer Ticket} {shared after : PoolShared Ticket}
    (moved : phase.step shared = some (after, next)) :
    ∃ stored, after.inserted.reduceOption = shared.inserted.reduceOption ++ stored ∧
      inHand phase = stored ++ inHand next := by
  cases phase with
  | idle => cases moved
  | stored task =>
      cases moved
      refine ⟨task.toList, ?_, (List.append_nil _).symm⟩
      rw [List.reduceOption_append]
      cases task <;> rfl
  | _ =>
      simp only [Producer.step] at moved
      try split at moved
      all_goals
        cases moved <;>
        exact ⟨[], (List.append_nil _).symm, rfl⟩

theorem produce_in_line {pool : ThreadPool Ticket} (line : InLine pooled)
    (stepped : pooled.pool.produce worker = some pool) :
    InLine { pooled with pool := pool } := by
  obtain ⟨phase, shared, next, found, moved, rfl⟩ := produce_inversion stepped
  obtain ⟨stored, inserted, carried⟩ := producer_stores moved
  have inside := (List.getElem?_eq_some_iff.mp found).1
  -- what the thread of a worker has in hand is the worker's own
  have own : ∀ ticket ∈ stored,
      ((pooled.handed[ticket]?).any fun task => decide (task.worker = worker)) = true := by
    intro ticket member
    have listed : ticket ∈ ofWorker pooled.handed worker (List.range pooled.handed.length) := by
      rw [← line worker, held, found]
      simp [carried, member]
    exact (List.mem_filter.mp listed).2
  intro other
  rw [← line other]
  dsimp only
  rw [inserted, of_worker_append, List.append_assoc]
  congr 1
  by_cases same : worker = other
  · rw [← same, held, held, List.getElem?_set_self inside, found, ofWorker,
      List.filter_eq_self.mpr own]
    simp [carried]
  · have none : ofWorker pooled.handed other stored = [] := by
      refine List.filter_eq_nil_iff.mpr fun ticket member owned => ?_
      have mine := own ticket member
      cases task : pooled.handed[ticket]? with
      | none => rw [task] at mine; cases mine
      | some task' =>
          rw [task] at mine owned
          exact same ((of_decide_eq_true mine).symm.trans (of_decide_eq_true owned))
    rw [none, List.nil_append, held, held, List.getElem?_set_ne same]

theorem line_kept (line : InLine pooled) (handed : after.handed = pooled.handed)
    (inserted : after.pool.shared.inserted = pooled.pool.shared.inserted)
    (producers : after.pool.producers = pooled.pool.producers)
    (calls : after.calls = pooled.calls) : InLine after := by
  intro worker
  rw [held, handed, inserted, producers, calls]
  exact line worker

theorem work_inserts_none {pool : ThreadPool Ticket}
    (stepped : pooled.pool.work thread = some pool) :
    pool.shared.inserted = pooled.pool.shared.inserted ∧
      pool.producers = pooled.pool.producers := by
  obtain ⟨phase, shared, next, _, moved, rfl⟩ := work_inversion stepped
  refine ⟨?_, rfl⟩
  cases phase with
  | exited => cases moved
  | released task => cases task <;> cases moved <;> rfl
  | _ =>
      simp only [PoolWorker.step] at moved
      try split at moved
      all_goals
        cases moved <;>
        rfl

theorem step_in_line {label : PooledStep} (coupled : Coupled pooled) (line : InLine pooled)
    (stepped : pooled.step crypto label = some after) : InLine after := by
  cases step_moves stepped with
  | serve label server permitted moved => exact serve_in_line coupled line permitted moved
  | enqueue worker ticket rest pool calls moved => exact enqueue_in_line line calls moved
  | produce worker pool moved => exact produce_in_line line moved
  | goOn thread ticket server pool running dropped worked =>
      obtain ⟨inserted, producers⟩ := work_inserts_none worked
      exact line_kept line rfl inserted producers rfl
  | work thread pool free worked =>
      obtain ⟨inserted, producers⟩ := work_inserts_none worked
      exact line_kept line rfl inserted producers rfl
  | finish => exact line_kept line rfl rfl rfl rfl
  | destroy pool moved =>
      obtain ⟨stop, permits, destructor, rfl⟩ := destroy_keeps moved
      exact line_kept line rfl rfl rfl rfl
  | discard => exact line_kept line rfl rfl rfl rfl

end Line

end Coupling

section Runs

variable {crypto : Worker.Crypto} {pooled after : PooledServer} {label : PooledStep}

theorem step_serves (stepped : pooled.step crypto label = some after) :
    run (TcpServer.step crypto) pooled.server (serverLabels pooled label) =
      some after.server := by
  cases step_moves stepped with
  | serve label server permitted moved =>
      exact Option.bind_eq_some_iff.mpr ⟨server, moved, rfl⟩
  | enqueue => rfl
  | produce => rfl
  | goOn thread ticket server pool running dropped worked =>
      rw [serverLabels, running]
      exact Option.bind_eq_some_iff.mpr ⟨server, dropped, rfl⟩
  | work thread pool free worked =>
      rw [serverLabels, free]
      rfl
  | finish thread throws ticket server running ended =>
      rw [serverLabels, running]
      exact Option.bind_eq_some_iff.mpr ⟨server, ended, rfl⟩
  | destroy => rfl
  | discard ticket server gone inside listed dropped =>
      exact Option.bind_eq_some_iff.mpr ⟨server, dropped, rfl⟩

theorem step_pools (stepped : pooled.step crypto label = some after) :
    run ThreadPool.step pooled.pool (poolActions pooled label) = some after.pool := by
  cases step_moves stepped with
  | serve => rfl
  | enqueue worker ticket rest pool calls moved =>
      rw [poolActions, calls]
      exact Option.bind_eq_some_iff.mpr ⟨pool, moved, rfl⟩
  | produce worker pool moved => exact Option.bind_eq_some_iff.mpr ⟨pool, moved, rfl⟩
  | goOn thread ticket server pool running dropped worked =>
      exact Option.bind_eq_some_iff.mpr ⟨pool, worked, rfl⟩
  | work thread pool free worked => exact Option.bind_eq_some_iff.mpr ⟨pool, worked, rfl⟩
  | finish => rfl
  | destroy pool moved => exact Option.bind_eq_some_iff.mpr ⟨pool, moved, rfl⟩
  | discard => rfl

/-- Where the functions handed to the pool are. -/
structure Accounted (pooled : PooledServer) : Prop where
  tasks : List.Forall₂ (Matches pooled) pooled.tickets pooled.server.tasks
  handed : (pooled.tickets ++ pooled.finished ++ pooled.discarded).Perm
    (List.range pooled.handed.length)
  placed : ((pooled.tickets : Multiset Ticket) + pooled.discarded).map some = places pooled
  started : (pooled.pool.shared.executed : Multiset Ticket) =
    pooled.finished + runningTickets pooled.pool
  once : pooled.pool.shared.executed.Nodup
  ring : (pooled.discarded.map some : Multiset (Option Ticket)) ≤ waiting pooled.pool
  joined : pooled.discarded ≠ [] → ∀ thread ∈ pooled.pool.workers, thread = .exited

theorem coupled_accounted (coupled : Coupled pooled) : Accounted pooled where
  tasks := by
    refine List.forall₂_iff_get.mpr ⟨coupled.length, fun index inside queued => ?_⟩
    exact coupled.matched index _ _ (List.getElem?_eq_getElem inside)
      (List.getElem?_eq_getElem queued)
  handed := by
    refine Multiset.coe_eq_coe.mp ?_
    rw [← coupled.issued, Multiset.coe_add, Multiset.coe_add]
  placed := coupled_places coupled
  started := coupled.started
  once := by
    have few : runningTickets pooled.pool ≤
        (pooled.tickets : Multiset Ticket) + pooled.discarded := by
      rw [← Multiset.map_le_map_iff (Option.some_injective _), coupled_places coupled, places,
        Multiset.map_add]
      exact (Multiset.le_add_left _ _).trans (Multiset.le_add_left _ _)
    rw [← Multiset.coe_nodup, coupled.started]
    apply Multiset.nodup_of_le _ (issued_once coupled)
    calc (pooled.finished : Multiset Ticket) + runningTickets pooled.pool
        ≤ pooled.finished + ((pooled.tickets : Multiset Ticket) + pooled.discarded) :=
          add_le_add_right few _
      _ = (pooled.tickets : Multiset Ticket) + pooled.finished + pooled.discarded := by ac_rfl
  ring := coupled.ring
  joined := coupled.joined

theorem run_in_line {workers threads : Nat} {labels : List PooledStep}
    (reached : run (PooledServer.step crypto) (initial workers threads) labels = some pooled) :
    Coupled pooled ∧ InLine pooled :=
  run_keeps (fun pooled => Coupled pooled ∧ InLine pooled)
    (fun _ _ _ kept stepped =>
      ⟨step_coupled kept.1 stepped, step_in_line kept.1 kept.2 stepped⟩)
    ⟨initially_coupled workers threads, initially_in_line workers threads⟩ reached

theorem tasks_of_worker (handed : List PoolTask) (worker : WorkerId) (tickets : List Ticket) :
    (ofWorker handed worker tickets).filterMap (fun ticket => handed[ticket]?) =
      (tickets.filterMap fun ticket => handed[ticket]?).filter
        fun task => decide (task.worker = worker) := by
  induction tickets with
  | nil => rfl
  | cons ticket tickets ih =>
      cases found : handed[ticket]? with
      | none => simpa [ofWorker, found] using ih
      | some task =>
          by_cases own : task.worker = worker
          · simpa [ofWorker, found, own] using ih
          · simpa [ofWorker, found, own] using ih

theorem all_handed (handed : List PoolTask) :
    (List.range handed.length).filterMap (fun ticket => handed[ticket]?) = handed := by
  induction handed using List.reverseRecOn with
  | nil => rfl
  | append_singleton handed task ih =>
      have old : (List.range handed.length).filterMap (fun ticket => (handed ++ [task])[ticket]?) =
          (List.range handed.length).filterMap fun ticket => handed[ticket]? := by
        refine List.filterMap_congr fun ticket member => ?_
        rw [List.getElem?_append_left (List.mem_range.mp member)]
      rw [List.length_append, List.length_singleton, List.range_succ, List.filterMap_append, old,
        ih]
      simp

end Runs

/-- The server over its pool does to its connections what it does over a bag of tasks,
and the pool stays the queue it is by itself. -/
theorem pooled_server_refines (crypto : Worker.Crypto) (workers threads : Nat)
    (labels : List PooledStep) (last : PooledServer)
    (reached : run (PooledServer.step crypto) (initial workers threads) labels = some last) :
    run (TcpServer.step crypto) {}
        (history (PooledServer.step crypto) serverLabels (initial workers threads) labels) =
          some last.server ∧
      run ThreadPool.step (ThreadPool.initial workers threads)
        (history (PooledServer.step crypto) poolActions (initial workers threads) labels) =
          some last.pool ∧
      Accounted last := by
  refine ⟨?_, ?_, ?_⟩
  · exact run_projects PooledServer.server (fun _ _ _ => step_serves) reached
  · exact run_projects PooledServer.pool (fun _ _ _ => step_pools) reached
  · exact coupled_accounted (run_in_line reached).1

/-- A request goes through the ring and is answered. -/
def answeredRun : List PooledStep :=
  (eventRun 7 keepAliveRequest).dropLast.map .serve ++ .enqueue 0 ::
    List.replicate 6 (.produce 0) ++ .serve (.sweep 0 []) :: List.replicate 8 (.work 0) ++
      [.finish 0 false, .work 0]

theorem pooled_server_refines_answered :
    ∃ last, run (PooledServer.step { generateAcceptKey := id }) (initial 1 1) answeredRun =
        some last ∧
      last.finished = [0] ∧
      run (TcpServer.step { generateAcceptKey := id }) {}
        (history (PooledServer.step { generateAcceptKey := id }) serverLabels (initial 1 1)
          answeredRun) = some last.server ∧
      Accounted last := by
  have goes : (run (PooledServer.step { generateAcceptKey := id }) (initial 1 1) answeredRun).any
      (fun last => decide (last.finished = [0])) = true := by
    decide +kernel
  obtain ⟨last, reached, done⟩ := run_ends goes
  obtain ⟨serves, _, accounted⟩ :=
    pooled_server_refines { generateAcceptKey := id } 1 1 answeredRun last reached
  exact ⟨last, reached, done, serves, accounted⟩

def taken (pooled : PooledServer) : List PoolTask :=
  pooled.pool.shared.extracted.reduceOption.filterMap fun ticket => pooled.handed[ticket]?

/-- The functions of a worker leave the ring in the order of their tickets, and none is
passed over: with any number of pool threads, and whatever the others hand over. So do
the tasks they are about. -/
theorem tasks_leave_in_order (crypto : Worker.Crypto) (workers threads : Nat)
    (labels : List PooledStep) (last : PooledServer)
    (reached : run (PooledServer.step crypto) (initial workers threads) labels = some last)
    (worker : WorkerId) :
    ofWorker last.handed worker last.pool.shared.extracted.reduceOption <+:
        ofWorker last.handed worker (List.range last.handed.length) ∧
      (taken last).filter (fun task => decide (task.worker = worker)) <+:
        last.handed.filter fun task => decide (task.worker = worker) := by
  obtain ⟨coupled, line⟩ := run_in_line reached
  have first := (coupled.pool.ring.order.filterMap id).filter
    (fun ticket => (last.handed[ticket]?).any fun task => decide (task.worker = worker))
  have begun : ofWorker last.handed worker last.pool.shared.extracted.reduceOption <+:
      ofWorker last.handed worker (List.range last.handed.length) := by
    rw [← line worker]
    exact first.trans (List.prefix_append _ _)
  have tasks := begun.filterMap fun ticket => last.handed[ticket]?
  rw [tasks_of_worker, tasks_of_worker, all_handed] at tasks
  exact ⟨begun, tasks⟩

theorem tasks_leave_in_order_answered :
    ∃ last, run (PooledServer.step { generateAcceptKey := id }) (initial 1 1) answeredRun =
        some last ∧
      (taken last).length = 1 ∧
      ofWorker last.handed 0 last.pool.shared.extracted.reduceOption <+:
        ofWorker last.handed 0 (List.range last.handed.length) ∧
      (taken last).filter (fun task => decide (task.worker = 0)) <+:
        last.handed.filter fun task => decide (task.worker = 0) := by
  have goes : (run (PooledServer.step { generateAcceptKey := id }) (initial 1 1) answeredRun).any
      (fun last => decide ((taken last).length = 1)) = true := by
    decide +kernel
  obtain ⟨last, reached, one⟩ := run_ends goes
  exact ⟨last, reached, one,
    tasks_leave_in_order { generateAcceptKey := id } 1 1 answeredRun last reached 0⟩

end HttpServer.PooledServer
