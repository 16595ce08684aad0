import HttpServer.Census
import HttpServer.ConnectionCount
import HttpServer.WaitingWorkers
import Mathlib.Algebra.Order.BigOperators.Group.Finset
import Mathlib.Data.Prod.Lex

/-!
# The end of the server

After `stop` every worker finishes its turn of the loop and leaves, its table goes,
the pool runs or drops its tasks, and the other holders of connections let go. These
steps come in any order and a worker may still take one more list of events, with
new tasks from it; they come to an end all the same, and then nothing is left open.
A step here is one that returns: this is about executions in which every call of
`enqueue` returns and every task ends, without the wait cycle that a full ring and the
mutex of a connection can make.
-/

namespace HttpServer.ServerShutdown

open TransitionSystem TcpServer DescriptorOwnership DescriptorRuns DescriptorLeaks
open ConnectionCount WorkerLifetime WaitingWorkers

def OfWorkers (workers : Nat) (label : ServerStep) : Prop :=
  ∀ worker ∈ workerOf label, worker < workers

instance (workers : Nat) (label : ServerStep) : Decidable (OfWorkers workers label) :=
  inferInstanceAs (Decidable (∀ worker ∈ workerOf label, worker < workers))

/-- What is left to do when nobody connects any more and no other thread takes a
connection. -/
def Closing (workers : Nat) : ServerStep → Prop
  | .accept _ _ | .hold _ | .stop => False
  | label => OfWorkers workers label

structure Closed (workers : Nat) (server : TcpServer) : Prop where
  exited : ∀ worker < workers, (server.workers worker).phase = .exited
  objects : ∀ id, server.objects id = none
  owner : ∀ fd, server.owner fd = none
  tasks : server.tasks = []

section Rank

def waits : WorkerPhase → Nat
  | .waiting => 1
  | _ => 0

def turnsLeft : WorkerPhase → Nat
  | .deciding => 1
  | .handling events => events.length + 2
  | _ => 0

def taskWeight (task : PoolTask) : Nat := if task.ended then 1 else 2

noncomputable def holdersLeft (server : TcpServer) : Nat :=
  Census.total taskWeight server.tasks + server.holds.length + (entries server).ncard

def sumPhases (weight : WorkerPhase → Nat) (workers : Nat) (server : TcpServer) : Nat :=
  ∑ worker ∈ Finset.range workers, weight (server.workers worker).phase

/-- A worker that comes back from `epoll_wait` brings any number of events, and an event
any number of tasks. -/
noncomputable def shutdownRank (workers : Nat) (server : TcpServer) : ℕ ×ₗ ℕ ×ₗ ℕ :=
  toLex (sumPhases waits workers server,
    toLex (sumPhases turnsLeft workers server, holdersLeft server))

variable {workers : Nat} {server after : TcpServer} {worker : WorkerId}

theorem sum_phases_same {weight : WorkerPhase → Nat}
    (same : ∀ worker < workers,
      weight (after.workers worker).phase = weight (server.workers worker).phase) :
    sumPhases weight workers after = sumPhases weight workers server :=
  Finset.sum_congr rfl fun worker member => same worker (Finset.mem_range.mp member)

theorem sum_phases_falls {weight : WorkerPhase → Nat} (own : worker < workers)
    (others : ∀ other, other ≠ worker →
      (after.workers other).phase = (server.workers other).phase)
    (falls : weight (after.workers worker).phase < weight (server.workers worker).phase) :
    sumPhases weight workers after < sumPhases weight workers server := by
  refine Finset.sum_lt_sum ?_ ⟨worker, Finset.mem_range.mpr own, falls⟩
  intro other _
  by_cases here : other = worker
  · rw [here]
    exact Nat.le_of_lt falls
  · rw [others other here]

theorem rank_falls (own : worker < workers)
    (others : ∀ other, other ≠ worker →
      (after.workers other).phase = (server.workers other).phase)
    (still : waits (after.workers worker).phase ≤ waits (server.workers worker).phase)
    (falls : waits (after.workers worker).phase < waits (server.workers worker).phase ∨
      turnsLeft (after.workers worker).phase < turnsLeft (server.workers worker).phase) :
    shutdownRank workers after < shutdownRank workers server := by
  refine Prod.Lex.toLex_lt_toLex.mpr ?_
  rcases Nat.lt_or_eq_of_le still with fewer | same
  · exact Or.inl (sum_phases_falls own others fewer)
  · refine Or.inr ⟨?_, Prod.Lex.toLex_lt_toLex.mpr (Or.inl ?_)⟩
    · apply sum_phases_same
      intro other _
      by_cases here : other = worker
      · rw [here, same]
      · rw [others other here]
    · have ahead : turnsLeft (after.workers worker).phase <
          turnsLeft (server.workers worker).phase := by omega
      exact sum_phases_falls own others ahead

theorem rank_falls_holders
    (same : ∀ worker, (after.workers worker).phase = (server.workers worker).phase)
    (falls : holdersLeft after < holdersLeft server) :
    shutdownRank workers after < shutdownRank workers server := by
  refine Prod.Lex.toLex_lt_toLex.mpr (Or.inr ⟨?_, Prod.Lex.toLex_lt_toLex.mpr (Or.inr ⟨?_, falls⟩)⟩)
  · exact sum_phases_same fun worker _ => congrArg waits (same worker)
  · exact sum_phases_same fun worker _ => congrArg turnsLeft (same worker)

end Rank

section Steps

variable {crypto : Worker.Crypto} {workers : Nat} {server after : TcpServer} {label : ServerStep}

structure Sound (workers : Nat) (server : TcpServer) : Prop where
  finite : (entries server).Finite
  kept : Kept server fun _ => False
  within : EntriesIn (fun worker _ _ => worker < workers) server

theorem initially_sound (workers : Nat) : Sound workers {} where
  finite := by
    convert Set.finite_empty
    ext place
    simp [entries]
  kept := initially_kept
  within := by
    intro worker fd id entry
    cases entry

theorem step_sound (sound : Sound workers server) (own : OfWorkers workers label)
    (stepped : server.step crypto label = some after) : Sound workers after where
  finite := (step_balance sound.finite stepped).1
  kept := step_kept sound.kept stepped
  within := by
    intro worker fd id entry
    rcases step_entries stepped entry with before | ⟨accepts, _⟩
    · exact sound.within worker fd id before
    · subst accepts
      exact own worker rfl

theorem closing_of_workers (closing : Closing workers label) : OfWorkers workers label := by
  cases label with
  | accept _ _ => exact closing.elim
  | hold _ => exact closing.elim
  | stop => exact closing.elim
  | _ => exact closing

theorem release_holds (id : ConnectionId) : (server.releaseObject id).holds = server.holds := by
  unfold releaseObject
  repeat' split
  all_goals rfl

theorem erase_holds (worker : WorkerId) (fd : Fd) :
    (server.eraseEntry worker fd).holds = server.holds := by
  unfold eraseEntry
  split
  · exact release_holds _
  · rfl

theorem finish_holds (index : Nat) (task : PoolTask) (throws : Bool) :
    (server.finishTask index task throws).holds = server.holds := by
  unfold finishTask
  repeat' split
  all_goals rfl

theorem teardown_frees (finite : (entries server).Finite) {worker : WorkerId} {fd : Fd}
    (listed : ((server.workers worker).table fd).isSome = true) :
    holdersLeft (server.eraseEntry worker fd) < holdersLeft server := by
  have erased := (@erase_loses server worker fd).count finite
  rw [if_pos listed] at erased
  rw [holdersLeft, holdersLeft, (erase_entry_loops worker fd).tasks, erase_holds]
  omega

theorem finish_frees {index : Nat} {task : PoolTask} (queued : server.tasks[index]? = some task)
    (started : task.ended = false) (throws : Bool) :
    holdersLeft (server.finishTask index task throws) < holdersLeft server := by
  have moved := Census.total_set taskWeight queued { task with ended := true }
  have before : taskWeight task = 2 := by simp [taskWeight, started]
  have later : taskWeight { task with ended := true } = 1 := rfl
  rw [holdersLeft, holdersLeft, (finish_loops index task throws).tasks, finish_holds,
    entries_finish]
  change Census.total taskWeight (server.tasks.set index { task with ended := true }) +
    server.holds.length + _ < _
  omega

theorem drop_frees {index : Nat} {task : PoolTask} (queued : server.tasks[index]? = some task)
    (id : ConnectionId) :
    holdersLeft ({ server with tasks := server.tasks.eraseIdx index }.releaseObject id) <
      holdersLeft server := by
  have gone := Census.total_eraseIdx taskWeight queued
  have positive : 0 < taskWeight task := by
    unfold taskWeight
    split
    · exact Nat.one_pos
    · exact Nat.two_pos
  have same : entries { server with tasks := server.tasks.eraseIdx index } = entries server :=
    entries_same fun _ => rfl
  rw [holdersLeft, holdersLeft, (release_object_loops id).tasks, release_holds, entries_release,
    same]
  change Census.total taskWeight (server.tasks.eraseIdx index) + server.holds.length + _ < _
  omega

theorem release_listed {id : ConnectionId}
    (stepped : server.step crypto (.release id) = some after) : id ∈ server.holds := by
  unfold TcpServer.step at stepped
  split at stepped
  · cases stepped
  · dsimp only at stepped
    split at stepped
    · rename_i listed
      exact List.contains_iff_mem.mp listed
    · cases stepped

theorem release_frees {id : ConnectionId} (listed : id ∈ server.holds) :
    holdersLeft ({ server with holds := server.holds.erase id }.releaseObject id) <
      holdersLeft server := by
  have fewer := List.length_erase_of_mem listed
  have positive := List.length_pos_of_mem listed
  have same : entries { server with holds := server.holds.erase id } = entries server :=
    entries_same fun _ => rfl
  rw [holdersLeft, holdersLeft, (release_object_loops id).tasks, release_holds, entries_release,
    same]
  change Census.total taskWeight server.tasks + (server.holds.erase id).length + _ < _
  omega

theorem phase_moved {middle : TcpServer} {worker : WorkerId} {phase : WorkerPhase}
    (same : ∀ other, (after.workers other).phase =
      ((middle.setPhase worker phase).workers other).phase)
    (before : ∀ other, (middle.workers other).phase = (server.workers other).phase) :
    (after.workers worker).phase = phase ∧
      ∀ other, other ≠ worker → (after.workers other).phase = (server.workers other).phase := by
  refine ⟨(same worker).trans (set_phase_same middle worker phase), ?_⟩
  intro other different
  exact ((same other).trans (set_phase_other middle phase different)).trans (before other)

theorem step_falls (sound : Sound workers server) (off : server.running = false)
    (closing : Closing workers label) (stepped : server.step crypto label = some after) :
    shutdownRank workers after < shutdownRank workers server := by
  have own := closing_of_workers closing
  cases step_stepped stepped with
  | decide worker phase =>
      obtain ⟨moved, others⟩ := @phase_moved server _ server worker
        (if server.running then .waiting else .exited) (fun _ => rfl) (fun _ => rfl)
      rw [off, if_neg Bool.false_ne_true] at moved
      apply rank_falls (own worker rfl) others
      · rw [off, if_neg Bool.false_ne_true, moved, phase]
        exact Nat.le_refl 0
      · rw [off, if_neg Bool.false_ne_true, moved, phase]
        exact Or.inr Nat.one_pos
  | wait worker events phase ready distinct =>
      obtain ⟨moved, others⟩ := phase_moved (fun _ => rfl) (disarm_loops worker events server).phase
      apply rank_falls (own worker rfl) others
      · rw [moved, phase]
        exact Nat.zero_le _
      · rw [moved, phase]
        exact Or.inl Nat.one_pos
  | accept worker fd => exact closing.elim
  | acceptEnd worker events phase =>
      obtain ⟨moved, others⟩ := @phase_moved server _ server worker (.handling events)
        (fun _ => rfl) (fun _ => rfl)
      apply rank_falls (own worker rfl) others
      · rw [moved, phase]
        exact Nat.le_refl 0
      · rw [moved, phase]
        exact Or.inr (Nat.lt_succ_self _)
  | hangup worker event fd events phase =>
      obtain ⟨moved, others⟩ := phase_moved (disconnect_client_loops worker fd).phase (fun _ => rfl)
      apply rank_falls (own worker rfl) others
      · rw [moved, phase]
        exact Nat.le_refl 0
      · rw [moved, phase]
        exact Or.inr (Nat.lt_succ_self _)
  | readable worker event fd events phase =>
      obtain ⟨moved, others⟩ := phase_moved
        (handle_client_data_loops crypto worker fd event _).1 (fun _ => rfl)
      apply rank_falls (own worker rfl) others
      · rw [moved, phase]
        exact Nat.le_refl 0
      · rw [moved, phase]
        exact Or.inr (Nat.lt_succ_self _)
  | writable worker event fd events phase =>
      obtain ⟨moved, others⟩ := @phase_moved server _ server worker (.handling events)
        (fun _ => rfl) (fun _ => rfl)
      apply rank_falls (own worker rfl) others
      · rw [moved, phase]
        exact Nat.le_refl 0
      · rw [moved, phase]
        exact Or.inr (Nat.lt_succ_self _)
  | sweep worker stale phase =>
      obtain ⟨moved, others⟩ := phase_moved (fun _ => rfl) (sweep_loops worker stale server).phase
      apply rank_falls (own worker rfl) others
      · rw [moved, phase]
        exact Nat.le_refl 0
      · rw [moved, phase]
        exact Or.inr (Nat.lt_succ_self _)
  | teardown worker fd =>
      exact rank_falls_holders (erase_entry_loops worker fd).phase
        (teardown_frees sound.finite (teardown_listed stepped))
  | finish index throws task queued started =>
      exact rank_falls_holders (finish_loops index task throws).phase
        (finish_frees queued started throws)
  | drop index task queued =>
      exact rank_falls_holders (release_object_loops _).phase (drop_frees queued _)
  | hold id => exact closing.elim
  | release id =>
      exact rank_falls_holders (release_object_loops _).phase
        (release_frees (release_listed stepped))
  | stop => exact closing.elim

end Steps

section Rest

variable {crypto : Worker.Crypto} {workers : Nat} {server : TcpServer}

/-- A worker that is not through always has a step to take. -/
theorem resting_exited (alive : server.terminated = false)
    (rests : ∀ label, Closing workers label → server.step crypto label = none)
    {worker : WorkerId} (own : worker < workers) : (server.workers worker).phase = .exited := by
  have mine : ∀ other ∈ some worker, other < workers := by
    intro other same
    cases same
    exact own
  cases phase : (server.workers worker).phase with
  | deciding =>
      have stuck := rests (.decide worker) mine
      simp [TcpServer.step, alive, phase] at stuck
  | waiting =>
      have stuck := rests (.wait worker []) mine
      simp [TcpServer.step, alive, phase] at stuck
  | handling events =>
      cases events with
      | nil =>
          have stuck := rests (.sweep worker []) mine
          simp [TcpServer.step, alive, phase] at stuck
      | cons event events =>
          cases event with
          | listener =>
              have stuck := rests (.acceptEnd worker) mine
              simp [TcpServer.step, alive, phase] at stuck
          | client fd readiness =>
              have stuck := rests (.client worker {}) mine
              cases readiness <;> simp [TcpServer.step, alive, phase] at stuck
  | exited => rfl

theorem resting_closed (sound : Sound workers server) (alive : server.terminated = false)
    (rests : ∀ label, Closing workers label → server.step crypto label = none) :
    Closed workers server := by
  have exited : ∀ worker < workers, (server.workers worker).phase = .exited :=
    fun worker own => resting_exited alive rests own
  have tables : ∀ worker fd id, (server.workers worker).table fd ≠ some id := by
    intro worker fd id entry
    have own := sound.within worker fd id entry
    have stuck := rests (.teardown worker fd) (by
      intro other same
      cases same
      exact own)
    simp [TcpServer.step, alive, exited worker own, entry] at stuck
  have nobody : ∀ label, workerOf label = none → OfWorkers workers label := by
    intro label none worker same
    rw [none] at same
    cases same
  have tasks : server.tasks = [] := by
    cases queued : server.tasks with
    | nil => rfl
    | cons task tasks =>
        cases ended : task.ended with
        | true =>
            have stuck := rests (.drop 0) (nobody _ rfl)
            simp [TcpServer.step, alive, queued, ended] at stuck
        | false =>
            have stuck := rests (.finish 0 false) (nobody _ rfl)
            simp [TcpServer.step, alive, queued, ended] at stuck
  have holds : server.holds = [] := by
    cases listed : server.holds with
    | nil => rfl
    | cons id holds =>
        have stuck := rests (.release id) (nobody _ rfl)
        simp [TcpServer.step, alive, listed] at stuck
  have objects : ∀ id, server.objects id = none := by
    intro id
    cases found : server.objects id with
    | none => rfl
    | some object =>
        rcases sound.kept.held id object found not_false with entry | holder | ⟨task, queued, _⟩
        · exact absurd entry (tables _ _ _)
        · rw [holds] at holder
          cases holder
        · rw [tasks] at queued
          cases queued
  refine ⟨exited, objects, ?_, tasks⟩
  intro fd
  cases opened : server.owner fd with
  | none => rfl
  | some id =>
      obtain ⟨object, found, _⟩ := sound.kept.owned fd id opened
      rw [objects] at found
      cases found

end Rest

/-- Where `enqueue` and the tasks return, the last steps cannot go on for ever; where
none is left, everything is closed, or an exception has ended the process before. -/
theorem shutdown_closes_everything (crypto : Worker.Crypto) (workers : Nat)
    (labels : List ServerStep) (server : TcpServer)
    (made : ∀ label ∈ labels, OfWorkers workers label)
    (reached : run (step crypto) {} labels = some server) (stopped : server.running = false) :
    (∀ (states : Nat → TcpServer) (steps : Nat → ServerStep), states 0 = server →
      (∀ turn, Closing workers (steps turn)) →
        ¬∀ turn, step crypto (states turn) (steps turn) = some (states (turn + 1))) ∧
    ∀ (more : List ServerStep) (last : TcpServer), (∀ label ∈ more, Closing workers label) →
      run (step crypto) server more = some last →
        (∃ label, Closing workers label ∧ (step crypto last label).isSome = true) ∨
          last.terminated = true ∨ Closed workers last := by
  have sound : Sound workers server :=
    run_invariant (Sound workers) (fun _ _ _ sound own stepped => step_sound sound own stepped)
      (initially_sound workers) (respects_of_labels _ made _) reached
  have kept : ∀ before label after, Sound workers before ∧ before.running = false →
      Closing workers label → step crypto before label = some after →
        (Sound workers after ∧ after.running = false) ∧
          shutdownRank workers after < shutdownRank workers before := by
    rintro before label after ⟨sound, off⟩ closing stepped
    exact ⟨⟨step_sound sound (closing_of_workers closing) stepped,
      stopped_stays off stepped⟩, step_falls sound off closing stepped⟩
  refine ⟨?_, ?_⟩
  · intro states steps start permits
    exact no_endless_run (fun server => Sound workers server ∧ server.running = false)
      (shutdownRank workers) kept (start ▸ ⟨sound, stopped⟩) permits
  · intro more last closing onward
    have still := run_invariant (fun server => Sound workers server ∧ server.running = false)
      (fun before label after holds closing stepped =>
        (kept before label after holds closing stepped).1)
      ⟨sound, stopped⟩ (respects_of_labels _ closing _) onward
    by_cases resting : ∀ label, Closing workers label → step crypto last label = none
    · right
      cases alive : last.terminated with
      | true => exact Or.inl rfl
      | false => exact Or.inr (resting_closed still.1 alive resting)
    · left
      obtain ⟨label, enabled⟩ := not_forall.mp resting
      obtain ⟨permitted, moves⟩ := Classical.not_imp.mp enabled
      exact ⟨label, permitted, Option.isSome_iff_ne_none.mpr moves⟩

/-- The server is stopped with a request in the pool and its worker about to look at
the flag. -/
theorem shutdown_closes_everything_asked :
    ∃ server last, run (step { generateAcceptKey := id }) {}
        (eventRun 7 keepAliveRequest ++ [.stop]) = some server ∧
      run (step { generateAcceptKey := id }) server
        [.decide 0, .teardown 0 7, .finish 0 false, .drop 0] = some last ∧
      last.owner 7 = none ∧
      ((∃ label, Closing 1 label ∧
          (step { generateAcceptKey := id } last label).isSome = true) ∨
        last.terminated = true ∨ Closed 1 last) := by
  have stops : ∃ server, run (step { generateAcceptKey := id }) {}
      (eventRun 7 keepAliveRequest ++ [.stop]) = some server ∧ server.running = false ∧
        (run (step { generateAcceptKey := id }) server
          [.decide 0, .teardown 0 7, .finish 0 false, .drop 0]).any
            (fun last => decide (last.owner 7 = none)) = true := by
    apply run_ends
    decide +kernel
  obtain ⟨server, reached, stopped, goes⟩ := stops
  obtain ⟨last, onward, freed⟩ := run_ends goes
  refine ⟨server, last, reached, onward, freed, ?_⟩
  exact (shutdown_closes_everything { generateAcceptKey := id } 1
    (eventRun 7 keepAliveRequest ++ [.stop]) server (by decide) reached stopped).2
    [.decide 0, .teardown 0 7, .finish 0 false, .drop 0] last
    (by simp [Closing, OfWorkers, workerOf]) onward

end HttpServer.ServerShutdown
