import HttpServer.DescriptorLeaks

/-!
# The clock and the idle connections

`sweepIdleConnections` runs at the end of every turn of a worker's loop and drops
the connections of its table whose `lastActivity_` lies more than thirty whole
seconds back. The server of `TcpServer` may sweep any connections; here it has the
steady clock, time passes between its steps, and a sweep takes just those that
`isIdle` finds. A connection nothing happens on is gone after the timeout and one
turn of the loop, whatever it was upgraded to and whatever is pushed to it; one
that stays active is never taken.
-/

namespace HttpServer

/-- The ticks of `steady_clock`. -/
def nanosecondsPerSecond : Nat := 1000000000

def Worker.connectionTimeoutSeconds : Nat := 30

/-- The cast to seconds drops the fraction. -/
def ClientConnection.isIdle (lastActivity now timeoutSeconds : Nat) : Bool :=
  decide (timeoutSeconds < (now - lastActivity) / nanosecondsPerSecond)

structure TimedServer where
  server : TcpServer := {}
  now : Nat := 0
  /-- `lastActivity_` -/
  lastActivity : ConnectionId → Nat := fun _ => 0
  swept : WorkerId → Nat := fun _ => 0

inductive TimedStep where
  | tick (elapsed : Nat)
  | server (label : ServerStep)
deriving DecidableEq, Repr

namespace TimedServer

def stamped {Key : Type*} [DecidableEq Key] (times : Key → Nat) (now : Nat) :
    Option Key → Key → Nat
  | some key => Function.update times key now
  | none => times

def idleFd (timed : TimedServer) (worker : WorkerId) (id : ConnectionId) : Option Fd :=
  match timed.server.objects id with
  | some object =>
      if object.worker = worker ∧ (timed.server.workers worker).table object.fd = some id ∧
          ClientConnection.isIdle (timed.lastActivity id) timed.now
            Worker.connectionTimeoutSeconds = true then
        some object.fd
      else none
  | none => none

/-- What the first loop of `sweepIdleConnections` collects. -/
def staleFds (timed : TimedServer) (worker : WorkerId) : List Fd :=
  (List.range timed.server.accepted).filterMap (timed.idleFd worker)

/-- The table is unordered: its numbers come in any order. -/
def Permits (timed : TimedServer) : ServerStep → Prop
  | .sweep worker stale => stale.Perm (timed.staleFds worker)
  | _ => True

instance (timed : TimedServer) : ∀ label, Decidable (timed.Permits label)
  | .sweep worker stale => inferInstanceAs (Decidable (stale.Perm (timed.staleFds worker)))
  | .decide _ | .wait _ _ | .accept _ _ | .acceptEnd _ | .client _ _ | .teardown _ _
  | .finish _ _ | .drop _ | .hold _ | .release _ | .stop => isTrue trivial

/-- The connection whose `lastActivity_` the step sets: a new one, one with input to
read, one whose response was sent. Frames pushed or answered over WebSocket and
HTTP/2 responses set none. -/
def activityOf (server : TcpServer) : ServerStep → Option ConnectionId
  | .accept _ _ => some server.accepted
  | .client worker _ =>
      match (server.workers worker).phase with
      | .handling (.client fd .readable :: _) => (server.workers worker).table fd
      | _ => none
  | .finish index throws =>
      match server.tasks[index]? with
      | some task =>
          match task.task with
          | .http _ _ => if throws then none else some task.connection
          | _ => none
      | none => none
  | _ => none

def sweeper : ServerStep → Option WorkerId
  | .sweep worker _ => some worker
  | _ => none

def step (crypto : Worker.Crypto) (timed : TimedServer) : TimedStep → Option TimedServer
  | .tick elapsed => some { timed with now := timed.now + elapsed }
  | .server label =>
      if timed.Permits label then
        (timed.server.step crypto label).map fun following =>
          { server := following
            now := timed.now
            lastActivity := stamped timed.lastActivity timed.now (activityOf timed.server label)
            swept := stamped timed.swept timed.now (sweeper label) }
      else none

end TimedServer

namespace IdleConnections

open TransitionSystem TcpServer DescriptorOwnership DescriptorRuns DescriptorLeaks TimedServer

section Stamps

variable {Key : Type*} [DecidableEq Key] {times : Key → Nat} {now : Nat} {marked : Option Key}

theorem stamped_other {key : Key} (unmarked : marked ≠ some key) :
    stamped times now marked key = times key := by
  cases marked with
  | none => rfl
  | some other =>
      have different : key ≠ other := fun same => unmarked (congrArg some same.symm)
      exact Function.update_of_ne different ..

theorem stamped_self (key : Key) : stamped times now (some key) key = now :=
  Function.update_self ..

theorem stamped_le (past : ∀ key, times key ≤ now) (key : Key) :
    stamped times now marked key ≤ now := by
  by_cases here : marked = some key
  · rw [here, stamped_self]
  · rw [stamped_other here]
    exact past key

theorem le_stamped (past : ∀ key, times key ≤ now) (key : Key) :
    times key ≤ stamped times now marked key := by
  by_cases here : marked = some key
  · rw [here, stamped_self]
    exact past key
  · rw [stamped_other here]

end Stamps

/-- The time after which a connection counts as idle: one second more than the timeout. -/
def idleAfter : Nat := (Worker.connectionTimeoutSeconds + 1) * nanosecondsPerSecond

theorem is_idle_iff (lastActivity now : Nat) :
    ClientConnection.isIdle lastActivity now Worker.connectionTimeoutSeconds = true ↔
      lastActivity + idleAfter ≤ now := by
  have positive : 0 < nanosecondsPerSecond := by decide
  have some : 0 < idleAfter := by decide
  rw [ClientConnection.isIdle, decide_eq_true_eq, Nat.lt_iff_add_one_le,
    Nat.le_div_iff_mul_le positive, ← idleAfter]
  omega

section Tables

variable {server : TcpServer} {worker : WorkerId} {fd : Fd}

theorem disconnect_drops (alive : (server.disconnectClient worker fd).terminated = false) :
    ((server.disconnectClient worker fd).workers worker).table fd = none := by
  unfold disconnectClient at alive ⊢
  split
  · rw [erase_table, if_pos ⟨rfl, rfl⟩]
  · rename_i unregistered
    rw [if_neg unregistered] at alive
    cases alive

theorem sweep_drops (stale : List Fd) {server : TcpServer}
    (alive : (server.sweepIdleConnections worker stale).terminated = false) :
    ∀ fd ∈ stale, ((server.sweepIdleConnections worker stale).workers worker).table fd = none := by
  induction stale generalizing server with
  | nil =>
      intro fd member
      cases member
  | cons number stale ih =>
      intro fd member
      unfold sweepIdleConnections at alive ⊢
      dsimp only at alive ⊢
      split
      · rename_i stopped
        rw [if_pos stopped] at alive
        rw [stopped] at alive
        cases alive
      · rename_i onward
        rw [if_neg onward] at alive
        rcases List.mem_cons.mp member with here | later
        · have gone := disconnect_drops (Bool.eq_false_iff.mpr onward)
          rw [here]
          cases left : ((sweepIdleConnections (server.disconnectClient worker number) worker
              stale).workers worker).table number with
          | none => rfl
          | some id =>
              have before := (entries_survive _).sweep stale (fun _ _ _ same => same)
                worker number id left
              rw [gone] at before
              cases before
        · exact ih alive fd later

end Tables

section Timed

variable {crypto : Worker.Crypto} {timed after : TimedServer}

theorem timed_step_cases {label : TimedStep}
    (stepped : timed.step crypto label = some after) :
    (∃ elapsed, label = .tick elapsed ∧ after = { timed with now := timed.now + elapsed }) ∨
      ∃ inner following, label = .server inner ∧ timed.Permits inner ∧
        timed.server.step crypto inner = some following ∧
        after =
          { server := following
            now := timed.now
            lastActivity := stamped timed.lastActivity timed.now (activityOf timed.server inner)
            swept := stamped timed.swept timed.now (sweeper inner) } := by
  cases label with
  | tick elapsed => exact Or.inl ⟨elapsed, rfl, (Option.some.inj stepped).symm⟩
  | server inner =>
      unfold TimedServer.step at stepped
      dsimp only at stepped
      split at stepped
      · rename_i permitted
        obtain ⟨following, taken, same⟩ := Option.map_eq_some_iff.mp stepped
        exact Or.inr ⟨inner, following, rfl, permitted, taken, same.symm⟩
      · cases stepped

def serverLabel : TimedStep → Option ServerStep
  | .tick _ => none
  | .server label => some label

theorem timed_run_serves {labels : List TimedStep}
    (reached : run (TimedServer.step crypto) timed labels = some after) :
    run (TcpServer.step crypto) timed.server (labels.filterMap serverLabel) =
      some after.server := by
  induction labels generalizing timed with
  | nil =>
      cases reached
      rfl
  | cons label labels ih =>
      obtain ⟨following, stepped, rest⟩ := run_cons reached
      rcases timed_step_cases stepped with ⟨elapsed, rfl, rfl⟩ | ⟨inner, next, rfl, _, taken, rfl⟩
      · have onward := ih rest
        exact onward
      · have onward := ih rest
        change run _ timed.server (inner :: labels.filterMap serverLabel) = _
        rw [run, taken]
        exact onward

structure Clocked (timed : TimedServer) : Prop where
  placed : Placed timed.server
  kept : Kept timed.server fun _ => False
  active : ∀ id, timed.lastActivity id ≤ timed.now
  swept : ∀ worker, timed.swept worker ≤ timed.now

theorem initially_clocked : Clocked {} where
  placed := by
    intro worker fd id entry
    cases entry
  kept := initially_kept
  active _ := Nat.le_refl 0
  swept _ := Nat.le_refl 0

theorem step_clocked {label : TimedStep} (clocked : Clocked timed)
    (stepped : timed.step crypto label = some after) : Clocked after := by
  rcases timed_step_cases stepped with ⟨elapsed, rfl, rfl⟩ | ⟨inner, next, rfl, _, taken, rfl⟩
  · exact {
      placed := clocked.placed
      kept := clocked.kept
      active := fun id => Nat.le_add_right_of_le (clocked.active id)
      swept := fun worker => Nat.le_add_right_of_le (clocked.swept worker) }
  · exact {
      placed := placed_survives.step
        (fun _ _ _ => placed_accept clocked.placed clocked.kept.fresh) clocked.placed taken
      kept := step_kept clocked.kept taken
      active := stamped_le clocked.active
      swept := stamped_le clocked.swept }

theorem idle_entry_stale (clocked : Clocked timed) {worker : WorkerId} {fd : Fd}
    {id : ConnectionId} (entry : (timed.server.workers worker).table fd = some id)
    (idle : timed.lastActivity id + idleAfter ≤ timed.now) : fd ∈ timed.staleFds worker := by
  obtain ⟨object, found, here, home⟩ := clocked.placed worker fd id entry
  refine List.mem_filterMap.mpr ⟨id, List.mem_range.mpr (clocked.kept.fresh id object found), ?_⟩
  unfold idleFd
  rw [found]
  dsimp only
  rw [if_pos ⟨home, here ▸ entry, (is_idle_iff _ _).mpr idle⟩, here]

theorem stale_entry_idle {worker : WorkerId} {fd : Fd} (stale : fd ∈ timed.staleFds worker) :
    ∃ id, (timed.server.workers worker).table fd = some id ∧
      timed.lastActivity id + idleAfter ≤ timed.now := by
  obtain ⟨id, _, found⟩ := List.mem_filterMap.mp stale
  unfold idleFd at found
  split at found
  · split at found
    · rename_i object _ idle
      cases found
      exact ⟨id, idle.2.1, (is_idle_iff _ _).mp idle.2.2⟩
    · cases found
  · cases found

def Sweeps (worker : WorkerId) (turn : Nat) (timed : TimedServer) : TimedStep → Prop
  | .tick elapsed => timed.now + elapsed ≤ timed.swept worker + turn
  | .server _ => True

instance (worker : WorkerId) (turn : Nat) (timed : TimedServer) :
    ∀ label, Decidable (Sweeps worker turn timed label)
  | .tick elapsed => inferInstanceAs (Decidable (timed.now + elapsed ≤ timed.swept worker + turn))
  | .server _ => isTrue trivial

/-- What is in the table was not idle when its worker last swept. -/
structure Watched (worker : WorkerId) (turn : Nat) (timed : TimedServer) : Prop where
  clocked : Clocked timed
  recent : timed.server.terminated = false → ∀ fd id,
    (timed.server.workers worker).table fd = some id →
      timed.swept worker < timed.lastActivity id + idleAfter
  prompt : timed.now ≤ timed.swept worker + turn

theorem step_alive {server following : TcpServer} {label : ServerStep}
    (stepped : server.step crypto label = some following) : server.terminated = false := by
  cases dead : server.terminated with
  | false => rfl
  | true =>
      simp [TcpServer.step, dead] at stepped

theorem step_watched {worker : WorkerId} {turn : Nat} {label : TimedStep}
    (watched : Watched worker turn timed) (sweeps : Sweeps worker turn timed label)
    (stepped : timed.step crypto label = some after) : Watched worker turn after := by
  have clocked := step_clocked watched.clocked stepped
  rcases timed_step_cases stepped with
    ⟨elapsed, rfl, rfl⟩ | ⟨inner, next, rfl, permitted, taken, rfl⟩
  · exact ⟨clocked, watched.recent, sweeps⟩
  · have alive := step_alive taken
    have later : ∀ id, timed.lastActivity id ≤
        stamped timed.lastActivity timed.now (activityOf timed.server inner) id :=
      le_stamped watched.clocked.active
    refine ⟨clocked, ?_, ?_⟩
    · intro running fd id entry
      dsimp only at running entry ⊢
      by_cases swept : sweeper inner = some worker
      · -- what the sweep has left was not idle
        rw [swept, stamped_self]
        cases inner with
        | sweep own stale =>
            cases swept
            rcases step_entries taken entry with before | ⟨accepts, _⟩
            · refine Nat.lt_of_not_le fun idle => ?_
              have listed : fd ∈ stale :=
                permitted.mem_iff.mpr (idle_entry_stale watched.clocked before idle)
              cases step_stepped taken
              rw [setPhase, update_worker_same] at entry
              rw [sweep_drops stale running fd listed] at entry
              cases entry
            · cases accepts
        | _ => cases swept
      · rw [stamped_other swept]
        rcases step_entries taken entry with before | ⟨accepts, new⟩
        · exact Nat.lt_of_lt_of_le (watched.recent alive fd id before)
            (Nat.add_le_add_right (later id) idleAfter)
        · have positive : 0 < idleAfter := by decide
          have past := watched.clocked.swept worker
          rw [accepts, new, activityOf, stamped_self]
          omega
    · exact Nat.le_trans watched.prompt
        (Nat.add_le_add_right (le_stamped watched.clocked.swept worker) turn)

/-- No input is read from the connection, and no response sent on it. -/
def Quiet (id : ConnectionId) (timed : TimedServer) : TimedStep → Prop
  | .tick _ => True
  | .server label => activityOf timed.server label ≠ some id

instance (id : ConnectionId) (timed : TimedServer) : ∀ label, Decidable (Quiet id timed label)
  | .tick _ => isTrue trivial
  | .server label => inferInstanceAs (Decidable (activityOf timed.server label ≠ some id))

theorem quiet_stays {id : ConnectionId} {labels : List TimedStep}
    (quiet : Respects (TimedServer.step crypto) (Quiet id) timed labels)
    (reached : run (TimedServer.step crypto) timed labels = some after) :
    after.lastActivity id = timed.lastActivity id := by
  refine run_invariant (fun reached => reached.lastActivity id = timed.lastActivity id)
    ?_ rfl quiet reached
  intro before label following same silent stepped
  rcases timed_step_cases stepped with ⟨elapsed, rfl, rfl⟩ | ⟨inner, next, rfl, _, _, rfl⟩
  · exact same
  · exact (stamped_other silent).trans same

/-- Something happens on the connection in time, for as long as it is in its table. -/
def Busy (id : ConnectionId) (timed : TimedServer) : TimedStep → Prop
  | .tick elapsed =>
      timed.server.inTable id = true → timed.now + elapsed < timed.lastActivity id + idleAfter
  | .server _ => True

instance (id : ConnectionId) (timed : TimedServer) : ∀ label, Decidable (Busy id timed label)
  | .tick elapsed => inferInstanceAs (Decidable (timed.server.inTable id = true →
      timed.now + elapsed < timed.lastActivity id + idleAfter))
  | .server _ => isTrue trivial

def sweptAway (timed : TimedServer) : TimedStep → List ConnectionId
  | .server (.sweep worker stale) => stale.filterMap (timed.server.workers worker).table
  | _ => []

theorem in_table_entry {server : TcpServer} {id : ConnectionId}
    (listed : server.inTable id = true) :
    ∃ worker fd, (server.workers worker).table fd = some id := by
  unfold inTable at listed
  split at listed
  · rename_i object _
    exact ⟨object.worker, object.fd, of_decide_eq_true listed⟩
  · cases listed

theorem entry_in_table {server : TcpServer} (placed : Placed server) {worker : WorkerId} {fd : Fd}
    {id : ConnectionId} (entry : (server.workers worker).table fd = some id) :
    server.inTable id = true := by
  obtain ⟨object, found, here, home⟩ := placed worker fd id entry
  simp [inTable, found, here, home, entry]

structure Lively (id : ConnectionId) (timed : TimedServer) : Prop where
  clocked : Clocked timed
  recent : timed.server.inTable id = true → timed.now < timed.lastActivity id + idleAfter

theorem step_lively {id : ConnectionId} {label : TimedStep} (lively : Lively id timed)
    (busy : Busy id timed label) (stepped : timed.step crypto label = some after) :
    Lively id after ∧ id ∉ sweptAway timed label := by
  have clocked := step_clocked lively.clocked stepped
  rcases timed_step_cases stepped with
    ⟨elapsed, rfl, rfl⟩ | ⟨inner, next, rfl, permitted, taken, rfl⟩
  · exact ⟨⟨clocked, busy⟩, List.not_mem_nil⟩
  · refine ⟨⟨clocked, ?_⟩, ?_⟩
    · intro listed
      dsimp only at listed ⊢
      obtain ⟨worker, fd, entry⟩ := in_table_entry listed
      rcases step_entries taken entry with before | ⟨accepts, new⟩
      · exact Nat.lt_of_lt_of_le (lively.recent (entry_in_table lively.clocked.placed before))
          (Nat.add_le_add_right (le_stamped lively.clocked.active id) idleAfter)
      · have positive : 0 < idleAfter := by decide
        rw [accepts, new, activityOf, stamped_self]
        omega
    · cases inner with
      | sweep worker stale =>
          intro member
          obtain ⟨fd, listed, entry⟩ := List.mem_filterMap.mp member
          obtain ⟨other, same, idle⟩ := stale_entry_idle (permitted.mem_iff.mp listed)
          rw [entry] at same
          cases same
          exact Nat.not_le.mpr
            (lively.recent (entry_in_table lively.clocked.placed entry)) idle
      | _ => exact List.not_mem_nil

end Timed

theorem idle_connections_closed (crypto : Worker.Crypto) (worker : WorkerId) (turn : Nat)
    (before after : List TimedStep) (middle last : TimedServer) (id : ConnectionId)
    (reached : run (TimedServer.step crypto) {} before = some middle)
    (onward : run (TimedServer.step crypto) middle after = some last)
    (sweeping : Respects (TimedServer.step crypto) (Sweeps worker turn) {} (before ++ after))
    (quiet : Respects (TimedServer.step crypto) (Quiet id) middle after)
    (long : middle.now + idleAfter + turn ≤ last.now)
    (home : ∀ object ∈ last.server.objects id, object.worker = worker)
    (alive : last.server.terminated = false) :
    (∀ fd, (last.server.workers worker).table fd ≠ some id) ∧
      ∀ fd, last.server.owner fd = some id →
        id ∈ last.server.holds ∨ ∃ task ∈ last.server.tasks, task.connection = id := by
  have whole : run (TimedServer.step crypto) {} (before ++ after) = some last := by
    rw [run_append, reached]
    exact onward
  have watched : Watched worker turn last :=
    run_invariant (Watched worker turn) (fun _ _ _ watched sweeps stepped =>
        step_watched watched sweeps stepped)
      ⟨initially_clocked, fun _ _ _ entry => (by cases entry), Nat.zero_le _⟩ sweeping whole
  have unlisted : ∀ fd, (last.server.workers worker).table fd ≠ some id := by
    intro fd entry
    have recent := watched.recent alive fd id entry
    have prompt := watched.prompt
    have same := quiet_stays quiet onward
    have past := (run_keeps Clocked (fun _ _ _ clocked stepped => step_clocked clocked stepped)
      initially_clocked reached).active id
    omega
  refine ⟨unlisted, ?_⟩
  intro fd opened
  obtain ⟨object, found, _⟩ := watched.clocked.kept.owned fd id opened
  rcases watched.clocked.kept.held id object found not_false with entry | elsewhere
  · rw [home object found] at entry
    exact absurd entry (unlisted object.fd)
  · exact elsewhere

def askedRun : List TimedStep := (eventRun 7 keepAliveRequest).map .server

def silentRun : List TimedStep :=
  [.tick 40000000000, .server (.decide 0), .server (.wait 0 []), .server (.sweep 0 [7]),
    .tick 40000000000]

/-- The answer takes too long: the connection goes, its number stays open for the task. -/
theorem idle_connections_closed_unanswered :
    ∃ last, run (TimedServer.step { generateAcceptKey := id }) {} (askedRun ++ silentRun) =
        some last ∧
      last.server.owner 7 = some 0 ∧ (∀ fd, (last.server.workers 0).table fd ≠ some 0) ∧
      (0 ∈ last.server.holds ∨ ∃ task ∈ last.server.tasks, task.connection = 0) := by
  have starts : ∃ middle, run (TimedServer.step { generateAcceptKey := id }) {} askedRun =
      some middle ∧ middle.now = 0 ∧
        Respects (TimedServer.step { generateAcceptKey := id }) (Quiet 0) middle silentRun ∧
        (run (TimedServer.step { generateAcceptKey := id }) middle silentRun).any (fun last =>
          decide (last.now = 80000000000 ∧ last.server.terminated = false ∧
            last.server.owner 7 = some 0 ∧
            (last.server.objects 0).map ConnectionObject.worker = some 0)) = true := by
    apply run_ends
    decide +kernel
  obtain ⟨middle, reached, begun, quiet, ends⟩ := starts
  obtain ⟨last, onward, now, alive, opened, home⟩ := run_ends ends
  have sweeping : Respects (TimedServer.step { generateAcceptKey := id }) (Sweeps 0 40000000000)
      {} (askedRun ++ silentRun) := by
    decide +kernel
  have long : middle.now + idleAfter + 40000000000 ≤ last.now := by
    rw [begun, now]
    decide
  have own : ∀ object ∈ last.server.objects 0, object.worker = 0 := by
    intro object found
    rw [Option.mem_def.mp found] at home
    exact Option.some.inj home
  obtain ⟨unlisted, held⟩ := idle_connections_closed { generateAcceptKey := id } 0 40000000000
    askedRun silentRun middle last 0 reached onward sweeping quiet long own alive
  refine ⟨last, ?_, opened, unlisted, held 7 opened⟩
  rw [run_append, reached]
  exact onward

/-- The connection in use asks every thirty seconds; the other one is upgraded to
nothing and says nothing. -/
def attendedRun : List TimedStep :=
  [.server (.decide 0), .server (.wait 0 [.listener]), .server (.accept 0 7),
    .server (.accept 0 8), .server (.acceptEnd 0), .server (.sweep 0 []),
    .tick 30000000000, .server (.decide 0), .server (.wait 0 [.client 7 .readable]),
    .server (.client 0 keepAliveRequest), .server (.sweep 0 []), .server (.finish 0 false),
    .tick 30000000000, .server (.decide 0), .server (.wait 0 []), .server (.sweep 0 [8])]

end IdleConnections

end HttpServer
