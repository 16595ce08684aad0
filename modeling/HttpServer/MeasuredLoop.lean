import Mathlib.Data.List.Chain
import Mathlib.Data.Nat.Init
import Mathlib.Logic.Relation

/-!
# Loops with a ranking function, and loops that can be resumed

A `Loop` is a `while (true)` whose every continuing turn lowers a rank, so it
has a result at every state; the rank is the fuel of a structural recursion and
the loop stays executable. `Resumable` adds what an incremental reader needs:
the turns are indexed by the input seen so far, and a suspended loop restarted
on a longer input behaves as if it had been given that input at once.
-/

namespace MeasuredLoop

universe u v w

inductive Turn (State : Type u) (Result : Type v) where
  | next (state : State)
  | done (result : Result)

/-- At most `fuel` turns of the loop; `none` only when the fuel runs out. -/
def runFor {State : Type u} {Result : Type v} (turn : State → Turn State Result) :
    Nat → State → Option Result
  | 0, _ => none
  | fuel + 1, state =>
      match turn state with
      | .next following => runFor turn fuel following
      | .done result => some result

/-- The states in which those turns are taken. -/
def pathFor {State : Type u} {Result : Type v} (turn : State → Turn State Result) :
    Nat → State → List State
  | 0, _ => []
  | fuel + 1, state =>
      state ::
        match turn state with
        | .next following => pathFor turn fuel following
        | .done _ => []

structure Loop (State : Type u) (Result : Type v) where
  turn : State → Turn State Result
  rank : State → Nat
  decreases : ∀ state following, turn state = .next following → rank following < rank state

namespace Loop

variable {State : Type u} {Result : Type v} (loop : Loop State Result)

theorem run_for_is_some (fuel : Nat) (state : State) (enough : loop.rank state < fuel) :
    (runFor loop.turn fuel state).isSome = true := by
  induction fuel generalizing state with
  | zero => omega
  | succ fuel ih =>
      simp only [runFor]
      cases turned : loop.turn state with
      | next following =>
          have lower := loop.decreases state following turned
          exact ih following (by omega)
      | done result => rfl

def run (state : State) : Result :=
  (runFor loop.turn (loop.rank state + 1) state).get
    (loop.run_for_is_some _ state (Nat.lt_succ_self _))

theorem run_for_eq_some_run (fuel : Nat) (state : State) (enough : loop.rank state < fuel) :
    runFor loop.turn fuel state = some (loop.run state) := by
  have same : ∀ (first second : Nat) (start : State),
      loop.rank start < first → loop.rank start < second →
        runFor loop.turn first start = runFor loop.turn second start := by
    intro first
    induction first with
    | zero => omega
    | succ first ih =>
        intro second start firstEnough secondEnough
        cases second with
        | zero => omega
        | succ second =>
            simp only [runFor]
            cases turned : loop.turn start with
            | next following =>
                have lower := loop.decreases start following turned
                exact ih second following (by omega) (by omega)
            | done result => rfl
  rw [same fuel (loop.rank state + 1) state enough (Nat.lt_succ_self _), run, Option.some_get]

theorem run_done {state : State} {result : Result} (turned : loop.turn state = .done result) :
    loop.run state = result := by
  simp only [run, runFor, turned, Option.get_some]

theorem run_next {state following : State} (turned : loop.turn state = .next following) :
    loop.run state = loop.run following := by
  have lower := loop.decreases state following turned
  have unfolded := loop.run_for_eq_some_run (loop.rank state + 1) state (Nat.lt_succ_self _)
  simp only [runFor, turned] at unfolded
  rw [loop.run_for_eq_some_run (loop.rank state) following lower] at unfolded
  exact (Option.some.inj unfolded).symm

/-- Every state in which the loop takes a turn, in order. -/
def path (state : State) : List State := pathFor loop.turn (loop.rank state + 1) state

theorem path_done {state : State} {result : Result} (turned : loop.turn state = .done result) :
    loop.path state = [state] := by
  simp only [path, pathFor, turned]

theorem path_next {state following : State} (turned : loop.turn state = .next following) :
    loop.path state = state :: loop.path following := by
  have same : ∀ (first second : Nat) (start : State),
      loop.rank start < first → loop.rank start < second →
        pathFor loop.turn first start = pathFor loop.turn second start := by
    intro first
    induction first with
    | zero => omega
    | succ first ih =>
        intro second start firstEnough secondEnough
        cases second with
        | zero => omega
        | succ second =>
            simp only [pathFor]
            cases turnedStart : loop.turn start with
            | next further =>
                have lower := loop.decreases start further turnedStart
                exact congrArg (start :: ·) (ih second further (by omega) (by omega))
            | done result => rfl
  have lower := loop.decreases state following turned
  have rest := same (loop.rank state) (loop.rank following + 1) following lower
    (Nat.lt_succ_self _)
  rw [path, path, ← rest]
  simp only [pathFor, turned]

theorem run_congr {left right : State} (same : loop.turn left = loop.turn right) :
    loop.run left = loop.run right := by
  cases turned : loop.turn right with
  | next following => rw [loop.run_next turned, loop.run_next (same.trans turned)]
  | done result => rw [loop.run_done turned, loop.run_done (same.trans turned)]

theorem run_induction {motive : State → Prop}
    (done : ∀ state result, loop.turn state = .done result → motive state)
    (next : ∀ state following, loop.turn state = .next following → motive following → motive state)
    (state : State) : motive state := by
  induction bound : loop.rank state using Nat.strong_induction_on generalizing state with
  | _ bound ih =>
      cases turned : loop.turn state with
      | done result => exact done state result turned
      | next following =>
          have lower := loop.decreases state following turned
          exact next state following turned (ih _ (by omega) following rfl)

/-- Some continuing turns, at least one, lead from one state to another. -/
def Turns : State → State → Prop :=
  Relation.TransGen fun state following => loop.turn state = .next following

theorem rank_lt_of_turns {state following : State} (turns : loop.Turns state following) :
    loop.rank following < loop.rank state := by
  induction turns with
  | single turned => exact loop.decreases _ _ turned
  | tail _ turned ih => exact Nat.lt_trans (loop.decreases _ _ turned) ih

theorem run_invariant (keeps : State → Prop) (post : Result → Prop)
    (next : ∀ state following, keeps state → loop.turn state = .next following → keeps following)
    (done : ∀ state result, keeps state → loop.turn state = .done result → post result)
    {state : State} (start : keeps state) : post (loop.run state) := by
  induction state using loop.run_induction with
  | done state result turned =>
      rw [loop.run_done turned]
      exact done state result start turned
  | next state following turned ih =>
      rw [loop.run_next turned]
      exact ih (next state following start turned)

theorem path_invariant (keeps : State → Prop)
    (next : ∀ state following, keeps state → loop.turn state = .next following → keeps following)
    {state : State} (start : keeps state) : ∀ visited ∈ loop.path state, keeps visited := by
  induction state using loop.run_induction with
  | done state result turned =>
      rw [loop.path_done turned]
      intro visited member
      rw [List.mem_singleton.mp member]
      exact start
  | next state following turned ih =>
      rw [loop.path_next turned]
      intro visited member
      rcases List.mem_cons.mp member with rfl | later
      · exact start
      · exact ih (next state following start turned) visited later

end Loop

/-- Loops over growing inputs. `accepts` tells the verdicts after which the
reader may be called again; `sound` is the invariant of its states. -/
structure Resumable (Input : Type u) (State : Type v) (Verdict : Type w) where
  loop : Input → Loop State (Verdict × State)
  grows : Input → Input → Prop
  grows_trans : ∀ {first second third}, grows first second → grows second third →
    grows first third
  accepts : Verdict → Prop
  sound : State → Prop
  sound_next : ∀ {input state following}, sound state →
    (loop input).turn state = .next following → sound following
  sound_done : ∀ {input state verdict stopped}, sound state →
    (loop input).turn state = .done (verdict, stopped) → sound stopped
  next_stable : ∀ {small large state following}, grows small large → sound state →
    (loop small).turn state = .next following → (loop large).turn state = .next following
  done_resumes : ∀ {small large state verdict stopped}, grows small large → sound state →
    (loop small).turn state = .done (verdict, stopped) → accepts verdict →
      (loop large).turn stopped = (loop large).turn state

namespace Resumable

variable {Input : Type u} {State : Type v} {Verdict : Type w}
variable (reader : Resumable Input State Verdict)

theorem sound_run (input : Input) (state : State) (start : reader.sound state) :
    reader.sound ((reader.loop input).run state).2 := by
  refine (reader.loop input).run_invariant reader.sound (fun result => reader.sound result.2)
    ?_ ?_ start
  · intro state following holds turned
    exact reader.sound_next holds turned
  · intro state result holds turned
    exact reader.sound_done holds turned

/-- Restarting a suspended reader on a longer input equals reading that input
from where the reader had started. -/
theorem resume {small large : Input} (grows : reader.grows small large) (state : State)
    (start : reader.sound state) (accepted : reader.accepts ((reader.loop small).run state).1) :
    (reader.loop large).run ((reader.loop small).run state).2 =
      (reader.loop large).run state := by
  induction state using (reader.loop small).run_induction with
  | done state result turned =>
      rw [(reader.loop small).run_done turned] at accepted ⊢
      exact (reader.loop large).run_congr
        (reader.done_resumes grows start turned accepted)
  | next state following turned ih =>
      rw [(reader.loop small).run_next turned] at accepted ⊢
      rw [ih (reader.sound_next start turned) accepted]
      exact ((reader.loop large).run_next (reader.next_stable grows start turned)).symm

/-- Successive calls on the given inputs, with the verdict of each call. -/
def feed : List Input → State → List Verdict × State
  | [], state => ([], state)
  | input :: inputs, state =>
      let first := (reader.loop input).run state
      let rest := feed inputs first.2
      (first.1 :: rest.1, rest.2)

/-- The state after a chain of calls, none of which was refused, is the state
of one call on the last input. -/
theorem feed_chain (inputs : List Input) (last : Input) (state : State)
    (start : reader.sound state) (chain : (inputs ++ [last]).IsChain reader.grows)
    (accepted : ∀ verdict ∈ (reader.feed inputs state).1, reader.accepts verdict) :
    (reader.loop last).run (reader.feed inputs state).2 = (reader.loop last).run state := by
  induction inputs generalizing state with
  | nil => rfl
  | cons input inputs ih =>
      have grows : reader.grows input last := by
        have : IsTrans Input reader.grows := ⟨fun _ _ _ => reader.grows_trans⟩
        have ordered := List.isChain_iff_pairwise.mp chain
        exact (List.pairwise_cons.mp ordered).1 last (by simp)
      have first : reader.accepts ((reader.loop input).run state).1 :=
        accepted _ (by simp [feed])
      have following := ih ((reader.loop input).run state).2
        (reader.sound_run input state start) (List.IsChain.tail chain)
        (fun verdict member => accepted verdict (by simp [feed, member]))
      exact following.trans (reader.resume grows state start first)

/-- Along a chain of inputs the calls are accepted exactly when each input is
accepted by a call of its own. -/
theorem feed_accepts_iff (inputs : List Input) (state : State) (start : reader.sound state)
    (chain : inputs.IsChain reader.grows) :
    (∀ verdict ∈ (reader.feed inputs state).1, reader.accepts verdict) ↔
      ∀ input ∈ inputs, reader.accepts ((reader.loop input).run state).1 := by
  induction inputs generalizing state with
  | nil => simp [feed]
  | cons input inputs ih =>
      have : IsTrans Input reader.grows := ⟨fun _ _ _ => reader.grows_trans⟩
      have grows := (List.pairwise_cons.mp (List.isChain_iff_pairwise.mp chain)).1
      have following := ih ((reader.loop input).run state).2
        (reader.sound_run input state start) (List.IsChain.tail chain)
      simp only [feed, List.forall_mem_cons]
      apply and_congr_right
      intro accepted
      rw [following]
      constructor
      · intro later other member
        rw [← reader.resume (grows other member) state start accepted]
        exact later other member
      · intro alone other member
        rw [reader.resume (grows other member) state start accepted]
        exact alone other member

end Resumable

end MeasuredLoop
