import Mathlib.Data.Option.Basic
import Mathlib.Order.WellFounded

/-!
# Runs of a labelled machine

A machine is a partial step function: a label that is not enabled gives `none`.
`Respects` says that every step of a run is taken in a state in which a given
condition on state and label holds, which is how a property of all runs is
restricted to the runs that avoid a step. `Throughout` says that a property holds
in every state a run passes through, its first and last included.
-/

namespace TransitionSystem

universe u v w

variable {State : Type u} {Label : Type v}

def run (step : State → Label → Option State) : State → List Label → Option State
  | state, [] => some state
  | state, label :: labels => (step state label).bind fun following => run step following labels

def Respects (step : State → Label → Option State) (condition : State → Label → Prop) :
    State → List Label → Prop
  | _, [] => True
  | state, label :: labels =>
      condition state label ∧
        ∀ following ∈ step state label, Respects step condition following labels

instance decidableRespects (step : State → Label → Option State)
    (condition : State → Label → Prop) [∀ state label, Decidable (condition state label)] :
    ∀ state labels, Decidable (Respects step condition state labels)
  | _, [] => isTrue trivial
  | state, label :: labels =>
      have : ∀ following, Decidable (Respects step condition following labels) :=
        fun following => decidableRespects step condition following labels
      inferInstanceAs (Decidable (condition state label ∧
        ∀ following ∈ step state label, Respects step condition following labels))

def Throughout (step : State → Label → Option State) (property : State → Prop) :
    State → List Label → Prop
  | state, [] => property state
  | state, label :: labels =>
      property state ∧
        ∀ following ∈ step state label, Throughout step property following labels

theorem run_cons {step : State → Label → Option State} {state last : State} {label : Label}
    {labels : List Label} (reached : run step state (label :: labels) = some last) :
    ∃ following, step state label = some following ∧ run step following labels = some last := by
  simpa only [run, Option.bind_eq_some_iff] using reached

/-- A run on given labels can be evaluated: it ends where the property holds. -/
theorem run_ends {step : State → Label → Option State} {state : State} {labels : List Label}
    {property : State → Prop} [DecidablePred property]
    (evaluated : (run step state labels).any (fun last => decide (property last)) = true) :
    ∃ last, run step state labels = some last ∧ property last := by
  simpa only [Option.any_eq_true, decide_eq_true_eq] using evaluated

theorem run_append (step : State → Label → Option State) (state : State)
    (labels more : List Label) :
    run step state (labels ++ more) =
      (run step state labels).bind fun between => run step between more := by
  induction labels generalizing state with
  | nil => rfl
  | cons label labels ih =>
      simp only [List.cons_append, run, Option.bind_assoc]
      congr 1
      funext following
      exact ih following

/-- An invariant kept by every step that meets the condition holds at the end
of every run whose steps all meet it. -/
theorem run_invariant {step : State → Label → Option State} {condition : State → Label → Prop}
    (invariant : State → Prop)
    (kept : ∀ state label following, invariant state → condition state label →
      step state label = some following → invariant following)
    {state last : State} {labels : List Label} (start : invariant state)
    (respects : Respects step condition state labels)
    (reached : run step state labels = some last) : invariant last := by
  induction labels generalizing state with
  | nil =>
      cases reached
      exact start
  | cons label labels ih =>
      obtain ⟨following, stepped, rest⟩ := run_cons reached
      exact ih (kept state label following start respects.1 stepped)
        (respects.2 following stepped) rest

/-- Along such a run a rank that every step lowers bounds the number of steps. -/
theorem run_length_le_rank {step : State → Label → Option State}
    {condition : State → Label → Prop} (invariant : State → Prop) (rank : State → Nat)
    (kept : ∀ state label following, invariant state → condition state label →
      step state label = some following → invariant following ∧ rank following < rank state)
    {state last : State} {labels : List Label} (start : invariant state)
    (respects : Respects step condition state labels)
    (reached : run step state labels = some last) : labels.length + rank last ≤ rank state := by
  induction labels generalizing state with
  | nil =>
      cases reached
      exact Nat.le_of_eq (Nat.zero_add _)
  | cons label labels ih =>
      obtain ⟨following, stepped, rest⟩ := run_cons reached
      obtain ⟨holds, lower⟩ := kept state label following start respects.1 stepped
      have later := ih holds (respects.2 following stepped) rest
      rw [List.length_cons]
      omega

theorem respects_of_labels (step : State → Label → Option State) {condition : Label → Prop}
    {labels : List Label} (all : ∀ label ∈ labels, condition label) (state : State) :
    Respects step (fun _ label => condition label) state labels := by
  induction labels generalizing state with
  | nil => trivial
  | cons label labels ih =>
      refine ⟨all label List.mem_cons_self, ?_⟩
      intro following _
      exact ih (fun other member => all other (List.mem_cons_of_mem _ member)) following

theorem respects_true (step : State → Label → Option State) (state : State)
    (labels : List Label) : Respects step (fun _ _ => True) state labels := by
  induction labels generalizing state with
  | nil => trivial
  | cons label labels ih => exact ⟨trivial, fun following _ => ih following⟩

theorem run_keeps {step : State → Label → Option State} (invariant : State → Prop)
    (kept : ∀ state label following, invariant state → step state label = some following →
      invariant following)
    {state last : State} {labels : List Label} (start : invariant state)
    (reached : run step state labels = some last) : invariant last := by
  refine run_invariant invariant ?_ start (respects_true step state labels) reached
  intro state label following holds _ stepped
  exact kept state label following holds stepped

/-- Where a rank falls with every permitted step, permitted steps lead to a state
that permits none. -/
theorem run_to_rest {Rank : Type*} [LT Rank] [WellFoundedLT Rank]
    {step : State → Label → Option State} {permitted : Label → Prop}
    (invariant : State → Prop) (rank : State → Rank)
    (kept : ∀ state label following, invariant state → permitted label →
      step state label = some following → invariant following ∧ rank following < rank state)
    {state : State} (start : invariant state) :
    ∃ labels last, (∀ label ∈ labels, permitted label) ∧ run step state labels = some last ∧
      invariant last ∧ ∀ label, permitted label → step last label = none := by
  induction bound : rank state using WellFoundedLT.induction generalizing state with
  | ind bound ih =>
      by_cases resting : ∀ label, permitted label → step state label = none
      · exact ⟨[], state, fun _ member => absurd member List.not_mem_nil, rfl, start, resting⟩
      · obtain ⟨label, enabled⟩ := not_forall.mp resting
        obtain ⟨allowed, moves⟩ := Classical.not_imp.mp enabled
        obtain ⟨following, stepped⟩ := Option.ne_none_iff_exists'.mp moves
        obtain ⟨holds, lower⟩ := kept state label following start allowed stepped
        obtain ⟨labels, last, all, reached, still, rests⟩ :=
          ih (rank following) (bound ▸ lower) holds rfl
        refine ⟨label :: labels, last, ?_, ?_, still, rests⟩
        · intro other member
          rcases List.mem_cons.mp member with rfl | later
          · exact allowed
          · exact all other later
        · rw [run, stepped]
          exact reached

/-- Nor can permitted steps go on for ever. -/
theorem no_endless_run {Rank : Type*} [LT Rank] [WellFoundedLT Rank]
    {step : State → Label → Option State} {permitted : Label → Prop}
    (invariant : State → Prop) (rank : State → Rank)
    (kept : ∀ state label following, invariant state → permitted label →
      step state label = some following → invariant following ∧ rank following < rank state)
    {states : Nat → State} {labels : Nat → Label} (start : invariant (states 0))
    (permits : ∀ turn, permitted (labels turn)) :
    ¬∀ turn, step (states turn) (labels turn) = some (states (turn + 1)) := by
  intro endless
  have holds : ∀ turn, invariant (states turn) := by
    intro turn
    induction turn with
    | zero => exact start
    | succ turn ih => exact (kept _ _ _ ih (permits turn) (endless turn)).1
  have falls : ∀ turn, rank (states (turn + 1)) < rank (states turn) :=
    fun turn => (kept _ _ _ (holds turn) (permits turn) (endless turn)).2
  obtain ⟨turn, stays⟩ :=
    WellFounded.not_rel_apply_succ (r := fun lower upper : Rank => lower < upper)
      fun turn => rank (states turn)
  exact stays (falls turn)

/-- What the steps of a run say, in order. -/
def history {Note : Type w} (step : State → Label → Option State)
    (note : State → Label → List Note) : State → List Label → List Note
  | _, [] => []
  | state, label :: labels =>
      note state label ++
        ((step state label).map fun following => history step note following labels).getD []

theorem history_cons {Note : Type w} {step : State → Label → Option State}
    {state following : State} {label : Label} (stepped : step state label = some following)
    (note : State → Label → List Note) (labels : List Label) :
    history step note state (label :: labels) =
      note state label ++ history step note following labels := by
  simp only [history, stepped, Option.map_some, Option.getD_some]

/-- An invariant may speak of what the run has said so far. -/
theorem run_history {Note : Type w} {step : State → Label → Option State}
    {condition : State → Label → Prop} {note : State → Label → List Note}
    (invariant : List Note → State → Prop)
    (kept : ∀ past state label following, invariant past state → condition state label →
      step state label = some following → invariant (past ++ note state label) following)
    {past : List Note} {state last : State} {labels : List Label} (start : invariant past state)
    (respects : Respects step condition state labels)
    (reached : run step state labels = some last) :
    invariant (past ++ history step note state labels) last := by
  induction labels generalizing past state with
  | nil =>
      cases reached
      rw [history, List.append_nil]
      exact start
  | cons label labels ih =>
      obtain ⟨following, stepped, rest⟩ := run_cons reached
      have holds := kept past state label following start respects.1 stepped
      have later := ih holds (respects.2 following stepped) rest
      rw [history_cons stepped, ← List.append_assoc]
      exact later

/-- Where every step is a run of another machine that keeps the two in step, every run
is a run of the other machine. -/
theorem run_simulates {Part : Type*} {Act : Type w} {step : State → Label → Option State}
    {component : Part → Act → Option Part} {condition : State → Label → Prop}
    {project : State → Label → List Act} (relation : State → Part → Prop)
    (kept : ∀ state label following part, relation state part → condition state label →
      step state label = some following →
        ∃ next, run component part (project state label) = some next ∧ relation following next)
    {state last : State} {labels : List Label} {part : Part} (start : relation state part)
    (respects : Respects step condition state labels)
    (reached : run step state labels = some last) :
    ∃ next, run component part (history step project state labels) = some next ∧
      relation last next := by
  induction labels generalizing state part with
  | nil =>
      cases reached
      exact ⟨part, rfl, start⟩
  | cons label labels ih =>
      obtain ⟨following, stepped, rest⟩ := run_cons reached
      obtain ⟨middle, ran, related⟩ := kept state label following part start respects.1 stepped
      obtain ⟨next, onward, final⟩ := ih related (respects.2 following stepped) rest
      refine ⟨next, ?_, final⟩
      rw [history_cons stepped, run_append, ran]
      exact onward

theorem run_projects {Part : Type*} {Act : Type w} {step : State → Label → Option State}
    {component : Part → Act → Option Part} {project : State → Label → List Act}
    (view : State → Part)
    (kept : ∀ state label following, step state label = some following →
      run component (view state) (project state label) = some (view following))
    {state last : State} {labels : List Label} (reached : run step state labels = some last) :
    run component (view state) (history step project state labels) = some (view last) := by
  obtain ⟨next, ran, rfl⟩ := run_simulates (fun state part => part = view state)
    (fun state label following _ same _ stepped =>
      ⟨view following, same ▸ kept state label following stepped, rfl⟩)
    rfl (respects_true step state labels) reached
  exact ran

/-- What the steps of a run amount to, added up. -/
def tally (step : State → Label → Option State) (amount : State → Label → Nat) :
    State → List Label → Nat
  | _, [] => 0
  | state, label :: labels =>
      amount state label +
        ((step state label).map fun following => tally step amount following labels).getD 0

theorem tally_cons {step : State → Label → Option State} {state following : State}
    {label : Label} (stepped : step state label = some following)
    (amount : State → Label → Nat) (labels : List Label) :
    tally step amount state (label :: labels) =
      amount state label + tally step amount following labels := by
  simp only [tally, stepped, Option.map_some, Option.getD_some]

theorem tally_add (step : State → Label → Option State) (first second : State → Label → Nat)
    (state : State) (labels : List Label) :
    tally step (fun state label => first state label + second state label) state labels =
      tally step first state labels + tally step second state labels := by
  induction labels generalizing state with
  | nil => rfl
  | cons label labels ih =>
      cases stepped : step state label with
      | none =>
          simp only [tally, stepped, Option.map_none, Option.getD_none]
          omega
      | some following =>
          rw [tally_cons stepped, tally_cons stepped, tally_cons stepped, ih]
          omega

theorem tally_eq_zero {step : State → Label → Option State} {condition : State → Label → Prop}
    {amount : State → Label → Nat} (invariant : State → Prop)
    (kept : ∀ state label following, invariant state → condition state label →
      step state label = some following → invariant following ∧ amount state label = 0)
    {state last : State} {labels : List Label} (start : invariant state)
    (respects : Respects step condition state labels)
    (reached : run step state labels = some last) : tally step amount state labels = 0 := by
  induction labels generalizing state with
  | nil => rfl
  | cons label labels ih =>
      obtain ⟨following, stepped, rest⟩ := run_cons reached
      obtain ⟨holds, none⟩ := kept state label following start respects.1 stepped
      rw [tally_cons stepped, none, ih holds (respects.2 following stepped) rest]

/-- A stock that every step raises by what comes in and lowers by what goes out is,
after a run, the first stock with all that came in and without all that went out. -/
theorem run_balance {step : State → Label → Option State} (invariant : State → Prop)
    (stock : State → Nat) (gain loss : State → Label → Nat)
    (kept : ∀ state label following, invariant state → step state label = some following →
      invariant following ∧
        stock following + loss state label = stock state + gain state label)
    {state last : State} {labels : List Label} (start : invariant state)
    (reached : run step state labels = some last) :
    stock last + tally step loss state labels = stock state + tally step gain state labels := by
  induction labels generalizing state with
  | nil =>
      cases reached
      rfl
  | cons label labels ih =>
      obtain ⟨following, stepped, rest⟩ := run_cons reached
      obtain ⟨holds, balance⟩ := kept state label following start stepped
      have later := ih holds rest
      rw [tally_cons stepped, tally_cons stepped]
      omega

/-- Such an invariant holds, with all it implies, in every state on the way. -/
theorem throughout_of_respects {step : State → Label → Option State}
    {condition : State → Label → Prop} {property : State → Prop} (invariant : State → Prop)
    (kept : ∀ state label following, invariant state → condition state label →
      step state label = some following → invariant following)
    (implies : ∀ state, invariant state → property state)
    {state : State} {labels : List Label} (start : invariant state)
    (respects : Respects step condition state labels) : Throughout step property state labels := by
  induction labels generalizing state with
  | nil => exact implies state start
  | cons label labels ih =>
      refine ⟨implies state start, ?_⟩
      intro following stepped
      exact ih (kept state label following start respects.1 stepped)
        (respects.2 following stepped)

theorem throughout_last {step : State → Label → Option State} {property : State → Prop}
    {state last : State} {labels : List Label} (holds : Throughout step property state labels)
    (reached : run step state labels = some last) : property last := by
  induction labels generalizing state with
  | nil =>
      cases reached
      exact holds
  | cons label labels ih =>
      obtain ⟨following, stepped, rest⟩ := run_cons reached
      exact ih (holds.2 following stepped) rest

/-- Where the condition is also necessary for a step to keep the invariant, the
runs that meet it are those along which the invariant holds. What every step
keeps may be used on the way. -/
theorem throughout_iff_respects_within {step : State → Label → Option State}
    {condition : State → Label → Prop} (background invariant : State → Prop)
    (stable : ∀ state label following, background state → step state label = some following →
      background following)
    (kept : ∀ state label following, background state → invariant state →
      step state label = some following → (invariant following ↔ condition state label))
    {state last : State} {labels : List Label} (stands : background state)
    (start : invariant state) (reached : run step state labels = some last) :
    Throughout step invariant state labels ↔ Respects step condition state labels := by
  induction labels generalizing state with
  | nil => exact ⟨fun _ => trivial, fun _ => start⟩
  | cons label labels ih =>
      obtain ⟨following, stepped, rest⟩ := run_cons reached
      have standsOn := stable state label following stands stepped
      have same := kept state label following stands start stepped
      constructor
      · rintro ⟨_, later⟩
        have onward := later following stepped
        have holds : invariant following := by
          cases labels with
          | nil => exact onward
          | cons _ _ => exact onward.1
        refine ⟨same.mp holds, ?_⟩
        intro other reachedOther
        cases stepped.symm.trans reachedOther
        exact (ih standsOn holds rest).mp onward
      · rintro ⟨met, later⟩
        have holds := same.mpr met
        refine ⟨start, ?_⟩
        intro other reachedOther
        cases stepped.symm.trans reachedOther
        exact (ih standsOn holds rest).mpr (later following stepped)

theorem throughout_iff_respects {step : State → Label → Option State}
    {condition : State → Label → Prop} (invariant : State → Prop)
    (kept : ∀ state label following, invariant state → step state label = some following →
      (invariant following ↔ condition state label))
    {state last : State} {labels : List Label} (start : invariant state)
    (reached : run step state labels = some last) :
    Throughout step invariant state labels ↔ Respects step condition state labels :=
  throughout_iff_respects_within (fun _ => True) invariant (fun _ _ _ _ _ => trivial)
    (fun state label following _ => kept state label following) trivial start reached

end TransitionSystem
