import HttpServer.TransitionSystem
import Mathlib.Data.List.Forall2

/-!
# Two runs side by side

A relation between states that every pair of related steps keeps is kept by every pair
of related runs, and what the two runs say is related as what their steps say. Searches
in related lists find related elements.
-/

namespace RelatedRuns

open TransitionSystem

section Searches

variable {First Second : Type*}

theorem find_related {relation : First → Second → Prop} {left : First → Bool}
    {right : Second → Bool} (same : ∀ one other, relation one other → left one = right other)
    {ones : List First} {others : List Second} (related : List.Forall₂ relation ones others) :
    Option.Rel relation (ones.find? left) (others.find? right) := by
  induction related with
  | nil => exact .none
  | @cons one other ones others head tail ih =>
      rw [List.find?_cons, List.find?_cons, same one other head]
      cases right other with
      | true => exact .some head
      | false => exact ih

theorem lookup_related {Key : Type*} [BEq Key] [LawfulBEq Key]
    {relation : Key → First → Second → Prop} {ones : List (Key × First)}
    {others : List (Key × Second)}
    (related : List.Forall₂ (fun one other => one.1 = other.1 ∧ relation one.1 one.2 other.2)
      ones others) (key : Key) :
    Option.Rel (relation key) (ones.lookup key) (others.lookup key) := by
  induction related with
  | nil => exact .none
  | @cons one other ones others head tail ih =>
      rw [List.lookup_cons, List.lookup_cons, ← head.1]
      cases here : key == one.1 with
      | true =>
          rw [eq_of_beq here]
          exact .some head.2
      | false => exact ih

theorem keys_related {Key : Type*} {relation : Key × First → Key × Second → Prop}
    (same : ∀ one other, relation one other → one.1 = other.1) {ones : List (Key × First)}
    {others : List (Key × Second)} (related : List.Forall₂ relation ones others) :
    ones.map Prod.fst = others.map Prod.fst := by
  induction related with
  | nil => rfl
  | cons head tail ih => rw [List.map_cons, List.map_cons, same _ _ head, ih]

theorem bind_related {Third Fourth : Type*} {relation : First → Second → Prop}
    {result : Third → Fourth → Prop} {one : Option First} {other : Option Second}
    {left : First → Option Third} {right : Second → Option Fourth}
    (related : Option.Rel relation one other)
    (onward : ∀ one other, relation one other → Option.Rel result (left one) (right other)) :
    Option.Rel result (one.bind left) (other.bind right) := by
  cases related with
  | none => exact .none
  | some found => exact onward _ _ found

end Searches

/-- Two runs from related states on related labels say related things. -/
theorem history_lockstep {State : Type*} {Label : Type*} {Note : Type*}
    {step : State → Label → Option State} {note : State → Label → List Note}
    {alike : State → State → Prop} {paired : Label → Label → Prop} {agree : Note → Note → Prop}
    (kept : ∀ one other first second, alike one other → paired first second →
      Option.Rel alike (step one first) (step other second) ∧
        List.Forall₂ agree (note one first) (note other second))
    {one other : State} (start : alike one other) {labels others : List Label}
    (pairs : List.Forall₂ paired labels others) :
    List.Forall₂ agree (history step note one labels) (history step note other others) := by
  induction pairs generalizing one other with
  | nil => exact .nil
  | @cons first second labels others head tail ih =>
      obtain ⟨steps, notes⟩ := kept one other first second start head
      unfold history
      apply List.rel_append notes
      generalize step one first = following at steps ⊢
      generalize step other second = beside at steps ⊢
      cases steps with
      | none => exact .nil
      | some related => exact ih related

section Simulations

variable {State Part Label Act Note : Type*}

theorem history_append {step : State → Label → Option State} {note : State → Label → List Note}
    {state middle : State} {labels : List Label} (others : List Label)
    (reached : run step state labels = some middle) :
    history step note state (labels ++ others) =
      history step note state labels ++ history step note middle others := by
  induction labels generalizing state with
  | nil =>
      cases reached
      rfl
  | cons label labels ih =>
      obtain ⟨following, stepped, rest⟩ := run_cons reached
      rw [List.cons_append, history_cons stepped, history_cons stepped, ih rest, List.append_assoc]

theorem history_silent {step : State → Label → Option State} {note : State → Label → List Note}
    {labels : List Label} (silent : ∀ state, ∀ label ∈ labels, note state label = [])
    (state : State) : history step note state labels = [] := by
  induction labels generalizing state with
  | nil => rfl
  | cons label labels ih =>
      have later := ih fun state other member => silent state other (List.mem_cons_of_mem _ member)
      rw [history, silent state label List.mem_cons_self, List.nil_append]
      cases step state label with
      | none => rfl
      | some following => exact later following

theorem respects_append {step : State → Label → Option State} {permitted : State → Label → Prop}
    {state middle : State} {labels others : List Label}
    (reached : run step state labels = some middle) (first : Respects step permitted state labels)
    (second : Respects step permitted middle others) :
    Respects step permitted state (labels ++ others) := by
  induction labels generalizing state with
  | nil =>
      cases reached
      exact second
  | cons label labels ih =>
      obtain ⟨following, stepped, rest⟩ := run_cons reached
      refine ⟨first.1, ?_⟩
      intro next same
      rw [stepped] at same
      cases same
      exact ih rest (first.2 following stepped)

theorem respects_always {step : State → Label → Option State} {permitted : State → Label → Prop}
    {labels : List Label} (always : ∀ state, ∀ label ∈ labels, permitted state label)
    (state : State) : Respects step permitted state labels := by
  induction labels generalizing state with
  | nil => trivial
  | cons label labels ih =>
      refine ⟨always state label List.mem_cons_self, fun following _ => ?_⟩
      exact ih (fun state other member => always state other (List.mem_cons_of_mem _ member))
        following

/-- Where every step is a permitted run of another machine that says the same and keeps
the two in step, so is every run. -/
theorem run_simulates_saying {step : State → Label → Option State}
    {component : Part → Act → Option Part} {condition : State → Label → Prop}
    {permitted : Part → Act → Prop} {project : State → Label → List Act}
    {note : State → Label → List Note} {own : Part → Act → List Note}
    (relation : State → Part → Prop)
    (kept : ∀ state label following part, relation state part → condition state label →
      step state label = some following →
        Respects component permitted part (project state label) ∧
          history component own part (project state label) = note state label ∧
          ∃ next, run component part (project state label) = some next ∧ relation following next)
    {state last : State} {labels : List Label} {part : Part} (start : relation state part)
    (respects : Respects step condition state labels)
    (reached : run step state labels = some last) :
    Respects component permitted part (history step project state labels) ∧
      history component own part (history step project state labels) =
        history step note state labels ∧
      ∃ next, run component part (history step project state labels) = some next ∧
        relation last next := by
  induction labels generalizing state part with
  | nil =>
      cases reached
      exact ⟨trivial, rfl, part, rfl, start⟩
  | cons label labels ih =>
      obtain ⟨following, stepped, rest⟩ := run_cons reached
      obtain ⟨allowed, noted, middle, ran, related⟩ :=
        kept state label following part start respects.1 stepped
      obtain ⟨later, told, next, onward, final⟩ :=
        ih related (respects.2 following stepped) rest
      rw [history_cons stepped, history_cons stepped]
      refine ⟨respects_append ran allowed later, ?_, next, ?_, final⟩
      · rw [history_append _ ran, noted, told]
      · rw [run_append, ran]
        exact onward

end Simulations

end RelatedRuns
