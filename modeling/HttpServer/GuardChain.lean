import Mathlib.Data.List.Range

/-!
# Chains of guards

A guard looks at a state, may change it, and passes, refuses or raises a fault.
`walk` runs a list of guards from the front and stops at the first that does
not pass. What a walk does is said without the recursion: `entering` is the
state in which a guard is entered when all before it have passed, and a walk
either passes every guard or stops at exactly one.
-/

namespace GuardChain

variable {State Fault : Type*}

abbrev Guard (State Fault : Type*) := State → Except Fault Bool × State

/-- What a walk returns: its verdict, the state it leaves and the positions of
the guards it entered, in order. -/
structure Walk (State Fault : Type*) where
  verdict : Except Fault Bool
  state : State
  entered : List Nat

def walkFrom (position : Nat) : List (Guard State Fault) → State → Walk State Fault
  | [], state => ⟨.ok true, state, []⟩
  | guard :: guards, state =>
      match guard state with
      | (.ok true, left) =>
          let onward := walkFrom (position + 1) guards left
          ⟨onward.verdict, onward.state, position :: onward.entered⟩
      | (.ok false, left) => ⟨.ok false, left, [position]⟩
      | (.error fault, left) => ⟨.error fault, left, [position]⟩

def walk (guards : List (Guard State Fault)) (start : State) : Walk State Fault :=
  walkFrom 0 guards start

def entering (guards : List (Guard State Fault)) (start : State) (position : Nat) : State :=
  (guards.take position).foldl (fun state guard => (guard state).2) start

def PassesAt (guards : List (Guard State Fault)) (start : State) (position : Nat) : Prop :=
  ∃ guard, guards[position]? = some guard ∧ (guard (entering guards start position)).1 = .ok true

def PassesAll (guards : List (Guard State Fault)) (start : State) : Prop :=
  ∀ position, position < guards.length → PassesAt guards start position

/-- The guard at that position is the first that does not pass. -/
structure StopsAt (guards : List (Guard State Fault)) (start : State) (position : Nat)
    (guard : Guard State Fault) : Prop where
  here : guards[position]? = some guard
  earlier : ∀ before, before < position → PassesAt guards start before
  refuses : (guard (entering guards start position)).1 ≠ .ok true

theorem entering_succ (guard : Guard State Fault) (guards : List (Guard State Fault))
    (start : State) (position : Nat) :
    entering (guard :: guards) start (position + 1) = entering guards (guard start).2 position :=
  rfl

theorem passes_at_succ (guard : Guard State Fault) (guards : List (Guard State Fault))
    (start : State) (position : Nat) :
    PassesAt (guard :: guards) start (position + 1) ↔
      PassesAt guards (guard start).2 position := by
  unfold PassesAt
  rw [List.getElem?_cons_succ, entering_succ]

theorem passes_at_front {guard : Guard State Fault} {guards : List (Guard State Fault)}
    {start : State} (passes : PassesAt (guard :: guards) start 0) :
    (guard start).1 = .ok true := by
  obtain ⟨_, front, passed⟩ := passes
  cases front
  exact passed

theorem walk_from_passed {guard : Guard State Fault} {start : State}
    (passed : (guard start).1 = .ok true) (guards : List (Guard State Fault)) (position : Nat) :
    walkFrom position (guard :: guards) start =
      ⟨(walkFrom (position + 1) guards (guard start).2).verdict,
        (walkFrom (position + 1) guards (guard start).2).state,
        position :: (walkFrom (position + 1) guards (guard start).2).entered⟩ := by
  cases called : guard start with
  | mk verdict left =>
      rw [called] at passed
      change verdict = .ok true at passed
      simp only [walkFrom, called, passed]

theorem walk_from_refused {guard : Guard State Fault} {start : State}
    (refused : (guard start).1 ≠ .ok true) (guards : List (Guard State Fault)) (position : Nat) :
    walkFrom position (guard :: guards) start =
      ⟨(guard start).1, (guard start).2, [position]⟩ := by
  cases called : guard start with
  | mk verdict left =>
      rw [called] at refused
      match verdict with
      | .ok true => exact absurd rfl refused
      | .ok false => simp only [walkFrom, called]
      | .error fault => simp only [walkFrom, called]

theorem walk_from_passes (guards : List (Guard State Fault)) (start : State) (base : Nat)
    (passes : PassesAll guards start) :
    walkFrom base guards start =
      ⟨.ok true, entering guards start guards.length, List.range' base guards.length⟩ := by
  induction guards generalizing start base with
  | nil => rfl
  | cons guard guards ih =>
      have passed := passes_at_front (passes 0 (Nat.zero_lt_succ _))
      have later : PassesAll guards (guard start).2 := by
        intro position inside
        rw [← passes_at_succ]
        exact passes (position + 1) (Nat.succ_lt_succ inside)
      rw [walk_from_passed passed, ih (guard start).2 (base + 1) later, List.length_cons,
        entering_succ, List.range'_succ]

theorem walk_from_stops (guards : List (Guard State Fault)) (start : State) (base position : Nat)
    (guard : Guard State Fault) (stops : StopsAt guards start position guard) :
    walkFrom base guards start =
      ⟨(guard (entering guards start position)).1, (guard (entering guards start position)).2,
        List.range' base (position + 1)⟩ := by
  induction guards generalizing start base position with
  | nil => exact absurd stops.here (by simp)
  | cons first guards ih =>
      cases position with
      | zero =>
          have same : first = guard := Option.some.inj stops.here
          subst same
          exact walk_from_refused stops.refuses guards base
      | succ position =>
          have passed := passes_at_front (stops.earlier 0 (Nat.zero_lt_succ _))
          have later : StopsAt guards (first start).2 position guard := by
            refine ⟨stops.here, ?_, stops.refuses⟩
            intro before below
            rw [← passes_at_succ]
            exact stops.earlier (before + 1) (Nat.succ_lt_succ below)
          rw [walk_from_passed passed, ih (first start).2 (base + 1) position later, entering_succ,
            List.range'_succ (s := base)]

theorem walk_passes {guards : List (Guard State Fault)} {start : State}
    (passes : PassesAll guards start) :
    walk guards start =
      ⟨.ok true, entering guards start guards.length, List.range guards.length⟩ := by
  rw [walk, walk_from_passes guards start 0 passes, List.range_eq_range']

theorem walk_stops {guards : List (Guard State Fault)} {start : State} {position : Nat}
    {guard : Guard State Fault} (stops : StopsAt guards start position guard) :
    walk guards start =
      ⟨(guard (entering guards start position)).1, (guard (entering guards start position)).2,
        List.range (position + 1)⟩ := by
  rw [walk, walk_from_stops guards start 0 position guard stops, List.range_eq_range']

end GuardChain
