import HttpServer.MeasuredLoop
import HttpServer.ListSearch

/-!
# Machine sizes whose operations may be undefined

Arithmetic below a modulus and views into a buffer, where an operation that would
wrap or reach outside the buffer has no result. A program written with these runs
to `some` exactly when none of its operations goes wrong. `runChecked` is a loop of
such a program; `run_checked_eq` compares it with a loop on other states whose
turns cannot go wrong.
-/

namespace CheckedArithmetic

open ListSearch MeasuredLoop

universe u v w

section Numbers

variable {modulus left right : Nat}

def checkedAdd (modulus left right : Nat) : Option Nat :=
  if left + right < modulus then some (left + right) else none

def checkedMul (modulus left right : Nat) : Option Nat :=
  if left * right < modulus then some (left * right) else none

def checkedSub (left right : Nat) : Option Nat :=
  if right ≤ left then some (left - right) else none

theorem checked_add_eq (fits : left + right < modulus) :
    checkedAdd modulus left right = some (left + right) := if_pos fits

theorem checked_mul_eq (fits : left * right < modulus) :
    checkedMul modulus left right = some (left * right) := if_pos fits

theorem checked_sub_eq (ordered : right ≤ left) : checkedSub left right = some (left - right) :=
  if_pos ordered

end Numbers

section Views

variable {Item : Type u}

/-- A view from a position to the end; the position may be the end. -/
def checkedFrom (items : List Item) (position : Nat) : Option (List Item) :=
  if position ≤ items.length then some (items.drop position) else none

/-- A view of at most `count` items: it stops where the buffer does. -/
def checkedView (items : List Item) (position count : Nat) : Option (List Item) :=
  (checkedFrom items position).map (List.take count)

/-- A copy of exactly `count` items, all of which have to be there. -/
def checkedCopy (items : List Item) (position count : Nat) : Option (List Item) :=
  if position + count ≤ items.length then some ((items.drop position).take count) else none

variable {items : List Item} {position count : Nat}

theorem checked_from_eq (inside : position ≤ items.length) :
    checkedFrom items position = some (items.drop position) := if_pos inside

theorem checked_view_eq (inside : position ≤ items.length) :
    checkedView items position count = some ((items.drop position).take count) := by
  rw [checkedView, checked_from_eq inside, Option.map_some]

theorem checked_copy_eq (inside : position + count ≤ items.length) :
    checkedCopy items position count = some ((items.drop position).take count) := if_pos inside

variable [DecidableEq Item]

def findFrom (pattern items : List Item) (position : Nat) : Option Nat :=
  if position ≤ items.length then (findSub pattern (items.drop position)).map (position + ·)
  else none

theorem find_from_eq (pattern : List Item) (inside : position ≤ items.length) :
    findFrom pattern items position =
      (findSub pattern (items.drop position)).map (position + ·) := if_pos inside

end Views

section Loops

variable {Position : Type u} {State : Type v} {Result : Type w}

/-- At most `fuel` turns of a loop; `none` when a turn goes wrong or the fuel runs out. -/
def runChecked (turn : Position → Option (Turn Position Result)) :
    Nat → Position → Option Result
  | 0, _ => none
  | fuel + 1, position =>
      match turn position with
      | none => none
      | some (.next following) => runChecked turn fuel following
      | some (.done result) => some result

/-- A turn with defined operations that does on positions what the other does on
the states they stand for. -/
inductive Follows (view : Position → State) (keeps : Position → Prop) :
    Option (Turn Position Result) → Turn State Result → Prop
  | next {following : Position} (kept : keeps following) :
      Follows view keeps (some (.next following)) (.next (view following))
  | done {result : Result} : Follows view keeps (some (.done result)) (.done result)

theorem run_checked_eq (loop : Loop State Result)
    {turn : Position → Option (Turn Position Result)} {view : Position → State}
    {keeps : Position → Prop}
    (follows : ∀ position, keeps position →
      Follows view keeps (turn position) (loop.turn (view position)))
    {fuel : Nat} {position : Position} (start : keeps position)
    (enough : loop.rank (view position) < fuel) :
    runChecked turn fuel position = some (loop.run (view position)) := by
  induction fuel generalizing position with
  | zero => omega
  | succ fuel ih =>
      have step := follows position start
      generalize turned : turn position = made at step
      generalize stood : loop.turn (view position) = simple at step
      cases step with
      | next kept =>
          have lower := loop.decreases _ _ stood
          rw [runChecked, turned, loop.run_next stood]
          exact ih kept (by omega)
      | done => rw [runChecked, turned, loop.run_done stood]

end Loops

end CheckedArithmetic
