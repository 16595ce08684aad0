import Mathlib.Algebra.BigOperators.Group.List.Basic
import Mathlib.Algebra.Order.BigOperators.Group.List
import Mathlib.Algebra.Order.Group.Nat

/-!
# Counting over a list of threads

A concurrent system is a list of thread states, one of which changes at a step.
`total weight threads` adds up what each thread contributes to a resource: the
permits it holds, the lock, the value it carries. Everything an accounting
invariant needs is `total_set`: the change of one thread moves the total by the
difference of the two weights.
-/

namespace Census

universe u v

variable {Thread : Type u} {Weight : Type v}

theorem found_set {threads : List Thread} {index other : Nat} {new thread : Thread}
    (found : (threads.set index new)[other]? = some thread) :
    (index = other ∧ thread = new) ∨ (index ≠ other ∧ threads[other]? = some thread) := by
  rw [List.getElem?_set] at found
  split at found
  · rename_i same
    split at found
    · exact Or.inl ⟨same, (Option.some.inj found).symm⟩
    · cases found
  · rename_i different
    exact Or.inr ⟨different, found⟩

theorem found_concat {threads : List Thread} {other : Nat} {new thread : Thread}
    (found : (threads ++ [new])[other]? = some thread) :
    threads[other]? = some thread ∨ (other = threads.length ∧ thread = new) := by
  rcases Nat.lt_trichotomy other threads.length with earlier | last | beyond
  · rw [List.getElem?_append_left earlier] at found
    exact Or.inl found
  · rw [last, List.getElem?_concat_length] at found
    exact Or.inr ⟨last, (Option.some.inj found).symm⟩
  · rw [List.getElem?_eq_none (by rw [List.length_append, List.length_singleton]; omega)] at found
    cases found

section Monoid

variable [AddCommMonoid Weight]

def total (weight : Thread → Weight) (threads : List Thread) : Weight :=
  (threads.map weight).sum

@[simp] theorem total_nil (weight : Thread → Weight) : total weight [] = 0 := rfl

@[simp] theorem total_cons (weight : Thread → Weight) (thread : Thread) (threads : List Thread) :
    total weight (thread :: threads) = weight thread + total weight threads := by
  simp only [total, List.map_cons, List.sum_cons]

theorem total_set (weight : Thread → Weight) {threads : List Thread} {index : Nat}
    {old : Thread} (found : threads[index]? = some old) (new : Thread) :
    total weight (threads.set index new) + weight old = total weight threads + weight new := by
  induction threads generalizing index with
  | nil => simp at found
  | cons thread threads ih =>
      cases index with
      | zero =>
          have same : thread = old := by simpa using found
          subst same
          simp only [List.set_cons_zero, total_cons]
          ac_rfl
      | succ index =>
          have later : threads[index]? = some old := by simpa using found
          simp only [List.set_cons_succ, total_cons]
          rw [add_assoc, ih later, add_assoc]

theorem total_eraseIdx (weight : Thread → Weight) {threads : List Thread} {index : Nat}
    {old : Thread} (found : threads[index]? = some old) :
    total weight (threads.eraseIdx index) + weight old = total weight threads := by
  induction threads generalizing index with
  | nil => simp at found
  | cons thread threads ih =>
      cases index with
      | zero =>
          have same : thread = old := by simpa using found
          rw [List.eraseIdx_zero, List.tail_cons, total_cons, same, add_comm]
      | succ index =>
          have later : threads[index]? = some old := by simpa using found
          rw [List.eraseIdx_cons_succ, total_cons, total_cons, add_assoc, ih later]

theorem total_add (first second : Thread → Weight) (threads : List Thread) :
    total (fun thread => first thread + second thread) threads =
      total first threads + total second threads :=
  List.sum_map_add

theorem total_replicate (weight : Thread → Weight) (idle : Thread) (none : weight idle = 0)
    (count : Nat) : total weight (List.replicate count idle) = 0 := by
  simp only [total, List.map_replicate, none, List.sum_replicate, nsmul_zero]

theorem total_of_same {threads : List Thread} {idle : Thread}
    (same : ∀ thread ∈ threads, thread = idle) (weight : Thread → Weight)
    (none : weight idle = 0) : total weight threads = 0 := by
  rw [List.eq_replicate_of_mem same]
  exact total_replicate weight idle none _

end Monoid

theorem weight_le_total (weight : Thread → Nat) {threads : List Thread} {index : Nat}
    {thread : Thread} (found : threads[index]? = some thread) :
    weight thread ≤ total weight threads := by
  apply List.single_le_sum
  · intro value _
    exact Nat.zero_le value
  · exact List.mem_map_of_mem (List.mem_of_getElem? found)

theorem total_le_total {left right : Thread → Nat} (below : ∀ thread, left thread ≤ right thread)
    (threads : List Thread) : total left threads ≤ total right threads := by
  apply List.sum_le_sum
  intro thread _
  exact below thread

theorem total_le_mul (weight : Thread → Nat) (bound : Nat)
    (below : ∀ thread, weight thread ≤ bound) (threads : List Thread) :
    total weight threads ≤ bound * threads.length := by
  induction threads with
  | nil => exact Nat.zero_le _
  | cons thread threads ih =>
      have here := below thread
      rw [total_cons, List.length_cons, Nat.mul_succ]
      omega

theorem total_eq_countP {weight : Thread → Nat} {holds : Thread → Bool}
    (same : ∀ thread, weight thread = (holds thread).toNat) (threads : List Thread) :
    total weight threads = threads.countP holds := by
  induction threads with
  | nil => rfl
  | cons thread threads ih =>
      rw [total_cons, same thread, ih, List.countP_cons]
      cases holds thread <;> simp [Nat.add_comm]

theorem exists_of_total_pos (weight : Thread → Nat) {threads : List Thread}
    (held : 0 < total weight threads) :
    ∃ (index : Nat) (thread : Thread), threads[index]? = some thread ∧ 0 < weight thread := by
  induction threads with
  | nil => exact absurd held (Nat.lt_irrefl 0)
  | cons thread threads ih =>
      by_cases here : 0 < weight thread
      · exact ⟨0, thread, rfl, here⟩
      · rw [total_cons] at held
        obtain ⟨index, other, found, holds⟩ := ih (by omega)
        exact ⟨index + 1, other, found, holds⟩

theorem sole_holder (weight : Thread → Nat) {threads : List Thread} {first second : Nat}
    {left right : Thread} (bound : total weight threads ≤ 1)
    (foundFirst : threads[first]? = some left) (foundSecond : threads[second]? = some right)
    (holdsLeft : weight left = 1) (holdsRight : weight right = 1) : first = second := by
  induction threads generalizing first second with
  | nil => simp at foundFirst
  | cons thread threads ih =>
      rw [total_cons] at bound
      cases first with
      | zero =>
          cases second with
          | zero => rfl
          | succ second =>
              have same : thread = left := by simpa using foundFirst
              have found : threads[second]? = some right := by simpa using foundSecond
              have later := weight_le_total weight found
              subst same
              omega
      | succ first =>
          cases second with
          | zero =>
              have same : thread = right := by simpa using foundSecond
              have found : threads[first]? = some left := by simpa using foundFirst
              have later := weight_le_total weight found
              subst same
              omega
          | succ second =>
              have equal : first = second := by
                apply ih
                · omega
                · simpa using foundFirst
                · simpa using foundSecond
              rw [equal]

end Census
