import Mathlib.Algebra.BigOperators.Group.Finset.Piecewise
import Mathlib.Algebra.BigOperators.Ring.Finset
import Mathlib.Logic.Function.Basic

/-!
# Ordered multimaps

An ordered multimap gives every key the list of its values, oldest first. A list of
entries is one way to store it: `collect` reads the multimap off, and a key whose
entries are filtered out loses its values and leaves those of the other keys.
-/

namespace OrderedMultimap

universe u v w

variable {Key : Type u} {Value : Type v}

abbrev Multimap (Key : Type u) (Value : Type v) := Key → List Value

section Operations

variable [DecidableEq Key]

def append (map : Multimap Key Value) (key : Key) (value : Value) : Multimap Key Value :=
  Function.update map key (map key ++ [value])

def replace (map : Multimap Key Value) (key : Key) (value : Value) : Multimap Key Value :=
  Function.update map key [value]

def collect (entries : List (Key × Value)) : Multimap Key Value := fun key =>
  (entries.filter fun entry => entry.1 = key).map Prod.snd

theorem collect_append (first second : List (Key × Value)) (key : Key) :
    collect (first ++ second) key = collect first key ++ collect second key := by
  rw [collect, List.filter_append, List.map_append, collect, collect]

theorem collect_single (key other : Key) (value : Value) :
    collect [(key, value)] other = if key = other then [value] else [] := by
  simp only [collect, List.filter_cons, List.filter_nil, decide_eq_true_eq]
  split_ifs <;> rfl

theorem collect_concat (entries : List (Key × Value)) (key : Key) (value : Value) :
    collect (entries ++ [(key, value)]) = append (collect entries) key value := by
  funext other
  rw [collect_append, collect_single, append, Function.update_apply]
  by_cases same : other = key
  · rw [if_pos same.symm, if_pos same, same]
  · rw [if_neg (Ne.symm same), if_neg same, List.append_nil]

theorem collect_without (entries : List (Key × Value)) (key other : Key) :
    collect (entries.filter fun entry => entry.1 ≠ key) other =
      if other = key then [] else collect entries other := by
  rw [collect, List.filter_filter]
  split_ifs with same
  · rw [same, List.map_eq_nil_iff, List.filter_eq_nil_iff]
    intro entry _
    simp
  · rw [collect]
    congr 1
    apply List.filter_congr
    intro entry _
    by_cases named : entry.1 = other
    · simp [named, same]
    · simp [named]

theorem collect_replace (entries : List (Key × Value)) (key : Key) (value : Value) :
    collect ((entries.filter fun entry => entry.1 ≠ key) ++ [(key, value)]) =
      replace (collect entries) key value := by
  funext other
  rw [collect_append, collect_without, collect_single, replace, Function.update_apply]
  by_cases same : other = key
  · rw [if_pos same, if_pos same.symm, if_pos same, List.nil_append]
  · rw [if_neg same, if_neg (Ne.symm same), if_neg same, List.append_nil]

theorem length_eq_sum (entries : List (Key × Value)) (keys : Finset Key)
    (covered : ∀ entry ∈ entries, entry.1 ∈ keys) :
    entries.length = ∑ key ∈ keys, (collect entries key).length := by
  induction entries with
  | nil => simp [collect]
  | cons entry entries ih =>
      have rest := ih fun other member => covered other (List.mem_cons_of_mem _ member)
      have inside := covered entry List.mem_cons_self
      have split : ∀ key, (collect (entry :: entries) key).length =
          (if entry.1 = key then 1 else 0) + (collect entries key).length := by
        intro key
        have front := collect_append [entry] entries key
        rw [List.singleton_append, collect_single] at front
        rw [front, List.length_append]
        split_ifs <;> rfl
      rw [Finset.sum_congr rfl fun key _ => split key, Finset.sum_add_distrib,
        Finset.sum_ite_eq, if_pos inside, ← rest, List.length_cons, Nat.add_comm]

theorem collect_ne_nil_iff (entries : List (Key × Value)) (key : Key) :
    collect entries key ≠ [] ↔ key ∈ (entries.map Prod.fst).toFinset := by
  rw [collect, ne_eq, List.map_eq_nil_iff, List.filter_eq_nil_iff, List.mem_toFinset,
    List.mem_map]
  simp

end Operations

end OrderedMultimap
