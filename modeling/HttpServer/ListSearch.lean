import Mathlib.Data.List.Infix
import Mathlib.Data.List.TakeDrop
import Mathlib.Data.List.TakeWhile

/-!
# First-occurrence search in a list

`findSub pattern items` is the offset of the first occurrence of `pattern`, as
a string view's `find` computes it. The characterisation by `drop` is the only
place where the recursion is opened; stability under appending, which every
incremental reader relies on, follows from it.
-/

namespace ListSearch

variable {Item : Type*} [DecidableEq Item]

def findSub (pattern : List Item) : List Item → Option Nat
  | [] => if pattern = [] then some 0 else none
  | item :: rest =>
      if pattern.isPrefixOf (item :: rest) then some 0
      else (findSub pattern rest).map (· + 1)

theorem find_sub_eq_some_iff (pattern items : List Item) (offset : Nat) :
    findSub pattern items = some offset ↔
      offset ≤ items.length ∧ pattern <+: items.drop offset ∧
        ∀ earlier, earlier < offset → ¬pattern <+: items.drop earlier := by
  induction items generalizing offset with
  | nil =>
      by_cases empty : pattern = []
      · subst empty
        simp only [findSub, if_true, Option.some.injEq, List.length_nil, Nat.le_zero_eq]
        constructor
        · rintro rfl
          simp
        · exact fun bounds => bounds.1.symm
      · simp [findSub, empty]
  | cons item rest ih =>
      by_cases here : pattern <+: item :: rest
      · have found : findSub pattern (item :: rest) = some 0 := by
          simp only [findSub, List.isPrefixOf_iff_prefix.mpr here, if_true]
        rw [found, Option.some.injEq]
        constructor
        · rintro rfl
          exact ⟨Nat.zero_le _, here, fun _ below => absurd below (Nat.not_lt_zero _)⟩
        · rintro ⟨_, _, minimal⟩
          by_contra positive
          exact minimal 0 (Nat.pos_of_ne_zero (Ne.symm positive)) here
      · have skipped : findSub pattern (item :: rest) = (findSub pattern rest).map (· + 1) := by
          have notPrefix : pattern.isPrefixOf (item :: rest) = false := by
            simpa only [← List.isPrefixOf_iff_prefix, Bool.not_eq_true] using here
          simp only [findSub, notPrefix, Bool.false_eq_true, if_false]
        rw [skipped]
        cases offset with
        | zero =>
            simp only [Option.map_eq_some_iff, Nat.succ_ne_zero, and_false, exists_false,
              List.drop_zero, here, false_and, and_false]
        | succ offset =>
            simp only [Option.map_eq_some_iff, Nat.add_right_cancel_iff, exists_eq_right,
              List.length_cons, List.drop_succ_cons, Nat.add_le_add_iff_right, ih offset]
            constructor
            · rintro ⟨bound, found, minimal⟩
              refine ⟨bound, found, fun earlier below => ?_⟩
              cases earlier with
              | zero => exact here
              | succ earlier => exact minimal earlier (by omega)
            · rintro ⟨bound, found, minimal⟩
              exact ⟨bound, found, fun earlier below => minimal (earlier + 1) (by omega)⟩

theorem find_sub_eq_none_iff (pattern items : List Item) (nonempty : pattern ≠ []) :
    findSub pattern items = none ↔ ∀ offset, ¬pattern <+: items.drop offset := by
  constructor
  · intro absent offset found
    induction offset using Nat.strong_induction_on with
    | _ offset ih =>
        have inside : offset ≤ items.length := by
          by_contra outside
          rw [List.drop_eq_nil_of_le (by omega), List.prefix_nil] at found
          exact nonempty found
        have located := (find_sub_eq_some_iff pattern items offset).mpr
          ⟨inside, found, fun earlier below occurs => ih earlier below occurs⟩
        rw [absent] at located
        cases located
  · intro nowhere
    cases searched : findSub pattern items with
    | none => rfl
    | some offset =>
        exact absurd ((find_sub_eq_some_iff pattern items offset).mp searched).2.1 (nowhere offset)

theorem find_sub_eq_none_iff_not_infix (pattern items : List Item) (nonempty : pattern ≠ []) :
    findSub pattern items = none ↔ ¬pattern <:+: items := by
  rw [find_sub_eq_none_iff pattern items nonempty]
  constructor
  · intro nowhere occurs
    obtain ⟨front, back, whole⟩ := occurs
    apply nowhere front.length
    rw [← whole, List.append_assoc, List.drop_left]
    exact List.prefix_append _ _
  · intro absent offset occurs
    exact absent (occurs.isInfix.trans (List.drop_suffix offset items).isInfix)

theorem find_sub_single_none_iff (item : Item) (items : List Item) :
    findSub [item] items = none ↔ item ∉ items := by
  have absent := find_sub_eq_none_iff_not_infix [item] items (List.cons_ne_nil _ _)
  rw [absent, List.singleton_infix_iff]

theorem find_sub_bound {pattern items : List Item} {offset : Nat}
    (found : findSub pattern items = some offset) :
    offset + pattern.length ≤ items.length := by
  obtain ⟨inside, occurs, _⟩ := (find_sub_eq_some_iff pattern items offset).mp found
  have fits := occurs.length_le
  rw [List.length_drop] at fits
  omega

theorem find_sub_split {pattern items : List Item} {offset : Nat}
    (found : findSub pattern items = some offset) :
    items = items.take offset ++ pattern ++ items.drop (offset + pattern.length) := by
  obtain ⟨_, ⟨rest, occurs⟩, _⟩ := (find_sub_eq_some_iff pattern items offset).mp found
  have tail : items.drop (offset + pattern.length) = rest := by
    rw [← List.drop_drop, ← occurs, List.drop_left]
  rw [tail, List.append_assoc, occurs, List.take_append_drop]

/-- A later occurrence never hides an earlier one, so appending keeps the answer. -/
theorem find_sub_append {pattern items : List Item} {offset : Nat}
    (found : findSub pattern items = some offset) (more : List Item) :
    findSub pattern (items ++ more) = some offset := by
  have bound := find_sub_bound found
  obtain ⟨inside, occurs, minimal⟩ := (find_sub_eq_some_iff pattern items offset).mp found
  refine (find_sub_eq_some_iff pattern (items ++ more) offset).mpr ⟨?_, ?_, ?_⟩
  · rw [List.length_append]
    omega
  · rw [List.drop_append_of_le_length inside]
    exact occurs.trans (List.prefix_append _ _)
  · intro earlier below occursEarlier
    rw [List.drop_append_of_le_length (by omega)] at occursEarlier
    refine minimal earlier below (List.prefix_of_prefix_length_le occursEarlier
      (List.prefix_append _ _) ?_)
    rw [List.length_drop]
    omega

theorem find_sub_take {pattern items : List Item} {offset count : Nat}
    (found : findSub pattern items = some offset) (fits : offset + pattern.length ≤ count) :
    findSub pattern (items.take count) = some offset := by
  obtain ⟨inside, occurs, minimal⟩ := (find_sub_eq_some_iff pattern items offset).mp found
  have bound := find_sub_bound found
  refine (find_sub_eq_some_iff pattern (items.take count) offset).mpr ⟨?_, ?_, ?_⟩
  · rw [List.length_take]
    omega
  · rw [List.drop_take, List.prefix_take_iff]
    exact ⟨occurs, by omega⟩
  · intro earlier below occursEarlier
    rw [List.drop_take] at occursEarlier
    exact minimal earlier below (occursEarlier.trans (List.take_prefix _ _))

theorem find_sub_take_none {pattern items : List Item} {offset count : Nat}
    (found : findSub pattern items = some offset) (short : count < offset + pattern.length) :
    findSub pattern (items.take count) = none := by
  cases searched : findSub pattern (items.take count) with
  | none => rfl
  | some earlier =>
      have bound := find_sub_bound searched
      have same := find_sub_append searched (items.drop count)
      rw [List.take_append_drop, found] at same
      cases same
      rw [List.length_take] at bound
      omega

theorem find_sub_le_of_occurs (pattern items : List Item) (offset : Nat)
    (inside : offset ≤ items.length) (occurs : pattern <+: items.drop offset) :
    ∃ found, found ≤ offset ∧ findSub pattern items = some found := by
  induction offset using Nat.strong_induction_on with
  | _ offset ih =>
      by_cases sooner : ∃ earlier, earlier < offset ∧ pattern <+: items.drop earlier
      · obtain ⟨earlier, below, occursEarlier⟩ := sooner
        obtain ⟨found, bound, located⟩ := ih earlier below (by omega) occursEarlier
        exact ⟨found, by omega, located⟩
      · refine ⟨offset, Nat.le_refl _, (find_sub_eq_some_iff pattern items offset).mpr
          ⟨inside, occurs, fun earlier below occursEarlier => ?_⟩⟩
        exact sooner ⟨earlier, below, occursEarlier⟩

/-- A pattern is found where it stands when its first item does not come before. -/
theorem find_sub_fresh {head : Item} {tail front : List Item} (absent : head ∉ front)
    (rest : List Item) :
    findSub (head :: tail) (front ++ (head :: tail ++ rest)) = some front.length := by
  induction front with
  | nil =>
      have starts : (head :: tail).isPrefixOf (head :: (tail ++ rest)) = true :=
        List.isPrefixOf_iff_prefix.mpr ⟨rest, rfl⟩
      simp only [List.nil_append, List.cons_append, findSub, List.length_nil, starts, if_true]
  | cons item front ih =>
      simp only [List.mem_cons, not_or] at absent
      simp only [List.cons_append, findSub, List.isPrefixOf_cons_cons, beq_eq_false_iff_ne.mpr absent.1,
        Bool.false_and, Bool.false_eq_true, if_false, List.length_cons]
      rw [List.cons_append] at ih
      rw [ih absent.2, Option.map_some]

/-- Items in which the pattern cannot begin are passed over. -/
theorem find_sub_skip {head : Item} {tail front : List Item} (absent : head ∉ front)
    (rest : List Item) :
    findSub (head :: tail) (front ++ rest) =
      (findSub (head :: tail) rest).map (· + front.length) := by
  induction front with
  | nil => simp
  | cons item front ih =>
      simp only [List.mem_cons, not_or] at absent
      simp only [List.cons_append, findSub, List.isPrefixOf_cons_cons,
        beq_eq_false_iff_ne.mpr absent.1, Bool.false_and, Bool.false_eq_true, if_false,
        List.length_cons, ih absent.2, Option.map_map]
      congr 1

/-- A pair of different items is found behind a list that does not hold it: it
cannot straddle the boundary. -/
theorem find_sub_pair {first second : Item} (different : first ≠ second) {front : List Item}
    (absent : ¬[first, second] <:+: front) (rest : List Item) :
    findSub [first, second] (front ++ first :: second :: rest) = some front.length := by
  induction front with
  | nil => simp [findSub]
  | cons item front ih =>
      have notHere : ¬[first, second] <+: item :: (front ++ first :: second :: rest) := by
        cases front with
        | nil => simp [different.symm]
        | cons next front =>
            intro starts
            apply absent
            simp only [List.cons_append, List.cons_prefix_cons] at starts
            obtain ⟨rfl, rfl, _⟩ := starts
            exact ⟨[], front, rfl⟩
      have later := ih fun inside => absent (inside.trans (List.suffix_cons item front).isInfix)
      rw [List.cons_append, findSub, if_neg (by rw [List.isPrefixOf_iff_prefix]; exact notHere),
        later, Option.map_some, List.length_cons]

theorem find_sub_absent {head : Item} {tail items : List Item} (absent : head ∉ items) :
    findSub (head :: tail) items = none := by
  induction items with
  | nil => rfl
  | cons item items ih =>
      simp only [List.mem_cons, not_or] at absent
      simp only [findSub, List.isPrefixOf_cons_cons, beq_eq_false_iff_ne.mpr absent.1,
        Bool.false_and, Bool.false_eq_true, if_false]
      rw [ih absent.2, Option.map_none]

theorem find_sub_before {item : Item} {items : List Item} {offset : Nat}
    (found : findSub [item] items = some offset) : item ∉ items.take offset := by
  induction items generalizing offset with
  | nil => cases found
  | cons first items ih =>
      simp only [findSub] at found
      split at found
      · cases found
        exact List.not_mem_nil
      · rename_i different
        obtain ⟨earlier, located, rfl⟩ := Option.map_eq_some_iff.mp found
        rw [List.take_succ_cons, List.mem_cons, not_or]
        refine ⟨?_, ih located⟩
        intro same
        apply different
        rw [same]
        exact List.isPrefixOf_iff_prefix.mpr ⟨items, rfl⟩

theorem find_sub_front {pattern items : List Item} {offset : Nat} (nonempty : pattern ≠ [])
    (found : findSub pattern items = some offset) : ¬pattern <:+: items.take offset := by
  have positive := List.length_pos_iff.mpr nonempty
  rw [← find_sub_eq_none_iff_not_infix pattern _ nonempty]
  exact find_sub_take_none found (by omega)

theorem find_sub_while {item : Item} {items : List Item} {offset : Nat}
    (found : findSub [item] items = some offset) :
    items.take offset = items.takeWhile (· ≠ item) ∧
      items.drop (offset + 1) = (items.dropWhile (· ≠ item)).drop 1 := by
  have split := find_sub_split found
  rw [List.append_assoc] at split
  have before : ∀ other ∈ items.take offset, decide (other ≠ item) = true := by
    intro other member
    rw [decide_eq_true_eq]
    rintro rfl
    exact find_sub_before found member
  constructor
  · conv_rhs => rw [split]
    rw [List.takeWhile_append_of_pos before]
    simp
  · conv_rhs => rw [split]
    rw [List.dropWhile_append_of_pos before]
    simp

theorem find_sub_while_none {item : Item} {items : List Item}
    (absent : findSub [item] items = none) : items.takeWhile (· ≠ item) = items := by
  rw [List.takeWhile_eq_self_iff]
  intro other member
  rw [decide_eq_true_eq]
  rintro rfl
  exact (find_sub_single_none_iff other items).mp absent member

theorem cut_unique {item : Item} {front back front' back' : List Item} (absent : item ∉ front)
    (absent' : item ∉ front') (same : front ++ item :: back = front' ++ item :: back') :
    front = front' ∧ back = back' := by
  have here : findSub [item] (front ++ item :: back) = some front.length :=
    find_sub_fresh absent back
  have there : findSub [item] (front' ++ item :: back') = some front'.length :=
    find_sub_fresh absent' back'
  rw [same, there] at here
  obtain ⟨fronts, backs⟩ := List.append_inj same (Option.some.inj here).symm
  exact ⟨fronts, (List.cons.inj backs).2⟩

section Lookup

variable {Key Value : Type*} [BEq Key] [LawfulBEq Key] {kept : Key × Value → Bool} {key : Key}

/-- A filter that lets every entry of a key pass does not change what is found for it. -/
theorem lookup_filter (passes : ∀ value, kept (key, value) = true) (entries : List (Key × Value)) :
    (entries.filter kept).lookup key = entries.lookup key := by
  induction entries with
  | nil => rfl
  | cons entry entries ih =>
      obtain ⟨name, value⟩ := entry
      rw [List.filter_cons]
      by_cases same : key = name
      · subst same
        rw [if_pos (passes value), List.lookup_cons, List.lookup_cons]
        simp
      · have different : (key == name) = false := by
          simpa using same
        split
        · rw [List.lookup_cons, List.lookup_cons, different]
          exact ih
        · rw [List.lookup_cons, different]
          exact ih

theorem lookup_filter_none (stops : ∀ value, kept (key, value) = false)
    (entries : List (Key × Value)) : (entries.filter kept).lookup key = none := by
  rw [List.lookup_eq_none_iff]
  intro entry member
  obtain ⟨name, value⟩ := entry
  rw [bne_iff_ne]
  intro same
  subst same
  have passes := (List.mem_filter.mp member).2
  rw [stops value] at passes
  cases passes

end Lookup

end ListSearch
