import Mathlib.Data.List.Infix

/-!
# Paths as text

A path is a list of symbols with a separator and a dot symbol. `join` is the
`operator/` of a POSIX path library: an absolute right side replaces the left
one. `normalSegments` resolves `.` and `..` by text alone, so symbolic links
play no part. `Inside` says that a path stays below a directory.
-/

namespace LexicalPath

variable {Item : Type*} [DecidableEq Item]

def isAbsolute (slash : Item) (path : List Item) : Bool := path.head? == some slash

/-- Appending with one separator, unless the left side is empty or already ends in one. -/
def join (slash : Item) (left right : List Item) : List Item :=
  if isAbsolute slash right then right
  else if left = [] ∨ left.getLast? = some slash then left ++ right
  else left ++ slash :: right

/-- The nonempty pieces between separators; `current` is the piece being read. -/
def segmentsFrom (slash : Item) (current : List Item) : List Item → List (List Item)
  | [] => if current = [] then [] else [current]
  | item :: rest =>
      if item = slash then
        if current = [] then segmentsFrom slash [] rest
        else current :: segmentsFrom slash [] rest
      else segmentsFrom slash (current ++ [item]) rest

def segments (slash : Item) (path : List Item) : List (List Item) := segmentsFrom slash [] path

/-- One segment onto a normalised prefix. A `..` removes the last segment, is
dropped at the root, and is kept when there is nothing to remove. -/
def pushSegment (dot : Item) (absolute : Bool) (done : List (List Item)) (segment : List Item) :
    List (List Item) :=
  if segment = [dot] then done
  else if segment = [dot, dot] then
    if done = [] then if absolute then [] else [segment]
    else if done.getLast? = some [dot, dot] then done ++ [segment]
    else done.dropLast
  else done ++ [segment]

def normalSegments (slash dot : Item) (path : List Item) : List (List Item) :=
  (segments slash path).foldl (pushSegment dot (isAbsolute slash path)) []

/-- The normal form of `path` starts with that of `directory` and does not
climb after it. -/
def Inside (slash dot : Item) (directory path : List Item) : Prop :=
  isAbsolute slash path = isAbsolute slash directory ∧
    ∃ below, normalSegments slash dot path = normalSegments slash dot directory ++ below ∧
      [dot, dot] ∉ below

theorem segments_from_split (slash : Item) (current left right : List Item) :
    segmentsFrom slash current (left ++ slash :: right) =
      segmentsFrom slash current left ++ segments slash right := by
  induction left generalizing current with
  | nil =>
      by_cases empty : current = []
      · simp [segmentsFrom, segments, empty]
      · simp [segmentsFrom, segments, empty]
  | cons item left ih =>
      simp only [List.cons_append, segmentsFrom]
      by_cases separator : item = slash
      · by_cases empty : current = []
        · rw [if_pos separator, if_pos separator, if_pos empty, if_pos empty, ih]
        · rw [if_pos separator, if_pos separator, if_neg empty, if_neg empty, ih,
            List.cons_append]
      · rw [if_neg separator, if_neg separator, ih]

theorem segments_from_plain {slash : Item} {path : List Item} (plain : slash ∉ path)
    (current : List Item) :
    segmentsFrom slash current path = if current ++ path = [] then [] else [current ++ path] := by
  induction path generalizing current with
  | nil => simp only [segmentsFrom, List.append_nil]
  | cons item path ih =>
      simp only [List.mem_cons, not_or] at plain
      simp only [segmentsFrom, if_neg (Ne.symm plain.1), ih plain.2, List.append_assoc,
        List.singleton_append]

theorem segments_cut {slash : Item} {piece : List Item} (plain : slash ∉ piece)
    (rest : List Item) :
    segments slash (piece ++ slash :: rest) =
      (if piece = [] then [] else [piece]) ++ segments slash rest := by
  rw [segments, segments_from_split, segments_from_plain plain, List.nil_append]

/-- The segments are the pieces between separators that are not empty. -/
theorem segments_split_on (slash : Item) (path : List Item) :
    segments slash path = (path.splitOn slash).filter fun piece => piece ≠ [] := by
  induction bound : path.length using Nat.strong_induction_on generalizing path with
  | _ size ih =>
      by_cases present : slash ∈ path
      · obtain ⟨piece, rest, rfl, plain⟩ := List.eq_append_cons_of_mem present
        have shorter : rest.length < size := by
          rw [← bound, List.length_append, List.length_cons]
          omega
        rw [segments_cut plain, ih _ shorter rest rfl,
          List.splitOn_append_cons_self_of_not_mem plain, List.filter_cons]
        by_cases empty : piece = []
        · simp [empty]
        · simp [empty]
      · rw [segments, segments_from_plain present, List.nil_append,
          List.splitOn_eq_singleton present, List.filter_cons]
        by_cases empty : path = []
        · simp [empty]
        · simp [empty]

theorem split_on_plain (slash : Item) (path : List Item) :
    ∀ piece ∈ path.splitOn slash, slash ∉ piece := by
  induction bound : path.length using Nat.strong_induction_on generalizing path with
  | _ size ih =>
      by_cases present : slash ∈ path
      · obtain ⟨first, rest, rfl, plain⟩ := List.eq_append_cons_of_mem present
        have shorter : rest.length < size := by
          rw [← bound, List.length_append, List.length_cons]
          omega
        rw [List.splitOn_append_cons_self_of_not_mem plain]
        intro piece member
        rcases List.mem_cons.mp member with rfl | later
        · exact plain
        · exact ih _ shorter rest rfl piece later
      · rw [List.splitOn_eq_singleton present]
        intro piece member
        rw [List.mem_singleton.mp member]
        exact present

/-- Replacing pieces between separators replaces segments, as long as no piece gets a
separator and empty pieces stay the empty ones. -/
theorem segments_replaced {slash : Item} {path : List Item} {fill : List Item → List Item}
    (plain : ∀ piece ∈ path.splitOn slash, slash ∉ fill piece)
    (empty : ∀ piece ∈ path.splitOn slash, fill piece = [] ↔ piece = []) :
    segments slash ([slash].intercalate ((path.splitOn slash).map fill)) =
      (segments slash path).map fill := by
  have pieces : ∀ piece ∈ (path.splitOn slash).map fill, slash ∉ piece := by
    intro piece member
    obtain ⟨old, stored, rfl⟩ := List.mem_map.mp member
    exact plain old stored
  have some : (path.splitOn slash).map fill ≠ [] := by
    rw [ne_eq, List.map_eq_nil_iff]
    exact List.splitOn_ne_nil slash path
  rw [segments_split_on, List.splitOn_intercalate slash pieces some, segments_split_on,
    List.filter_map]
  congr 1
  apply List.filter_congr
  intro piece member
  exact decide_eq_decide.mpr (not_congr (empty piece member))

theorem segments_join {slash : Item} {left right : List Item}
    (relative : isAbsolute slash right = false) :
    segments slash (join slash left right) = segments slash left ++ segments slash right := by
  unfold join
  rw [if_neg (by rw [relative]; decide)]
  split_ifs with ended
  · rcases ended with rfl | ends
    · rfl
    · obtain ⟨front, rfl⟩ : ∃ front, left = front ++ [slash] := by
        obtain ⟨nonempty, last⟩ := List.getLast?_eq_some_iff.mp ends
        exact ⟨nonempty, last⟩
      have whole : front ++ [slash] ++ right = front ++ slash :: right := by simp
      have closed : segments slash (front ++ [slash]) = segments slash front := by
        have split := segments_from_split slash [] front []
        simpa [segments, segmentsFrom] using split
      rw [whole, closed]
      exact segments_from_split slash [] front right
  · exact segments_from_split slash [] left right

theorem join_absolute {slash : Item} {left right : List Item}
    (relative : isAbsolute slash right = false) :
    isAbsolute slash (join slash left right) = isAbsolute slash left := by
  unfold join
  rw [if_neg (by rw [relative]; decide)]
  cases left with
  | nil =>
      rw [if_pos (Or.inl rfl), List.nil_append]
      exact relative
  | cons item left => split_ifs <;> rfl

theorem infix_of_segment {slash : Item} {current path segment : List Item}
    (member : segment ∈ segmentsFrom slash current path) : segment <:+: current ++ path := by
  induction path generalizing current with
  | nil =>
      simp only [segmentsFrom] at member
      split_ifs at member
      · cases member
      · rw [List.mem_singleton.mp member, List.append_nil]
  | cons item path ih =>
      simp only [segmentsFrom] at member
      split_ifs at member with separator empty
      · have later := ih member
        rw [List.nil_append] at later
        exact later.trans ((List.suffix_cons item path).isInfix.trans
          (List.suffix_append current (item :: path)).isInfix)
      · rcases List.mem_cons.mp member with rfl | rest
        · exact (List.prefix_append _ _).isInfix
        · have later := ih rest
          rw [List.nil_append] at later
          exact later.trans ((List.suffix_cons item path).isInfix.trans
            (List.suffix_append current (item :: path)).isInfix)
      · have later := ih member
        rw [List.append_assoc] at later
        exact later

theorem fold_push_segments (dot : Item) (absolute : Bool) (done pieces : List (List Item))
    (noClimb : [dot, dot] ∉ pieces) :
    pieces.foldl (pushSegment dot absolute) done =
      done ++ pieces.filter (fun segment => segment ≠ [dot]) := by
  induction pieces generalizing done with
  | nil => simp
  | cons segment pieces ih =>
      have rest : [dot, dot] ∉ pieces := fun member => noClimb (List.mem_cons_of_mem _ member)
      have plain : segment ≠ [dot, dot] := by
        intro climbs
        apply noClimb
        rw [climbs]
        exact List.mem_cons_self
      rw [List.foldl_cons, ih _ rest]
      by_cases single : segment = [dot]
      · simp [pushSegment, single]
      · simp [pushSegment, single, plain]

theorem inside_join {slash dot : Item} {directory relative : List Item}
    (notAbsolute : isAbsolute slash relative = false)
    (noClimb : ¬[dot, dot] <:+: relative) :
    Inside slash dot directory (join slash directory relative) := by
  have noSegment : [dot, dot] ∉ segments slash relative := by
    intro member
    exact noClimb (by simpa using infix_of_segment member)
  refine ⟨join_absolute notAbsolute, (segments slash relative).filter (fun s => s ≠ [dot]), ?_, ?_⟩
  · unfold normalSegments
    rw [segments_join notAbsolute, join_absolute notAbsolute, List.foldl_append,
      fold_push_segments dot _ _ _ noSegment]
  · intro member
    exact noSegment (List.mem_of_mem_filter member)

theorem join_of_absolute {slash : Item} {left right : List Item}
    (absolute : isAbsolute slash right = true) : join slash left right = right := by
  unfold join
  rw [if_pos absolute]

end LexicalPath
