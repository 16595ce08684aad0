import HttpServer.ListSearch

/-!
# Lines before the first empty line

`blockLines separator items` cuts `items` at each occurrence of the separator
and stops at the first empty line, or where no separator is left. It is the
reading of a header block that does not depend on how a parser walks over it.
`linesText` writes lines, each with its separator. For a separator that cannot
straddle the end of a line, what is written before an empty line is read back.
-/

namespace LineBlocks

open ListSearch

variable {Item : Type*} [DecidableEq Item]

/-- Every line shortens the rest, so the length of the list is fuel enough. -/
def blockLinesFor (separator : List Item) : Nat → List Item → List (List Item)
  | 0, _ => []
  | fuel + 1, items =>
      match findSub separator items with
      | none => []
      | some lineEnd =>
          if lineEnd = 0 then []
          else
            items.take lineEnd ::
              blockLinesFor separator fuel (items.drop (lineEnd + separator.length))

def blockLines (separator items : List Item) : List (List Item) :=
  blockLinesFor separator items.length items

theorem block_lines_for_stable (separator : List Item) (first second : Nat) (items : List Item)
    (firstEnough : items.length ≤ first) (secondEnough : items.length ≤ second) :
    blockLinesFor separator first items = blockLinesFor separator second items := by
  induction first generalizing second items with
  | zero =>
      have empty : items = [] := List.length_eq_zero_iff.mp (by omega)
      subst empty
      cases second with
      | zero => rfl
      | succ second =>
          simp only [blockLinesFor, findSub]
          split_ifs <;> rfl
  | succ first ih =>
      cases second with
      | zero =>
          have empty : items = [] := List.length_eq_zero_iff.mp (by omega)
          subst empty
          simp only [blockLinesFor, findSub]
          split_ifs <;> rfl
      | succ second =>
          simp only [blockLinesFor]
          cases found : findSub separator items with
          | none => rfl
          | some lineEnd =>
              have bound := find_sub_bound found
              dsimp only
              split_ifs with empty
              · rfl
              · rw [ih second (items.drop (lineEnd + separator.length))
                  (by rw [List.length_drop]; omega) (by rw [List.length_drop]; omega)]

theorem block_lines_empty {separator items : List Item} (found : findSub separator items = some 0) :
    blockLines separator items = [] := by
  unfold blockLines
  cases items.length with
  | zero => rfl
  | succ fuel => simp only [blockLinesFor, found, if_true]

theorem block_lines_cons {separator items : List Item} {lineEnd : Nat}
    (found : findSub separator items = some lineEnd) (positive : lineEnd ≠ 0) :
    blockLines separator items =
      items.take lineEnd :: blockLines separator (items.drop (lineEnd + separator.length)) := by
  have bound := find_sub_bound found
  have fuel : items.length = (items.length - 1) + 1 := by omega
  unfold blockLines
  rw [fuel]
  simp only [blockLinesFor, found, if_neg positive]
  rw [block_lines_for_stable separator (items.length - 1) _ _ (by rw [List.length_drop]; omega)
    (Nat.le_refl _)]

def linesText (separator : List Item) (lines : List (List Item)) : List Item :=
  lines.flatMap fun line => line ++ separator

omit [DecidableEq Item] in
theorem lines_text_first (separator line : List Item) (lines : List (List Item)) :
    linesText separator (line :: lines) = line ++ (separator ++ linesText separator lines) := by
  rw [linesText, List.flatMap_cons, List.append_assoc, linesText]

omit [DecidableEq Item] in
theorem lines_text_cons (separator line : List Item) (lines : List (List Item))
    (rest : List Item) :
    linesText separator (line :: lines) ++ rest =
      line ++ (separator ++ (linesText separator lines ++ rest)) := by
  rw [lines_text_first, List.append_assoc, List.append_assoc]

/-- A separator found at the end of every line that does not hold it. -/
def Delimits (separator : List Item) : Prop :=
  separator ≠ [] ∧ ∀ line rest, ¬separator <:+: line →
    findSub separator (line ++ (separator ++ rest)) = some line.length

theorem pair_delimits {first second : Item} (different : first ≠ second) :
    Delimits [first, second] :=
  ⟨List.cons_ne_nil _ _, fun _ rest absent => find_sub_pair different absent rest⟩

section Delimited

variable {separator : List Item} (delimits : Delimits separator)

include delimits

theorem line_found_iff {items : List Item} {lineEnd : Nat} :
    findSub separator items = some lineEnd ↔
      ∃ line rest, items = line ++ (separator ++ rest) ∧ ¬separator <:+: line ∧
        line.length = lineEnd := by
  constructor
  · intro found
    have bound := find_sub_bound found
    refine ⟨items.take lineEnd, items.drop (lineEnd + separator.length), ?_,
      find_sub_front delimits.1 found, ?_⟩
    · rw [← List.append_assoc]
      exact find_sub_split found
    · rw [List.length_take]
      omega
  · rintro ⟨line, rest, rfl, absent, rfl⟩
    exact delimits.2 line rest absent

theorem line_unique {line line' rest rest' : List Item} (plain : ¬separator <:+: line)
    (plain' : ¬separator <:+: line')
    (same : line ++ (separator ++ rest) = line' ++ (separator ++ rest')) :
    line = line' ∧ rest = rest' := by
  have here := delimits.2 line rest plain
  have there := delimits.2 line' rest' plain'
  rw [same, there] at here
  obtain ⟨lines, rests⟩ := List.append_inj same (Option.some.inj here).symm
  exact ⟨lines, List.append_cancel_left rests⟩

theorem block_lines_text {lines : List (List Item)} (rest : List Item)
    (plain : ∀ line ∈ lines, line ≠ [] ∧ ¬separator <:+: line) :
    blockLines separator (linesText separator lines ++ (separator ++ rest)) = lines := by
  induction lines with
  | nil =>
      apply block_lines_empty
      have absent : ¬separator <:+: [] := by
        rw [List.infix_nil]
        exact delimits.1
      exact delimits.2 [] rest absent
  | cons line lines ih =>
      obtain ⟨nonempty, absent⟩ := plain line List.mem_cons_self
      have found := delimits.2 line (linesText separator lines ++ (separator ++ rest)) absent
      have positive : line.length ≠ 0 := by
        rwa [ne_eq, List.length_eq_zero_iff]
      rw [lines_text_cons, block_lines_cons found positive, List.take_left, ← List.drop_drop,
        List.drop_left, List.drop_left, ih]
      intro other member
      exact plain other (List.mem_cons_of_mem _ member)

/-- So the lines before an empty line are determined, and what follows it. -/
theorem lines_unique {lines lines' : List (List Item)} {rest rest' : List Item}
    (plain : ∀ line ∈ lines, line ≠ [] ∧ ¬separator <:+: line)
    (plain' : ∀ line ∈ lines', line ≠ [] ∧ ¬separator <:+: line)
    (same : linesText separator lines ++ (separator ++ rest) =
      linesText separator lines' ++ (separator ++ rest')) : lines = lines' ∧ rest = rest' := by
  have here := block_lines_text delimits rest plain
  rw [same, block_lines_text delimits rest' plain'] at here
  subst here
  exact ⟨rfl, List.append_cancel_left (List.append_cancel_left same)⟩

end Delimited

end LineBlocks
