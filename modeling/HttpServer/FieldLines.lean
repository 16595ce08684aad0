import HttpServer.HttpParser
import HttpServer.HttpResponse
import HttpServer.LineBlocks

/-!
# Field lines written and read

The line of a field is `name: value`. A block of such lines, ended by an empty
line, splits into them again and each splits into its field, as long as names and
values pass the checks of the parser: then no line holds a carriage return and no
name a colon. `IsFieldLine` are the lines the parser takes for a field, with any
blanks around the value. `decimalText` is read back by `decimalValue`.
-/

namespace HttpServer.FieldLines

open ListSearch LineBlocks HttpParser

def fieldLine (field : Bytes × Bytes) : Bytes := field.1 ++ ascii ": " ++ field.2

def renderFields (fields : List (Bytes × Bytes)) : Bytes :=
  fields.flatMap fun field => fieldLine field ++ crlf

section Characters

theorem token_byte_ne {character : Byte} (valid : utils.isTokenByte character = true) :
    character ≠ 58 ∧ character ≠ 13 ∧ character ≠ 32 := by
  refine ⟨?_, ?_, ?_⟩ <;> rintro rfl <;> revert valid <;> decide

theorem valid_name_avoids {name : Bytes} (valid : utils.isValidHeaderName name = true) :
    58 ∉ name ∧ 13 ∉ name ∧ name ≠ [] := by
  simp only [utils.isValidHeaderName, Bool.and_eq_true, Bool.not_eq_true',
    List.all_eq_true] at valid
  refine ⟨?_, ?_, ?_⟩
  · intro member
    exact (token_byte_ne (valid.2 58 member)).1 rfl
  · intro member
    exact (token_byte_ne (valid.2 13 member)).2.1 rfl
  · intro empty
    rw [empty] at valid
    cases valid.1

theorem valid_value_avoids {value : Bytes} (valid : utils.isValidHeaderValue value = true) :
    13 ∉ value := by
  intro member
  simp only [utils.isValidHeaderValue, List.all_eq_true] at valid
  have refused := valid 13 member
  revert refused
  decide

end Characters

section Reading

variable {field : Bytes × Bytes}

theorem field_line_avoids (valid : fieldIsValid field = true) : 13 ∉ fieldLine field := by
  simp only [fieldIsValid, Bool.and_eq_true] at valid
  have separator : (13 : Byte) ∉ ascii ": " := by decide
  simp only [fieldLine, List.mem_append, not_or]
  exact ⟨⟨(valid_name_avoids valid.1).2.1, separator⟩, valid_value_avoids valid.2⟩

theorem field_line_ne_nil : fieldLine field ≠ [] := by
  have separator : ascii ": " ≠ [] := by decide
  simp only [fieldLine, ne_eq, List.append_eq_nil_iff, not_and_or]
  exact Or.inl (Or.inr separator)

theorem trim_blank (value : Bytes) : utils.trimOws (32 :: value) = utils.trimOws value := by
  unfold utils.trimOws
  rw [List.dropWhile_cons_of_pos (by decide)]

theorem split_field_line (valid : utils.isValidHeaderName field.1 = true) :
    splitField (fieldLine field) = some (field.1, utils.trimOws field.2) := by
  have shape : fieldLine field = field.1 ++ ([58] ++ (32 :: field.2)) := by
    simp only [fieldLine, List.append_assoc]
    rfl
  have found : findSub [58] (fieldLine field) = some field.1.length := by
    rw [shape]
    exact find_sub_fresh (valid_name_avoids valid).1 _
  unfold splitField
  rw [found, Option.map_some, shape, List.take_left, ← List.drop_drop, List.drop_left]
  simp only [List.cons_append, List.nil_append, List.drop_succ_cons, List.drop_zero, trim_blank]

theorem find_line_end {line : Bytes} (absent : 13 ∉ line) (rest : Bytes) :
    findSub crlf (line ++ (crlf ++ rest)) = some line.length := find_sub_fresh absent rest

theorem render_fields_front (field : Bytes × Bytes) (fields : List (Bytes × Bytes)) (rest : Bytes) :
    renderFields (field :: fields) ++ (crlf ++ rest) =
      fieldLine field ++ (crlf ++ (renderFields fields ++ (crlf ++ rest))) := by
  simp only [renderFields, List.flatMap_cons, List.append_assoc]

theorem field_line_length_ne_zero (field : Bytes × Bytes) : (fieldLine field).length ≠ 0 := by
  rw [ne_eq, List.length_eq_zero_iff]
  exact field_line_ne_nil

theorem drop_past_line (line rest : Bytes) :
    (line ++ (crlf ++ rest)).drop (line.length + 2) = rest := by
  rw [← List.drop_drop, List.drop_left]
  rfl

end Reading

section Blocks

theorem crlf_delimits : Delimits crlf := pair_delimits (by decide)

theorem crlf_absent {text : Bytes} (plain : 13 ∉ text) : ¬crlf <:+: text := by
  intro inside
  exact plain (inside.subset List.mem_cons_self)

theorem lines_text_joined {lines : List Bytes} (nonempty : lines ≠ []) :
    linesText crlf lines = crlf.intercalate lines ++ crlf := by
  induction lines with
  | nil => exact absurd rfl nonempty
  | cons line lines ih =>
      cases lines with
      | nil => rw [linesText, List.flatMap_singleton, List.intercalate_singleton]
      | cons next lines =>
          have rest := ih (List.cons_ne_nil _ _)
          have front : linesText crlf (line :: next :: lines) =
              line ++ crlf ++ linesText crlf (next :: lines) := rfl
          rw [front, rest, List.intercalate_cons_cons, List.append_assoc, List.append_assoc,
            List.append_assoc]

theorem double_crlf_found {lines : List Bytes} (nonempty : lines ≠ [])
    (plain : ∀ line ∈ lines, line ≠ [] ∧ 13 ∉ line) (rest : Bytes) :
    findSub crlfCrlf (linesText crlf lines ++ (crlf ++ rest)) =
      some (crlf.intercalate lines).length := by
  induction lines with
  | nil => exact absurd rfl nonempty
  | cons line lines ih =>
      have avoids := (plain line List.mem_cons_self).2
      rw [lines_text_cons]
      cases lines with
      | nil =>
          have found : findSub crlfCrlf (line ++ (crlfCrlf ++ rest)) = some line.length :=
            find_sub_fresh avoids rest
          simpa [linesText, List.intercalate, crlf, crlfCrlf] using found
      | cons next lines =>
          have found := ih (List.cons_ne_nil _ _)
            fun other member => plain other (List.mem_cons_of_mem _ member)
          -- the next line begins with a byte that is no CR
          obtain ⟨first, tail, begins⟩ : ∃ first tail,
              linesText crlf (next :: lines) ++ (crlf ++ rest) = first :: tail ∧ first ≠ 13 := by
            obtain ⟨written, noReturn⟩ := plain next (List.mem_cons_of_mem _ List.mem_cons_self)
            obtain ⟨first, others, spelled⟩ := List.exists_cons_of_ne_nil written
            rw [spelled, List.mem_cons, not_or] at noReturn
            rw [lines_text_cons, spelled]
            exact ⟨first, _, rfl, fun same => noReturn.1 same.symm⟩
          have length : (crlf.intercalate (line :: next :: lines)).length =
              (crlf.intercalate (next :: lines)).length + 2 + line.length := by
            simp [List.intercalate, crlf]
            omega
          have skipped : findSub crlfCrlf (crlf ++ (first :: tail)) =
              (findSub crlfCrlf (first :: tail)).map (· + 2) := by
            simp [findSub, crlf, crlfCrlf, begins.2.symm, Option.map_map, Function.comp_def]
          have passed : findSub crlfCrlf (line ++ (crlf ++ (first :: tail))) =
              (findSub crlfCrlf (crlf ++ (first :: tail))).map (· + line.length) :=
            find_sub_skip avoids _
          rw [begins.1] at found ⊢
          rw [passed, skipped, found, length]
          rfl

theorem trim_split (value : Bytes) :
    ∃ front back, value = front ++ (utils.trimOws value ++ back) ∧
      (∀ byte ∈ front, utils.isOws byte = true) ∧ ∀ byte ∈ back, utils.isOws byte = true := by
  refine ⟨value.takeWhile utils.isOws, (value.dropWhile utils.isOws).rtakeWhile utils.isOws,
    ?_, ?_, ?_⟩
  · rw [utils.trimOws, List.rdropWhile_append_rtakeWhile, List.takeWhile_append_dropWhile]
  · intro byte member
    exact List.mem_takeWhile_imp member
  · intro byte member
    exact List.mem_rtakeWhile_imp member

/-- A line `name:value` whose name and trimmed value are valid. -/
def IsFieldLine (line : Bytes) : Prop :=
  ∃ name value, line = name ++ 58 :: value ∧ utils.isValidHeaderName name = true ∧
    utils.isValidHeaderValue (utils.trimOws value) = true

theorem split_field_of_name {name : Bytes} (valid : utils.isValidHeaderName name = true)
    (value : Bytes) : splitField (name ++ 58 :: value) = some (name, utils.trimOws value) := by
  have found : findSub [58] (name ++ 58 :: value) = some name.length :=
    find_sub_fresh (valid_name_avoids valid).1 value
  unfold splitField
  rw [found, Option.map_some, List.take_left, ← List.drop_drop, List.drop_left]
  rfl

theorem is_field_line_iff (line : Bytes) :
    IsFieldLine line ↔ ∃ field, splitField line = some field ∧ fieldIsValid field = true := by
  constructor
  · rintro ⟨name, value, rfl, validName, validValue⟩
    refine ⟨_, split_field_of_name validName value, ?_⟩
    rw [fieldIsValid, validName, validValue]
    rfl
  · rintro ⟨field, split, valid⟩
    obtain ⟨colon, found, rfl⟩ := Option.map_eq_some_iff.mp split
    have parts := find_sub_split found
    rw [List.append_assoc] at parts
    rw [fieldIsValid, Bool.and_eq_true] at valid
    exact ⟨line.take colon, line.drop (colon + 1), parts, valid⟩

def fieldOf (line : Bytes) : Bytes × Bytes :=
  (line.takeWhile (· ≠ 58), utils.trimOws ((line.dropWhile (· ≠ 58)).drop 1))

theorem split_field_iff (line : Bytes) (field : Bytes × Bytes) :
    splitField line = some field ↔ 58 ∈ line ∧ field = fieldOf line := by
  unfold splitField
  cases found : findSub [58] line with
  | none =>
      have absent := (find_sub_single_none_iff 58 line).mp found
      simp [absent]
  | some colon =>
      obtain ⟨name, value⟩ := find_sub_while found
      have present : 58 ∈ line := by
        by_contra absent
        rw [find_sub_absent absent] at found
        cases found
      rw [Option.map_some, Option.some.injEq, name, value, eq_comm]
      simp only [present, true_and]
      rfl

theorem is_field_line_of (line : Bytes) :
    IsFieldLine line ↔ 58 ∈ line ∧ fieldIsValid (fieldOf line) = true := by
  rw [is_field_line_iff]
  constructor
  · rintro ⟨field, split, valid⟩
    obtain ⟨colon, rfl⟩ := (split_field_iff line field).mp split
    exact ⟨colon, valid⟩
  · rintro ⟨colon, valid⟩
    exact ⟨fieldOf line, (split_field_iff line _).mpr ⟨colon, rfl⟩, valid⟩

theorem field_line_plain {line : Bytes} (field : IsFieldLine line) : line ≠ [] ∧ 13 ∉ line := by
  obtain ⟨name, value, rfl, validName, validValue⟩ := field
  refine ⟨by simp, ?_⟩
  obtain ⟨front, back, whole, frontBlank, backBlank⟩ := trim_split value
  have blank : ∀ blanks : Bytes, (∀ byte ∈ blanks, utils.isOws byte = true) → 13 ∉ blanks := by
    intro blanks all member
    exact absurd (all 13 member) (by decide)
  rw [whole]
  simp only [List.mem_append, List.mem_cons, not_or]
  exact ⟨(valid_name_avoids validName).2.1, by decide, blank front frontBlank,
    valid_value_avoids validValue, blank back backBlank⟩

theorem field_lines_plain {lines : List Bytes} (fields : ∀ line ∈ lines, IsFieldLine line) :
    ∀ line ∈ lines, line ≠ [] ∧ ¬crlf <:+: line := by
  intro line member
  obtain ⟨nonempty, noReturn⟩ := field_line_plain (fields line member)
  exact ⟨nonempty, crlf_absent noReturn⟩

theorem render_fields_lines (fields : List (Bytes × Bytes)) :
    renderFields fields = linesText crlf (fields.map fieldLine) := by
  simp only [renderFields, linesText, List.flatMap_map]

theorem block_lines_render (fields : List (Bytes × Bytes)) (rest : Bytes)
    (valid : ∀ field ∈ fields, fieldIsValid field = true) :
    blockLines crlf (renderFields fields ++ (crlf ++ rest)) = fields.map fieldLine := by
  rw [render_fields_lines]
  apply block_lines_text crlf_delimits
  intro line member
  obtain ⟨field, stored, rfl⟩ := List.mem_map.mp member
  exact ⟨field_line_ne_nil, crlf_absent (field_line_avoids (valid field stored))⟩

theorem fields_render (fields : List (Bytes × Bytes)) (rest : Bytes)
    (valid : ∀ field ∈ fields, fieldIsValid field = true) :
    (blockLines crlf (renderFields fields ++ (crlf ++ rest))).filterMap splitField =
      fields.map fun field => (field.1, utils.trimOws field.2) := by
  rw [block_lines_render fields rest valid]
  clear rest
  induction fields with
  | nil => rfl
  | cons field fields ih =>
      have fieldValid := valid field List.mem_cons_self
      simp only [fieldIsValid, Bool.and_eq_true] at fieldValid
      rw [List.map_cons, List.filterMap_cons_some (split_field_line fieldValid.1), List.map_cons,
        ih]
      intro other member
      exact valid other (List.mem_cons_of_mem _ member)

end Blocks

section Numbers

theorem digit_byte {character : Char} (digit : character.isDigit = true) :
    utils.isDigit (UInt8.ofNat character.toNat) = true ∧
      (UInt8.ofNat character.toNat).toNat = character.toNat := by
  have bounds : 48 ≤ character.toNat ∧ character.toNat ≤ 57 := Char.isDigit_iff_toNat.mp digit
  have same : (UInt8.ofNat character.toNat).toNat = character.toNat := by
    rw [UInt8.toNat_ofNat', Nat.mod_eq_of_lt (by omega)]
  refine ⟨?_, same⟩
  simp only [utils.isDigit, UInt8.le_iff_toNat_le, same, Bool.and_eq_true, decide_eq_true_eq]
  exact bounds

theorem decimal_text_digit {number : Nat} {character : Char}
    (member : character ∈ Nat.toDigits 10 number) : character.isDigit = true :=
  Nat.isDigit_of_mem_toDigits (by decide) (by decide) member

theorem decimal_text_digits (number : Nat) : (decimalText number).all utils.isDigit = true := by
  simp only [decimalText, List.all_map, List.all_eq_true]
  intro character member
  exact (digit_byte (decimal_text_digit member)).1

theorem decimal_text_ne_nil (number : Nat) : decimalText number ≠ [] := by
  simp only [decimalText, ne_eq, List.map_eq_nil_iff]
  exact Nat.toDigits_ne_nil

theorem decimal_value_text (number : Nat) : utils.decimalValue (decimalText number) = number := by
  have read := @Nat.ofDigitChars_ten_toDigits number
  rw [Nat.ofDigitChars_eq_foldl] at read
  unfold utils.decimalValue decimalText
  rw [List.foldl_map]
  refine Eq.trans (List.foldl_ext _ _ _ ?_) read
  intro value character member
  rw [(digit_byte (decimal_text_digit member)).2, Nat.mul_comm]
  rfl

theorem digit_plain {character : Byte} (digit : utils.isDigit character = true) :
    utils.isOws character = false ∧ utils.isValidHeaderValue [character] = true := by
  simp only [utils.isDigit, UInt8.le_iff_toNat_le, Bool.and_eq_true, decide_eq_true_eq] at digit
  have lower : 48 ≤ character.toNat := digit.1
  have upper : character.toNat ≤ 57 := digit.2
  have apart : ∀ other : Byte, other.toNat < 48 ∨ 57 < other.toNat → character ≠ other := by
    rintro other outside rfl
    omega
  have printable : ¬ character < 0x20 := by
    rw [UInt8.lt_iff_toNat_lt]
    have blank : (0x20 : Byte).toNat = 32 := rfl
    omega
  constructor
  · simp only [utils.isOws, apart 32 (by decide), apart 9 (by decide), decide_false, Bool.or_false]
  · simp only [utils.isValidHeaderValue, List.all_cons, List.all_nil, apart 13 (by decide),
      apart 10 (by decide), apart 0x7F (by decide), printable, decide_false, Bool.or_false,
      Bool.not_false, Bool.false_and, Bool.and_true]

theorem decimal_text_valid (number : Nat) :
    utils.isValidHeaderValue (decimalText number) = true := by
  have digits := List.all_eq_true.mp (decimal_text_digits number)
  rw [utils.isValidHeaderValue, List.all_eq_true]
  intro character member
  have valid := (digit_plain (digits character member)).2
  simpa only [utils.isValidHeaderValue, List.all_cons, List.all_nil, Bool.and_true] using valid

theorem length_field_valid (number : Nat) :
    fieldIsValid (ascii "Content-Length", decimalText number) = true := by
  have name : utils.isValidHeaderName (ascii "Content-Length") = true := by decide
  rw [fieldIsValid, name, decimal_text_valid]
  rfl

theorem trim_plain {value : Bytes} (plain : ∀ character ∈ value, utils.isOws character = false) :
    utils.trimOws value = value := by
  have front : value.dropWhile utils.isOws = value := by
    rw [List.dropWhile_eq_self_iff]
    intro positive blank
    rw [plain _ (List.getElem_mem _)] at blank
    cases blank
  rw [utils.trimOws, front, List.rdropWhile_eq_self_iff]
  intro nonempty blank
  rw [plain _ (List.getLast_mem _)] at blank
  cases blank

theorem decimal_text_trimmed (number : Nat) :
    utils.trimOws (decimalText number) = decimalText number := by
  apply trim_plain
  intro character member
  exact (digit_plain (List.all_eq_true.mp (decimal_text_digits number) character member)).1

end Numbers

end HttpServer.FieldLines
