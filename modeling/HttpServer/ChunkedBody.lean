import HttpServer.FieldLines
import HttpServer.ParserResume

/-!
# Chunked bodies as a grammar

`ChunkedText` is a chunked body taken apart: chunks with their lines and data, the
line of the last chunk and the trailer lines. The four chunk handlers complete
exactly on the texts of this grammar, whatever follows, and there is at most one
way to read a text. The data of a chunk may hold anything: its end is counted.
The size of the trailer is not limited here, only the number of its lines.
-/

namespace HttpServer.ChunkedBody

open ListSearch LineBlocks MeasuredLoop HttpParser ParserResume FieldLines

section Numerals

def hexFrom (start : Nat) (digits : Bytes) : Nat :=
  digits.foldl (fun value digit => value * 16 + (utils.hexDigit digit).getD 0) start

def hexValue (digits : Bytes) : Nat := hexFrom 0 digits

theorem hex_from_le (start : Nat) (digits : Bytes) : start ≤ hexFrom start digits := by
  induction digits generalizing start with
  | nil => exact Nat.le_refl start
  | cons digit digits ih =>
      have onward := ih (start * 16 + (utils.hexDigit digit).getD 0)
      rw [hexFrom, List.foldl_cons]
      exact Nat.le_trans (by omega) onward

theorem parse_chunk_digits_iff (digits : Bytes) {start : Nat} (bounded : start < sizeModulus)
    (size : Nat) :
    utils.parseChunkDigits digits start = (true, size) ↔
      (∀ digit ∈ digits, (utils.hexDigit digit).isSome = true) ∧
        hexFrom start digits = size ∧ size < sizeModulus := by
  induction digits generalizing start with
  | nil =>
      simp only [utils.parseChunkDigits, Prod.mk.injEq, true_and, hexFrom, List.foldl_nil,
        List.not_mem_nil, false_implies, implies_true]
      constructor
      · rintro rfl
        exact ⟨rfl, bounded⟩
      · exact fun both => both.1
  | cons digit digits ih =>
      simp only [utils.parseChunkDigits, List.forall_mem_cons]
      cases decoded : utils.hexDigit digit with
      | none => simp
      | some value =>
          have next : hexFrom start (digit :: digits) = hexFrom (start * 16 + value) digits := by
            simp only [hexFrom, List.foldl_cons, decoded, Option.getD_some]
          have small := utils.hex_digit_lt decoded
          dsimp only
          rw [next]
          split_ifs with overflow
          · have grows := hex_from_le (start * 16 + value) digits
            simp only [sizeModulus] at overflow bounded ⊢
            simp only [Prod.mk.injEq, Bool.false_eq_true, false_and, false_iff, not_and]
            rintro _ rfl
            omega
          · rw [ih (by simp only [sizeModulus] at overflow bounded ⊢; omega)]
            simp

theorem parse_chunk_size_iff (text : Bytes) (result size : Nat) :
    utils.parseChunkSize text result = (true, size) ↔
      text ≠ [] ∧ (∀ digit ∈ text, (utils.hexDigit digit).isSome = true) ∧
        hexValue text = size ∧ size < sizeModulus := by
  unfold utils.parseChunkSize
  split_ifs with empty
  · simp [List.isEmpty_iff.mp empty]
  · rw [parse_chunk_digits_iff text (by decide)]
    have written : text ≠ [] := by simpa using empty
    simp [written, hexValue]

end Numerals

section Grammar

/-- The size of a chunk stands before the first semicolon of its line, between
blanks; what follows is an extension. -/
def sizeText (line : Bytes) : Bytes := utils.trimOws (line.takeWhile (· ≠ 59))

structure Announces (line : Bytes) (size : Nat) : Prop where
  plain : ¬crlf <:+: line
  nonempty : sizeText line ≠ []
  digits : ∀ digit ∈ sizeText line, (utils.hexDigit digit).isSome = true
  value : hexValue (sizeText line) = size

structure ChunkedText where
  chunks : List (Bytes × Bytes)
  last : Bytes
  trailer : List Bytes

def chunkText (chunk : Bytes × Bytes) : Bytes := chunk.1 ++ (crlf ++ (chunk.2 ++ crlf))

def trailerText (lines : List Bytes) : Bytes := linesText crlf lines ++ crlf

namespace ChunkedText

variable (text : ChunkedText)

def render : Bytes :=
  text.chunks.flatMap chunkText ++ (text.last ++ (crlf ++ trailerText text.trailer))

def body : Bytes := text.chunks.flatMap Prod.snd

/-- The grammar without its limits. -/
structure Shaped : Prop where
  chunks : ∀ chunk ∈ text.chunks, Announces chunk.1 chunk.2.length ∧ chunk.2 ≠ []
  last : Announces text.last 0
  trailer : ∀ line ∈ text.trailer, IsFieldLine line

structure Limited : Prop where
  lines : ∀ chunk ∈ text.chunks, chunk.1.length ≤ maxChunkLineSize
  last : text.last.length ≤ maxChunkLineSize
  trailer : text.trailer.length ≤ maxHeaders

variable {text} {chunk : Bytes × Bytes} {chunks : List (Bytes × Bytes)} {last : Bytes}
variable {trailer : List Bytes}

theorem Shaped.tail (shaped : (ChunkedText.mk (chunk :: chunks) last trailer).Shaped) :
    (ChunkedText.mk chunks last trailer).Shaped where
  chunks := fun other member => shaped.chunks other (List.mem_cons_of_mem _ member)
  last := shaped.last
  trailer := shaped.trailer

theorem Limited.tail (limited : (ChunkedText.mk (chunk :: chunks) last trailer).Limited) :
    (ChunkedText.mk chunks last trailer).Limited where
  lines := fun other member => limited.lines other (List.mem_cons_of_mem _ member)
  last := limited.last
  trailer := limited.trailer

end ChunkedText

theorem size_text_eq (line : Bytes) : chunkSizeText line = sizeText line := by
  unfold chunkSizeText sizeText
  cases found : findSub [59] line with
  | none => rw [find_sub_while_none found]
  | some semicolon =>
      dsimp only
      rw [(find_sub_while found).1]

theorem announces_iff {line : Bytes} (plain : ¬crlf <:+: line) (result size : Nat) :
    utils.parseChunkSize (chunkSizeText line) result = (true, size) ↔
      Announces line size ∧ size < sizeModulus := by
  rw [size_text_eq, parse_chunk_size_iff]
  constructor
  · rintro ⟨nonempty, digits, value, small⟩
    exact ⟨⟨plain, nonempty, digits, value⟩, small⟩
  · rintro ⟨announces, small⟩
    exact ⟨announces.nonempty, announces.digits, announces.value, small⟩

end Grammar

section Handlers

variable {data : Bytes} {parser following : HttpParser}

theorem drop_inside {front : Bytes} {rest : Bytes} (written : data.drop parser.consumed = front ++ rest)
    (nonempty : front ≠ []) : parser.consumed + front.length ≤ data.length := by
  have positive := List.length_pos_iff.mpr nonempty
  have length := congrArg List.length written
  rw [List.length_drop, List.length_append] at length
  omega

theorem drop_behind_line {line rest : Bytes}
    (written : data.drop parser.consumed = line ++ (crlf ++ rest)) :
    data.drop (parser.consumed + (line.length + 2)) = rest ∧
      parser.consumed + (line.length + 2) ≤ data.length := by
  have inside := drop_inside (written.trans (List.append_assoc line crlf rest).symm)
    (by simp [crlf])
  rw [List.length_append, crlf_length] at inside
  refine ⟨?_, inside⟩
  rw [← List.drop_drop, written, drop_past_line]

theorem chunk_size_small {held size : Nat} (fits : held + size ≤ maxBodySize) :
    size < sizeModulus :=
  Nat.lt_of_le_of_lt (Nat.le_trans (Nat.le_add_left _ _) fits) (by decide)

def behindSize (parser : HttpParser) (line : Bytes) (size : Nat) : HttpParser :=
  { parser with
    consumed := parser.consumed + (line.length + 2)
    chunkSize := size
    chunkBytesRead := 0
    state := if size = 0 then .chunkTrailer else .chunkData }

theorem handle_chunk_size_iff :
    handleChunkSize data parser = (none, following) ↔
      ∃ line size rest, data.drop parser.consumed = line ++ (crlf ++ rest) ∧
        Announces line size ∧ line.length ≤ maxChunkLineSize ∧
        parser.body.length + size ≤ maxBodySize ∧ following = behindSize parser line size := by
  constructor
  · intro handled
    obtain ⟨lineEnd, size, _, found, short, parsed, fits, rfl⟩ := handle_chunk_size_advances handled
    obtain ⟨line, rest, written, plain, rfl⟩ := (line_found_iff crlf_delimits).mp found
    rw [written, List.take_left] at parsed
    exact ⟨line, size, rest, written, ((announces_iff plain _ _).mp parsed).1, short, fits, rfl⟩
  · rintro ⟨line, size, rest, written, announces, short, fits, rfl⟩
    have found : findSub crlf (data.drop parser.consumed) = some line.length :=
      (line_found_iff crlf_delimits).mpr ⟨line, rest, written, announces.plain, rfl⟩
    have inside := (drop_behind_line written).2
    have parsed := (announces_iff announces.plain parser.chunkSize size).mpr
      ⟨announces, chunk_size_small fits⟩
    have limited : ¬(decide (size > maxBodySize) ||
        decide (parser.body.length > maxBodySize - size)) = true := by
      rw [Bool.or_eq_true, decide_eq_true_eq, decide_eq_true_eq]
      omega
    unfold handleChunkSize
    rw [if_neg (by omega)]
    dsimp only
    rw [found]
    dsimp only
    rw [if_neg (Nat.not_lt.mpr short), written, List.take_left, parsed]
    dsimp only
    rw [if_neg (by decide), if_neg limited]
    rfl

theorem handle_chunk_data_iff (unread : parser.chunkBytesRead = 0)
    (bounded : parser.chunkSize < sizeModulus) (inside : parser.consumed ≤ data.length) :
    handleChunkData data parser = (none, following) ↔
      ∃ payload rest, data.drop parser.consumed = payload ++ rest ∧
        payload.length = parser.chunkSize ∧
        following = { parser with
          body := parser.body ++ payload
          consumed := parser.consumed + payload.length
          chunkBytesRead := parser.chunkSize
          state := .chunkDataCrlf } := by
  have ordered : parser.chunkBytesRead ≤ parser.chunkSize := by
    rw [unread]
    exact Nat.zero_le _
  constructor
  · intro handled
    obtain ⟨enough, moved⟩ := handle_chunk_data_advances ordered bounded handled
    rw [unread, Nat.sub_zero] at enough moved
    have length : ((data.drop parser.consumed).take parser.chunkSize).length =
        parser.chunkSize := by
      rw [List.length_take, List.length_drop]
      omega
    refine ⟨_, _, (List.take_append_drop parser.chunkSize _).symm, length, ?_⟩
    rw [length]
    exact moved
  · rintro ⟨payload, rest, written, length, rfl⟩
    have sizes := congrArg List.length written
    rw [List.length_drop, List.length_append] at sizes
    rw [handle_chunk_data_eq inside ordered bounded]
    dsimp only
    rw [unread, Nat.sub_zero, Nat.min_eq_right (by omega), Nat.zero_add,
      if_neg (Nat.lt_irrefl _), written, ← length, List.take_left]

theorem handle_chunk_data_crlf_iff :
    handleChunkDataCrlf data parser = (none, following) ↔
      ∃ rest, data.drop parser.consumed = crlf ++ rest ∧
        following = { parser with consumed := parser.consumed + 2, state := .chunkSize } := by
  constructor
  · intro handled
    obtain ⟨rest, _, written, moved⟩ := handle_chunk_data_crlf_advances handled
    exact ⟨rest, written, moved⟩
  · rintro ⟨rest, written, rfl⟩
    have inside := drop_inside written (by decide)
    unfold handleChunkDataCrlf
    rw [if_neg (by omega), written]
    rfl

end Handlers

section Trailer

/-- Trailer lines that pass the loop are field lines, as long as the loop is not
left early by an empty line. -/
theorem trailer_loop_lines (cursor : Bytes × Nat) (noEnd : ¬crlfCrlf <:+: cursor.1)
    (noEmpty : ¬crlf <+: cursor.1) (bounded : cursor.2 ≤ maxHeaders)
    (passed : trailerLoop.run cursor = true) :
    ∃ lines, cursor.1 = linesText crlf lines ∧ (∀ line ∈ lines, IsFieldLine line) ∧
      cursor.2 + lines.length ≤ maxHeaders := by
  induction cursor using trailerLoop.run_induction with
  | done cursor result turned =>
      rw [trailerLoop.run_done turned] at passed
      subst passed
      rcases trailer_turn_passes turned with empty | found
      · exact ⟨[], empty, List.forall_mem_nil _, bounded⟩
      · have occurs := ((find_sub_eq_some_iff _ _ _).mp found).2.1
        exact absurd occurs noEmpty
  | next cursor following turned ih =>
      rw [trailerLoop.run_next turned] at passed
      obtain ⟨lineEnd, field, _, found, _, split, valid, counted, rfl⟩ := trailer_turn_next turned
      obtain ⟨line, rest, written, plain, rfl⟩ := (line_found_iff crlf_delimits).mp found
      have remaining : cursor.1.drop (line.length + 2) = rest := by
        rw [written]
        exact drop_past_line line rest
      rw [written, List.take_left] at split
      rw [remaining] at ih passed
      have later : ¬crlfCrlf <:+: rest := by
        intro inside
        apply noEnd
        rw [written, ← List.append_assoc]
        exact inside.trans (List.suffix_append _ _).isInfix
      have laterEmpty : ¬crlf <+: rest := by
        rintro ⟨tail, starts⟩
        apply noEnd
        rw [written, ← starts]
        exact ⟨line, tail, by simp [crlf, crlfCrlf]⟩
      obtain ⟨lines, whole, fields, count⟩ := ih later laterEmpty counted passed
      refine ⟨line :: lines, ?_, ?_, ?_⟩
      · dsimp only at whole
        rw [lines_text_first, written, whole]
      · intro other member
        rcases List.mem_cons.mp member with rfl | behind
        · exact (is_field_line_iff other).mpr ⟨field, split, valid⟩
        · exact fields other behind
      · dsimp only at count
        rw [List.length_cons]
        omega

theorem trailer_loop_passes {lines : List Bytes} (fields : ∀ line ∈ lines, IsFieldLine line)
    (count : Nat) (bounded : count + lines.length ≤ maxHeaders) :
    trailerLoop.run (linesText crlf lines, count) = true := by
  induction lines generalizing count with
  | nil => exact trailerLoop.run_done rfl
  | cons line lines ih =>
      have isField := fields line List.mem_cons_self
      obtain ⟨nonempty, noReturn⟩ := field_line_plain isField
      obtain ⟨field, split, valid⟩ := (is_field_line_iff line).mp isField
      rw [List.length_cons] at bounded
      have found := find_line_end noReturn (linesText crlf lines)
      have present : ¬(line ++ (crlf ++ linesText crlf lines)).isEmpty = true := by
        simp [crlf]
      have positive : line.length ≠ 0 := by
        rwa [ne_eq, List.length_eq_zero_iff]
      have turned : trailerLoop.turn (linesText crlf (line :: lines), count) =
          .next (linesText crlf lines, count + 1) := by
        change trailerTurn _ = _
        unfold trailerTurn
        dsimp only
        rw [lines_text_first, if_neg present, found]
        dsimp only
        rw [if_neg positive, List.take_left, split]
        dsimp only
        rw [if_neg (by rw [valid]; decide), if_neg (by omega), drop_past_line]
      rw [trailerLoop.run_next turned]
      exact ih (fun other member => fields other (List.mem_cons_of_mem _ member)) (count + 1)
        (by omega)

end Trailer

section Runs

variable {data : Bytes} {parser : HttpParser} {request : HttpRequest} {stopped : Reading}

/-- In these states a request is not complete yet. -/
theorem run_advances_iff (advancing : parser.state = .chunkSize ∨ parser.state = .chunkData ∨
      parser.state = .chunkDataCrlf) :
    (parseLoop data).run (parser, request) = (.complete, stopped) ↔
      ∃ following, handleState data (parser, request) = (none, following, request) ∧
        (parseLoop data).run (following, request) = (.complete, stopped) := by
  constructor
  · intro complete
    cases turned : (parseLoop data).turn (parser, request) with
    | done result =>
        rw [(parseLoop data).run_done turned] at complete
        subst complete
        have handled := (parse_turn_done_iff _ _ _ _).mp turned
        cases handle_state_completes handled with
        | headers at_state | body at_state | chunkTrailer at_state | complete at_state =>
            rw [at_state] at advancing
            simp at advancing
    | next following =>
        rw [(parseLoop data).run_next turned] at complete
        have handled := (parse_turn_next_iff _ _ _).mp turned
        have kept : following.2 = request := by
          cases handle_state_advances handled with
          | chunkSize at_state handled kept => exact kept
          | chunkData at_state handled kept => exact kept
          | chunkDataCrlf at_state handled kept => exact kept
          | requestLine at_state | headers at_state =>
              rw [at_state] at advancing
              simp at advancing
        subst kept
        exact ⟨following.1, handled, complete⟩
  · rintro ⟨following, handled, complete⟩
    rw [(parseLoop data).run_next ((parse_turn_next_iff _ _ _).mpr handled), complete]

theorem size_run_iff (at_state : parser.state = .chunkSize) :
    (parseLoop data).run (parser, request) = (.complete, stopped) ↔
      ∃ line size rest, data.drop parser.consumed = line ++ (crlf ++ rest) ∧
        Announces line size ∧ line.length ≤ maxChunkLineSize ∧
        parser.body.length + size ≤ maxBodySize ∧
        (parseLoop data).run (behindSize parser line size, request) = (.complete, stopped) := by
  rw [run_advances_iff (Or.inl at_state)]
  simp only [handleState, at_state, keep_request_eq_iff, and_true, handle_chunk_size_iff]
  constructor
  · rintro ⟨following, ⟨line, size, rest, written, announces, short, fits, rfl⟩, complete⟩
    exact ⟨line, size, rest, written, announces, short, fits, complete⟩
  · rintro ⟨line, size, rest, written, announces, short, fits, complete⟩
    exact ⟨_, ⟨line, size, rest, written, announces, short, fits, rfl⟩, complete⟩

theorem data_run_iff (at_state : parser.state = .chunkData) (unread : parser.chunkBytesRead = 0)
    (bounded : parser.chunkSize < sizeModulus) (inside : parser.consumed ≤ data.length) :
    (parseLoop data).run (parser, request) = (.complete, stopped) ↔
      ∃ payload rest, data.drop parser.consumed = payload ++ (crlf ++ rest) ∧
        payload.length = parser.chunkSize ∧
        (parseLoop data).run
          ({ parser with
            body := parser.body ++ payload
            consumed := parser.consumed + (payload.length + 2)
            chunkBytesRead := parser.chunkSize
            state := .chunkSize }, request) = (.complete, stopped) := by
  have behind : ∀ {payload rest : Bytes}, data.drop parser.consumed = payload ++ rest →
      data.drop (parser.consumed + payload.length) = rest := by
    intro payload rest written
    rw [← List.drop_drop, written, List.drop_left]
  rw [run_advances_iff (Or.inr (Or.inl at_state))]
  simp only [handleState, at_state, keep_request_eq_iff, and_true,
    handle_chunk_data_iff unread bounded inside]
  constructor
  · rintro ⟨_, ⟨payload, rest, written, length, rfl⟩, complete⟩
    rw [run_advances_iff (Or.inr (Or.inr rfl))] at complete
    obtain ⟨following, handled, complete⟩ := complete
    simp only [handleState, keep_request_eq_iff, and_true, handle_chunk_data_crlf_iff] at handled
    obtain ⟨further, ended, rfl⟩ := handled
    rw [behind written] at ended
    rw [ended] at written
    exact ⟨payload, further, written, length, complete⟩
  · rintro ⟨payload, rest, written, length, complete⟩
    refine ⟨_, ⟨payload, crlf ++ rest, written, length, rfl⟩, ?_⟩
    rw [run_advances_iff (Or.inr (Or.inr rfl))]
    refine ⟨_, ?_, complete⟩
    simp only [handleState, keep_request_eq_iff, and_true, handle_chunk_data_crlf_iff]
    exact ⟨rest, behind written, rfl⟩

def behindChunk (parser : HttpParser) (chunk : Bytes × Bytes) : HttpParser :=
  { parser with
    body := parser.body ++ chunk.2
    consumed := parser.consumed + (chunkText chunk).length
    chunkSize := chunk.2.length
    chunkBytesRead := chunk.2.length
    state := .chunkSize }

theorem chunk_text_length (chunk : Bytes × Bytes) :
    (chunkText chunk).length = chunk.1.length + 2 + (chunk.2.length + 2) := by
  simp only [chunkText, List.length_append, crlf_length]
  omega

theorem chunk_run_iff (at_state : parser.state = .chunkSize) :
    (parseLoop data).run (parser, request) = (.complete, stopped) ↔
      (∃ chunk rest, data.drop parser.consumed = chunkText chunk ++ rest ∧
        Announces chunk.1 chunk.2.length ∧ chunk.2 ≠ [] ∧ chunk.1.length ≤ maxChunkLineSize ∧
        parser.body.length + chunk.2.length ≤ maxBodySize ∧
        (parseLoop data).run (behindChunk parser chunk, request) = (.complete, stopped)) ∨
      ∃ line rest, data.drop parser.consumed = line ++ (crlf ++ rest) ∧ Announces line 0 ∧
        line.length ≤ maxChunkLineSize ∧ parser.body.length ≤ maxBodySize ∧
        (parseLoop data).run (behindSize parser line 0, request) = (.complete, stopped) := by
  have moves : ∀ line payload : Bytes,
      { behindSize parser line payload.length with
        body := parser.body ++ payload
        consumed := parser.consumed + (line.length + 2) + (payload.length + 2)
        chunkBytesRead := payload.length
        state := .chunkSize } = behindChunk parser (line, payload) := by
    intro line payload
    simp only [behindChunk, behindSize, chunk_text_length, Nat.add_assoc]
  rw [size_run_iff at_state]
  constructor
  · rintro ⟨line, size, rest, written, announces, short, fits, complete⟩
    by_cases empty : size = 0
    · subst empty
      exact Or.inr ⟨line, rest, written, announces, short, fits, complete⟩
    · left
      rw [data_run_iff (if_neg empty) rfl (chunk_size_small fits)
        (drop_behind_line written).2] at complete
      obtain ⟨payload, further, body, length, complete⟩ := complete
      have rests := (drop_behind_line written).1.symm.trans body
      change payload.length = size at length
      subst length
      refine ⟨(line, payload), further, ?_, announces, ?_, short, fits, ?_⟩
      · rw [written, rests]
        simp only [chunkText, List.append_assoc]
      · exact fun none => empty (List.length_eq_zero_iff.mpr none)
      · rw [← moves]
        exact complete
  · rintro (⟨⟨line, payload⟩, rest, written, announces, nonempty, short, fits, complete⟩ | last)
    · have shape : data.drop parser.consumed = line ++ (crlf ++ (payload ++ (crlf ++ rest))) := by
        rw [written]
        simp only [chunkText, List.append_assoc]
      have positive : payload.length ≠ 0 := by
        rwa [ne_eq, List.length_eq_zero_iff]
      refine ⟨line, payload.length, _, shape, announces, short, fits, ?_⟩
      rw [data_run_iff (if_neg positive) rfl (chunk_size_small fits) (drop_behind_line shape).2]
      refine ⟨payload, rest, (drop_behind_line shape).1, rfl, ?_⟩
      rw [← moves] at complete
      exact complete
    · obtain ⟨line, rest, written, announces, short, fits, complete⟩ := last
      exact ⟨line, 0, rest, written, announces, short, fits, complete⟩

end Runs

section Decoding

variable {data : Bytes} {parser : HttpParser} {request : HttpRequest} {stopped : Reading}

def behindTrailer (parser : HttpParser) (request : HttpRequest) (length : Nat) : Reading :=
  ({ parser with consumed := parser.consumed + length, body := [], state := .complete },
    request.setBody parser.body)

theorem trailer_text_length (lines : List Bytes) (nonempty : lines ≠ []) :
    (trailerText lines).length = (crlf.intercalate lines).length + 4 := by
  rw [trailerText, lines_text_joined nonempty, List.length_append, List.length_append, crlf_length]

theorem handle_chunk_trailer_text {lines : List Bytes} {rest : Bytes}
    (written : data.drop parser.consumed = trailerText lines ++ rest)
    (fields : ∀ line ∈ lines, IsFieldLine line) (few : lines.length ≤ maxHeaders) :
    handleChunkTrailer data parser request =
      (some .complete, behindTrailer parser request (trailerText lines).length) := by
  have inside := drop_inside written (by simp [trailerText, crlf])
  unfold handleChunkTrailer
  rw [if_neg (by omega)]
  dsimp only
  rw [written]
  cases lines with
  | nil =>
      have starts : crlf.isPrefixOf (trailerText [] ++ rest) = true :=
        List.isPrefixOf_iff_prefix.mpr ⟨rest, rfl⟩
      rw [if_pos starts]
      rfl
  | cons line lines =>
      have plain : ∀ other ∈ line :: lines, other ≠ [] ∧ 13 ∉ other :=
        fun other member => field_line_plain (fields other member)
      have found : findSub crlfCrlf (trailerText (line :: lines) ++ rest) =
          some (crlf.intercalate (line :: lines)).length := by
        rw [trailerText, List.append_assoc]
        exact double_crlf_found (List.cons_ne_nil _ _) plain rest
      have notEmpty : ¬crlf.isPrefixOf (trailerText (line :: lines) ++ rest) = true := by
        rw [List.isPrefixOf_iff_prefix]
        obtain ⟨nonempty, noReturn⟩ := plain line List.mem_cons_self
        obtain ⟨first, others, spelled⟩ := List.exists_cons_of_ne_nil nonempty
        rw [spelled, List.mem_cons, not_or] at noReturn
        rw [trailerText, List.append_assoc, lines_text_cons, spelled, List.cons_append, crlf,
          List.cons_prefix_cons]
        exact fun starts => noReturn.1 starts.1
      have block : (trailerText (line :: lines) ++ rest).take
          ((crlf.intercalate (line :: lines)).length + 2) = linesText crlf (line :: lines) := by
        have length : (linesText crlf (line :: lines)).length =
            (crlf.intercalate (line :: lines)).length + 2 := by
          rw [lines_text_joined (List.cons_ne_nil _ _), List.length_append, crlf_length]
        rw [trailerText, List.append_assoc, ← length, List.take_left]
      rw [if_neg notEmpty, found]
      dsimp only
      rw [block, if_pos (trailer_loop_passes fields 0 (by rwa [Nat.zero_add])),
        trailer_text_length _ (List.cons_ne_nil _ _)]
      rfl

theorem trailer_completes_text
    (handled : handleChunkTrailer data parser request = (some .complete, stopped)) :
    ∃ lines rest, data.drop parser.consumed = trailerText lines ++ rest ∧
      (∀ line ∈ lines, IsFieldLine line) ∧ lines.length ≤ maxHeaders := by
  obtain ⟨_, ⟨⟨rest, starts⟩, _⟩ | ⟨noEmpty, trailerEnd, found, passed, _⟩⟩ :=
    handle_chunk_trailer_completes handled
  · exact ⟨[], rest, starts.symm, nofun, Nat.zero_le _⟩
  · have noEnd : ¬crlfCrlf <:+: (data.drop parser.consumed).take (trailerEnd + 2) := by
      rw [← find_sub_eq_none_iff_not_infix _ _ (by decide)]
      apply find_sub_take_none found
      rw [crlf_crlf_length]
      omega
    obtain ⟨lines, whole, fields, few⟩ := trailer_loop_lines _ noEnd
      (fun starts => noEmpty (starts.trans (List.take_prefix _ _))) (Nat.zero_le _) passed
    have cut := find_sub_split found
    have ending : crlfCrlf = crlf ++ crlf := rfl
    have bound := find_sub_bound found
    have front : (data.drop parser.consumed).take trailerEnd ++ crlf =
        (data.drop parser.consumed).take (trailerEnd + 2) := by
      have prefixed := congrArg (List.take (trailerEnd + 2)) cut
      rw [List.append_assoc, ending, List.append_assoc, ← List.append_assoc _ crlf] at prefixed
      rw [prefixed]
      have length : ((data.drop parser.consumed).take trailerEnd ++ crlf).length =
          trailerEnd + 2 := by
        rw [List.length_append, List.length_take, crlf_length]
        omega
      rw [← length, List.take_left]
    refine ⟨lines, (data.drop parser.consumed).drop (trailerEnd + 4), ?_, fields, ?_⟩
    · rw [trailerText, ← whole, ← front]
      conv_lhs => rw [cut]
      rw [ending]
      simp only [List.append_assoc]
      rfl
    · rwa [Nat.zero_add] at few

theorem trailer_run_iff (at_state : parser.state = .chunkTrailer) :
    (parseLoop data).run (parser, request) = (.complete, stopped) ↔
      ∃ lines rest, data.drop parser.consumed = trailerText lines ++ rest ∧
        (∀ line ∈ lines, IsFieldLine line) ∧ lines.length ≤ maxHeaders ∧
        stopped = behindTrailer parser request (trailerText lines).length := by
  constructor
  · intro complete
    have handled : handleChunkTrailer data parser request = (some .complete, stopped) := by
      cases turned : (parseLoop data).turn (parser, request) with
      | done result =>
          rw [(parseLoop data).run_done turned] at complete
          subst complete
          have ended := (parse_turn_done_iff _ _ _ _).mp turned
          simpa only [handleState, at_state] using ended
      | next following =>
          have handled := (parse_turn_next_iff _ _ _).mp turned
          cases handle_state_advances handled with
          | requestLine other | headers other | chunkSize other | chunkData other
          | chunkDataCrlf other =>
              rw [at_state] at other
              cases other
    obtain ⟨lines, rest, written, fields, few⟩ := trailer_completes_text handled
    rw [handle_chunk_trailer_text written fields few] at handled
    cases handled
    exact ⟨lines, rest, written, fields, few, rfl⟩
  · rintro ⟨lines, rest, written, fields, few, rfl⟩
    have handled : handleState data (parser, request) =
        (some .complete, behindTrailer parser request (trailerText lines).length) := by
      simp only [handleState, at_state]
      exact handle_chunk_trailer_text written fields few
    exact (parseLoop data).run_done ((parse_turn_done_iff _ _ _ _).mpr handled)

def ChunkedText.behind (text : ChunkedText) (parser : HttpParser) (request : HttpRequest) :
    Reading :=
  ({ parser with
      consumed := parser.consumed + text.render.length
      chunkSize := 0
      chunkBytesRead := 0
      body := []
      state := .complete },
    request.setBody (parser.body ++ text.body))

theorem ChunkedText.render_cons (chunk : Bytes × Bytes) (chunks : List (Bytes × Bytes))
    (last : Bytes) (trailer : List Bytes) :
    (ChunkedText.mk (chunk :: chunks) last trailer).render =
      chunkText chunk ++ (ChunkedText.mk chunks last trailer).render := by
  simp only [render, List.flatMap_cons, List.append_assoc]

theorem behind_cons (chunk : Bytes × Bytes) (chunks : List (Bytes × Bytes)) (last : Bytes)
    (trailer : List Bytes) (parser : HttpParser) (request : HttpRequest) :
    (ChunkedText.mk chunks last trailer).behind (behindChunk parser chunk) request =
      (ChunkedText.mk (chunk :: chunks) last trailer).behind parser request := by
  simp only [ChunkedText.behind, behindChunk, ChunkedText.render_cons, List.length_append,
    ChunkedText.body, List.flatMap_cons, List.append_assoc, Nat.add_assoc]

theorem behind_nil (last : Bytes) (trailer : List Bytes) (parser : HttpParser)
    (request : HttpRequest) :
    behindTrailer (behindSize parser last 0) request (trailerText trailer).length =
      (ChunkedText.mk [] last trailer).behind parser request := by
  simp only [ChunkedText.behind, behindTrailer, behindSize, ChunkedText.render, ChunkedText.body,
    List.flatMap_nil, List.nil_append, List.append_nil, List.length_append, crlf_length,
    Nat.add_assoc]

theorem last_run_iff :
    (∃ line rest, data.drop parser.consumed = line ++ (crlf ++ rest) ∧ Announces line 0 ∧
        line.length ≤ maxChunkLineSize ∧ parser.body.length ≤ maxBodySize ∧
        (parseLoop data).run (behindSize parser line 0, request) = (.complete, stopped)) ↔
      ∃ line lines rest,
        data.drop parser.consumed = line ++ (crlf ++ (trailerText lines ++ rest)) ∧
        Announces line 0 ∧ line.length ≤ maxChunkLineSize ∧
        parser.body.length ≤ maxBodySize ∧
        (∀ line ∈ lines, IsFieldLine line) ∧ lines.length ≤ maxHeaders ∧
        stopped = (ChunkedText.mk [] line lines).behind parser request := by
  have behind : ∀ {line rest : Bytes}, data.drop parser.consumed = line ++ (crlf ++ rest) →
      data.drop (behindSize parser line 0).consumed = rest :=
    fun written => (drop_behind_line written).1
  constructor
  · rintro ⟨line, rest, written, announces, short, fits, complete⟩
    rw [trailer_run_iff rfl, behind written] at complete
    obtain ⟨lines, further, rfl, fields, few, rfl⟩ := complete
    exact ⟨line, lines, further, written, announces, short, fits, fields, few, behind_nil ..⟩
  · rintro ⟨line, lines, rest, written, announces, short, fits, fields, few, rfl⟩
    refine ⟨line, _, written, announces, short, fits, ?_⟩
    rw [trailer_run_iff rfl, behind written]
    exact ⟨lines, rest, rfl, fields, few, (behind_nil ..).symm⟩

theorem drop_behind_chunk {chunk : Bytes × Bytes} {rest : Bytes}
    (written : data.drop parser.consumed = chunkText chunk ++ rest) :
    data.drop (behindChunk parser chunk).consumed = rest := by
  change data.drop (parser.consumed + (chunkText chunk).length) = rest
  rw [← List.drop_drop, written, List.drop_left]

/-- Induction on the chunks of the text. -/
theorem decodes_text {chunks : List (Bytes × Bytes)} {last : Bytes} {trailer : List Bytes}
    {rest : Bytes} (at_state : parser.state = .chunkSize)
    (written : data.drop parser.consumed = (ChunkedText.mk chunks last trailer).render ++ rest)
    (shaped : (ChunkedText.mk chunks last trailer).Shaped)
    (limited : (ChunkedText.mk chunks last trailer).Limited)
    (fits : parser.body.length + (ChunkedText.mk chunks last trailer).body.length ≤
      maxBodySize) :
    (parseLoop data).run (parser, request) =
      (.complete, (ChunkedText.mk chunks last trailer).behind parser request) := by
  rw [chunk_run_iff at_state]
  induction chunks generalizing parser with
  | nil =>
      right
      rw [last_run_iff]
      refine ⟨last, trailer, rest, ?_, shaped.last, limited.last, fits, shaped.trailer,
        limited.trailer, rfl⟩
      rw [written]
      simp only [ChunkedText.render, List.flatMap_nil, List.nil_append, List.append_assoc]
  | cons chunk chunks ih =>
      left
      rw [ChunkedText.render_cons, List.append_assoc] at written
      obtain ⟨announces, nonempty⟩ := shaped.chunks chunk List.mem_cons_self
      have length : (ChunkedText.mk (chunk :: chunks) last trailer).body.length =
          chunk.2.length + (ChunkedText.mk chunks last trailer).body.length := by
        simp only [ChunkedText.body, List.flatMap_cons, List.length_append]
      rw [length] at fits
      refine ⟨chunk, _, written, announces, nonempty, limited.lines chunk List.mem_cons_self,
        by omega, ?_⟩
      rw [← behind_cons, chunk_run_iff rfl]
      apply ih rfl (drop_behind_chunk written) shaped.tail limited.tail
      change (parser.body ++ chunk.2).length + _ ≤ _
      rw [List.length_append]
      omega

/-- Induction on the bytes left: each chunk takes some. -/
theorem decoded_text (at_state : parser.state = .chunkSize)
    (complete : (parseLoop data).run (parser, request) = (.complete, stopped)) :
    ∃ text rest, data.drop parser.consumed = ChunkedText.render text ++ rest ∧
      text.Shaped ∧ text.Limited ∧ parser.body.length + text.body.length ≤ maxBodySize ∧
      stopped = text.behind parser request := by
  induction remaining : (data.drop parser.consumed).length using Nat.strong_induction_on
    generalizing parser with
  | _ length ih =>
  rw [chunk_run_iff at_state, last_run_iff] at complete
  rcases complete with ⟨chunk, rest, written, announces, nonempty, short, _, complete⟩ |
    ⟨line, lines, rest, written, announces, short, fits, fields, few, rfl⟩
  · have fewer : (data.drop (behindChunk parser chunk).consumed).length < length := by
      rw [drop_behind_chunk written, ← remaining, written, List.length_append, chunk_text_length]
      omega
    obtain ⟨⟨chunks, last, trailer⟩, further, behind, shaped, limited, fits, rfl⟩ :=
      ih _ fewer rfl complete rfl
    rw [drop_behind_chunk written] at behind
    have whole : parser.body.length + (ChunkedText.mk (chunk :: chunks) last trailer).body.length ≤
        maxBodySize := by
      change (parser.body ++ chunk.2).length + _ ≤ _ at fits
      rw [List.length_append] at fits
      simp only [ChunkedText.body, List.flatMap_cons, List.length_append] at fits ⊢
      omega
    refine ⟨⟨chunk :: chunks, last, trailer⟩, further, ?_, ⟨?_, shaped.last, shaped.trailer⟩,
      ⟨?_, limited.last, limited.trailer⟩, whole, behind_cons ..⟩
    · rw [written, behind, ChunkedText.render_cons, List.append_assoc]
    · exact List.forall_mem_cons.mpr ⟨⟨announces, nonempty⟩, shaped.chunks⟩
    · exact List.forall_mem_cons.mpr ⟨short, limited.lines⟩
  · refine ⟨⟨[], line, lines⟩, rest, ?_, ⟨nofun, announces, fields⟩, ⟨nofun, short, few⟩, fits,
      rfl⟩
    rw [written]
    simp only [ChunkedText.render, List.flatMap_nil, List.nil_append, List.append_assoc]

theorem decode_iff (at_state : parser.state = .chunkSize) :
    (parseLoop data).run (parser, request) = (.complete, stopped) ↔
      ∃ text rest, data.drop parser.consumed = ChunkedText.render text ++ rest ∧
        text.Shaped ∧ text.Limited ∧ parser.body.length + text.body.length ≤ maxBodySize ∧
        stopped = text.behind parser request := by
  constructor
  · exact decoded_text at_state
  · rintro ⟨⟨chunks, last, trailer⟩, rest, written, shaped, limited, fits, rfl⟩
    exact decodes_text at_state written shaped limited fits

theorem chunk_before_last {line last behind further : Bytes} {size : Nat}
    (announces : Announces line size) (nonempty : size ≠ 0) (ends : Announces last 0) :
    line ++ (crlf ++ behind) ≠ last ++ (crlf ++ further) := by
  intro same
  obtain ⟨rfl, _⟩ := line_unique crlf_delimits announces.plain ends.plain same
  exact nonempty (announces.value.symm.trans ends.value)

/-- A text is read in one way only: the lines are cut off at their CRLF, and the
value of a line decides whether a chunk follows and how long it is. -/
theorem text_unique {text other : ChunkedText} {rest further : Bytes} (shaped : text.Shaped)
    (shaped' : other.Shaped) (same : text.render ++ rest = other.render ++ further) :
    text = other ∧ rest = further := by
  obtain ⟨chunks, last, trailer⟩ := text
  obtain ⟨chunks', last', trailer'⟩ := other
  induction chunks generalizing chunks' with
  | nil =>
      cases chunks' with
      | nil =>
          simp only [ChunkedText.render, List.flatMap_nil, List.nil_append, trailerText,
            List.append_assoc] at same
          obtain ⟨rfl, behind⟩ := line_unique crlf_delimits shaped.last.plain shaped'.last.plain same
          obtain ⟨rfl, rfl⟩ := lines_unique crlf_delimits (field_lines_plain shaped.trailer)
            (field_lines_plain shaped'.trailer) behind
          exact ⟨rfl, rfl⟩
      | cons chunk chunks' =>
          obtain ⟨announces, nonempty⟩ := shaped'.chunks chunk List.mem_cons_self
          simp only [ChunkedText.render, List.flatMap_nil, List.nil_append, List.flatMap_cons,
            chunkText, List.append_assoc] at same
          have present : chunk.2.length ≠ 0 := by
            rwa [ne_eq, List.length_eq_zero_iff]
          exact absurd same.symm (chunk_before_last announces present shaped.last)
  | cons chunk chunks ih =>
      obtain ⟨announces, nonempty⟩ := shaped.chunks chunk List.mem_cons_self
      cases chunks' with
      | nil =>
          simp only [ChunkedText.render, List.flatMap_nil, List.nil_append, List.flatMap_cons,
            chunkText, List.append_assoc] at same
          have present : chunk.2.length ≠ 0 := by
            rwa [ne_eq, List.length_eq_zero_iff]
          exact absurd same (chunk_before_last announces present shaped'.last)
      | cons chunk' chunks' =>
          obtain ⟨announces', _⟩ := shaped'.chunks chunk' List.mem_cons_self
          rw [ChunkedText.render_cons, ChunkedText.render_cons] at same
          simp only [chunkText, List.append_assoc] at same
          obtain ⟨line, behind⟩ := line_unique crlf_delimits announces.plain announces'.plain same
          rw [line] at announces
          obtain ⟨payload, behind⟩ :=
            List.append_inj behind (announces.value.symm.trans announces'.value)
          obtain ⟨texts, rests⟩ := ih shaped.tail chunks' shaped'.tail
            (List.append_cancel_left behind)
          cases texts
          exact ⟨by rw [Prod.ext line payload], rests⟩

end Decoding

/-- The chunked decoder accepts exactly its grammar, takes the body from the
chunks and stops behind the text. -/
theorem chunked_body_accepted_iff (before data : Bytes) (parser : HttpParser)
    (request : HttpRequest) (entered : parser.state = .chunkSize) (unread : parser.body = [])
    (position : parser.consumed = before.length) :
    ((parse (before ++ data) parser request).1 = .complete ↔
      ∃ text, ChunkedText.Shaped text ∧ text.Limited ∧ text.body.length ≤ maxBodySize ∧
        text.render <+: data) ∧
    ∀ text, ChunkedText.Shaped text → text.Limited → text.body.length ≤ maxBodySize →
      text.render <+: data →
      (parse (before ++ data) parser request).2.2.body = text.body ∧
        (parse (before ++ data) parser request).2.1.consumed =
          before.length + text.render.length := by
  have ahead : (before ++ data).drop parser.consumed = data := by
    rw [position, List.drop_left]
  have accepts : ∀ text, ChunkedText.Shaped text → text.Limited →
      text.body.length ≤ maxBodySize → text.render <+: data →
      parse (before ++ data) parser request = (.complete, text.behind parser request) := by
    rintro text shaped limited fits ⟨rest, written⟩
    refine (decode_iff entered).mpr ⟨text, rest, ahead.trans written.symm, shaped, limited, ?_, rfl⟩
    rwa [unread, List.length_nil, Nat.zero_add]
  refine ⟨⟨?_, ?_⟩, ?_⟩
  · intro complete
    obtain ⟨text, rest, written, shaped, limited, fits, _⟩ :=
      (decode_iff entered).mp (Prod.ext complete rfl)
    rw [unread, List.length_nil, Nat.zero_add] at fits
    exact ⟨text, shaped, limited, fits, rest, written.symm.trans ahead⟩
  · rintro ⟨text, shaped, limited, fits, starts⟩
    rw [accepts text shaped limited fits starts]
  · intro text shaped limited fits starts
    rw [accepts text shaped limited fits starts]
    refine ⟨?_, ?_⟩
    · change parser.body ++ text.body = text.body
      rw [unread, List.nil_append]
    · change parser.consumed + text.render.length = _
      rw [position]

/-- A chunk whose data holds line ends, an extension and a trailer field. -/
def crlfChunk : ChunkedText where
  chunks := [(ascii " 4;x=y", ascii "\r\n\r\n")]
  last := ascii "0"
  trailer := [ascii "A: b"]

theorem chunked_body_accepted_iff_crlf_chunk :
    (parse (ascii "head" ++ (crlfChunk.render ++ ascii "GET"))
        { state := .chunkSize, consumed := 4 } {}).1 = .complete ∧
      (parse (ascii "head" ++ (crlfChunk.render ++ ascii "GET"))
        { state := .chunkSize, consumed := 4 } {}).2.2.body = ascii "\r\n\r\n" := by
  have shaped : crlfChunk.Shaped := by
    refine ⟨?_, ?_, ?_⟩
    · intro chunk member
      rw [List.mem_singleton.mp member]
      exact ⟨⟨by decide, by decide, by decide +kernel, by decide +kernel⟩, by decide⟩
    · exact ⟨by decide, by decide, by decide +kernel, by decide +kernel⟩
    · intro line member
      rw [List.mem_singleton.mp member]
      exact ⟨ascii "A", ascii " b", by decide, by decide +kernel, by decide +kernel⟩
  have limited : crlfChunk.Limited := by
    refine ⟨?_, by decide, by decide⟩
    intro chunk member
    rw [List.mem_singleton.mp member]
    decide
  have accepted := chunked_body_accepted_iff (ascii "head") (crlfChunk.render ++ ascii "GET")
    { state := .chunkSize, consumed := 4 } {} rfl rfl rfl
  have starts := List.prefix_append crlfChunk.render (ascii "GET")
  exact ⟨accepted.1.mpr ⟨crlfChunk, shaped, limited, by decide, starts⟩,
    (accepted.2 crlfChunk shaped limited (by decide) starts).1⟩

end HttpServer.ChunkedBody
