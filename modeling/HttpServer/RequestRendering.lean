import HttpServer.FieldLines
import HttpServer.ParserPrefix
import HttpServer.RequestLine

/-!
# Requests written and read back

A request is written as its line, its header lines and its body, with any blanks
around the values. The parser reads it back and stops behind it, whatever
follows, provided there is a header line: the block is found by its double CRLF,
and the CRLF of the request line has been consumed before the search begins. A
request without header lines is therefore never read as such.
-/

namespace HttpServer.RequestRendering

open ListSearch LineBlocks MeasuredLoop HttpParser ParserResume ParserPrefix RequestLine FieldLines

def lineText (method target : Bytes) : Bytes :=
  method ++ 32 :: (target ++ 32 :: ascii "HTTP/1.1")

structure ValidLine (method target : Bytes) : Prop where
  known : utils.parseMethod method ≠ .unknown
  nonempty : target ≠ []
  noSpace : 32 ∉ target
  noLineEnd : ¬crlf <:+: target
  short : (lineText method target).length ≤ maxRequestLine

section Line

variable {method target : Bytes}

theorem known_method_plain (known : utils.parseMethod method ≠ .unknown) :
    method ≠ [] ∧ 32 ∉ method ∧ 13 ∉ method := by
  have named : method ∈ [ascii "GET", ascii "POST", ascii "PUT", ascii "PATCH", ascii "DELETE",
      ascii "HEAD", ascii "OPTIONS", ascii "CONNECT", ascii "TRACE"] := by
    by_contra other
    simp only [List.mem_cons, List.not_mem_nil, or_false, not_or] at other
    obtain ⟨get, post, put, patch, delete, head, options, connect, trace⟩ := other
    apply known
    simp only [utils.parseMethod, get, post, put, patch, delete, head, options, connect, trace,
      if_false]
  simp only [List.mem_cons, List.not_mem_nil, or_false] at named
  rcases named with rfl | rfl | rfl | rfl | rfl | rfl | rfl | rfl | rfl <;> decide

theorem crlf_avoids {front back : Bytes} {separator : Byte} (notReturn : separator ≠ 13)
    (notFeed : separator ≠ 10) (absentFront : ¬crlf <:+: front) (absentBack : ¬crlf <:+: back) :
    ¬crlf <:+: front ++ separator :: back := by
  induction front with
  | nil =>
      rw [List.nil_append, List.infix_cons_iff]
      rintro (starts | inside)
      · rw [crlf, List.cons_prefix_cons] at starts
        exact notReturn starts.1.symm
      · exact absentBack inside
  | cons item front ih =>
      have frontPlain : ¬crlf <:+: front := fun inside =>
        absentFront (inside.trans (List.suffix_cons item front).isInfix)
      rw [List.cons_append, List.infix_cons_iff]
      rintro (starts | inside)
      · cases front with
        | nil =>
            simp only [crlf, List.nil_append, List.cons_prefix_cons] at starts
            exact notFeed starts.2.1.symm
        | cons next front =>
            simp only [crlf, List.cons_append, List.cons_prefix_cons] at starts
            obtain ⟨rfl, rfl, _⟩ := starts
            exact absentFront ⟨[], front, rfl⟩
      · exact ih frontPlain inside

theorem line_end_found (valid : ValidLine method target) (rest : Bytes) :
    findSub crlf (lineText method target ++ (crlf ++ rest)) =
      some (lineText method target).length := by
  have methodPlain := crlf_absent (known_method_plain valid.known).2.2
  have versionPlain : ¬crlf <:+: ascii "HTTP/1.1" := crlf_absent (by decide)
  apply find_sub_pair (by decide)
  apply crlf_avoids (by decide) (by decide) methodPlain
  exact crlf_avoids (by decide) (by decide) valid.noLineEnd versionPlain

theorem parse_line_text (valid : ValidLine method target) (rest : Bytes)
    (request : HttpRequest) :
    parseRequestLine (lineText method target ++ (crlf ++ rest)) request =
      (.complete, lineRequest (utils.parseMethod method) target) := by
  obtain ⟨methodNonempty, methodPlain, _⟩ := known_method_plain valid.known
  have firstSpace : findSub [32] (lineText method target) = some method.length :=
    find_sub_fresh methodPlain _
  have afterMethod : (lineText method target).drop (method.length + 1) =
      target ++ 32 :: ascii "HTTP/1.1" := by
    rw [lineText, ← List.drop_drop, List.drop_left]
    rfl
  have secondSpace : findSub [32] (target ++ 32 :: ascii "HTTP/1.1") = some target.length :=
    find_sub_fresh valid.noSpace _
  have version : (target ++ 32 :: ascii "HTTP/1.1").drop (target.length + 1) =
      ascii "HTTP/1.1" := by
    rw [← List.drop_drop, List.drop_left]
    rfl
  have thirdSpace : findSub [32] (ascii "HTTP/1.1") = none := by decide
  have parts : ¬(method.isEmpty || target.isEmpty || (ascii "HTTP/1.1").isEmpty) = true := by
    have text : (ascii "HTTP/1.1").isEmpty = false := by decide
    simp only [text, Bool.or_false, Bool.or_eq_true, List.isEmpty_iff, not_or]
    exact ⟨methodNonempty, valid.nonempty⟩
  have methodText : (lineText method target).take method.length = method := by
    rw [lineText, List.take_left]
  unfold parseRequestLine
  rw [line_end_found valid rest]
  dsimp only
  rw [if_neg (Nat.not_lt.mpr valid.short), List.take_left, firstSpace]
  dsimp only
  rw [afterMethod, secondSpace]
  dsimp only
  rw [version, thirdSpace, List.take_left, methodText, if_neg (by simp), if_neg parts,
    if_neg (by simp), if_neg valid.known]
  unfold lineRequest
  cases findSub [63] target with
  | none => rfl
  | some questionMark => rfl

def behindLine (method target : Bytes) : Reading :=
  ({ consumed := (lineText method target).length + 2, state := .headers },
    lineRequest (utils.parseMethod method) target)

theorem line_text_advances (valid : ValidLine method target) (rest : Bytes)
    (request : HttpRequest) :
    handleState (lineText method target ++ (crlf ++ rest)) ({}, request) =
      (none, behindLine method target) := by
  change handleRequestLine _ {} request = _
  unfold handleRequestLine
  rw [if_neg (Nat.not_lt_zero _)]
  dsimp only
  rw [List.drop_zero, line_end_found valid rest]
  dsimp only
  rw [if_neg (Nat.not_lt.mpr valid.short), parse_line_text valid rest request]
  simp only [behindLine, Nat.zero_add]

theorem parse_behind_line (valid : ValidLine method target) (rest : Bytes)
    (request : HttpRequest) :
    parse (lineText method target ++ (crlf ++ rest)) {} request =
      (parseLoop (lineText method target ++ (crlf ++ rest))).run (behindLine method target) :=
  (parseLoop _).run_next ((parse_turn_next_iff _ _ _).mpr (line_text_advances valid rest request))

end Line

section Headerless

/-- A request of a line and an empty line is read as one and nothing more. -/
def EndsAtEmptyLine (method target suffix : Bytes) (request : HttpRequest) : Prop :=
  ∃ parser read,
    parse (lineText method target ++ crlf ++ crlf ++ suffix) {} request =
      (.complete, parser, read) ∧
    read.headers.headers = [] ∧ read.body = [] ∧
    parser.consumedBytes = (lineText method target).length + 4

theorem headers_consume_block {data : Bytes} {reading stopped : Reading}
    (ok : CountersOk reading.1) (atHeaders : reading.1.state = .headers)
    (complete : (parseLoop data).run reading = (.complete, stopped)) :
    reading.1.consumed + 4 ≤ stopped.1.consumed := by
  cases turned : (parseLoop data).turn reading with
  | done result =>
      rw [(parseLoop data).run_done turned] at complete
      subst complete
      have handled := (parse_turn_done_iff _ _ _ _).mp turned
      simp only [handleState, atHeaders] at handled
      obtain ⟨headersEnd, _, _, _, _, _, chosen⟩ := handle_headers_decides handled (Or.inr rfl)
      rw [choose_body_consumed chosen]
      dsimp only
      omega
  | next following =>
      rw [(parseLoop data).run_next turned] at complete
      have handled := (parse_turn_next_iff _ _ _).mp turned
      have bound := (handle_state_advances_take ok handled).2.1
      have onward := (complete_run_take following (handle_state_counters ok handled) bound
        complete).1
      simp only [handleState, atHeaders] at handled
      obtain ⟨headersEnd, _, _, _, _, _, chosen⟩ := handle_headers_decides handled (Or.inl rfl)
      rw [choose_body_consumed chosen] at onward
      dsimp only at onward
      omega

/-- No request without header fields is read as ending at its empty line. -/
theorem headerless_never_ends_at_empty_line (method target suffix : Bytes) (request : HttpRequest)
    (valid : ValidLine method target) : ¬EndsAtEmptyLine method target suffix request := by
  rintro ⟨parser, read, parsed, _, _, consumed⟩
  have shape : lineText method target ++ crlf ++ crlf ++ suffix =
      lineText method target ++ (crlf ++ (crlf ++ suffix)) := by
    simp only [List.append_assoc]
  rw [shape, parse_behind_line valid] at parsed
  have counters : CountersOk (behindLine method target).1 :=
    handle_state_counters fresh_counters (line_text_advances valid (crlf ++ suffix) request)
  have block := headers_consume_block counters rfl parsed
  simp only [behindLine] at block
  rw [consumedBytes] at consumed
  omega

theorem headerless_never_ends_at_empty_line_root :
    ValidLine (ascii "GET") (ascii "/") ∧
      ¬EndsAtEmptyLine (ascii "GET") (ascii "/") [] {} := by
  have valid : ValidLine (ascii "GET") (ascii "/") :=
    ⟨by decide, by decide, by decide, by decide, by decide⟩
  exact ⟨valid, headerless_never_ends_at_empty_line (ascii "GET") (ascii "/") [] {} valid⟩

/-- Such a request waits for more input, and takes the request behind it along. -/
theorem headerless_request_waits_and_swallows :
    ValidLine (ascii "GET") (ascii "/") ∧
      (parse (ascii "GET / HTTP/1.1\r\n\r\n") {} {}).1 = .incomplete ∧
      (parse (ascii "GET / HTTP/1.1\r\n\r\nGET /a HTTP/1.1\r\nHost: x\r\n\r\n") {} {}).1 =
        .complete ∧
      (parse (ascii "GET / HTTP/1.1\r\n\r\nGET /a HTTP/1.1\r\nHost: x\r\n\r\n") {}
        {}).2.1.consumedBytes = 46 ∧
      ¬EndsAtEmptyLine (ascii "GET") (ascii "/") [] {} := by
  have waits : (parse (lineText (ascii "GET") (ascii "/") ++ crlf ++ crlf ++ []) {} {}).1 =
      .incomplete := by
    decide +kernel
  refine ⟨⟨by decide, by decide, by decide, by decide, by decide⟩, by decide +kernel,
    by decide +kernel, by decide +kernel, ?_⟩
  rintro ⟨parser, read, parsed, _⟩
  rw [parsed] at waits
  cases waits

end Headerless

section Fields

/-- A header field with the blanks written around its value. -/
structure WrittenField where
  name : Bytes
  before : Bytes
  value : Bytes
  after : Bytes
deriving DecidableEq, Repr

namespace WrittenField

def line (field : WrittenField) : Bytes :=
  field.name ++ 58 :: (field.before ++ (field.value ++ field.after))

def stored (field : WrittenField) : Bytes × Bytes := (field.name, field.value)

structure WellFormed (field : WrittenField) : Prop where
  name : utils.isValidHeaderName field.name = true
  value : utils.isValidHeaderValue field.value = true
  front : ∀ byte ∈ field.value.head?, utils.isOws byte = false
  back : ∀ byte ∈ field.value.getLast?, utils.isOws byte = false
  before : ∀ byte ∈ field.before, utils.isOws byte = true
  after : ∀ byte ∈ field.after, utils.isOws byte = true

end WrittenField

theorem drop_blanks {blanks text : Bytes} (blank : ∀ byte ∈ blanks, utils.isOws byte = true) :
    (blanks ++ text).dropWhile utils.isOws = text.dropWhile utils.isOws :=
  List.dropWhile_append_of_pos blank

theorem trim_written {field : WrittenField} (wellFormed : field.WellFormed) :
    utils.trimOws (field.before ++ (field.value ++ field.after)) = field.value := by
  unfold utils.trimOws
  rw [drop_blanks wellFormed.before]
  cases shape : field.value with
  | nil =>
      have gone : field.after.dropWhile utils.isOws = [] :=
        List.dropWhile_eq_nil_iff.mpr wellFormed.after
      rw [List.nil_append, gone]
      rfl
  | cons first rest =>
      have front : utils.isOws first = false := wellFormed.front first (by rw [shape]; rfl)
      rw [List.cons_append, List.dropWhile_cons_of_neg (by simp [front]), ← List.cons_append,
        ← shape]
      have back : field.value.rdropWhile utils.isOws = field.value := by
        rw [List.rdropWhile_eq_self_iff]
        intro nonempty blank
        have last := wellFormed.back _ (List.getLast?_eq_some_getLast nonempty)
        rw [last] at blank
        cases blank
      unfold List.rdropWhile at back ⊢
      rw [List.reverse_append, List.dropWhile_append_of_pos, back]
      intro byte member
      exact wellFormed.after byte (List.mem_reverse.mp member)

theorem blank_avoids {blanks : Bytes} (blank : ∀ byte ∈ blanks, utils.isOws byte = true) :
    13 ∉ blanks := by
  intro member
  exact absurd (blank 13 member) (by decide)

theorem written_line_avoids {field : WrittenField} (wellFormed : field.WellFormed) :
    13 ∉ field.line := by
  simp only [WrittenField.line, List.mem_append, List.mem_cons, not_or]
  exact ⟨(valid_name_avoids wellFormed.name).2.1, by decide, blank_avoids wellFormed.before,
    valid_value_avoids wellFormed.value, blank_avoids wellFormed.after⟩

theorem split_written {field : WrittenField} (wellFormed : field.WellFormed) :
    splitField field.line = some field.stored := by
  rw [WrittenField.line, split_field_of_name wellFormed.name, trim_written wellFormed]
  rfl

def blockText (fields : List WrittenField) : Bytes :=
  fields.flatMap fun field => field.line ++ crlf

def joinedLines (fields : List WrittenField) : Bytes :=
  crlf.intercalate (fields.map WrittenField.line)

theorem block_text_lines (fields : List WrittenField) :
    blockText fields = linesText crlf (fields.map WrittenField.line) := by
  simp only [blockText, linesText, List.flatMap_map]

theorem block_text_joined {fields : List WrittenField} (nonempty : fields ≠ []) :
    blockText fields = joinedLines fields ++ crlf := by
  rw [block_text_lines]
  exact lines_text_joined (by simpa using nonempty)

theorem block_text_front (field : WrittenField) (fields : List WrittenField) (rest : Bytes) :
    blockText (field :: fields) ++ rest = field.line ++ (crlf ++ (blockText fields ++ rest)) := by
  simp only [blockText, List.flatMap_cons, List.append_assoc]

theorem block_end_found {fields : List WrittenField} (nonempty : fields ≠ [])
    (wellFormed : ∀ field ∈ fields, field.WellFormed) (rest : Bytes) :
    findSub crlfCrlf (blockText fields ++ (crlf ++ rest)) = some (joinedLines fields).length := by
  rw [block_text_lines]
  apply double_crlf_found (by simpa using nonempty)
  intro line member
  obtain ⟨field, stored, rfl⟩ := List.mem_map.mp member
  exact ⟨by simp [WrittenField.line], written_line_avoids (wellFormed field stored)⟩

def WrittenField.announcesLength (field : WrittenField) : Bool :=
  utils.equalsIgnoreCase field.name contentLengthName

/-- The values of the length fields among stored and still unread ones. -/
def lengthValues (headers : HttpHeaders) (fields : List WrittenField) : List Bytes :=
  headers.values contentLengthName ++
    (fields.filter WrittenField.announcesLength).map WrittenField.value

theorem length_values_add (headers : HttpHeaders) (field : WrittenField)
    (fields : List WrittenField) :
    lengthValues (headers.add field.name field.value) fields =
      lengthValues headers (field :: fields) := by
  rw [lengthValues, lengthValues, HttpHeaders.values_add, List.filter_cons]
  cases announces : field.announcesLength with
  | false =>
      have other : HttpHeaders.equalsIgnoreCase field.name contentLengthName = false := announces
      simp [other]
  | true =>
      have same : HttpHeaders.equalsIgnoreCase field.name contentLengthName = true := announces
      simp [same]

theorem no_conflict {request : HttpRequest} {field : WrittenField} {fields : List WrittenField}
    (single : (lengthValues request.headers (field :: fields)).length ≤ 1) :
    contentLengthConflicts request field.stored = false := by
  unfold contentLengthConflicts WrittenField.stored
  cases announces : utils.equalsIgnoreCase field.name contentLengthName with
  | false => rfl
  | true =>
      have unread : request.headers.values contentLengthName = [] := by
        simp only [lengthValues, WrittenField.announcesLength, List.filter_cons, announces,
          if_true, List.length_append, List.length_map, List.length_cons] at single
        apply List.eq_nil_of_length_eq_zero
        omega
      have absent : request.header contentLengthName = [] := by
        rw [HttpRequest.header, HttpHeaders.get_eq_head_values, unread]
        rfl
      simp [absent]

theorem header_loop_stops {rest : Bytes} {count : Nat} {request : HttpRequest}
    (atEnd : findSub crlf rest = some 0) :
    headerLoop.run ⟨rest, count, request⟩ = (.complete, request) := by
  apply headerLoop.run_done
  have present : ¬rest.isEmpty = true := by
    intro empty
    rw [List.isEmpty_iff.mp empty] at atEnd
    cases atEnd
  change headerTurn _ = _
  unfold headerTurn
  dsimp only
  rw [if_neg present, atEnd]
  rfl

theorem header_loop_reads {fields : List WrittenField}
    (wellFormed : ∀ field ∈ fields, field.WellFormed) (count : Nat) (request : HttpRequest)
    (counted : count + fields.length ≤ maxHeaders)
    (single : (lengthValues request.headers fields).length ≤ 1) :
    headerLoop.run ⟨blockText fields ++ crlf, count, request⟩ =
      (.complete, { request with
        headers := ⟨request.headers.headers ++ fields.map WrittenField.stored⟩ }) := by
  induction fields generalizing count request with
  | nil =>
      have atEnd : findSub crlf (blockText [] ++ crlf) = some 0 := by
        decide
      rw [header_loop_stops atEnd]
      simp
  | cons field fields ih =>
      have formed := wellFormed field List.mem_cons_self
      rw [List.length_cons] at counted
      have lineEnd : findSub crlf (field.line ++ (crlf ++ (blockText fields ++ crlf))) =
          some field.line.length := find_line_end (written_line_avoids formed) _
      have long : field.line.length ≠ 0 := by
        simp [WrittenField.line]
      have valid : fieldIsValid field.stored = true := by
        simp [fieldIsValid, WrittenField.stored, formed.name, formed.value]
      have present : ¬(field.line ++ (crlf ++ (blockText fields ++ crlf))).isEmpty = true := by
        simp [crlf]
      have turned : headerLoop.turn ⟨blockText (field :: fields) ++ crlf, count, request⟩ =
          .next ⟨blockText fields ++ crlf, count + 1,
            request.addHeader field.name field.value⟩ := by
        change headerTurn _ = _
        unfold headerTurn
        dsimp only
        rw [block_text_front, if_neg present, lineEnd]
        dsimp only
        rw [if_neg long, List.take_left, split_written formed]
        dsimp only
        rw [if_neg (by rw [valid]; decide), if_neg (by omega),
          if_neg (by rw [no_conflict single]; decide), drop_past_line]
        rfl
      have later : (lengthValues (request.addHeader field.name field.value).headers
          fields).length ≤ 1 := by
        rw [HttpRequest.addHeader, length_values_add]
        exact single
      have rest := ih (fun other member => wellFormed other (List.mem_cons_of_mem _ member))
        (count + 1) (request.addHeader field.name field.value) (by omega) later
      rw [headerLoop.run_next turned, rest]
      simp [HttpRequest.addHeader, HttpHeaders.add, WrittenField.stored]

end Fields

section Messages

structure RequestText where
  method : Bytes
  target : Bytes
  fields : List WrittenField
  body : Bytes
deriving DecidableEq, Repr

namespace RequestText

variable (text : RequestText)

def render : Bytes :=
  lineText text.method text.target ++ crlf ++ joinedLines text.fields ++ crlfCrlf ++ text.body

/-- The length of the body as the header lines tell it: one field holds its
decimal digits, or there is no such field and no body. -/
def Framed : Prop :=
  (∃ field, text.fields.filter WrittenField.announcesLength = [field] ∧ field.value ≠ [] ∧
      field.value.all utils.isDigit = true ∧
      utils.decimalValue field.value = text.body.length) ∨
    (text.fields.filter WrittenField.announcesLength = [] ∧ text.body = [])

structure WellFormed : Prop where
  line : ValidLine text.method text.target
  fields : ∀ field ∈ text.fields, field.WellFormed
  nonempty : text.fields ≠ []
  count : text.fields.length ≤ maxHeaders
  plain : ∀ field ∈ text.fields, utils.equalsIgnoreCase field.name transferEncodingName = false
  short : (joinedLines text.fields).length ≤ maxHeaderSize
  bounded : text.body.length ≤ maxBodySize
  framed : text.Framed

def headed : HttpRequest :=
  { lineRequest (utils.parseMethod text.method) text.target with
    headers := ⟨text.fields.map WrittenField.stored⟩ }

end RequestText

variable {text : RequestText}

theorem line_request_parts (method : HttpMethod) (target : Bytes) :
    (lineRequest method target).method = method ∧ (lineRequest method target).target = target ∧
      (lineRequest method target).version = ascii "HTTP/1.1" ∧
      (lineRequest method target).headers = {} ∧ (lineRequest method target).body = [] := by
  unfold lineRequest
  dsimp only
  split
  · exact ⟨rfl, rfl, rfl, rfl, rfl⟩
  · rename_i questionMark _
    have kept := query_loop_keeps (target.drop (questionMark + 1),
      (HttpRequest.ofLine method target (ascii "HTTP/1.1")).setPath (target.take questionMark))
    exact ⟨congrArg HttpRequest.method kept, congrArg HttpRequest.target kept,
      congrArg HttpRequest.version kept, congrArg HttpRequest.headers kept,
      congrArg HttpRequest.body kept⟩

theorem headed_lengths (text : RequestText) :
    text.headed.headers.values contentLengthName =
      (text.fields.filter WrittenField.announcesLength).map WrittenField.value := by
  simp only [RequestText.headed, HttpHeaders.values, List.filter_map, List.map_map]
  rfl

theorem headed_plain (wellFormed : text.WellFormed) :
    text.headed.header transferEncodingName = [] := by
  have none : text.headed.headers.values transferEncodingName = [] := by
    simp only [RequestText.headed, HttpHeaders.values, List.map_eq_nil_iff, List.filter_eq_nil_iff,
      List.mem_map]
    rintro _ ⟨field, member, rfl⟩
    simp [HttpHeaders.equalsIgnoreCase, WrittenField.stored, wellFormed.plain field member]
  rw [HttpRequest.header, HttpHeaders.get_eq_head_values, none]
  rfl

theorem headed_unset (text : RequestText) : text.headed.setBody [] = text.headed := by
  have bare : (lineRequest (utils.parseMethod text.method) text.target).body = [] :=
    (line_request_parts _ _).2.2.2.2
  rw [HttpRequest.setBody, ← bare]
  rfl

theorem written_single (wellFormed : text.WellFormed) :
    (lengthValues ({} : HttpHeaders) text.fields).length ≤ 1 := by
  rcases wellFormed.framed with ⟨field, only, _⟩ | ⟨none, _⟩
  · simp [lengthValues, HttpHeaders.values, only]
  · simp [lengthValues, HttpHeaders.values, none]

theorem length_parsed {value : Bytes} (spelled : value ≠ [])
    (digits : value.all utils.isDigit = true) (bounded : utils.decimalValue value ≤ maxBodySize) :
    utils.parseContentLength value 0 = (true, utils.decimalValue value) := by
  have fits : utils.decimalValue value < sizeModulus :=
    Nat.lt_of_le_of_lt bounded (by decide)
  have written : ¬value.isEmpty = true := by
    simpa using spelled
  unfold utils.parseContentLength
  rw [if_neg written, if_neg (by simp [digits]), if_pos fits]

/-- With the fields read, a body is waited for exactly when there is one. -/
theorem choose_body_written (wellFormed : text.WellFormed) (parser : HttpParser) :
    chooseBody parser text.headed =
      if text.body = [] then
        (some .complete, { parser with bodySize := 0, state := .complete }, text.headed)
      else (none, { parser with bodySize := text.body.length, state := .body }, text.headed) := by
  have plain := headed_plain wellFormed
  have unset := headed_unset text
  rcases wellFormed.framed with ⟨field, only, spelled, digits, length⟩ | ⟨none, empty⟩
  · have announced : text.headed.header contentLengthName = field.value := by
      rw [HttpRequest.header, HttpHeaders.get_eq_head_values, headed_lengths, only]
      rfl
    have parsed := length_parsed spelled digits (length ▸ wellFormed.bounded)
    have written : field.value.isEmpty = false := by
      simpa using spelled
    rw [length] at parsed
    unfold chooseBody
    simp only [plain, announced, written, parsed, List.isEmpty_nil, Bool.not_true, Bool.not_false,
      Bool.and_false, Bool.false_eq_true, if_false, unset,
      if_neg (Nat.not_lt.mpr wellFormed.bounded), List.length_eq_zero_iff]
    by_cases empty : text.body = []
    · simp [empty]
    · simp [empty]
  · have silent : text.headed.header contentLengthName = [] := by
      rw [HttpRequest.header, HttpHeaders.get_eq_head_values, headed_lengths, none]
      rfl
    unfold chooseBody
    simp [plain, silent, empty, unset]

def RequestText.headText (text : RequestText) : Bytes :=
  lineText text.method text.target ++ crlf ++ joinedLines text.fields ++ crlfCrlf

theorem head_text_block (wellFormed : text.WellFormed) (rest : Bytes) :
    text.headText ++ rest =
      lineText text.method text.target ++ (crlf ++ (blockText text.fields ++ (crlf ++ rest))) := by
  rw [block_text_joined wellFormed.nonempty]
  simp [RequestText.headText, crlf, crlfCrlf]

theorem head_text_length (text : RequestText) :
    text.headText.length =
      (lineText text.method text.target).length + 2 + ((joinedLines text.fields).length + 4) := by
  simp only [RequestText.headText, crlf, crlfCrlf, List.length_append, List.length_cons,
    List.length_nil]
  omega

def RequestText.behindHead (text : RequestText) : HttpParser :=
  { consumed := text.headText.length, state := .headers }

theorem head_text_advances (wellFormed : text.WellFormed) (rest : Bytes) :
    handleState (text.headText ++ rest) (behindLine text.method text.target) =
      chooseBody text.behindHead text.headed := by
  have found := block_end_found wellFormed.nonempty wellFormed.fields rest
  have behind : (text.headText ++ rest).drop ((lineText text.method text.target).length + 2) =
      blockText text.fields ++ (crlf ++ rest) := by
    rw [head_text_block wellFormed, drop_past_line]
  have enough : ¬(lineText text.method text.target).length + 2 > (text.headText ++ rest).length := by
    rw [List.length_append, head_text_length]
    omega
  have block : (blockText text.fields ++ (crlf ++ rest)).take
      ((joinedLines text.fields).length + 4) = blockText text.fields ++ crlf := by
    have length : (blockText text.fields ++ crlf).length = (joinedLines text.fields).length + 4 := by
      rw [block_text_joined wellFormed.nonempty]
      simp [crlf]
    rw [← List.append_assoc, ← length, List.take_left]
  have bare : (lineRequest (utils.parseMethod text.method) text.target).headers = {} :=
    (line_request_parts _ _).2.2.2.1
  have stored : parseHeaders (blockText text.fields ++ crlf)
      (lineRequest (utils.parseMethod text.method) text.target) = (.complete, text.headed) := by
    unfold parseHeaders
    rw [header_loop_reads wellFormed.fields 0 _ (by simpa using wellFormed.count)
      (by rw [bare]; exact written_single wellFormed), bare]
    rfl
  change handleHeaders _ _ _ = _
  unfold handleHeaders behindLine
  dsimp only
  rw [if_neg enough, behind, found]
  dsimp only
  rw [if_neg (Nat.not_lt.mpr wellFormed.short), block, stored]
  dsimp only
  rw [RequestText.behindHead, head_text_length]

def RequestText.request (text : RequestText) : HttpRequest := text.headed.setBody text.body

theorem body_text_completes (text : RequestText) (suffix : Bytes) :
    handleState (text.headText ++ (text.body ++ suffix))
        ({ text.behindHead with bodySize := text.body.length, state := .body }, text.headed) =
      (some .complete,
        { text.behindHead with
          consumed := text.headText.length + text.body.length
          bodySize := text.body.length
          state := .complete }, text.request) := by
  change handleBody _ _ _ = _
  unfold handleBody RequestText.behindHead
  dsimp only
  rw [if_neg (by simp), if_neg (by simp), List.drop_left, List.take_left]
  rfl

theorem render_eq (text : RequestText) : text.render = text.headText ++ text.body := rfl

theorem written_completes (text : RequestText) (suffix : Bytes) (start : HttpRequest)
    (wellFormed : text.WellFormed) :
    ∃ parser, parse (text.render ++ suffix) {} start = (.complete, parser, text.request) ∧
      parser.consumedBytes = text.render.length := by
  have shape : text.render ++ suffix = text.headText ++ (text.body ++ suffix) := by
    rw [render_eq, List.append_assoc]
  have line : parse (text.headText ++ (text.body ++ suffix)) {} start =
      (parseLoop (text.headText ++ (text.body ++ suffix))).run
        (behindLine text.method text.target) := by
    rw [head_text_block wellFormed]
    exact parse_behind_line wellFormed.line _ start
  have head := head_text_advances wellFormed (text.body ++ suffix)
  rw [choose_body_written wellFormed] at head
  rw [shape, line, render_eq]
  by_cases empty : text.body = []
  · rw [if_pos empty] at head
    have done := (parseLoop _).run_done ((parse_turn_done_iff _ _ _ _).mpr head)
    have unset : text.request = text.headed := by
      rw [RequestText.request, empty, headed_unset]
    refine ⟨_, by rw [unset]; exact done, ?_⟩
    rw [empty, List.append_nil]
    rfl
  · rw [if_neg empty] at head
    have next := (parseLoop _).run_next ((parse_turn_next_iff _ _ _).mpr head)
    have done := (parseLoop _).run_done
      ((parse_turn_done_iff _ _ _ _).mpr (body_text_completes text suffix))
    refine ⟨_, next.trans done, ?_⟩
    rw [List.length_append]
    rfl

/-- What is written is read back, and nothing behind it is consumed. -/
theorem parse_render_reads_back (text : RequestText) (suffix : Bytes) (start : HttpRequest)
    (wellFormed : text.WellFormed) :
    ∃ parser request,
      parse (text.render ++ suffix) {} start = (.complete, parser, request) ∧
      request.method = utils.parseMethod text.method ∧ request.target = text.target ∧
      request.version = ascii "HTTP/1.1" ∧
      request.headers.headers = text.fields.map WrittenField.stored ∧
      request.body = text.body ∧ parser.consumedBytes = text.render.length := by
  obtain ⟨method, target, version, _, _⟩ :=
    line_request_parts (utils.parseMethod text.method) text.target
  obtain ⟨parser, completes, consumed⟩ := written_completes text suffix start wellFormed
  exact ⟨parser, text.request, completes, method, target, version, rfl, rfl, consumed⟩

def postedForm : RequestText where
  method := ascii "POST"
  target := ascii "/form"
  fields := [⟨ascii "Host", ascii " ", ascii "x", ascii "  "⟩,
    ⟨ascii "Content-Length", [], ascii "4", ascii "\t"⟩]
  body := ascii "\r\n\r\n"

theorem posted_form_well_formed : postedForm.WellFormed where
  line := ⟨by decide, by decide, by decide, by decide, by decide⟩
  fields := by
    intro field member
    simp only [postedForm, List.mem_cons, List.not_mem_nil, or_false] at member
    rcases member with rfl | rfl
    all_goals constructor <;> decide +kernel
  nonempty := by decide
  count := by decide
  plain := by decide
  short := by decide
  bounded := by decide
  framed := Or.inl ⟨⟨ascii "Content-Length", [], ascii "4", ascii "\t"⟩, by decide, by decide,
    by decide, by decide⟩

theorem parse_render_reads_back_form :
    postedForm.WellFormed ∧
      ∃ parser request,
        parse (postedForm.render ++ ascii "GET") {} {} = (.complete, parser, request) ∧
        request.method = utils.parseMethod postedForm.method ∧
        request.target = postedForm.target ∧ request.version = ascii "HTTP/1.1" ∧
        request.headers.headers = postedForm.fields.map WrittenField.stored ∧
        request.body = postedForm.body ∧ parser.consumedBytes = postedForm.render.length :=
  ⟨posted_form_well_formed,
    parse_render_reads_back postedForm (ascii "GET") {} posted_form_well_formed⟩

end Messages

end HttpServer.RequestRendering
