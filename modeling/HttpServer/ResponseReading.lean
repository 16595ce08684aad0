import HttpServer.ResponseStream

/-!
# A serialized response read back

A response is built by calls of its setters. `serialize` then writes a status line,
the stored fields but `Content-Length`, and one `Content-Length` line of its own. No
line holds a CR when names and values pass the checks, so the first double CRLF is
the one behind the last line, whatever the body holds.
-/

namespace HttpServer.ResponseReading

open ListSearch LineBlocks HttpParser FieldLines ResponseStream

inductive ResponseCall where
  | setStatus (status : HttpStatus)
  | setHeader (name value : Bytes)
  | addHeader (name value : Bytes)
  | json (jsonString : Bytes)
  | setBody (body : Bytes)

namespace ResponseCall

def apply (response : HttpResponse) : ResponseCall → HttpResponse
  | .setStatus status => response.setStatus status
  | .setHeader name value => response.setHeader name value
  | .addHeader name value => response.addHeader name value
  | .json jsonString => response.json jsonString
  | .setBody body => response.setBody body

/-- Names and values as `isValidHeaderName` and `isValidHeaderValue` want them. -/
def Valid : ResponseCall → Prop
  | .setHeader name value | .addHeader name value =>
      utils.isValidHeaderName name = true ∧ utils.isValidHeaderValue value = true
  | _ => True

end ResponseCall

def build (calls : List ResponseCall) : HttpResponse := calls.foldl ResponseCall.apply {}

section Building

theorem field_is_valid_iff (name value : Bytes) :
    fieldIsValid (name, value) = true ↔
      utils.isValidHeaderName name = true ∧ utils.isValidHeaderValue value = true := by
  rw [fieldIsValid, Bool.and_eq_true]

theorem add_valid {headers : HttpHeaders} {name value : Bytes}
    (valid : ∀ field ∈ headers.headers, fieldIsValid field = true)
    (new : fieldIsValid (name, value) = true) :
    ∀ field ∈ (headers.add name value).headers, fieldIsValid field = true := by
  intro field member
  rcases List.mem_append.mp member with kept | added
  · exact valid field kept
  · rw [List.mem_singleton.mp added]
    exact new

theorem apply_valid {response : HttpResponse} {call : ResponseCall}
    (valid : ValidHeaders response) (arguments : call.Valid) :
    ValidHeaders (call.apply response) := by
  cases call with
  | setStatus status => exact valid
  | setBody body => exact valid
  | setHeader name value => exact set_valid valid ((field_is_valid_iff name value).mpr arguments)
  | addHeader name value => exact add_valid valid ((field_is_valid_iff name value).mpr arguments)
  | json jsonString => exact set_valid valid (by decide +kernel)

theorem build_valid {calls : List ResponseCall} (valid : ∀ call ∈ calls, call.Valid) :
    ValidHeaders (build calls) := by
  have general : ∀ response, ValidHeaders response →
      ValidHeaders (calls.foldl ResponseCall.apply response) := by
    induction calls with
    | nil =>
        intro response stored
        exact stored
    | cons call calls ih =>
        intro response stored
        rw [List.foldl_cons]
        apply ih
        · intro other member
          exact valid other (List.mem_cons_of_mem _ member)
        · exact apply_valid stored (valid call List.mem_cons_self)
  exact general {} nofun

end Building

section Lines

variable (response : HttpResponse)

def writtenFields : List (Bytes × Bytes) :=
  response.headers.headers.filter fun field =>
    !HttpHeaders.equalsIgnoreCase field.1 (ascii "Content-Length")

def lengthLine : Bytes := ascii "Content-Length: " ++ decimalText response.body.length

def headLines : List Bytes :=
  statusLine response.status ::
    ((writtenFields response).map fieldLine ++ [lengthLine response])

theorem serialize_lines :
    response.serialize = linesText crlf (headLines response) ++ (crlf ++ response.body) := by
  have fields := serialized_headers response.headers.headers
  rw [render_fields_lines] at fields
  simp only [headLines, linesText, List.flatMap_cons, List.flatMap_append, List.flatMap_nil,
    List.append_nil]
  rw [HttpResponse.serialize, fields]
  simp only [statusLine, lengthLine, linesText, writtenFields, List.append_assoc]

theorem length_line_eq :
    lengthLine response =
      fieldLine (ascii "Content-Length", decimalText response.body.length) := rfl

variable {response}

theorem written_fields_valid (valid : ValidHeaders response) :
    ∀ field ∈ writtenFields response, fieldIsValid field = true := by
  intro field member
  exact valid field (List.mem_of_mem_filter member)

theorem head_lines_plain (valid : ValidHeaders response) :
    ∀ line ∈ headLines response, line ≠ [] ∧ 13 ∉ line := by
  intro line member
  rw [headLines, List.mem_cons, List.mem_append, List.mem_singleton] at member
  rcases member with rfl | written | rfl
  · exact ⟨by simp [statusLine, ascii], status_line_avoids _⟩
  · obtain ⟨field, stored, rfl⟩ := List.mem_map.mp written
    exact ⟨field_line_ne_nil, field_line_avoids (written_fields_valid valid field stored)⟩
  · rw [length_line_eq]
    exact ⟨field_line_ne_nil, field_line_avoids (length_field_valid _)⟩

def namesContentLength (line : Bytes) : Bool :=
  utils.equalsIgnoreCase (line.takeWhile (· ≠ 58)) (ascii "Content-Length")

theorem field_line_name {field : Bytes × Bytes} (valid : fieldIsValid field = true) :
    (fieldLine field).takeWhile (· ≠ 58) = field.1 := by
  rw [fieldIsValid, Bool.and_eq_true] at valid
  have split := (split_field_iff _ _).mp (split_field_line valid.1)
  exact (congrArg Prod.fst split.2).symm

/-- Of the written lines only the last is a `Content-Length` line. -/
theorem length_lines (valid : ValidHeaders response) :
    (headLines response).filter namesContentLength = [lengthLine response] := by
  have status : namesContentLength (statusLine response.status) = false := by
    cases response.status <;> decide +kernel
  have own : namesContentLength (lengthLine response) = true := by
    have same : utils.equalsIgnoreCase (ascii "Content-Length") (ascii "Content-Length") = true := by
      decide
    rw [namesContentLength, length_line_eq, field_line_name (length_field_valid _)]
    exact same
  have others : ((writtenFields response).map fieldLine).filter namesContentLength = [] := by
    rw [List.filter_eq_nil_iff]
    intro line member
    obtain ⟨field, stored, rfl⟩ := List.mem_map.mp member
    rw [namesContentLength, field_line_name (written_fields_valid valid field stored)]
    have foreign := (List.mem_filter.mp stored).2
    rw [Bool.not_eq_true'] at foreign
    rw [Bool.not_eq_true]
    exact foreign
  rw [headLines, List.filter_cons_of_neg (by rw [status]; decide), List.filter_append, others,
    List.filter_cons_of_pos own]
  rfl

end Lines

/-- A serialized response, cut at its first double CRLF. -/
theorem serialized_response_reads_back (calls : List ResponseCall)
    (valid : ∀ call ∈ calls, call.Valid) :
    ∃ headEnd first fields last,
      findSub crlfCrlf (build calls).serialize = some headEnd ∧
      (build calls).serialize.drop (headEnd + 4) = (build calls).body ∧
      (build calls).serialize.take headEnd = crlf.intercalate (first :: (fields ++ [last])) ∧
      (∀ line ∈ first :: (fields ++ [last]), ¬crlf <:+: line) ∧
      readStatusLine first = some ((build calls).status.code,
        HttpResponse.reasonPhrase (build calls).status) ∧
      fields = ((build calls).headers.headers.filter fun field =>
          !utils.equalsIgnoreCase field.1 (ascii "Content-Length")).map
        (fun field => field.1 ++ ascii ": " ++ field.2) ∧
      last = ascii "Content-Length: " ++ decimalText (build calls).body.length ∧
      utils.decimalValue (decimalText (build calls).body.length) = (build calls).body.length ∧
      (first :: (fields ++ [last])).filter namesContentLength = [last] := by
  have stored := build_valid valid
  generalize build calls = response at stored
  have plain := head_lines_plain stored
  have found := double_crlf_found (List.cons_ne_nil _ _) plain response.body
  have joined : linesText crlf (headLines response) =
      crlf.intercalate (headLines response) ++ crlf := lines_text_joined (List.cons_ne_nil _ _)
  refine ⟨(crlf.intercalate (headLines response)).length, statusLine response.status, _, _, ?_, ?_,
    ?_, ?_, status_line_read response.status, rfl, rfl, decimal_value_text _, length_lines stored⟩
  · rw [serialize_lines]
    exact found
  · rw [serialize_lines, joined, List.append_assoc, ← List.drop_drop, List.drop_left]
    rfl
  · rw [serialize_lines, joined, List.append_assoc, List.take_left]
    rfl
  · intro line member
    exact crlf_absent (plain line member).2

theorem serialized_response_reads_back_page :
    ∃ headEnd, findSub crlfCrlf (build [.setHeader (ascii "content-length") (ascii "7"),
        .json (ascii "\r\n\r\n")]).serialize = some headEnd ∧
      (build [.setHeader (ascii "content-length") (ascii "7"),
        .json (ascii "\r\n\r\n")]).serialize.drop (headEnd + 4) = ascii "\r\n\r\n" := by
  have valid : ∀ call ∈ [ResponseCall.setHeader (ascii "content-length") (ascii "7"),
      .json (ascii "\r\n\r\n")], call.Valid := by
    intro call member
    rcases List.mem_cons.mp member with rfl | later
    · exact ⟨by decide, by decide⟩
    · rw [List.mem_singleton.mp later]
      trivial
  obtain ⟨headEnd, _, _, _, found, rest, _⟩ := serialized_response_reads_back _ valid
  exact ⟨headEnd, found, rest⟩

end HttpServer.ResponseReading
