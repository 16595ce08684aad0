import HttpServer.FieldLines
import HttpServer.Router
import HttpServer.SessionResponses

/-!
# The responses of one connection as a client reads them

The client knows the methods it sent. It reads a status line and field lines,
takes no body after a response to `HEAD` or with a 1xx or 204 status and
`Content-Length` bytes otherwise, and goes on with what is left. The serializer
writes the body in every case, so a body the client does not expect is left in
front of the next status line.

Reading loses spaces and tabs only. The other bytes of the stream are those of
the responses read, which is how a stream that is read back is known to hold
nothing else.
-/

namespace HttpServer.ResponseStream

open ListSearch HttpParser FieldLines ClientConnection Session
open TransitionSystem SessionResponses

structure Received where
  code : Nat
  reason : Bytes
  fields : List (Bytes × Bytes)
  body : Bytes
deriving DecidableEq, Repr

/-- Version, three digits and the reason phrase, with single spaces between them. -/
def readStatusLine (line : Bytes) : Option (Nat × Bytes) :=
  let digits := (line.drop 9).take 3
  if line.take 9 = ascii "HTTP/1.1 " ∧ digits.length = 3 ∧ digits.all utils.isDigit = true ∧
      (line.drop 12).take 1 = [32] then
    some (utils.decimalValue digits, line.drop 13)
  else none

def readFieldsFor : Nat → Bytes → Option (List (Bytes × Bytes) × Bytes)
  | 0, _ => none
  | fuel + 1, bytes =>
      match findSub crlf bytes with
      | none => none
      | some lineEnd =>
          if lineEnd = 0 then some ([], bytes.drop 2)
          else
            match splitField (bytes.take lineEnd), readFieldsFor fuel (bytes.drop (lineEnd + 2)) with
            | some field, some (fields, rest) => some (field :: fields, rest)
            | _, _ => none

/-- Every line shortens the rest. -/
def readFields (bytes : Bytes) : Option (List (Bytes × Bytes) × Bytes) :=
  readFieldsFor bytes.length bytes

def hasNoBody (method : HttpMethod) (code : Nat) : Bool :=
  method = .head || (100 ≤ code && code < 200) || code = 204

def contentLength (fields : List (Bytes × Bytes)) : Option Nat :=
  match fields.find? fun field => utils.equalsIgnoreCase field.1 (ascii "Content-Length") with
  | some field =>
      if field.2 ≠ [] ∧ field.2.all utils.isDigit = true then some (utils.decimalValue field.2)
      else none
  | none => none

def bodyLength (method : HttpMethod) (code : Nat) (fields : List (Bytes × Bytes)) : Option Nat :=
  if hasNoBody method code then some 0 else contentLength fields

def readResponse (method : HttpMethod) (stream : Bytes) : Option (Received × Bytes) := do
  let lineEnd ← findSub crlf stream
  let (code, reason) ← readStatusLine (stream.take lineEnd)
  let (fields, rest) ← readFields (stream.drop (lineEnd + 2))
  let length ← bodyLength method code fields
  if length ≤ rest.length then some (⟨code, reason, fields, rest.take length⟩, rest.drop length)
  else none

def readResponses : List HttpMethod → Bytes → Option (List Received × Bytes)
  | [], stream => some ([], stream)
  | method :: methods, stream => do
      let (received, rest) ← readResponse method stream
      let (others, left) ← readResponses methods rest
      some (received :: others, left)

/-- The request tasks of a connection send their responses one after the other. -/
def responseStream (answered : List (HttpRequest × HttpResponse)) : Bytes :=
  answered.flatMap fun pair => responseText (keepsAlive pair.1) pair.2

def connectionField (request : HttpRequest) : Bytes :=
  if keepsAlive request then ascii "keep-alive" else ascii "close"

def sentFields (request : HttpRequest) (response : HttpResponse) : List (Bytes × Bytes) :=
  (response.headers.set (ascii "Connection") (connectionField request)).headers.filter (fun field =>
      !HttpHeaders.equalsIgnoreCase field.1 (ascii "Content-Length")) ++
    [(ascii "Content-Length", decimalText response.body.length)]

/-- The response to one request as its client should see it. -/
def expected (pair : HttpRequest × HttpResponse) : Received where
  code := pair.2.status.code
  reason := HttpResponse.reasonPhrase pair.2.status
  fields := (sentFields pair.1 pair.2).map fun field => (field.1, utils.trimOws field.2)
  body := if hasNoBody pair.1.method pair.2.status.code then [] else pair.2.body

/-- What the serializer writes beyond that. -/
def surplus (pair : HttpRequest × HttpResponse) : Bytes :=
  if hasNoBody pair.1.method pair.2.status.code then pair.2.body else []

/-- The client reads one response per request, in order, and nothing is left over. -/
def InStep (answered : List (HttpRequest × HttpResponse)) : Prop :=
  readResponses (answered.map fun pair => pair.1.method) (responseStream answered) =
    some (answered.map expected, [])

def ValidHeaders (response : HttpResponse) : Prop :=
  ∀ field ∈ response.headers.headers, fieldIsValid field = true

section Writing

def statusLine (status : HttpStatus) : Bytes :=
  ascii "HTTP/1.1 " ++ decimalText status.code ++ ascii " " ++ HttpResponse.reasonPhrase status

theorem status_line_avoids (status : HttpStatus) : 13 ∉ statusLine status := by
  cases status <;> decide

theorem status_line_read (status : HttpStatus) :
    readStatusLine (statusLine status) =
      some (status.code, HttpResponse.reasonPhrase status) := by
  cases status <;> decide +kernel

theorem serialized_headers (fields : List (Bytes × Bytes)) :
    (fields.map HttpResponse.serializeHeader).flatten =
      renderFields (fields.filter fun field =>
        !HttpHeaders.equalsIgnoreCase field.1 (ascii "Content-Length")) := by
  induction fields with
  | nil => rfl
  | cons field fields ih =>
      rw [List.map_cons, List.flatten_cons, ih, HttpResponse.serializeHeader, List.filter_cons]
      cases HttpHeaders.equalsIgnoreCase field.1 (ascii "Content-Length") with
      | true => simp
      | false => simp [renderFields, fieldLine]

theorem response_text_shape (request : HttpRequest) (response : HttpResponse) :
    responseText (keepsAlive request) response =
      statusLine response.status ++
        (crlf ++ (renderFields (sentFields request response) ++ (crlf ++ response.body))) := by
  have lengthLine : renderFields [(ascii "Content-Length", decimalText response.body.length)] =
      ascii "Content-Length: " ++ decimalText response.body.length ++ crlf := by
    simp only [renderFields, List.flatMap_singleton, fieldLine]
    rfl
  have fieldLines : renderFields (sentFields request response) =
      ((response.headers.set (ascii "Connection") (connectionField request)).headers.map
          HttpResponse.serializeHeader).flatten ++
        (ascii "Content-Length: " ++ decimalText response.body.length ++ crlf) := by
    rw [serialized_headers, ← lengthLine, sentFields]
    exact List.flatMap_append
  rw [fieldLines]
  simp only [responseText, HttpResponse.serialize, HttpResponse.setHeader, statusLine,
    connectionField, List.append_assoc]

theorem set_valid {headers : HttpHeaders} {name value : Bytes}
    (valid : ∀ field ∈ headers.headers, fieldIsValid field = true)
    (new : fieldIsValid (name, value) = true) :
    ∀ field ∈ (headers.set name value).headers, fieldIsValid field = true := by
  intro field member
  rcases List.mem_append.mp member with kept | added
  · exact valid field (List.mem_of_mem_filter kept)
  · rw [List.mem_singleton.mp added]
    exact new

theorem sent_fields_valid {response : HttpResponse} (valid : ValidHeaders response)
    (request : HttpRequest) : ∀ field ∈ sentFields request response, fieldIsValid field = true := by
  have connection : fieldIsValid (ascii "Connection", connectionField request) = true := by
    unfold connectionField
    cases keepsAlive request <;> decide
  intro field member
  rcases List.mem_append.mp member with kept | own
  · exact set_valid valid connection field (List.mem_of_mem_filter kept)
  · rw [List.mem_singleton.mp own]
    exact length_field_valid _

theorem content_length_sent (request : HttpRequest) (response : HttpResponse) :
    contentLength (expected (request, response)).fields = some response.body.length := by
  have foreign : ∀ field ∈ ((response.headers.set (ascii "Connection")
      (connectionField request)).headers.filter fun field =>
        !HttpHeaders.equalsIgnoreCase field.1 (ascii "Content-Length")).map
          (fun field => (field.1, utils.trimOws field.2)),
      ¬utils.equalsIgnoreCase field.1 (ascii "Content-Length") = true := by
    intro field member
    obtain ⟨stored, kept, rfl⟩ := List.mem_map.mp member
    have other := (List.mem_filter.mp kept).2
    rw [Bool.not_eq_true'] at other
    rw [Bool.not_eq_true]
    exact other
  have own : utils.equalsIgnoreCase (ascii "Content-Length") (ascii "Content-Length") = true := by
    decide
  simp only [contentLength, expected, sentFields, List.map_append, List.find?_append,
    List.find?_eq_none.mpr foreign, List.map_cons, List.map_nil, List.find?_cons, own,
    Option.none_or, decimal_text_trimmed]
  rw [if_pos ⟨decimal_text_ne_nil _, decimal_text_digits _⟩, decimal_value_text]

end Writing

section Reading

theorem read_fields_render (fields : List (Bytes × Bytes)) (rest : Bytes)
    (valid : ∀ field ∈ fields, fieldIsValid field = true) (fuel : Nat)
    (enough : fields.length < fuel) :
    readFieldsFor fuel (renderFields fields ++ (crlf ++ rest)) =
      some (fields.map (fun field => (field.1, utils.trimOws field.2)), rest) := by
  induction fields generalizing fuel with
  | nil =>
      cases fuel with
      | zero => exact absurd enough (Nat.not_lt_zero _)
      | succ fuel =>
          have found := find_line_end List.not_mem_nil rest
          rw [List.nil_append] at found
          simp only [renderFields, List.flatMap_nil, List.nil_append, readFieldsFor, found,
            List.length_nil, if_true]
          rfl
  | cons field fields ih =>
      cases fuel with
      | zero => exact absurd enough (Nat.not_lt_zero _)
      | succ fuel =>
          have fieldValid := valid field List.mem_cons_self
          have avoids := field_line_avoids fieldValid
          have found := find_line_end avoids (renderFields fields ++ (crlf ++ rest))
          have following := ih (fun other member => valid other (List.mem_cons_of_mem _ member))
            fuel (Nat.lt_of_succ_lt_succ enough)
          simp only [fieldIsValid, Bool.and_eq_true] at fieldValid
          rw [render_fields_front, readFieldsFor, found]
          simp only [if_neg (field_line_length_ne_zero field), List.take_left,
            split_field_line fieldValid.1, drop_past_line, following, List.map_cons]

theorem render_fields_length (fields : List (Bytes × Bytes)) :
    fields.length ≤ (renderFields fields).length := by
  induction fields with
  | nil => exact Nat.zero_le _
  | cons field fields ih =>
      simp only [renderFields, List.flatMap_cons, List.length_append, crlf_length,
        List.length_cons] at ih ⊢
      omega

/-- Whatever follows, a written response is read with its own head, and its
surplus is left in front of what follows. -/
theorem read_response_written (pair : HttpRequest × HttpResponse) (valid : ValidHeaders pair.2)
    (more : Bytes) :
    readResponse pair.1.method (responseText (keepsAlive pair.1) pair.2 ++ more) =
      some (expected pair, surplus pair ++ more) := by
  obtain ⟨request, response⟩ := pair
  have shape : responseText (keepsAlive request) response ++ more =
      statusLine response.status ++ (crlf ++ (renderFields (sentFields request response) ++
        (crlf ++ (response.body ++ more)))) := by
    simp only [response_text_shape, List.append_assoc]
  have found := find_line_end (status_line_avoids response.status)
    (renderFields (sentFields request response) ++ (crlf ++ (response.body ++ more)))
  have fields : readFields (renderFields (sentFields request response) ++
      (crlf ++ (response.body ++ more))) =
        some ((expected (request, response)).fields, response.body ++ more) := by
    have long := render_fields_length (sentFields request response)
    apply read_fields_render _ _ (sent_fields_valid valid request)
    simp only [List.length_append, crlf_length]
    omega
  have lengths := content_length_sent request response
  dsimp only
  rw [shape, readResponse, found]
  simp only [Option.bind_eq_bind, Option.bind_some, List.take_left, status_line_read,
    drop_past_line, fields]
  unfold bodyLength surplus
  dsimp only
  cases bodiless : hasNoBody request.method response.status.code with
  | true => simp [expected, bodiless]
  | false =>
      simp only [Bool.false_eq_true, if_false, lengths, Option.bind_some]
      simp [expected, bodiless]

theorem read_status_line_starts {line reason : Bytes} {code : Nat}
    (read : readStatusLine line = some (code, reason)) : line.head? = some 72 := by
  unfold readStatusLine at read
  dsimp only at read
  split_ifs at read with wellFormed
  have version := congrArg List.head? wellFormed.1
  rw [List.head?_take] at version
  exact version

theorem read_response_blank {byte : Byte} (blank : utils.isOws byte = true) (method : HttpMethod)
    (rest : Bytes) : readResponse method (byte :: rest) = none := by
  have refused : ∀ count, readStatusLine ((byte :: rest).take count) = none := by
    intro count
    cases read : readStatusLine ((byte :: rest).take count) with
    | none => rfl
    | some parsed =>
        have starts := read_status_line_starts read
        rw [List.head?_take] at starts
        split_ifs at starts
        rw [List.head?_cons, Option.some.injEq] at starts
        rw [starts] at blank
        cases blank
  unfold readResponse
  cases findSub crlf (byte :: rest) with
  | none => rfl
  | some lineEnd =>
      simp only [Option.bind_eq_bind, Option.bind_some, refused, Option.bind_none]

end Reading

section Weight

/-- The number of bytes that are neither space nor tab. -/
def weight (bytes : Bytes) : Nat := bytes.countP fun byte => !utils.isOws byte

@[simp] theorem weight_append (first second : Bytes) :
    weight (first ++ second) = weight first + weight second := List.countP_append

theorem weight_take_drop (bytes : Bytes) (count : Nat) :
    weight bytes = weight (bytes.take count) + weight (bytes.drop count) := by
  rw [← weight_append, List.take_append_drop]

theorem weight_drop_while (bytes : Bytes) :
    weight (bytes.dropWhile utils.isOws) = weight bytes := by
  induction bytes with
  | nil => rfl
  | cons byte bytes ih =>
      by_cases blank : utils.isOws byte = true
      · rw [List.dropWhile_cons_of_pos blank, ih]
        simp [weight, blank]
      · rw [List.dropWhile_cons_of_neg blank]

theorem weight_reverse (bytes : Bytes) : weight bytes.reverse = weight bytes :=
  List.countP_reverse

theorem weight_trim (bytes : Bytes) : weight (utils.trimOws bytes) = weight bytes := by
  rw [utils.trimOws, List.rdropWhile, weight_reverse, weight_drop_while, weight_reverse,
    weight_drop_while]

def fieldWeight (field : Bytes × Bytes) : Nat := weight field.1 + 1 + weight field.2 + 2

def Received.weigh (received : Received) : Nat :=
  13 + weight received.reason + (received.fields.map fieldWeight).sum + 2 + weight received.body

theorem weight_digits {digits : Bytes} (plain : digits.all utils.isDigit = true) :
    weight digits = digits.length := by
  rw [weight, List.countP_eq_length]
  intro byte member
  rw [(digit_plain (List.all_eq_true.mp plain byte member)).1]
  rfl

theorem status_line_weight {line reason : Bytes} {code : Nat}
    (read : readStatusLine line = some (code, reason)) : weight line = 11 + weight reason := by
  unfold readStatusLine at read
  dsimp only at read
  split_ifs at read with wellFormed
  obtain ⟨version, three, digits, space⟩ := wellFormed
  cases read
  have front := weight_take_drop line 9
  have middle : weight (line.drop 9) = weight ((line.drop 9).take 3) + weight (line.drop 12) := by
    rw [weight_take_drop (line.drop 9) 3, List.drop_drop]
  have back : weight (line.drop 12) = weight ((line.drop 12).take 1) + weight (line.drop 13) := by
    rw [weight_take_drop (line.drop 12) 1, List.drop_drop]
  have versionWeight : weight (ascii "HTTP/1.1 ") = 8 := by decide
  have spaceWeight : weight [32] = 0 := by decide
  rw [version, versionWeight] at front
  rw [weight_digits digits, three] at middle
  rw [space, spaceWeight] at back
  omega

theorem split_field_weight {line : Bytes} {field : Bytes × Bytes}
    (split : splitField line = some field) : weight line = weight field.1 + 1 + weight field.2 := by
  obtain ⟨colonAt, found, rfl⟩ := Option.map_eq_some_iff.mp split
  have cut := congrArg weight (find_sub_split found)
  have colonWeight : weight [58] = 1 := by decide
  rw [weight_append, weight_append, colonWeight] at cut
  rw [weight_trim]
  exact cut

theorem line_weight {bytes : Bytes} {lineEnd : Nat} (found : findSub crlf bytes = some lineEnd) :
    weight bytes = weight (bytes.take lineEnd) + 2 + weight (bytes.drop (lineEnd + 2)) := by
  have cut := congrArg weight (find_sub_split found)
  have endWeight : weight crlf = 2 := by decide
  rw [weight_append, weight_append, endWeight] at cut
  exact cut

theorem read_fields_weight {fuel : Nat} {bytes rest : Bytes} {fields : List (Bytes × Bytes)}
    (read : readFieldsFor fuel bytes = some (fields, rest)) :
    weight bytes = (fields.map fieldWeight).sum + 2 + weight rest := by
  induction fuel generalizing bytes fields with
  | zero => cases read
  | succ fuel ih =>
      rw [readFieldsFor] at read
      cases found : findSub crlf bytes with
      | none =>
          rw [found] at read
          cases read
      | some lineEnd =>
          have cut := line_weight found
          rw [found] at read
          dsimp only at read
          split_ifs at read with empty
          · cases read
            rw [empty, List.take_zero] at cut
            simpa [weight] using cut
          · split at read
            · rename_i field others left split following
              cases read
              have first := split_field_weight split
              have onward := ih following
              rw [List.map_cons, List.sum_cons, fieldWeight]
              omega
            · cases read

theorem read_response_weight {method : HttpMethod} {stream rest : Bytes} {received : Received}
    (read : readResponse method stream = some (received, rest)) :
    weight stream = received.weigh + weight rest := by
  simp only [readResponse, Option.bind_eq_bind, Option.bind_eq_some_iff] at read
  obtain ⟨lineEnd, found, ⟨code, reason⟩, status, ⟨fields, behind⟩, lines, length, _, taken⟩ := read
  dsimp only at taken
  split_ifs at taken
  cases taken
  have cut := line_weight found
  have first := status_line_weight status
  have block := read_fields_weight lines
  have body := weight_take_drop behind length
  dsimp only [Received.weigh]
  omega

theorem read_responses_weight {methods : List HttpMethod} {stream left : Bytes}
    {received : List Received} (read : readResponses methods stream = some (received, left)) :
    weight stream = (received.map Received.weigh).sum + weight left := by
  induction methods generalizing stream received with
  | nil =>
      cases read
      simp
  | cons method methods ih =>
      simp only [readResponses, Option.bind_eq_bind, Option.bind_eq_some_iff] at read
      obtain ⟨⟨response, rest⟩, first, ⟨others, remaining⟩, following, whole⟩ := read
      cases whole
      have onward := ih following
      rw [read_response_weight first, onward, List.map_cons, List.sum_cons, Nat.add_assoc]

end Weight

section Stream

theorem response_stream_cons (pair : HttpRequest × HttpResponse)
    (answered : List (HttpRequest × HttpResponse)) :
    responseStream (pair :: answered) =
      responseText (keepsAlive pair.1) pair.2 ++ responseStream answered :=
  List.flatMap_cons

theorem read_responses_cons (pair : HttpRequest × HttpResponse) (valid : ValidHeaders pair.2)
    (methods : List HttpMethod) (more : Bytes) :
    readResponses (pair.1.method :: methods) (responseText (keepsAlive pair.1) pair.2 ++ more) =
      (readResponses methods (surplus pair ++ more)).map fun read =>
        (expected pair :: read.1, read.2) := by
  rw [readResponses, read_response_written pair valid]
  simp only [Option.bind_eq_bind, Option.bind_some]
  cases readResponses methods (surplus pair ++ more) <;> rfl

theorem response_text_weight (pair : HttpRequest × HttpResponse) (valid : ValidHeaders pair.2) :
    weight (responseText (keepsAlive pair.1) pair.2) =
      (expected pair).weigh + weight (surplus pair) := by
  have read := read_response_weight (read_response_written pair valid [])
  simpa using read

theorem response_stream_weight (answered : List (HttpRequest × HttpResponse))
    (valid : ∀ pair ∈ answered, ValidHeaders pair.2) :
    weight (responseStream answered) =
      ((answered.map expected).map Received.weigh).sum +
        (answered.map fun pair => weight (surplus pair)).sum := by
  induction answered with
  | nil => rfl
  | cons pair answered ih =>
      have rest := ih fun other member => valid other (List.mem_cons_of_mem _ member)
      rw [response_stream_cons, weight_append, response_text_weight pair (valid pair
        List.mem_cons_self), rest]
      simp only [List.map_cons, List.sum_cons]
      omega

/-- A stream that is read back holds no surplus but spaces and tabs. -/
theorem surplus_weightless {answered : List (HttpRequest × HttpResponse)}
    (valid : ∀ pair ∈ answered, ValidHeaders pair.2) (inStep : InStep answered) :
    ∀ pair ∈ answered, weight (surplus pair) = 0 := by
  have sent := response_stream_weight answered valid
  have read := read_responses_weight inStep
  have empty : weight [] = 0 := rfl
  have none : (answered.map fun pair => weight (surplus pair)).sum = 0 := by omega
  intro pair member
  exact List.sum_eq_zero_iff_forall_eq_nat.mp none _ (List.mem_map_of_mem member)

theorem in_step_of_no_surplus {answered : List (HttpRequest × HttpResponse)}
    (valid : ∀ pair ∈ answered, ValidHeaders pair.2)
    (clean : ∀ pair ∈ answered, surplus pair = []) : InStep answered := by
  unfold InStep
  induction answered with
  | nil => rfl
  | cons pair answered ih =>
      have rest := ih (fun other member => valid other (List.mem_cons_of_mem _ member))
        fun other member => clean other (List.mem_cons_of_mem _ member)
      rw [List.map_cons, response_stream_cons, read_responses_cons pair (valid pair
        List.mem_cons_self), clean pair List.mem_cons_self, List.nil_append, rest]
      rfl

/-- A surplus of spaces and tabs is not read over: nothing may stand behind the
last response, and no status line starts with one. -/
theorem no_surplus_of_blank {answered : List (HttpRequest × HttpResponse)}
    (valid : ∀ pair ∈ answered, ValidHeaders pair.2)
    (blank : ∀ pair ∈ answered, weight (surplus pair) = 0) (inStep : InStep answered) :
    ∀ pair ∈ answered, surplus pair = [] := by
  unfold InStep at inStep
  induction answered with
  | nil => exact fun pair member => absurd member List.not_mem_nil
  | cons pair answered ih =>
      rw [List.map_cons, response_stream_cons, read_responses_cons pair (valid pair
        List.mem_cons_self)] at inStep
      obtain ⟨⟨received, left⟩, read, whole⟩ := Option.map_eq_some_iff.mp inStep
      cases whole
      have front : surplus pair = [] := by
        cases extra : surplus pair with
        | nil => rfl
        | cons byte rest =>
            have light := blank pair List.mem_cons_self
            rw [extra] at read light
            have leading : utils.isOws byte = true := by
              by_contra solid
              rw [weight, List.countP_cons_of_pos (by simp [solid])] at light
              exact absurd light (Nat.succ_ne_zero _)
            cases answered with
            | nil => cases read
            | cons next others =>
                rw [List.map_cons, readResponses, List.cons_append,
                  read_response_blank leading] at read
                cases read
      rw [front, List.nil_append] at read
      intro other member
      rcases List.mem_cons.mp member with rfl | behind
      · exact front
      · exact ih (fun later behind => valid later (List.mem_cons_of_mem _ behind))
          (fun later behind => blank later (List.mem_cons_of_mem _ behind)) read other behind

theorem in_step_iff_no_surplus {answered : List (HttpRequest × HttpResponse)}
    (valid : ∀ pair ∈ answered, ValidHeaders pair.2) :
    InStep answered ↔ ∀ pair ∈ answered, surplus pair = [] := by
  constructor
  · intro inStep
    exact no_surplus_of_blank valid (surplus_weightless valid inStep) inStep
  · exact in_step_of_no_surplus valid

theorem surplus_eq_nil_iff (pair : HttpRequest × HttpResponse) :
    surplus pair = [] ↔
      (hasNoBody pair.1.method pair.2.status.code = true → pair.2.body = []) := by
  unfold surplus
  split_ifs with bodiless
  · exact ⟨fun empty _ => empty, fun empty => empty bodiless⟩
  · exact iff_of_true rfl fun impossible => absurd impossible bodiless

/-- The stream stays in step exactly when every response that a client reads
without a body was given none. -/
theorem responses_in_step_iff (answered : List (HttpRequest × HttpResponse))
    (valid : ∀ pair ∈ answered, ValidHeaders pair.2) :
    InStep answered ↔
      ∀ pair ∈ answered, hasNoBody pair.1.method pair.2.status.code = true →
        pair.2.body = [] := by
  rw [in_step_iff_no_surplus valid]
  constructor
  · intro clean pair member
    exact (surplus_eq_nil_iff pair).mp (clean pair member)
  · intro bodiless pair member
    exact (surplus_eq_nil_iff pair).mpr (bodiless pair member)

def pageRequest : HttpRequest :=
  { method := .get, path := ascii "/a", version := ascii "HTTP/1.1" }

def headRequest : HttpRequest := { pageRequest with method := .head }

theorem responses_in_step_iff_page_and_head :
    InStep [(pageRequest, ({} : HttpResponse).setBody (ascii "hi")), (headRequest, {})] := by
  refine (responses_in_step_iff _ ?_).mpr ?_
  · intro pair member field stored
    simp only [List.mem_cons, List.not_mem_nil, or_false] at member
    rcases member with rfl | rfl <;> cases stored
  · decide

/-- The router's own answer to `HEAD` on an unknown path has a body. -/
theorem head_not_found_out_of_step :
    ∃ response, ((({} : Router Unit).handle headRequest ()).result = .ok response) ∧
      ValidHeaders response ∧ ¬InStep [(headRequest, response)] := by
  refine ⟨(({} : HttpResponse).setStatus .notFound).setBody (ascii "Not Found"), rfl, ?_, ?_⟩
  · intro field stored
    cases stored
  · unfold InStep
    decide +kernel

/-- The bytes of an isolated run in which no request was refused are the stream
of its answered requests, so its client stays in step under the same condition. -/
theorem isolated_run_in_step_iff (crypto : Worker.Crypto) (labels : List SessionStep)
    (last : Session)
    (isolated : Respects (step crypto) (fun session label => inIsolation session label = true) {}
      labels)
    (reached : run (step crypto) {} labels = some last) (accepted : last.refused = false)
    (valid : ∀ pair ∈ last.answered, ValidHeaders pair.2) :
    readResponses (last.answered.map fun pair => pair.1.method) last.sent.flatten =
        some (last.answered.map expected, []) ↔
      ∀ pair ∈ last.answered, surplus pair = [] := by
  have ordered := run_invariant Ordered (step_ordered crypto) initially_ordered isolated reached
  have sent := ordered.sent
  rw [sentInOrder, accepted] at sent
  have stream : last.sent.flatten = responseStream last.answered := by
    rw [sent, responseStream, List.flatMap_def]
    simp
  rw [stream]
  exact in_step_iff_no_surplus valid

end Stream

end HttpServer.ResponseStream
