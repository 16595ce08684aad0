import HttpServer.ResponseReading

/-!
# Responses on HTTP/2

`submitHttp2Response` hands nghttp2 the fields to send and a string of its own with
the body, which `h2_response_read_cb` is then asked for piece by piece. The callback
takes each piece off the front of that string and deletes the string at the end.
`Message` is what a client makes of a response on either protocol.
-/

namespace HttpServer.Http2Responses

open LineBlocks FieldLines ResponseStream ResponseReading

/-- What `nghttp2_submit_response` is given. -/
structure Submission where
  headers : List (Bytes × Bytes)
  source : Bytes
deriving DecidableEq, Repr

def submitHttp2Response (response : HttpResponse) : Submission where
  headers := [(ascii ":status", decimalText response.status.code)]
  source := response.body

/-- One call of `h2_response_read_cb`: the bytes put into the buffer, the EOF flag,
the string behind the call, and whether it was deleted. -/
structure ReadAnswer where
  copied : Bytes
  eof : Bool
  left : Bytes
  released : Bool
deriving DecidableEq, Repr

def responseRead (responseBody : Bytes) (length : Nat) : ReadAnswer :=
  if responseBody.isEmpty then { copied := [], eof := true, left := responseBody, released := true }
  else
    let copyLen := min length responseBody.length
    let left := responseBody.drop copyLen
    if left.isEmpty then
      { copied := responseBody.take copyLen, eof := true, left, released := true }
    else { copied := responseBody.take copyLen, eof := false, left, released := false }

/-- The calls nghttp2 makes with these buffer lengths: none behind the EOF flag. -/
def deliver (source : Bytes) : List Nat → List ReadAnswer
  | [] => []
  | length :: lengths =>
      let answer := responseRead source length
      if answer.eof then [answer] else answer :: deliver answer.left lengths

section Reader

theorem response_read_copied (source : Bytes) (length : Nat) :
    (responseRead source length).copied = source.take length ∧
      (responseRead source length).left = source.drop length := by
  have taken : source.take (min length source.length) = source.take length :=
    List.take_eq_take_iff.mpr (by omega)
  have dropped : source.drop (min length source.length) = source.drop length :=
    List.drop_eq_drop_iff.mpr (by omega)
  unfold responseRead
  split
  · rename_i empty
    rw [List.isEmpty_iff.mp empty, List.take_nil, List.drop_nil]
    exact ⟨rfl, rfl⟩
  · dsimp only
    split
    all_goals exact ⟨taken, dropped⟩

theorem response_read_ends (source : Bytes) (length : Nat) :
    ((responseRead source length).eof = true ↔ (responseRead source length).left = []) ∧
      (responseRead source length).released = (responseRead source length).eof := by
  unfold responseRead
  split
  · rename_i empty
    exact ⟨iff_of_true rfl (List.isEmpty_iff.mp empty), rfl⟩
  · dsimp only
    split
    · rename_i consumed
      exact ⟨iff_of_true rfl (List.isEmpty_iff.mp consumed), rfl⟩
    · rename_i remaining
      rw [List.isEmpty_iff] at remaining
      exact ⟨iff_of_false Bool.false_ne_true remaining, rfl⟩

end Reader

/-- The pieces of one body: what each call copies, and which call ends it. -/
structure Delivered (body : Bytes) (lengths : Nat → Nat) (answers : List ReadAnswer)
    (last : Nat) : Prop where
  count : answers.length = last + 1
  whole : (answers.map ReadAnswer.copied).flatten = body
  fits : ∀ index answer, answers[index]? = some answer → answer.copied.length ≤ lengths index
  eof : ∀ index answer, answers[index]? = some answer → (answer.eof = true ↔ index = last)
  released : ∀ index answer, answers[index]? = some answer →
    (answer.released = true ↔ index = last) ∧ (answer.left = [] ↔ index = last)

section Delivery

variable {body : Bytes} {lengths : Nat → Nat} {answer : ReadAnswer} {answers : List ReadAnswer}
variable {last : Nat}

theorem single_found {other : ReadAnswer} {index : Nat} (found : [answer][index]? = some other) :
    index = 0 ∧ answer = other := by
  cases index with
  | zero => exact ⟨rfl, Option.some.inj found⟩
  | succ index => simp at found

theorem delivered_single (fits : answer.copied.length ≤ lengths 0) (ended : answer.eof = true)
    (released : answer.released = true) (consumed : answer.left = []) :
    Delivered answer.copied lengths [answer] 0 where
  count := rfl
  whole := by simp
  fits := by
    intro index other found
    obtain ⟨rfl, rfl⟩ := single_found found
    exact fits
  eof := by
    intro index other found
    obtain ⟨rfl, rfl⟩ := single_found found
    exact iff_of_true ended rfl
  released := by
    intro index other found
    obtain ⟨rfl, rfl⟩ := single_found found
    exact ⟨iff_of_true released rfl, iff_of_true consumed rfl⟩

theorem delivered_cons (fits : answer.copied.length ≤ lengths 0) (going : answer.eof = false)
    (kept : answer.released = false) (remaining : answer.left ≠ [])
    (later : Delivered body (fun index => lengths (index + 1)) answers last) :
    Delivered (answer.copied ++ body) lengths (answer :: answers) (last + 1) where
  count := by rw [List.length_cons, later.count]
  whole := by rw [List.map_cons, List.flatten_cons, later.whole]
  fits := by
    intro index other found
    cases index with
    | zero =>
        cases found
        exact fits
    | succ index => exact later.fits index other found
  eof := by
    intro index other found
    cases index with
    | zero =>
        cases found
        simp [going]
    | succ index =>
        rw [Nat.add_right_cancel_iff]
        exact later.eof index other found
  released := by
    intro index other found
    cases index with
    | zero =>
        cases found
        simp [kept, remaining]
    | succ index =>
        rw [Nat.add_right_cancel_iff]
        exact later.released index other found

theorem response_read_fits (source : Bytes) (length : Nat) :
    (responseRead source length).copied.length ≤ length := by
  rw [(response_read_copied source length).1, List.length_take]
  exact Nat.min_le_left _ _

theorem deliver_range_succ (source : Bytes) (lengths : Nat → Nat) (calls : Nat) :
    deliver source ((List.range (calls + 1)).map lengths) =
      if (responseRead source (lengths 0)).eof then [responseRead source (lengths 0)]
      else responseRead source (lengths 0) :: deliver (responseRead source (lengths 0)).left
        ((List.range calls).map fun index => lengths (index + 1)) := by
  rw [List.range_succ_eq_map, List.map_cons, List.map_map]
  rfl

theorem deliver_body (source : Bytes) (lengths : Nat → Nat) (positive : ∀ index, 0 < lengths index) :
    ∃ last, ∀ calls, last < calls →
      Delivered source lengths (deliver source ((List.range calls).map lengths)) last := by
  obtain ⟨size, measured⟩ : ∃ size, source.length = size := ⟨_, rfl⟩
  induction size using Nat.strong_induction_on generalizing source lengths with
  | _ size ih =>
      obtain ⟨copied, left⟩ := response_read_copied source (lengths 0)
      obtain ⟨ends, released⟩ := response_read_ends source (lengths 0)
      have fits := response_read_fits source (lengths 0)
      have parts := List.take_append_drop (lengths 0) source
      rw [← copied, ← left] at parts
      by_cases ended : (responseRead source (lengths 0)).eof = true
      · refine ⟨0, ?_⟩
        intro calls some
        obtain ⟨before, rfl⟩ := Nat.exists_eq_add_of_lt some
        have consumed := ends.mp ended
        rw [consumed, List.append_nil] at parts
        rw [Nat.zero_add, deliver_range_succ, if_pos ended]
        conv in Delivered source => rw [← parts]
        exact delivered_single fits ended (released.trans ended) consumed
      · have remaining : (responseRead source (lengths 0)).left ≠ [] := fun consumed =>
          ended (ends.mpr consumed)
        rw [Bool.not_eq_true] at ended
        have shorter : (responseRead source (lengths 0)).left.length < size := by
          have some := List.length_pos_iff.mpr remaining
          have step := positive 0
          rw [left, List.length_drop] at some ⊢
          omega
        obtain ⟨last, later⟩ := ih _ shorter (responseRead source (lengths 0)).left
          (fun index => lengths (index + 1)) (fun index => positive (index + 1)) rfl
        refine ⟨last + 1, ?_⟩
        intro calls beyond
        obtain ⟨before, rfl⟩ := Nat.exists_eq_add_of_lt beyond
        have onward := later (last + 1 + before) (by omega)
        rw [deliver_range_succ, ended, if_neg Bool.false_ne_true]
        conv in Delivered source => rw [← parts]
        exact delivered_cons fits ended (released.trans ended) remaining onward

end Delivery

/-- The body a response was submitted with arrives whole, in pieces that fit their
buffers, and the last piece, only, carries the flag. -/
theorem body_delivered (response : HttpResponse) (lengths : Nat → Nat)
    (positive : ∀ index, 0 < lengths index) :
    ∃ last, ∀ calls, last < calls →
      Delivered response.body lengths
        (deliver (submitHttp2Response response).source ((List.range calls).map lengths)) last :=
  deliver_body response.body lengths positive

theorem body_delivered_bytewise :
    (∀ index : Nat, 0 < (fun _ => 1) index) ∧
      ∃ last, ∀ calls, last < calls →
        Delivered (ascii "ok") (fun _ => 1)
          (deliver (submitHttp2Response (({} : HttpResponse).setBody (ascii "ok"))).source
            ((List.range calls).map fun _ => 1)) last :=
  ⟨fun _ => Nat.one_pos, body_delivered (({} : HttpResponse).setBody (ascii "ok")) (fun _ => 1)
    fun _ => Nat.one_pos⟩

/-- A response as a client has it when the framing is taken off. -/
structure Message where
  status : Bytes
  fields : List (Bytes × Bytes)
  body : Bytes

namespace Message

def render (message : Message) (reason : Bytes) : Bytes :=
  ascii "HTTP/1.1 " ++ message.status ++ ascii " " ++ reason ++ crlf ++
    (renderFields message.fields ++ (crlf ++ message.body))

/-- `Content-Length` and `Connection` belong to the framing of one protocol. -/
def isFraming (name : Bytes) : Bool :=
  utils.equalsIgnoreCase name (ascii "Content-Length") ||
    utils.equalsIgnoreCase name (ascii "Connection")

/-- The other fields, their names without letter case. -/
def endToEnd (fields : List (Bytes × Bytes)) : List (Bytes × Bytes) :=
  (fields.filter fun field => !isFraming field.1).map fun field =>
    (field.1.map utils.toLower, field.2)

structure Same (left right : Message) : Prop where
  status : left.status = right.status
  fields : endToEnd left.fields = endToEnd right.fields
  body : left.body = right.body

end Message

section Protocols

variable (response : HttpResponse)

def serialized : Message where
  status := decimalText response.status.code
  fields := writtenFields response ++ [(ascii "Content-Length", decimalText response.body.length)]
  body := response.body

/-- What reaches an HTTP/2 client: the pseudo-header and the other fields nghttp2
was given, and the body its calls of the callback deliver. -/
def submitted : Message where
  status := ((submitHttp2Response response).headers.lookup (ascii ":status")).getD []
  fields := (submitHttp2Response response).headers.filter fun field => field.1 ≠ ascii ":status"
  body := (submitHttp2Response response).source

theorem serialize_renders :
    response.serialize = (serialized response).render (HttpResponse.reasonPhrase response.status) := by
  rw [serialize_lines, headLines, Message.render, serialized, render_fields_lines, List.map_append,
    List.map_singleton, ← length_line_eq]
  simp only [linesText, List.flatMap_cons, List.flatMap_append, List.flatMap_nil, List.append_nil,
    statusLine, List.append_assoc]

theorem serialized_end_to_end :
    Message.endToEnd (serialized response).fields = Message.endToEnd response.headers.headers := by
  rw [Message.endToEnd, serialized, List.filter_append]
  have own : Message.isFraming (ascii "Content-Length") = true := by decide +kernel
  rw [List.filter_cons_of_neg (by rw [own]; decide), List.filter_nil, List.append_nil,
    writtenFields, List.filter_filter, Message.endToEnd]
  congr 1
  apply List.filter_congr
  intro field _
  rw [Message.isFraming, HttpHeaders.equalsIgnoreCase]
  cases utils.equalsIgnoreCase field.1 (ascii "Content-Length") <;> simp

theorem end_to_end_empty_iff (fields : List (Bytes × Bytes)) :
    Message.endToEnd fields = [] ↔ ∀ field ∈ fields, Message.isFraming field.1 = true := by
  rw [Message.endToEnd, List.map_eq_nil_iff, List.filter_eq_nil_iff]
  simp

/-- The two protocols carry the same response exactly when it has no field of its
own: `serialize` writes the stored fields and the submission leaves them out. -/
theorem protocols_agree_iff :
    response.serialize =
        (serialized response).render (HttpResponse.reasonPhrase response.status) ∧
      (Message.Same (submitted response) (serialized response) ↔
        ∀ field ∈ response.headers.headers,
          utils.equalsIgnoreCase field.1 (ascii "Content-Length") = true ∨
            utils.equalsIgnoreCase field.1 (ascii "Connection") = true) := by
  refine ⟨serialize_renders response, ?_⟩
  have same : (∀ field ∈ response.headers.headers,
      utils.equalsIgnoreCase field.1 (ascii "Content-Length") = true ∨
        utils.equalsIgnoreCase field.1 (ascii "Connection") = true) ↔
      Message.endToEnd response.headers.headers = [] := by
    rw [end_to_end_empty_iff]
    simp only [Message.isFraming, Bool.or_eq_true]
  rw [same]
  constructor
  · intro agree
    have fields := agree.fields
    rw [serialized_end_to_end] at fields
    exact fields.symm
  · intro none
    refine ⟨rfl, ?_, rfl⟩
    rw [serialized_end_to_end, none]
    rfl

/-- A JSON response loses its `Content-Type` on HTTP/2. -/
theorem content_type_lost :
    ¬Message.Same (submitted (({} : HttpResponse).json (ascii "\x7b\x7d")))
      (serialized (({} : HttpResponse).json (ascii "\x7b\x7d"))) := by
  intro agree
  have fields := agree.fields
  revert fields
  decide +kernel

end Protocols

end HttpServer.Http2Responses
