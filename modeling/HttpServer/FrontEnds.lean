import HttpServer.AcceptedMessages
import HttpServer.Http2Streams
import HttpServer.OrderedMultimap

/-!
# One request through both front ends

A `ClientRequest` is sent once as nghttp2 events and once as an HTTP/1.1 message.
The header block has its pseudo-headers in front; the message carries the same
end-to-end fields and names the authority as its host. Its framing fields are made
from the body, since `Content-Length` and `Transfer-Encoding` belong to the syntax
of the message. What the callbacks dispatch is computed in closed form, and so is
what the parser builds.
-/

namespace HttpServer.FrontEnds

open OrderedMultimap ListSearch HttpParser Http2Streams FieldLines RequestLine ParserFraming
open LineBlocks RequestRendering AcceptedMessages

def methodText : HttpMethod → Bytes
  | .get => ascii "GET"
  | .post => ascii "POST"
  | .put => ascii "PUT"
  | .patch => ascii "PATCH"
  | .delete => ascii "DELETE"
  | .head => ascii "HEAD"
  | .options => ascii "OPTIONS"
  | .connect => ascii "CONNECT"
  | .trace => ascii "TRACE"
  | .unknown => []

/-- The pseudo-headers of a request; the target of `CONNECT` is an authority. -/
def pseudoHeaders (method : HttpMethod) (scheme target : Bytes) (authority : Option Bytes) :
    List (Bytes × Bytes) :=
  (ascii ":method", methodText method) ::
    if method = .connect then [(ascii ":authority", target)]
    else (ascii ":scheme", scheme) :: (ascii ":path", target) ::
      authority.toList.map fun host => (ascii ":authority", host)

/-- A request as a client means it; `data` are the payloads of its DATA frames, and
`pseudo` its pseudo-headers in the order in which they are sent. -/
structure ClientRequest where
  method : HttpMethod
  scheme : Bytes
  target : Bytes
  authority : Option Bytes
  pseudo : List (Bytes × Bytes)
  fields : List (Bytes × Bytes)
  data : List Bytes
  known : method ≠ .unknown
  nonempty : target ≠ []
  plain : 32 ∉ target
  sent : pseudo.Perm (pseudoHeaders method scheme target authority)
  -- nghttp2 lets only the characters of an authority pass
  hosted : ∀ host ∈ authority,
    utils.isValidHeaderValue host = true ∧ utils.trimOws host = host
  named : ∀ field ∈ fields, utils.isValidHeaderName field.1 = true
  distinct : fields.Pairwise fun left right => utils.equalsIgnoreCase left.1 right.1 = false

namespace ClientRequest

variable (request : ClientRequest)

def body : Bytes := request.data.flatten

/-- The DATA frames; the last one ends the stream. -/
def dataFrames (stream : Nat) : List Bytes → List Http2Event
  | [] => []
  | [_] => [.frameRecv .data stream true]
  | _ :: piece :: pieces => .frameRecv .data stream false :: dataFrames stream (piece :: pieces)

/-- The callbacks nghttp2 makes for the request on a stream. -/
def http2Events (stream : Nat) : List Http2Event :=
  .beginHeaders .headers stream ::
    (((request.pseudo ++ request.fields).map fun field => .header stream field.1 field.2) ++
      .frameRecv .headers stream request.data.isEmpty :: dataFrames stream request.data)

def endToEnd : List (Bytes × Bytes) := request.fields.filter fun field => !isFramingName field.1

def announcesLength : Bool :=
  request.fields.any fun field => utils.equalsIgnoreCase field.1 contentLengthName

/-- The authority, where no field names the host already. -/
def hostFields : List (Bytes × Bytes) :=
  if request.fields.any fun field => utils.equalsIgnoreCase field.1 (ascii "Host") then []
  else request.authority.toList.map fun host => (ascii "Host", host)

def lengthFields : List (Bytes × Bytes) :=
  if request.body ≠ [] ∨ request.announcesLength = true then
    [(contentLengthName, decimalText request.body.length)]
  else []

def http1Fields : List (Bytes × Bytes) :=
  request.endToEnd ++ (request.hostFields ++ request.lengthFields)

def messageHead : MessageHead where
  method := methodText request.method
  target := request.target
  lines := request.http1Fields.map fieldLine

def http1Message : Bytes := request.messageHead.render ++ request.body

end ClientRequest

/-- What `Router::handle` and the code behind it see of a request, its header values
as far as they are asked for under certain names. -/
structure Agrees (names : Bytes → Prop) (left right : HttpRequest) : Prop where
  method : left.method = right.method
  path : left.path = right.path
  queries : ∀ key, left.queries.lookup key = right.queries.lookup key
  headers : ∀ name, names name → left.headers.values name = right.headers.values name
  body : left.body = right.body

section Dispatch

def dispatched (streams : Http2Streams) (events : List Http2Event) : List HttpRequest :=
  (streams.trace events).filterMap Prod.snd

theorem dispatched_quiet {streams : Http2Streams} {event : Http2Event} (events : List Http2Event)
    (quiet : (streams.step event).2 = none) :
    dispatched streams (event :: events) = dispatched (streams.step event).1 events := by
  simp only [dispatched, trace, List.filterMap_cons, quiet]

theorem entry_store (streams : Http2Streams) (stream : Nat) (request : HttpRequest) :
    (streams.store stream request).entry stream = request := by
  simp only [entry, store, Function.update_self, Option.getD_some]

theorem dispatched_fields (stream : Nat) (fields : List (Bytes × Bytes))
    (more : List Http2Event) (streams : Http2Streams) :
    ∃ following : Http2Streams,
      following.entry stream =
        fields.foldl (fun request field => applyHeader request field.1 field.2)
          (streams.entry stream) ∧
      dispatched streams ((fields.map fun field => .header stream field.1 field.2) ++ more) =
        dispatched following more := by
  induction fields generalizing streams with
  | nil => exact ⟨streams, rfl, rfl⟩
  | cons field fields ih =>
      obtain ⟨following, built, same⟩ := ih (streams.onHeader stream field.1 field.2)
      refine ⟨following, ?_, ?_⟩
      · rw [built, onHeader, entry_store, List.foldl_cons]
      · rw [List.map_cons, List.cons_append, dispatched_quiet _ rfl]
        exact same

theorem dispatched_data (stream : Nat) (piece : Bytes) (pieces : List Bytes)
    (streams : Http2Streams) :
    dispatched streams (ClientRequest.dataFrames stream (piece :: pieces)) =
      [streams.entry stream] := by
  induction pieces generalizing piece with
  | nil => rfl
  | cons next pieces ih =>
      rw [ClientRequest.dataFrames, dispatched_quiet _ rfl]
      exact ih next

def otherFields (fields : List (Bytes × Bytes)) : List (Bytes × Bytes) :=
  fields.filter fun field => field.1 ≠ ascii ":method" ∧ field.1 ≠ ascii ":path"

theorem set_length (headers : HttpHeaders) (name value : Bytes) :
    (headers.set name value).headers.length ≤ headers.headers.length + 1 := by
  have kept := List.length_filter_le
    (fun header => !HttpHeaders.equalsIgnoreCase header.1 name) headers.headers
  simp only [HttpHeaders.set, List.length_append, List.length_singleton]
  omega

theorem fold_set_length (fields : List (Bytes × Bytes)) (headers : HttpHeaders) :
    (fields.foldl (fun headers field => headers.set field.1 field.2) headers).headers.length ≤
      headers.headers.length + fields.length := by
  induction fields generalizing headers with
  | nil => exact Nat.le_refl _
  | cons field fields ih =>
      have here := set_length headers field.1 field.2
      have rest := ih (headers.set field.1 field.2)
      rw [List.foldl_cons, List.length_cons]
      omega

theorem set_fresh {kept : List (Bytes × Bytes)} {name : Bytes}
    (fresh : ∀ header ∈ kept, utils.equalsIgnoreCase header.1 name = false) (value : Bytes) :
    (⟨kept⟩ : HttpHeaders).set name value = ⟨kept ++ [(name, value)]⟩ := by
  have all : kept.filter (fun header => !HttpHeaders.equalsIgnoreCase header.1 name) = kept := by
    rw [List.filter_eq_self]
    intro header member
    rw [HttpHeaders.equalsIgnoreCase, fresh header member, Bool.not_false]
  simp only [HttpHeaders.set, all]

theorem set_taken_length {kept : List (Bytes × Bytes)} {header : Bytes × Bytes} {name : Bytes}
    (member : header ∈ kept) (taken : utils.equalsIgnoreCase header.1 name = true)
    (value : Bytes) :
    ((⟨kept⟩ : HttpHeaders).set name value).headers.length ≤ kept.length := by
  have dropped : (kept.filter fun header =>
      !HttpHeaders.equalsIgnoreCase header.1 name).length < kept.length := by
    rw [List.length_filter_lt_length_iff_exists]
    exact ⟨header, member, by simpa [HttpHeaders.equalsIgnoreCase] using taken⟩
  rw [HttpHeaders.set, List.length_append]
  exact dropped

/-- Setting fields one after the other keeps all of them exactly when no name
comes twice; otherwise a field is lost, and the length tells. -/
theorem fold_set_iff (fields kept : List (Bytes × Bytes))
    (apart : kept.Pairwise fun left right => utils.equalsIgnoreCase left.1 right.1 = false) :
    (fields.foldl (fun headers field => headers.set field.1 field.2) (⟨kept⟩ : HttpHeaders)).headers =
        kept ++ fields ↔
      (kept ++ fields).Pairwise fun left right =>
        utils.equalsIgnoreCase left.1 right.1 = false := by
  induction fields generalizing kept with
  | nil => simpa using apart
  | cons field fields ih =>
      rw [List.foldl_cons]
      by_cases fresh : ∀ header ∈ kept, utils.equalsIgnoreCase header.1 field.1 = false
      · have wider : (kept ++ [field]).Pairwise fun left right =>
            utils.equalsIgnoreCase left.1 right.1 = false := by
          rw [List.pairwise_append]
          refine ⟨apart, List.pairwise_singleton _ _, ?_⟩
          intro header member other single
          rw [List.mem_singleton.mp single]
          exact fresh header member
        have later := ih (kept ++ [field]) wider
        rw [List.append_assoc, List.singleton_append] at later
        rw [set_fresh fresh]
        exact later
      · refine iff_of_false ?_ ?_
        · intro whole
          push Not at fresh
          obtain ⟨header, member, taken⟩ := fresh
          have here := set_taken_length member (Bool.eq_true_of_not_eq_false taken) field.2
          have rest := fold_set_length fields ((⟨kept⟩ : HttpHeaders).set field.1 field.2)
          rw [whole, List.length_append, List.length_cons] at rest
          omega
        · intro distinct
          apply fresh
          intro header member
          exact (List.pairwise_append.mp distinct).2.2 header member field List.mem_cons_self

theorem fold_apply_header (fields : List (Bytes × Bytes)) (request : HttpRequest) :
    fields.foldl (fun request field => applyHeader request field.1 field.2) request =
      { request with
        method := ((collect fields (ascii ":method")).map methodOf).getLastD request.method
        path := (collect fields (ascii ":path")).getLastD request.path
        headers := (otherFields fields).foldl (fun headers field => headers.set field.1 field.2)
          request.headers } := by
  induction fields generalizing request with
  | nil => rfl
  | cons field fields ih =>
      obtain ⟨name, value⟩ := field
      have method := collect_append [(name, value)] fields (ascii ":method")
      have path := collect_append [(name, value)] fields (ascii ":path")
      rw [List.singleton_append, collect_single] at method path
      rw [List.foldl_cons, ih, method, path]
      by_cases isMethod : name = ascii ":method"
      · have notPath : ascii ":method" ≠ ascii ":path" := by decide
        simp [applyHeader, HttpRequest.setMethod, otherFields, isMethod, notPath,
          List.getLast?_cons]
      · by_cases isPath : name = ascii ":path"
        · have notMethod : ascii ":path" ≠ ascii ":method" := by decide
          simp [applyHeader, HttpRequest.setPath, otherFields, isPath, notMethod,
            List.getLast?_cons]
        · simp [applyHeader, HttpRequest.setHeader, otherFields, isMethod, isPath]

section Pseudo

variable (request : ClientRequest)

theorem collect_named {fields : List (Bytes × Bytes)} {name : Bytes}
    (named : ∀ field ∈ fields, utils.isValidHeaderName field.1 = true) (colon : 58 ∈ name) :
    collect fields name = [] := by
  rw [collect, List.map_eq_nil_iff, List.filter_eq_nil_iff]
  intro field member same
  rw [← of_decide_eq_true same] at colon
  exact (valid_name_avoids (named field member)).1 colon

theorem other_fields_named {fields : List (Bytes × Bytes)}
    (named : ∀ field ∈ fields, utils.isValidHeaderName field.1 = true) :
    otherFields fields = fields := by
  rw [otherFields, List.filter_eq_self]
  intro field member
  have plain := (valid_name_avoids (named field member)).1
  rw [decide_eq_true_eq]
  constructor
  · intro same
    exact plain (by rw [same]; decide)
  · intro same
    exact plain (by rw [same]; decide)

theorem apart_symm {left right : Bytes} (apart : utils.equalsIgnoreCase left right = false) :
    utils.equalsIgnoreCase right left = false := by
  rw [← Bool.not_eq_true, utils.equals_ignore_case_iff] at apart ⊢
  exact fun same => apart same.symm

theorem colon_apart {left right : Bytes} (colon : 58 ∈ left)
    (valid : utils.isValidHeaderName right = true) : utils.equalsIgnoreCase left right = false := by
  rw [← Bool.not_eq_true, utils.equals_ignore_case_iff]
  intro same
  have lowered : 58 ∈ right.map utils.toLower := by
    rw [← same]
    exact List.mem_map.mpr ⟨58, colon, by decide⟩
  obtain ⟨byte, member, isColon⟩ := List.mem_map.mp lowered
  have only : byte = 58 := by
    unfold utils.toLower at isColon
    split_ifs at isColon with upper
    · have shifted := congrArg UInt8.toNat isColon
      rw [UInt8.toNat_add] at shifted
      change (byte.toNat + 32) % 256 = 58 at shifted
      have lower : 65 ≤ byte.toNat := upper.1
      have bound : byte.toNat ≤ 90 := upper.2
      omega
    · exact isColon
  rw [only] at member
  exact (valid_name_avoids valid).1 member

theorem pseudo_collect (name : Bytes) :
    (collect request.pseudo name).Perm (collect (pseudoHeaders request.method request.scheme
      request.target request.authority) name) :=
  (request.sent.filter _).map _

theorem pseudo_method :
    collect request.pseudo (ascii ":method") = [methodText request.method] := by
  rw [← List.perm_singleton]
  refine (pseudo_collect request _).trans (List.Perm.of_eq ?_)
  unfold pseudoHeaders
  split_ifs
  · rfl
  · cases request.authority <;> rfl

theorem pseudo_path (ordinary : request.method ≠ .connect) :
    collect request.pseudo (ascii ":path") = [request.target] := by
  rw [← List.perm_singleton]
  refine (pseudo_collect request _).trans (List.Perm.of_eq ?_)
  rw [pseudoHeaders, if_neg ordinary]
  cases request.authority <;> rfl

theorem pseudo_colon {field : Bytes × Bytes} (member : field ∈ request.pseudo) : 58 ∈ field.1 := by
  have listed := request.sent.subset member
  have named : field.1 = ascii ":method" ∨ field.1 = ascii ":scheme" ∨ field.1 = ascii ":path" ∨
      field.1 = ascii ":authority" := by
    unfold pseudoHeaders at listed
    split_ifs at listed
    · simp only [List.mem_cons, List.not_mem_nil, or_false] at listed
      rcases listed with rfl | rfl <;> simp
    · simp only [List.mem_cons, List.mem_map] at listed
      rcases listed with rfl | rfl | rfl | ⟨_, _, rfl⟩ <;> simp
  rcases named with same | same | same | same <;> rw [same] <;> decide

theorem pseudo_distinct : request.pseudo.Pairwise fun left right =>
    utils.equalsIgnoreCase left.1 right.1 = false := by
  rw [request.sent.pairwise_iff apart_symm]
  unfold pseudoHeaders
  split_ifs
  · simp only [List.pairwise_cons, List.mem_cons, List.not_mem_nil, or_false, forall_eq,
      List.Pairwise.nil, and_true, IsEmpty.forall_iff, implies_true]
    decide
  · cases request.authority with
    | none =>
        simp only [Option.toList_none, List.map_nil, List.pairwise_cons, List.mem_cons,
          List.not_mem_nil, or_false, forall_eq_or_imp, forall_eq, List.Pairwise.nil, and_true,
          IsEmpty.forall_iff, implies_true]
        decide
    | some host =>
        simp only [Option.toList_some, List.map_cons, List.map_nil, List.pairwise_cons,
          List.mem_cons, List.not_mem_nil, or_false, forall_eq_or_imp, forall_eq,
          List.Pairwise.nil, and_true, IsEmpty.forall_iff, implies_true]
        decide

end Pseudo

/-- The pseudo-headers other than method and target are kept as headers. -/
def ClientRequest.handedOver (request : ClientRequest) : HttpRequest where
  method := methodOf (methodText request.method)
  path := (collect request.pseudo (ascii ":path")).getLastD []
  headers := ⟨otherFields request.pseudo ++ request.fields⟩

theorem header_block_builds (request : ClientRequest) :
    (request.pseudo ++ request.fields).foldl
      (fun request field => applyHeader request field.1 field.2) {} = request.handedOver := by
  have apart : (otherFields request.pseudo ++ request.fields).Pairwise fun left right =>
      utils.equalsIgnoreCase left.1 right.1 = false := by
    rw [List.pairwise_append]
    refine ⟨(pseudo_distinct request).filter _, request.distinct, ?_⟩
    intro left pseudo right field
    exact colon_apart (pseudo_colon request (List.mem_filter.mp pseudo).1)
      (request.named right field)
  have set : (otherFields request.pseudo ++ request.fields).foldl
      (fun headers field => headers.set field.1 field.2) ({} : HttpRequest).headers =
        ⟨otherFields request.pseudo ++ request.fields⟩ :=
    congrArg HttpHeaders.mk ((fold_set_iff _ [] List.Pairwise.nil).mpr apart)
  have kept : otherFields (request.pseudo ++ request.fields) =
      otherFields request.pseudo ++ request.fields := by
    rw [otherFields, List.filter_append, ← otherFields, ← otherFields,
      other_fields_named request.named]
  rw [fold_apply_header, collect_append, collect_append, collect_named request.named (by decide),
    collect_named request.named (by decide), List.append_nil, List.append_nil, pseudo_method, kept,
    set]
  rfl

/-- The callbacks dispatch one request, at the end of the stream: the target is its
path as a whole and its body is empty. -/
theorem http2_dispatches (streams : Http2Streams) (stream : Nat) (request : ClientRequest) :
    dispatched streams (request.http2Events stream) = [request.handedOver] := by
  rw [ClientRequest.http2Events, dispatched_quiet _ rfl]
  obtain ⟨following, built, same⟩ := dispatched_fields stream (request.pseudo ++ request.fields)
    (.frameRecv .headers stream request.data.isEmpty ::
      ClientRequest.dataFrames stream request.data)
    (streams.onBeginHeaders .headers stream)
  have entries : following.entry stream = request.handedOver := by
    rw [built, onBeginHeaders, if_pos (Or.inl rfl), entry_store, header_block_builds]
  refine same.trans ?_
  rw [← entries]
  cases request.data with
  | nil => rfl
  | cons piece pieces =>
      rw [List.isEmpty_cons, dispatched_quiet _ rfl]
      exact dispatched_data stream piece pieces following

end Dispatch

section Values

theorem same_name_trans {left middle right : Bytes}
    (first : utils.equalsIgnoreCase left middle = true)
    (second : utils.equalsIgnoreCase right middle = true) :
    utils.equalsIgnoreCase left right = true := by
  rw [utils.equals_ignore_case_iff] at first second ⊢
  rw [first, second]

theorem values_of_distinct {fields : List (Bytes × Bytes)} {field : Bytes × Bytes} {name : Bytes}
    (distinct : fields.Pairwise fun left right => utils.equalsIgnoreCase left.1 right.1 = false)
    (member : field ∈ fields) (asked : utils.equalsIgnoreCase field.1 name = true) :
    HttpHeaders.values ⟨fields⟩ name = [field.2] := by
  simp only [HttpHeaders.values, HttpHeaders.equalsIgnoreCase]
  induction fields with
  | nil => cases member
  | cons first fields ih =>
      obtain ⟨apart, later⟩ := List.pairwise_cons.mp distinct
      rcases List.mem_cons.mp member with rfl | further
      · have rest : fields.filter (fun header => utils.equalsIgnoreCase header.1 name) = [] := by
          rw [List.filter_eq_nil_iff]
          intro other otherMember otherAsked
          have same := same_name_trans asked otherAsked
          rw [apart other otherMember] at same
          cases same
        simp only [List.filter_cons, asked, if_true, rest, List.map_cons, List.map_nil]
      · have skipped : ¬ utils.equalsIgnoreCase first.1 name = true := by
          intro firstAsked
          have same := same_name_trans firstAsked asked
          rw [apart field further] at same
          cases same
        simp only [List.filter_cons, skipped]
        exact ih later further

theorem values_of_absent {fields : List (Bytes × Bytes)} {name : Bytes}
    (absent : ∀ field ∈ fields, utils.equalsIgnoreCase field.1 name = false) :
    HttpHeaders.values ⟨fields⟩ name = [] := by
  simp only [HttpHeaders.values, HttpHeaders.equalsIgnoreCase, List.map_eq_nil_iff,
    List.filter_eq_nil_iff]
  intro field member
  rw [absent field member]
  exact Bool.false_ne_true

theorem same_name_congr {left right : Bytes} (same : utils.equalsIgnoreCase left right = true)
    (other : Bytes) :
    utils.equalsIgnoreCase left other = utils.equalsIgnoreCase right other ∧
      utils.equalsIgnoreCase other left = utils.equalsIgnoreCase other right := by
  rw [utils.equals_ignore_case_iff] at same
  constructor
  · rw [Bool.eq_iff_iff, utils.equals_ignore_case_iff, utils.equals_ignore_case_iff, same]
  · rw [Bool.eq_iff_iff, utils.equals_ignore_case_iff, utils.equals_ignore_case_iff, same]

theorem framing_name_congr {left right : Bytes}
    (same : utils.equalsIgnoreCase left right = true) :
    isFramingName left = isFramingName right := by
  simp only [isFramingName, (same_name_congr same _).1]

theorem values_append (first second : List (Bytes × Bytes)) (name : Bytes) :
    HttpHeaders.values ⟨first ++ second⟩ name =
      HttpHeaders.values ⟨first⟩ name ++ HttpHeaders.values ⟨second⟩ name := by
  simp only [HttpHeaders.values, List.filter_append, List.map_append]

theorem values_endToEnd (request : ClientRequest) (name : Bytes) :
    HttpHeaders.values ⟨request.endToEnd⟩ name =
      if isFramingName name then [] else HttpHeaders.values ⟨request.fields⟩ name := by
  simp only [HttpHeaders.values, HttpHeaders.equalsIgnoreCase, ClientRequest.endToEnd,
    List.filter_filter]
  split_ifs with framing
  · rw [List.map_eq_nil_iff, List.filter_eq_nil_iff]
    intro field _ asked
    simp only [Bool.and_eq_true, Bool.not_eq_true'] at asked
    rw [framing_name_congr asked.1, framing] at asked
    cases asked.2
  · congr 1
    apply List.filter_congr
    intro field _
    cases asked : utils.equalsIgnoreCase field.1 name with
    | false => rfl
    | true => rw [framing_name_congr asked, Bool.eq_false_iff.mpr framing]; rfl

end Values

section Parsed

variable {request : ClientRequest}

theorem parse_method_text (method : HttpMethod) :
    utils.parseMethod (methodText method) = method := by
  cases method <;> decide

theorem method_text_plain (method : HttpMethod) : 32 ∉ methodText method := by
  cases method <;> decide

theorem http1_field_cases {field : Bytes × Bytes} (member : field ∈ request.http1Fields) :
    (field ∈ request.fields ∧ isFramingName field.1 = false) ∨
      (∃ host ∈ request.authority, field = (ascii "Host", host)) ∨
        field = (contentLengthName, decimalText request.body.length) := by
  rw [ClientRequest.http1Fields, List.mem_append, List.mem_append] at member
  rcases member with kept | host | length
  · left
    simpa only [ClientRequest.endToEnd, List.mem_filter, Bool.not_eq_true'] using kept
  · right; left
    unfold ClientRequest.hostFields at host
    split_ifs at host
    · cases host
    · obtain ⟨value, given, rfl⟩ := List.mem_map.mp host
      exact ⟨value, Option.mem_toList.mp given, rfl⟩
  · right; right
    unfold ClientRequest.lengthFields at length
    split_ifs at length
    · exact List.mem_singleton.mp length
    · cases length

def IsClean (field : Bytes × Bytes) : Prop :=
  utils.isValidHeaderValue field.2 = true ∧ utils.trimOws field.2 = field.2

theorem http1_field_valid
    (clean : ∀ field ∈ request.fields, isFramingName field.1 = false → IsClean field)
    {field : Bytes × Bytes} (member : field ∈ request.http1Fields) :
    fieldIsValid field = true ∧ utils.trimOws field.2 = field.2 := by
  rw [fieldIsValid, Bool.and_eq_true]
  rcases http1_field_cases member with ⟨given, plain⟩ | ⟨host, given, rfl⟩ | rfl
  · exact ⟨⟨request.named field given, (clean field given plain).1⟩, (clean field given plain).2⟩
  · have nameValid : utils.isValidHeaderName (ascii "Host") = true := by decide
    exact ⟨⟨nameValid, (request.hosted host given).1⟩, (request.hosted host given).2⟩
  · have nameValid : utils.isValidHeaderName contentLengthName = true := by decide
    exact ⟨⟨nameValid, decimal_text_valid _⟩, decimal_text_trimmed _⟩

theorem message_text (request : ClientRequest) :
    request.http1Message = methodText request.method ++ 32 :: (request.target ++
      32 :: (ascii "HTTP/1.1" ++ (crlf ++ (renderFields request.http1Fields ++
        (crlf ++ request.body))))) := by
  rw [ClientRequest.http1Message, MessageHead.render_append, render_fields_lines]
  simp only [ClientRequest.messageHead, MessageHead.line, lineText, List.append_assoc,
    List.cons_append]

theorem message_read {parser : HttpParser} {parsed : HttpRequest}
    (complete : parse request.http1Message {} {} = (.complete, parser, parsed)) :
    lineOf parsed = lineOf (lineRequest request.method request.target) ∧
      ∃ lineEnd, findSub crlf request.http1Message = some lineEnd ∧
        request.http1Message.drop (lineEnd + 2) =
          renderFields request.http1Fields ++ (crlf ++ request.body) := by
  obtain ⟨line, lineParsed, same, _⟩ := complete_line complete
  obtain ⟨read, found⟩ := written_line_read lineParsed (method_text_plain request.method)
    request.plain (message_text request)
  rw [read, parse_method_text] at same
  exact ⟨same, found⟩

theorem stored_message_fields {parser : HttpParser} {parsed : HttpRequest}
    (complete : parse request.http1Message {} {} = (.complete, parser, parsed))
    (clean : ∀ field ∈ request.fields, isFramingName field.1 = false → IsClean field) :
    parsed.headers.headers = request.http1Fields := by
  have valid : ∀ field ∈ request.http1Fields, fieldIsValid field = true ∧
      utils.trimOws field.2 = field.2 := fun field member => http1_field_valid clean member
  obtain ⟨_, lineEnd, found, behind⟩ := message_read complete
  have stored := (complete_request_cases complete).1
  rw [headerFields, found] at stored
  dsimp only at stored
  rw [stored, behind, fields_render _ _ fun field member => (valid field member).1]
  rw [List.map_congr_left fun field member => by
    rw [(valid field member).2]]
  exact List.map_id' _

theorem line_request_queries {method : HttpMethod} {target : Bytes} (plain : 63 ∉ target) :
    (lineRequest method target).queries = [] := by
  unfold lineRequest
  rw [find_sub_absent plain]
  rfl

theorem path_whole_iff (target : Bytes) : target.takeWhile (· ≠ 63) = target ↔ 63 ∉ target := by
  rw [List.takeWhile_eq_self_iff]
  simp only [ne_eq, decide_not, Bool.not_eq_true', decide_eq_false_iff_not]
  constructor
  · intro apart member
    exact apart 63 member rfl
  · rintro absent _ member rfl
    exact absent member

theorem bodiless_complete {data : Bytes} {start : HttpRequest} {stopped : Reading}
    (complete : parse data {} start = (.complete, stopped))
    (plain : stopped.2.headers.get transferEncodingName = [])
    (empty : stopped.2.headers.get contentLengthName = [] ∨
      stopped.2.headers.get contentLengthName = ascii "0") : stopped.2.body = [] := by
  obtain ⟨parser, line, stored, fields, _, _, outcome, _⟩ := complete_run_head complete
  have same : stored.headers = stopped.2.headers := by
    have stoppedFields := (complete_request_cases complete).1
    rw [← fields] at stoppedFields
    exact (congrArg HttpHeaders.mk stoppedFields).symm
  rw [← same] at plain empty
  rcases outcome with ⟨chosen, _⟩ | ⟨following, chosen, _, _⟩
  · rw [(choose_body_complete_cases chosen).2.1]
    rfl
  · exfalso
    rcases choose_body_advances chosen with ⟨_, chunked, _⟩ | ⟨_, length, parsed, positive, _⟩
    · rw [HttpRequest.header, plain] at chunked
      revert chunked
      decide
    · rw [HttpRequest.header] at parsed
      rcases empty with none | zero
      · rw [none] at parsed
        cases parsed
      · rw [zero] at parsed
        have value := (parse_content_length_eq parsed).2.2
        rw [← value] at positive
        revert positive
        decide

end Parsed

section Agreement

variable {request : ClientRequest}

theorem method_of_text {method : HttpMethod} (known : method ≠ .unknown) :
    methodOf (methodText method) = method ↔ method ≠ .trace ∧ method ≠ .connect := by
  cases method <;> first | decide | exact absurd rfl known

/-- A field that means the same in both messages: a value without surrounding
blanks that the parser accepts, and for the framing the length of an empty body. -/
def CarriesOver (field : Bytes × Bytes) : Prop :=
  if utils.equalsIgnoreCase field.1 contentLengthName then field.2 = ascii "0"
  else if utils.equalsIgnoreCase field.1 transferEncodingName then False
  else IsClean field

/-- The requests of which both front ends make the same, the pseudo-headers apart:
the parser completes them, within its limits, and nothing is lost on either side. -/
structure Compatible (request : ClientRequest) : Prop where
  method : request.method ≠ .trace ∧ request.method ≠ .connect
  target : 63 ∉ request.target
  noLineEnd : ¬crlf <:+: request.target
  body : request.body = []
  fields : ∀ field ∈ request.fields, CarriesOver field
  host : request.hostFields = []
  filled : request.http1Fields ≠ []
  limits : request.messageHead.Limited

theorem compatible_clean (compatible : Compatible request) {field : Bytes × Bytes}
    (member : field ∈ request.fields) (plain : isFramingName field.1 = false) : IsClean field := by
  have carries := compatible.fields field member
  simp only [isFramingName, Bool.or_eq_false_iff] at plain
  simpa only [CarriesOver, plain.1, plain.2, Bool.false_eq_true, if_false] using carries

section Completes

def ClientRequest.messageText (request : ClientRequest) : RequestText where
  method := methodText request.method
  target := request.target
  fields := request.http1Fields.map fun field => ⟨field.1, [32], field.2, []⟩
  body := []

theorem trimmed_ends {value : Bytes} (trimmed : utils.trimOws value = value) :
    (∀ byte ∈ value.head?, utils.isOws byte = false) ∧
      ∀ byte ∈ value.getLast?, utils.isOws byte = false := by
  have inner := List.length_dropWhile_le utils.isOws value
  have outer := (List.rdropWhile_prefix utils.isOws (value.dropWhile utils.isOws)).length_le
  have whole := congrArg List.length trimmed
  rw [utils.trimOws] at whole trimmed
  have front : value.dropWhile utils.isOws = value :=
    (List.dropWhile_suffix utils.isOws).eq_of_length (by omega)
  rw [front, List.rdropWhile_eq_self_iff] at trimmed
  rw [List.dropWhile_eq_self_iff] at front
  constructor
  · intro byte first
    cases value with
    | nil => cases first
    | cons head tail =>
        rw [List.head?_cons, Option.mem_some_iff] at first
        rw [← first, ← Bool.not_eq_true]
        exact front (Nat.succ_pos _)
  · intro byte last
    have nonempty : value ≠ [] := by
      rintro rfl
      cases last
    rw [List.getLast?_eq_some_getLast nonempty, Option.mem_some_iff] at last
    rw [← last, ← Bool.not_eq_true]
    exact trimmed nonempty

theorem message_text_field {field : WrittenField}
    (member : field ∈ request.messageText.fields) :
    ∃ given ∈ request.http1Fields, field = ⟨given.1, [32], given.2, []⟩ := by
  obtain ⟨given, stored, rfl⟩ := List.mem_map.mp member
  exact ⟨given, stored, rfl⟩

theorem message_text_lines (request : ClientRequest) :
    request.messageText.fields.map WrittenField.line = request.http1Fields.map fieldLine := by
  rw [ClientRequest.messageText, List.map_map]
  apply List.map_congr_left
  intro field _
  simp only [Function.comp_apply, WrittenField.line, fieldLine, List.append_nil,
    List.append_assoc]
  rfl

theorem end_to_end_apart {field : Bytes × Bytes} (member : field ∈ request.endToEnd) :
    utils.equalsIgnoreCase field.1 contentLengthName = false ∧
      utils.equalsIgnoreCase field.1 transferEncodingName = false := by
  have plain := (List.mem_filter.mp member).2
  simpa only [isFramingName, Bool.not_eq_true', Bool.or_eq_false_iff] using plain

theorem message_announced (compatible : Compatible request) :
    request.messageText.fields.filter WrittenField.announcesLength =
      if request.announcesLength = true then [⟨contentLengthName, [32], ascii "0", []⟩] else [] := by
  have quiet : (request.endToEnd.map fun field : Bytes × Bytes =>
      (⟨field.1, [32], field.2, []⟩ : WrittenField)).filter WrittenField.announcesLength = [] := by
    rw [List.filter_eq_nil_iff]
    intro written member
    obtain ⟨field, given, rfl⟩ := List.mem_map.mp member
    exact Bool.eq_false_iff.mp (end_to_end_apart given).1
  rw [ClientRequest.messageText, ClientRequest.http1Fields, compatible.host, List.nil_append,
    List.map_append, List.filter_append, quiet, List.nil_append, ClientRequest.lengthFields,
    compatible.body]
  by_cases announced : request.announcesLength = true
  · rw [if_pos (Or.inr announced), if_pos announced]
    rfl
  · rw [if_neg (by simpa using announced), if_neg announced]
    rfl

theorem message_text_well_formed (compatible : Compatible request) :
    request.messageText.WellFormed where
  line := by
    refine ⟨?_, request.nonempty, request.plain, compatible.noLineEnd, compatible.limits.line⟩
    rw [ClientRequest.messageText, parse_method_text]
    exact request.known
  fields := by
    intro field member
    obtain ⟨given, stored, rfl⟩ := message_text_field member
    obtain ⟨valid, trimmed⟩ :=
      http1_field_valid (fun field member plain => compatible_clean compatible member plain) stored
    rw [fieldIsValid, Bool.and_eq_true] at valid
    obtain ⟨front, back⟩ := trimmed_ends trimmed
    have blank : ∀ byte ∈ ([32] : Bytes), utils.isOws byte = true := by
      intro byte space
      rw [List.mem_singleton.mp space]
      decide
    exact ⟨valid.1, valid.2, front, back, blank, List.forall_mem_nil _⟩
  nonempty := by
    simpa only [ClientRequest.messageText, ne_eq, List.map_eq_nil_iff] using compatible.filled
  count := by
    have counted := compatible.limits.fields
    simpa only [ClientRequest.messageText, ClientRequest.messageHead, List.length_map] using counted
  plain := by
    intro field member
    obtain ⟨given, stored, rfl⟩ := message_text_field member
    rw [ClientRequest.http1Fields, compatible.host, List.nil_append, List.mem_append] at stored
    rcases stored with endToEnd | length
    · exact (end_to_end_apart endToEnd).2
    · unfold ClientRequest.lengthFields at length
      split_ifs at length
      · have apart : utils.equalsIgnoreCase contentLengthName transferEncodingName = false := by
          decide
        rw [List.mem_singleton.mp length]
        exact apart
      · cases length
  short := by
    rw [joinedLines, message_text_lines]
    exact compatible.limits.block
  bounded := Nat.zero_le _
  framed := by
    rw [RequestText.Framed, message_announced compatible]
    split_ifs
    · left
      have zero : utils.decimalValue (ascii "0") = 0 := by decide
      exact ⟨_, rfl, by decide, by decide, zero⟩
    · right
      exact ⟨rfl, rfl⟩

theorem compatible_completes (compatible : Compatible request) :
    ∃ parser parsed, parse request.http1Message {} {} = (.complete, parser, parsed) := by
  have wellFormed := message_text_well_formed compatible
  have written : request.messageText.render ++ [] = request.http1Message := by
    have lines : request.messageHead.lines ≠ [] := by
      simpa only [ClientRequest.messageHead, ne_eq, List.map_eq_nil_iff] using compatible.filled
    rw [ClientRequest.http1Message, compatible.body, MessageHead.render,
      lines_text_joined lines, RequestText.render, joinedLines, message_text_lines]
    simp only [ClientRequest.messageText, ClientRequest.messageHead, MessageHead.line,
      List.append_assoc, List.append_nil]
    rfl
  obtain ⟨parser, complete, _⟩ := written_completes request.messageText [] {} wellFormed
  rw [written] at complete
  exact ⟨parser, _, complete⟩

end Completes

theorem length_field_values (number : Nat) (name : Bytes) :
    HttpHeaders.values ⟨[(contentLengthName, decimalText number)]⟩ name =
      if utils.equalsIgnoreCase contentLengthName name then [decimalText number] else [] := by
  simp only [HttpHeaders.values, HttpHeaders.equalsIgnoreCase, List.filter_cons, List.filter_nil]
  split_ifs <;> rfl

theorem compatible_values (compatible : Compatible request) (name : Bytes) :
    HttpHeaders.values ⟨request.fields⟩ name = HttpHeaders.values ⟨request.http1Fields⟩ name := by
  rw [ClientRequest.http1Fields, compatible.host, List.nil_append, values_append, values_endToEnd,
    ClientRequest.lengthFields, compatible.body]
  by_cases length : utils.equalsIgnoreCase name contentLengthName = true
  · have framing : isFramingName name = true := by
      simp only [isFramingName, length, Bool.true_or]
    rw [framing, if_pos rfl, List.nil_append]
    by_cases announced : request.announcesLength = true
    · obtain ⟨field, member, isLength⟩ := List.any_eq_true.mp announced
      have asked := same_name_trans isLength length
      have zero := compatible.fields field member
      rw [CarriesOver, if_pos isLength] at zero
      rw [values_of_distinct request.distinct member asked, if_pos (Or.inr announced),
        length_field_values, (same_name_congr length _).2, if_pos (by decide), zero]
      rfl
    · rw [if_neg (by simp only [ne_eq, not_true, false_or]; exact announced)]
      apply values_of_absent
      intro field member
      rw [(same_name_congr length _).2, ← Bool.not_eq_true]
      intro isLength
      exact announced (List.any_eq_true.mpr ⟨field, member, isLength⟩)
  · have lengthField : ∀ condition : Prop, ∀ _ : Decidable condition, HttpHeaders.values
        ⟨if condition then [(contentLengthName, decimalText 0)] else []⟩ name = [] := by
      intro condition _
      split_ifs
      · rw [length_field_values, if_neg]
        intro reversed
        exact length (by rw [utils.equals_ignore_case_iff] at reversed ⊢; exact reversed.symm)
      · rfl
    rw [List.length_nil, lengthField, List.append_nil]
    split_ifs with framing
    · apply values_of_absent
      intro field member
      rw [← Bool.not_eq_true]
      intro asked
      have carries := compatible.fields field member
      have isFraming := framing_name_congr asked
      rw [framing, isFramingName, Bool.or_eq_true] at isFraming
      have notLength : ¬ utils.equalsIgnoreCase field.1 contentLengthName = true := by
        rw [(same_name_congr asked _).1]
        exact length
      rw [CarriesOver, if_neg notLength, if_pos (isFraming.resolve_left notLength)] at carries
      exact carries
    · rfl

/-- The pseudo-headers are out of the way of every field name. -/
theorem handed_values (request : ClientRequest) {name : Bytes}
    (valid : utils.isValidHeaderName name = true) :
    request.handedOver.headers.values name = HttpHeaders.values ⟨request.fields⟩ name := by
  rw [ClientRequest.handedOver, values_append, values_of_absent, List.nil_append]
  intro field member
  exact colon_apart (pseudo_colon request (List.mem_filter.mp member).1) valid

theorem compatible_plain (compatible : Compatible request) {field : Bytes × Bytes}
    (member : field ∈ request.fields) :
    utils.equalsIgnoreCase field.1 transferEncodingName = false := by
  have carries := compatible.fields field member
  rw [← Bool.not_eq_true]
  intro isEncoding
  rw [CarriesOver] at carries
  split_ifs at carries with isLength
  have same := same_name_congr isLength transferEncodingName
  rw [isEncoding] at same
  exact absurd same.1 (by decide)

theorem compatible_length (compatible : Compatible request) :
    (HttpHeaders.values ⟨request.fields⟩ contentLengthName).headD [] = [] ∨
      (HttpHeaders.values ⟨request.fields⟩ contentLengthName).headD [] = ascii "0" := by
  by_cases announced : request.announcesLength = true
  · right
    obtain ⟨field, member, isLength⟩ := List.any_eq_true.mp announced
    have zero := compatible.fields field member
    rw [CarriesOver, if_pos isLength] at zero
    rw [values_of_distinct request.distinct member isLength, zero]
    rfl
  · left
    rw [values_of_absent]
    · rfl
    · intro field member
      rw [← Bool.not_eq_true]
      intro isLength
      exact announced (List.any_eq_true.mpr ⟨field, member, isLength⟩)

theorem agrees_of_compatible (compatible : Compatible request) {parser : HttpParser}
    {parsed : HttpRequest}
    (complete : parse request.http1Message {} {} = (.complete, parser, parsed)) :
    Agrees (fun name => utils.isValidHeaderName name = true) request.handedOver parsed := by
  obtain ⟨line, _⟩ := message_read complete
  have stored : parsed.headers = ⟨request.http1Fields⟩ :=
    congrArg HttpHeaders.mk (stored_message_fields complete
      (fun field member plain => compatible_clean compatible member plain))
  have sameValues : ∀ name,
      HttpHeaders.values ⟨request.fields⟩ name = parsed.headers.values name := by
    intro name
    rw [stored]
    exact compatible_values compatible name
  have encoding : parsed.headers.get transferEncodingName = [] := by
    rw [HttpHeaders.get_eq_head_values, ← sameValues, values_of_absent]
    · rfl
    · intro field member
      exact compatible_plain compatible member
  have length : parsed.headers.get contentLengthName = [] ∨
      parsed.headers.get contentLengthName = ascii "0" := by
    rw [HttpHeaders.get_eq_head_values, ← sameValues]
    exact compatible_length compatible
  constructor
  · have method := congrArg HttpRequest.method line
    simp only [lineOf, (line_request_parts _ _).1] at method
    rw [method]
    exact (method_of_text request.known).mpr compatible.method
  · have path := congrArg HttpRequest.path line
    simp only [lineOf, AcceptedMessages.line_request_path] at path
    rw [path, (path_whole_iff _).mpr compatible.target, ClientRequest.handedOver,
      pseudo_path request compatible.method.2]
    rfl
  · intro key
    have queries := congrArg HttpRequest.queries line
    simp only [lineOf, line_request_queries compatible.target] at queries
    rw [queries, ClientRequest.handedOver]
  · intro name valid
    rw [handed_values request valid]
    exact sameValues name
  · exact (bodiless_complete complete encoding length).symm

theorem same_name_refl (name : Bytes) : utils.equalsIgnoreCase name name = true :=
  (utils.equals_ignore_case_iff name name).mpr rfl

theorem made_host_named {request : ClientRequest} {field : Bytes × Bytes}
    (member : field ∈ request.hostFields) : field.1 = ascii "Host" := by
  unfold ClientRequest.hostFields at member
  split_ifs at member
  · cases member
  · obtain ⟨_, _, rfl⟩ := List.mem_map.mp member
    rfl

theorem host_values (request : ClientRequest) {name : Bytes}
    (other : utils.equalsIgnoreCase (ascii "Host") name = false) :
    HttpHeaders.values ⟨request.hostFields⟩ name = [] := by
  apply values_of_absent
  intro field member
  rw [made_host_named member]
  exact other

theorem message_lengths (announced : request.body ≠ [] ∨ request.announcesLength = true) :
    HttpHeaders.values ⟨request.http1Fields⟩ contentLengthName =
      [decimalText request.body.length] := by
  have framing : isFramingName contentLengthName = true := by decide
  rw [ClientRequest.http1Fields, values_append, values_endToEnd, framing, if_pos rfl,
    values_append, host_values request (by decide), ClientRequest.lengthFields,
    if_pos announced, length_field_values, if_pos (same_name_refl _), List.nil_append,
    List.nil_append]

theorem message_encodings (request : ClientRequest) :
    HttpHeaders.values ⟨request.http1Fields⟩ transferEncodingName = [] := by
  have framing : isFramingName transferEncodingName = true := by decide
  rw [ClientRequest.http1Fields, values_append, values_endToEnd, framing, if_pos rfl,
    List.nil_append, values_append, host_values request (by decide), List.nil_append,
    ClientRequest.lengthFields]
  split_ifs
  · rw [length_field_values, if_neg (by decide)]
  · rfl

section Agreed

variable {parser : HttpParser} {parsed : HttpRequest}

/-- The parser stores clean values only, so an agreeing request had clean ones. -/
theorem agreed_clean (complete : parse request.http1Message {} {} = (.complete, parser, parsed))
    (agrees : Agrees (fun name => utils.isValidHeaderName name = true) request.handedOver parsed)
    {field : Bytes × Bytes} (member : field ∈ request.fields) : IsClean field := by
  have valid := request.named field member
  have values := agrees.headers field.1 valid
  rw [handed_values request valid,
    values_of_distinct request.distinct member (same_name_refl _)] at values
  have kept : field.2 ∈ parsed.headers.values field.1 := by
    rw [← values]
    exact List.mem_singleton_self _
  obtain ⟨stored, storedMember, _, same⟩ := (mem_values_iff _ _ _).mp kept
  obtain ⟨_, _, _, valid⟩ := complete_line complete
  obtain ⟨fields, _, trimmed, _⟩ := complete_request_cases complete
  have storedValid := valid stored storedMember
  rw [fieldIsValid, Bool.and_eq_true] at storedValid
  have storedTrimmed := trimmed stored (by rw [← fields]; exact storedMember)
  rw [same] at storedValid storedTrimmed
  exact ⟨storedValid.2, storedTrimmed⟩

theorem agreed_bodiless
    (complete : parse request.http1Message {} {} = (.complete, parser, parsed))
    (stored : parsed.headers = ⟨request.http1Fields⟩) (bodiless : parsed.body = []) :
    request.body = [] := by
  by_contra nonempty
  have length : parsed.headers.get contentLengthName = decimalText request.body.length := by
    rw [HttpHeaders.get_eq_head_values, stored, message_lengths (Or.inl nonempty)]
    rfl
  have present : parsed.headers.get contentLengthName ≠ [] := by
    rw [length]
    exact decimal_text_ne_nil _
  rcases (complete_request_cases complete).2.2.2 with ⟨_, absent | ⟨size, read, same⟩⟩ | ⟨absent, _⟩
  · exact present absent
  · have value := (parse_content_length_eq read).2.2
    rw [length, decimal_value_text] at value
    rw [bodiless, List.length_nil, ← value] at same
    exact nonempty (List.length_eq_zero_iff.mp same.symm)
  · exact present absent

theorem agreed_host (stored : parsed.headers = ⟨request.http1Fields⟩)
    (agrees : Agrees (fun name => utils.isValidHeaderName name = true) request.handedOver parsed) :
    request.hostFields = [] := by
  by_contra made
  have absent : ∀ field ∈ request.fields,
      utils.equalsIgnoreCase field.1 (ascii "Host") = false := by
    intro field member
    rw [← Bool.not_eq_true]
    intro isHost
    exact made (if_pos (List.any_eq_true.mpr ⟨field, member, isHost⟩))
  have values := agrees.headers (ascii "Host") (by decide)
  rw [handed_values request (by decide), values_of_absent absent, stored,
    ClientRequest.http1Fields, values_append, values_append] at values
  have quiet := List.append_eq_nil_iff.mp
    (List.append_eq_nil_iff.mp values.symm).2
  obtain ⟨field, member⟩ := List.exists_mem_of_ne_nil _ made
  have listed : field.2 ∈ HttpHeaders.values ⟨request.hostFields⟩ (ascii "Host") :=
    (mem_values_iff _ _ _).mpr
      ⟨field, member, by rw [made_host_named member]; exact same_name_refl _, rfl⟩
  rw [quiet.1] at listed
  cases listed

theorem complete_filled (complete : parse request.http1Message {} {} = (.complete, parser, parsed))
    (bodiless : request.body = []) : request.http1Fields ≠ [] := by
  intro empty
  obtain ⟨_, lineEnd, found, behind⟩ := message_read complete
  obtain ⟨_, headersEnd, _, _, _, found', _, _, _, blockFound, _⟩ := complete_sections complete
  rw [found] at found'
  rw [← Option.some.inj found', behind, empty, bodiless] at blockFound
  cases blockFound

theorem complete_limited
    (complete : parse request.http1Message {} {} = (.complete, parser, parsed))
    (clean : ∀ field ∈ request.fields, IsClean field) :
    ¬crlf <:+: request.messageHead.line ∧ request.messageHead.Limited := by
  obtain ⟨_, lineEnd, found, behind⟩ := message_read complete
  obtain ⟨line, rest, written, plain, length⟩ := (line_found_iff crlf_delimits).mp found
  have same : line = request.messageHead.line := by
    rw [written, ← length, drop_past_line] at behind
    rw [behind, message_text] at written
    have whole : request.messageHead.line ++ (crlf ++ (renderFields request.http1Fields ++
        (crlf ++ request.body))) = line ++ (crlf ++ (renderFields request.http1Fields ++
          (crlf ++ request.body))) := by
      rw [← written]
      simp only [ClientRequest.messageHead, MessageHead.line, lineText, List.append_assoc,
        List.cons_append]
    exact (List.append_cancel_right whole).symm
  rw [same] at plain
  have shaped : request.messageHead.Shaped := by
    refine ⟨?_, request.nonempty, request.plain, plain, ?_⟩
    · rw [ClientRequest.messageHead, parse_method_text]
      exact request.known
    · intro line member
      obtain ⟨field, stored, rfl⟩ := List.mem_map.mp member
      obtain ⟨valid, trimmed⟩ := http1_field_valid (fun field member _ => clean field member) stored
      have named := valid
      rw [fieldIsValid, Bool.and_eq_true] at named
      rw [is_field_line_iff]
      exact ⟨_, split_field_line named.1, by rw [trimmed]; exact valid⟩
  obtain ⟨head, rest, sections, shaped', limited, _⟩ := accepted_sections complete
  obtain ⟨rfl, _⟩ := head_unique shaped' shaped (sections.symm.trans rfl)
  exact ⟨plain, limited⟩

theorem compatible_of_agrees
    (complete : parse request.http1Message {} {} = (.complete, parser, parsed))
    (agrees : Agrees (fun name => utils.isValidHeaderName name = true) request.handedOver parsed) :
    Compatible request := by
  obtain ⟨line, _⟩ := message_read complete
  have clean : ∀ field ∈ request.fields, IsClean field :=
    fun field member => agreed_clean complete agrees member
  have stored : parsed.headers = ⟨request.http1Fields⟩ :=
    congrArg HttpHeaders.mk
      (stored_message_fields complete fun field member _ => clean field member)
  have bodiless := agreed_bodiless complete stored agrees.body.symm
  obtain ⟨linePlain, limited⟩ := complete_limited complete clean
  have method : request.method ≠ .trace ∧ request.method ≠ .connect := by
    have methods := congrArg HttpRequest.method line
    simp only [lineOf, (line_request_parts _ _).1] at methods
    exact (method_of_text request.known).mp (agrees.method.trans methods)
  constructor
  · exact method
  · have path := congrArg HttpRequest.path line
    simp only [lineOf, AcceptedMessages.line_request_path] at path
    have whole := agrees.path.trans path
    rw [ClientRequest.handedOver, pseudo_path request method.2] at whole
    exact (path_whole_iff _).mp whole.symm
  · intro inside
    apply linePlain
    refine inside.trans ⟨methodText request.method ++ [32], 32 :: ascii "HTTP/1.1", ?_⟩
    simp only [ClientRequest.messageHead, MessageHead.line, lineText, List.append_assoc,
      List.nil_append, List.cons_append]
  · exact bodiless
  · intro field member
    rw [CarriesOver]
    split_ifs with isLength isEncoding
    · have values := agrees.headers contentLengthName (by decide)
      have announced : request.announcesLength = true :=
        List.any_eq_true.mpr ⟨field, member, isLength⟩
      rw [handed_values request (by decide),
        values_of_distinct request.distinct member isLength, stored,
        message_lengths (Or.inr announced), bodiless] at values
      exact (List.cons.inj values).1
    · have values := agrees.headers transferEncodingName (by decide)
      rw [handed_values request (by decide),
        values_of_distinct request.distinct member isEncoding, stored, message_encodings] at values
      cases values
    · exact clean field member
  · exact agreed_host stored agrees
  · exact complete_filled complete bodiless
  · exact limited

/-- The scheme is stored under a name that no field of the message has. -/
theorem scheme_disagrees
    (complete : parse request.http1Message {} {} = (.complete, parser, parsed)) :
    ¬Agrees (fun _ => True) request.handedOver parsed := by
  intro agrees
  have line := congrArg HttpRequest.method (message_read complete).1
  simp only [lineOf, (line_request_parts _ _).1] at line
  have ordinary := ((method_of_text request.known).mp (agrees.method.trans line)).2
  have values := agrees.headers (ascii ":scheme") trivial
  have sent : (ascii ":scheme", request.scheme) ∈ request.pseudo := by
    apply request.sent.symm.subset
    rw [pseudoHeaders, if_neg ordinary]
    exact List.mem_cons_of_mem _ List.mem_cons_self
  have kept : (ascii ":scheme", request.scheme) ∈ request.handedOver.headers.headers := by
    apply List.mem_append_left
    have other : ascii ":scheme" ≠ ascii ":method" ∧ ascii ":scheme" ≠ ascii ":path" := by decide
    exact List.mem_filter.mpr ⟨sent, decide_eq_true other⟩
  have listed : request.scheme ∈ request.handedOver.headers.values (ascii ":scheme") :=
    (mem_values_iff _ _ _).mpr ⟨_, kept, same_name_refl _, rfl⟩
  rw [values] at listed
  obtain ⟨field, stored, named, _⟩ := (mem_values_iff _ _ _).mp listed
  obtain ⟨_, _, _, valid⟩ := complete_line complete
  have checked := valid field stored
  rw [fieldIsValid, Bool.and_eq_true] at checked
  rw [apart_symm (colon_apart (by decide) checked.1)] at named
  cases named

end Agreed

end Agreement

/-- What the callbacks dispatch is one request, and what the parser builds of the
message is the same under the names asked for. -/
def FrontEndsAgree (streams : Http2Streams) (stream : Nat) (request : ClientRequest)
    (names : Bytes → Prop) : Prop :=
  ∃ handed parser parsed, dispatched streams (request.http2Events stream) = [handed] ∧
    parse request.http1Message {} {} = (.complete, parser, parsed) ∧ Agrees names handed parsed

theorem front_ends_agree_cases (streams : Http2Streams) (stream : Nat) (request : ClientRequest)
    (names : Bytes → Prop) :
    FrontEndsAgree streams stream request names ↔
      ∃ parser parsed, parse request.http1Message {} {} = (.complete, parser, parsed) ∧
        Agrees names request.handedOver parsed := by
  rw [FrontEndsAgree, http2_dispatches]
  constructor
  · rintro ⟨handed, parser, parsed, same, complete, agrees⟩
    rw [← (List.cons.inj same).1] at agrees
    exact ⟨parser, parsed, complete, agrees⟩
  · rintro ⟨parser, parsed, complete, agrees⟩
    exact ⟨_, parser, parsed, rfl, complete, agrees⟩

/-- Under every name the front ends never agree, for the scheme is stored as a header.
Under the names that a field can have they agree exactly for the compatible requests. -/
theorem front_ends_agree_iff (streams : Http2Streams) (stream : Nat) (request : ClientRequest) :
    ¬FrontEndsAgree streams stream request (fun _ => True) ∧
      (FrontEndsAgree streams stream request (fun name => utils.isValidHeaderName name = true) ↔
        Compatible request) := by
  rw [front_ends_agree_cases, front_ends_agree_cases]
  constructor
  · rintro ⟨_, _, complete, agrees⟩
    exact scheme_disagrees complete agrees
  · constructor
    · rintro ⟨_, _, complete, agrees⟩
      exact compatible_of_agrees complete agrees
    · intro compatible
      obtain ⟨parser, parsed, complete⟩ := compatible_completes compatible
      exact ⟨parser, parsed, complete, agrees_of_compatible compatible complete⟩

def searchRequest : ClientRequest where
  method := .get
  scheme := ascii "https"
  target := ascii "/search?q=a"
  authority := none
  pseudo := [(ascii ":method", ascii "GET"), (ascii ":path", ascii "/search?q=a"),
    (ascii ":scheme", ascii "https")]
  fields := [(ascii "host", ascii "example")]
  data := []
  known := by decide
  nonempty := by decide
  plain := by decide
  sent := by decide
  hosted := nofun
  named := by decide
  distinct := by decide

/-- With a query the paths differ: the callbacks keep the target whole. -/
theorem query_target_disagrees :
    (parse searchRequest.http1Message {} {}).1 = .complete ∧
      ¬FrontEndsAgree initial 1 searchRequest fun name => utils.isValidHeaderName name = true := by
  refine ⟨by decide +kernel, ?_⟩
  rw [front_ends_agree_cases]
  rintro ⟨parser, parsed, complete, agrees⟩
  have read : (parse searchRequest.http1Message {} {}).2.2.path = ascii "/search" := by
    decide +kernel
  have path := agrees.path
  rw [complete] at read
  rw [read] at path
  revert path
  decide

/-- A request that nothing but its pseudo-headers tells apart from the message. -/
def indexRequest : ClientRequest where
  method := .get
  scheme := ascii "https"
  target := ascii "/index.html"
  authority := some (ascii "example")
  pseudo := [(ascii ":method", ascii "GET"), (ascii ":scheme", ascii "https"),
    (ascii ":authority", ascii "example"), (ascii ":path", ascii "/index.html")]
  fields := [(ascii "host", ascii "example")]
  data := []
  known := by decide
  nonempty := by decide
  plain := by decide
  sent := by decide
  hosted := by decide
  named := by decide
  distinct := by decide

example : Compatible indexRequest := by
  have limits : indexRequest.messageHead.Limited := by constructor <;> decide
  refine ⟨by decide, by decide, by decide, rfl, ?_, rfl, by decide, limits⟩
  intro field member
  have clean : IsClean (ascii "host", ascii "example") := by constructor <;> decide
  rw [List.mem_singleton.mp member, CarriesOver, if_neg (by decide), if_neg (by decide)]
  exact clean

end HttpServer.FrontEnds
