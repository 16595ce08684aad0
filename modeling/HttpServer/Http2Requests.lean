import HttpServer.FrontEnds
import HttpServer.Http2Isolation

/-!
# What is left of a request head on HTTP/2

Every header block of a stream begins by replacing the request under
construction, so a trailer section leaves nothing of the head. Without one, each
field of the head is set, which keeps one value a name, and a method outside the
seven compared is taken for `GET`.
-/

namespace HttpServer.Http2Requests

open OrderedMultimap Http2Streams FrontEnds

def isPseudoHeader (name : Bytes) : Bool := name.head? = some 58

/-- One request as nghttp2 lets it through: the head names one method, and one
target unless the method is `CONNECT`; a trailer section has no pseudo-header. -/
structure Http2Request where
  head : List (Bytes × Bytes)
  method : Bytes
  path : Option Bytes
  dataFrames : Nat
  trailer : Option (List (Bytes × Bytes))
  oneMethod : collect head (ascii ":method") = [method]
  onePath : collect head (ascii ":path") = path.toList
  target : method ≠ ascii "CONNECT" → ∃ value, path = some value ∧ value ≠ []
  plainTrailer : ∀ fields ∈ trailer, ∀ field ∈ fields, isPseudoHeader field.1 = false

def headerBlock (stream : Nat) (fields : List (Bytes × Bytes)) (endStream : Bool) :
    List Http2Event :=
  .beginHeaders .headers stream ::
    ((fields.map fun field => Http2Event.header stream field.1 field.2) ++
      [Http2Event.frameRecv .headers stream endStream])

def dataSection (stream : Nat) (endStream : Bool) : Nat → List Http2Event
  | 0 => []
  | 1 => [.frameRecv .data stream endStream]
  | count + 2 => .frameRecv .data stream false :: dataSection stream endStream (count + 1)

namespace Http2Request

variable (request : Http2Request)

/-- The last frame of the request carries `END_STREAM`. -/
def events (stream : Nat) : List Http2Event :=
  match request.trailer with
  | none =>
      headerBlock stream request.head (request.dataFrames = 0) ++
        dataSection stream true request.dataFrames
  | some fields =>
      headerBlock stream request.head false ++ (dataSection stream false request.dataFrames ++
        headerBlock stream fields true)

end Http2Request

def dispatchedFor (streams : Http2Streams) (stream : Nat) (events : List Http2Event) :
    List HttpRequest :=
  ((streams.trace events).filter fun entry => entry.1.stream = stream).filterMap Prod.snd

structure KeepsHead (request : Http2Request) (handed : HttpRequest) : Prop where
  method : handed.method = utils.parseMethod request.method
  path : handed.path = request.path.getD []
  fields : handed.headers.headers = otherFields request.head

/-- The methods that `h2_on_header_cb` tells apart, the default included. -/
def comparedMethods : List Bytes :=
  [ascii "GET", ascii "POST", ascii "PUT", ascii "DELETE", ascii "PATCH", ascii "OPTIONS",
    ascii "HEAD"]

/-- No trailer section, a compared method, and no name given twice. -/
structure SimpleHead (request : Http2Request) : Prop where
  trailer : request.trailer = none
  method : request.method ∈ comparedMethods
  distinct : (otherFields request.head).Pairwise fun left right =>
    utils.equalsIgnoreCase left.1 right.1 = false

section Fields

def builtRequest (fields : List (Bytes × Bytes)) : HttpRequest :=
  fields.foldl (fun request field => applyHeader request field.1 field.2) {}

theorem built_request (fields : List (Bytes × Bytes)) :
    builtRequest fields =
      { method := ((collect fields (ascii ":method")).map methodOf).getLastD .unknown
        path := (collect fields (ascii ":path")).getLastD []
        headers := (otherFields fields).foldl (fun headers field => headers.set field.1 field.2)
          {} } :=
  fold_apply_header fields {}

theorem built_plain {fields : List (Bytes × Bytes)}
    (plain : ∀ field ∈ fields, isPseudoHeader field.1 = false) :
    (builtRequest fields).method = .unknown ∧ (builtRequest fields).path = [] := by
  have nothing : ∀ name, isPseudoHeader name = true → collect fields name = [] := by
    intro name pseudo
    rw [collect, List.map_eq_nil_iff, List.filter_eq_nil_iff]
    intro field member named
    have regular := plain field member
    rw [of_decide_eq_true named, pseudo] at regular
    cases regular
  rw [built_request, nothing (ascii ":method") rfl, nothing (ascii ":path") rfl]
  exact ⟨rfl, rfl⟩

end Fields

section Runs

variable (streams : Http2Streams) (stream : Nat)

theorem dispatched_block (fields : List (Bytes × Bytes)) (endStream : Bool)
    (more : List Http2Event) :
    ∃ following : Http2Streams, following.entry stream = builtRequest fields ∧
      dispatched streams (headerBlock stream fields endStream ++ more) =
        dispatched following (.frameRecv .headers stream endStream :: more) := by
  obtain ⟨following, built, same⟩ := dispatched_fields stream fields
    (.frameRecv .headers stream endStream :: more) (streams.onBeginHeaders .headers stream)
  refine ⟨following, ?_, ?_⟩
  · rw [built, onBeginHeaders, if_pos (Or.inl rfl), entry_store]
    rfl
  · rw [headerBlock, List.cons_append, List.append_assoc, List.singleton_append,
      dispatched_quiet _ rfl]
    exact same

theorem dispatched_data_open (count : Nat) (more : List Http2Event) :
    dispatched streams (dataSection stream false count ++ more) = dispatched streams more := by
  induction count using dataSection.induct with
  | case1 => rfl
  | case2 => exact dispatched_quiet more rfl
  | case3 count ih =>
      rw [dataSection, List.cons_append, dispatched_quiet _ rfl]
      exact ih

theorem dispatched_data_last (count : Nat) :
    dispatched streams (dataSection stream true (count + 1)) = [streams.entry stream] := by
  induction count with
  | zero => rfl
  | succ count ih =>
      rw [dataSection, dispatched_quiet _ rfl]
      exact ih

theorem request_dispatched (request : Http2Request) :
    dispatched streams (request.events stream) =
      [builtRequest (request.trailer.getD request.head)] := by
  unfold Http2Request.events
  cases request.trailer with
  | none =>
      obtain ⟨following, built, same⟩ := dispatched_block streams stream request.head
        (request.dataFrames = 0) (dataSection stream true request.dataFrames)
      rw [Option.getD_none, ← built]
      refine same.trans ?_
      cases request.dataFrames with
      | zero => rfl
      | succ count =>
          rw [dispatched_quiet _ rfl]
          exact dispatched_data_last following stream count
  | some fields =>
      obtain ⟨afterHead, _, sameHead⟩ := dispatched_block streams stream request.head false
        (dataSection stream false request.dataFrames ++ headerBlock stream fields true)
      obtain ⟨afterTrailer, built, sameTrailer⟩ :=
        dispatched_block afterHead stream fields true []
      rw [Option.getD_some, ← built]
      refine sameHead.trans ?_
      rw [dispatched_quiet _ rfl]
      refine (dispatched_data_open afterHead stream _ _).trans ?_
      rw [List.append_nil] at sameTrailer
      rw [sameTrailer]
      rfl

theorem dispatched_for_own (events : List Http2Event) :
    dispatchedFor streams stream events =
      dispatched streams (events.filter fun event => event.stream = stream) := by
  rw [dispatchedFor, (Http2Isolation.trace_filter stream events streams streams rfl).1, dispatched]

end Runs

section Heads

theorem compared_method_iff (value : Bytes) :
    methodOf value = utils.parseMethod value ↔ value ∈ comparedMethods := by
  constructor
  · intro same
    by_contra other
    simp only [comparedMethods, List.mem_cons, List.not_mem_nil, or_false, not_or] at other
    obtain ⟨get, post, put, delete, patch, options, head⟩ := other
    simp only [methodOf, utils.parseMethod, get, post, put, delete, patch, options, head,
      if_false] at same
    split_ifs at same
  · intro member
    simp only [comparedMethods, List.mem_cons, List.not_mem_nil, or_false] at member
    rcases member with rfl | rfl | rfl | rfl | rfl | rfl | rfl <;> decide

theorem connect_parsed : utils.parseMethod (ascii "CONNECT") = .connect := by decide

/-- What a trailer section builds is no request for the head. -/
theorem trailer_loses_head (request : Http2Request) {fields : List (Bytes × Bytes)}
    (present : request.trailer = some fields) : ¬KeepsHead request (builtRequest fields) := by
  intro keeps
  obtain ⟨noMethod, noPath⟩ := built_plain (request.plainTrailer fields present)
  have ordinary : request.method ≠ ascii "CONNECT" := by
    intro connect
    have method := keeps.method
    rw [noMethod, connect, connect_parsed] at method
    cases method
  obtain ⟨value, named, nonempty⟩ := request.target ordinary
  have path := keeps.path
  rw [noPath, named, Option.getD_some] at path
  exact nonempty path.symm

theorem keeps_head_iff (request : Http2Request) :
    KeepsHead request (builtRequest (request.trailer.getD request.head)) ↔
      SimpleHead request := by
  cases trailer : request.trailer with
  | some fields =>
      refine iff_of_false (trailer_loses_head request trailer) ?_
      intro simple
      rw [simple.trailer] at trailer
      cases trailer
  | none =>
      have built := built_request request.head
      rw [request.oneMethod, request.onePath] at built
      have distinct := fold_set_iff (otherFields request.head) [] List.Pairwise.nil
      simp only [List.nil_append] at distinct
      rw [Option.getD_none, built]
      constructor
      · intro keeps
        exact ⟨trailer, (compared_method_iff _).mp keeps.method, distinct.mp keeps.fields⟩
      · intro simple
        refine ⟨(compared_method_iff _).mpr simple.method, ?_, distinct.mpr simple.distinct⟩
        cases request.path <;> rfl

end Heads

/-- However the events of other streams stand between those of a request, it is
dispatched once. What is dispatched keeps the head exactly for a simple head. -/
theorem request_keeps_head_iff (streams : Http2Streams) (stream : Nat) (request : Http2Request)
    (events : List Http2Event)
    (own : events.filter (fun event => event.stream = stream) = request.events stream) :
    ∃ handed, dispatchedFor streams stream events = [handed] ∧
      (KeepsHead request handed ↔ SimpleHead request) := by
  refine ⟨_, ?_, keeps_head_iff request⟩
  rw [dispatched_for_own, own, request_dispatched]

section Samples

/-- A request whose trailer section carries a checksum of its body. -/
def uploadRequest : Http2Request where
  head :=
    [(ascii ":method", ascii "POST"), (ascii ":scheme", ascii "https"),
      (ascii ":authority", ascii "localhost"), (ascii ":path", ascii "/upload"),
      (ascii "trailer", ascii "checksum")]
  method := ascii "POST"
  path := some (ascii "/upload")
  dataFrames := 1
  trailer := some [(ascii "checksum", ascii "5d41402a")]
  oneMethod := by decide
  onePath := by decide
  target _ := ⟨ascii "/upload", rfl, by decide⟩
  plainTrailer := by decide

/-- A page asked for on stream 3 while the upload on stream 1 is under way. -/
def pageRequest : Http2Request where
  head :=
    [(ascii ":method", ascii "GET"), (ascii ":scheme", ascii "https"),
      (ascii ":authority", ascii "localhost"), (ascii ":path", ascii "/"),
      (ascii "accept", ascii "*/*")]
  method := ascii "GET"
  path := some (ascii "/")
  dataFrames := 0
  trailer := none
  oneMethod := by decide
  onePath := by decide
  target _ := ⟨ascii "/", rfl, by decide⟩
  plainTrailer := nofun

def uploadAndPage : List Http2Event :=
  (uploadRequest.events 1).take 7 ++ pageRequest.events 3 ++ (uploadRequest.events 1).drop 7

theorem request_keeps_head_iff_page :
    uploadAndPage.filter (fun event => event.stream = 3) = pageRequest.events 3 ∧
      SimpleHead pageRequest ∧
      ∃ handed, dispatchedFor initial 3 uploadAndPage = [handed] ∧
        (KeepsHead pageRequest handed ↔ SimpleHead pageRequest) := by
  have own : uploadAndPage.filter (fun event => event.stream = 3) = pageRequest.events 3 := by
    decide +kernel
  exact ⟨own, ⟨rfl, by decide, by decide⟩,
    request_keeps_head_iff initial 3 pageRequest uploadAndPage own⟩

/-- The request with trailers is handed over without method and path. -/
theorem trailers_lose_head :
    dispatchedFor initial 1 (uploadRequest.events 1) =
        [{ headers := ⟨[(ascii "checksum", ascii "5d41402a")]⟩ }] ∧
      ¬∃ handed, dispatchedFor initial 1 (uploadRequest.events 1) = [handed] ∧
        KeepsHead uploadRequest handed := by
  have dispatched : dispatchedFor initial 1 (uploadRequest.events 1) =
      [{ headers := ⟨[(ascii "checksum", ascii "5d41402a")]⟩ }] := by
    decide +kernel
  refine ⟨dispatched, ?_⟩
  intro keeps
  obtain ⟨handed, same, head⟩ := keeps
  rw [dispatched] at same
  have method := head.method
  rw [← (List.cons.inj same).1] at method
  exact absurd method (by decide)

end Samples

end HttpServer.Http2Requests
