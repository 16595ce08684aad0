import HttpServer.HttpRequest
import Mathlib.Logic.Function.Basic

/-!
# The nghttp2 callbacks

`nghttp2_session_mem_recv` calls back for each begun header block, each header
field and each received frame; an event is one such call. The callbacks share
`h2_streams_`, the requests under construction by stream identifier. There is no
callback for DATA payloads, so an event of a DATA frame carries none.
-/

namespace HttpServer

inductive Http2FrameType where
  | data | headers | pushPromise | other
deriving DecidableEq, Repr

inductive Http2Event where
  | beginHeaders (type : Http2FrameType) (stream : Nat)
  | header (stream : Nat) (name value : Bytes)
  | frameRecv (type : Http2FrameType) (stream : Nat) (endStream : Bool)
deriving DecidableEq, Repr

/-- `frame->hd.stream_id`. -/
def Http2Event.stream : Http2Event → Nat
  | .beginHeaders _ stream => stream
  | .header stream _ _ => stream
  | .frameRecv _ stream _ => stream

/-- `h2_streams_`; `operator[]` inserts a default request for a missing key. -/
abbrev Http2Streams : Type := Nat → Option HttpRequest

namespace Http2Streams

def initial : Http2Streams := fun _ => none

def entry (streams : Http2Streams) (stream : Nat) : HttpRequest := (streams stream).getD {}

def store (streams : Http2Streams) (stream : Nat) (request : HttpRequest) : Http2Streams :=
  Function.update streams stream (some request)

def erase (streams : Http2Streams) (stream : Nat) : Http2Streams :=
  Function.update streams stream none

def methodOf (value : Bytes) : HttpMethod :=
  if value = ascii "POST" then .post
  else if value = ascii "PUT" then .put
  else if value = ascii "DELETE" then .delete
  else if value = ascii "PATCH" then .patch
  else if value = ascii "OPTIONS" then .options
  else if value = ascii "HEAD" then .head
  else .get

def applyHeader (request : HttpRequest) (name value : Bytes) : HttpRequest :=
  if name = ascii ":method" then request.setMethod (methodOf value)
  else if name = ascii ":path" then request.setPath value
  else request.setHeader name value

def onBeginHeaders (streams : Http2Streams) (type : Http2FrameType) (stream : Nat) :
    Http2Streams :=
  if type = .headers ∨ type = .pushPromise then streams.store stream {} else streams

def onHeader (streams : Http2Streams) (stream : Nat) (name value : Bytes) : Http2Streams :=
  streams.store stream (applyHeader (streams.entry stream) name value)

/-- `h2_on_frame_recv_cb`: the request that the enqueued task hands to
`Router::handle`, if any. -/
def onFrameRecv (streams : Http2Streams) (type : Http2FrameType) (stream : Nat)
    (endStream : Bool) : Http2Streams × Option HttpRequest :=
  if (type = .headers ∨ type = .data) ∧ endStream = true then
    (streams.erase stream, some (streams.entry stream))
  else (streams, none)

def step (streams : Http2Streams) : Http2Event → Http2Streams × Option HttpRequest
  | .beginHeaders type stream => (streams.onBeginHeaders type stream, none)
  | .header stream name value => (streams.onHeader stream name value, none)
  | .frameRecv type stream endStream => streams.onFrameRecv type stream endStream

def after (streams : Http2Streams) : List Http2Event → Http2Streams
  | [] => streams
  | event :: events => after (streams.step event).1 events

def trace (streams : Http2Streams) : List Http2Event → List (Http2Event × Option HttpRequest)
  | [] => []
  | event :: events => (event, (streams.step event).2) :: trace (streams.step event).1 events

end Http2Streams

end HttpServer
