import HttpServer.HttpParser
import HttpServer.HttpResponse

/-!
# `ClientConnection` and the client branch of a `Worker`

The connection object, its calls into TLS, and `Worker::handleClientData` as a
function of the connection and of what the outside answers during one event:
the outcome of `SSL_accept`, the bytes of `SSL_read` and how it ended, whether a
`send` threw, and what nghttp2 made of an HTTP/2 batch. The handler returns the
connection it leaves behind and the calls it makes on epoll, the pool and the
connection table, in order. Time enters only through the idle sweep, which may
pick any connection, so the activity stamp is not stored.
-/

namespace HttpServer

open ListSearch MeasuredLoop

/-- The two masks a client descriptor is armed with: `EPOLLIN` or `EPOLLOUT`,
each with `EPOLLET | EPOLLONESHOT`. -/
inductive Interest where
  | readable | writable
deriving DecidableEq, Repr

/-- `WebSocketOpcode`; `static_cast` from the four opcode bits may also give a
value that no enumerator has. -/
inductive WebSocketOpcode where
  | continuation | text | binary | close | ping | pong
  | other (value : Byte)
deriving DecidableEq, Repr

def WebSocketOpcode.ofByte (value : Byte) : WebSocketOpcode :=
  if value = 0 then .continuation
  else if value = 1 then .text
  else if value = 2 then .binary
  else if value = 8 then .close
  else if value = 9 then .ping
  else if value = 10 then .pong
  else .other value

structure WebSocketFrame where
  fin : Bool
  opcode : WebSocketOpcode
  payload : Bytes
deriving DecidableEq, Repr

structure ClientConnection where
  handshakeComplete : Bool := false
  isWebSocket : Bool := false
  wsPath : Bytes := []
  isHttp2 : Bool := false
  readBuffer : Bytes := []
  parser : HttpParser := {}
deriving DecidableEq, Repr

/-- `ReadBuffer::consume`; `none` where it throws. -/
def consume (buffer : Bytes) (size : Nat) : Option Bytes :=
  if size > buffer.length then none else some (buffer.drop size)

/-- How one `SSL_accept` call ended. -/
inductive SslAccept where
  | accepted (alpn : Bytes)
  | wantRead | wantWrite | failed
deriving DecidableEq, Repr

/-- Why the read loop stopped. -/
inductive SslReadEnd where
  | wantRead | wantWrite | zeroReturn | syscall | failed
deriving DecidableEq, Repr

/-- What `nghttp2_session_mem_recv` did with the buffer: the requests it
completed, in order, and the bytes it took, `none` for a negative result. -/
structure Http2Batch where
  completed : List (Nat × HttpRequest) := []
  taken : Option Nat := some 0
deriving DecidableEq, Repr

structure ClientEvent where
  handshake : SslAccept := .accepted []
  received : List Bytes := []
  readEnd : SslReadEnd := .wantRead
  sendThrows : Bool := false
  http2 : Http2Batch := {}
deriving DecidableEq, Repr

inductive Task where
  | http (request : HttpRequest) (keepAlive : Bool)
  | webSocket (frame : WebSocketFrame)
  | http2 (stream : Nat) (request : HttpRequest)
deriving DecidableEq, Repr

inductive Action where
  | modify (interest : Interest)
  | send (data : Bytes)
  | enqueue (task : Task)
  | disconnect
deriving DecidableEq, Repr

namespace ClientConnection

inductive Handshake where
  | ready (connection : ClientConnection)
  | pending (interest : Interest)
  | threw

def doHandshake (connection : ClientConnection) (outcome : SslAccept) : Handshake :=
  if connection.handshakeComplete then .ready connection
  else
    match outcome with
    | .accepted alpn =>
        .ready { connection with
          handshakeComplete := true
          isHttp2 := connection.isHttp2 || alpn = ascii "h2" }
    | .wantRead => .pending .readable
    | .wantWrite => .pending .writable
    | .failed => .threw

/-- `read()`: every received piece is appended; the flag is the returned
value and `none` stands for the exception. -/
def read (connection : ClientConnection) (received : List Bytes) (readEnd : SslReadEnd) :
    ClientConnection × Option Bool :=
  ({ connection with readBuffer := connection.readBuffer ++ received.flatten },
    match readEnd with
    | .zeroReturn => some false
    | .wantRead | .wantWrite => some true
    | .syscall => some false
    | .failed => none)

def parseRequest (connection : ClientConnection) (request : HttpRequest) :
    ParseResult × ClientConnection × HttpRequest :=
  let parsed := HttpParser.parse connection.readBuffer connection.parser request
  (parsed.1, { connection with parser := parsed.2.1 }, parsed.2.2)

def consumeParsedRequest (connection : ClientConnection) : Option ClientConnection :=
  (consume connection.readBuffer connection.parser.consumedBytes).map fun buffer =>
    { connection with readBuffer := buffer, parser := connection.parser.reset }

def upgradeToWebSocket (connection : ClientConnection) (path : Bytes) : ClientConnection :=
  { connection with isWebSocket := true, wsPath := path, parser := connection.parser.reset }

/-- No `std::string` holds more bytes; a longer `resize` throws. -/
def maxStringSize : Nat := 2 ^ 63 - 1

def bigEndian (bytes : Bytes) : Nat := bytes.foldl (fun value byte => value * 256 + byte.toNat) 0

/-- Payload length and header size announced by the second byte and the bytes
after it; `none` while they have not all arrived. -/
def frameLengths (data : Bytes) (second : Byte) : Option (Nat × Nat) :=
  let short := (second &&& 0x7F).toNat
  if short = 126 then
    if data.length < 4 then none else some (bigEndian ((data.drop 2).take 2), 4)
  else if short = 127 then
    if data.length < 10 then none else some (bigEndian ((data.drop 2).take 8), 10)
  else some (short, 2)

/-- `parseWebSocketFrame` on the read buffer: the result, the frame and the
buffer afterwards. `none` is the `std::length_error` of a payload length whose
sum with the header wraps around. -/
def parseWebSocketFrame (data : Bytes) (outFrame : WebSocketFrame) :
    Option (ParseResult × WebSocketFrame × Bytes) :=
  match data with
  | first :: second :: _ =>
      match frameLengths data second with
      | none => some (.incomplete, outFrame, data)
      | some (payloadLen, lengthEnd) =>
          let masked := decide (second &&& 0x80 ≠ 0)
          if masked && decide (data.length < lengthEnd + 4) then
            some (.incomplete, outFrame, data)
          else
            let maskingKey := if masked then (data.drop lengthEnd).take 4 else [0, 0, 0, 0]
            let headerLen := if masked then lengthEnd + 4 else lengthEnd
            if data.length < sizeAdd headerLen payloadLen then some (.incomplete, outFrame, data)
            else if payloadLen > maxStringSize then none
            else
              let payload := ((data.drop headerLen).take payloadLen).mapIdx fun index byte =>
                byte ^^^ (if masked then maskingKey.getD (index % 4) 0 else 0)
              (consume data (sizeAdd headerLen payloadLen)).map fun rest =>
                (.complete,
                  { fin := decide (first &&& 0x80 ≠ 0)
                    opcode := .ofByte (first &&& 0x0F)
                    payload := payload }, rest)
  | _ => some (.incomplete, outFrame, data)

theorem frame_lengths_bound {data : Bytes} {second : Byte} {payloadLen lengthEnd : Nat}
    (announced : frameLengths data second = some (payloadLen, lengthEnd)) :
    2 ≤ lengthEnd ∧ lengthEnd ≤ 10 := by
  unfold frameLengths at announced
  dsimp only at announced
  repeat' split at announced
  all_goals cases announced
  all_goals omega

theorem frame_consumed {data rest : Bytes} {headerLen payloadLen : Nat} (lower : 2 ≤ headerLen)
    (upper : headerLen ≤ 14) (storable : payloadLen ≤ maxStringSize)
    (consumed : consume data (sizeAdd headerLen payloadLen) = some rest) :
    ∃ size, 2 ≤ size ∧ size ≤ data.length ∧ rest = data.drop size := by
  have exact_sum : sizeAdd headerLen payloadLen = headerLen + payloadLen := by
    apply size_add_of_lt
    simp only [maxStringSize, sizeModulus] at storable ⊢
    omega
  rw [exact_sum] at consumed
  unfold consume at consumed
  split at consumed
  · cases consumed
  · rename_i fits
    cases consumed
    exact ⟨headerLen + payloadLen, by omega, Nat.not_lt.mp fits, rfl⟩

/-- A complete frame is cut off the front of the buffer; its size does not wrap
because longer payloads are refused by `std::string`. -/
theorem parse_web_socket_frame_completes {data rest : Bytes} {outFrame frame : WebSocketFrame}
    (parsed : parseWebSocketFrame data outFrame = some (.complete, frame, rest)) :
    ∃ size, 2 ≤ size ∧ size ≤ data.length ∧ rest = data.drop size := by
  unfold parseWebSocketFrame at parsed
  split at parsed
  · rename_i first second tail
    split at parsed
    · cases parsed
    · rename_i payloadLen lengthEnd announced
      have bounds := frame_lengths_bound announced
      dsimp only at parsed
      split at parsed
      · cases parsed
      · split at parsed
        all_goals
          split at parsed
          · cases parsed
          · split at parsed
            · cases parsed
            · rename_i storable
              obtain ⟨left, consumed, same⟩ := Option.map_eq_some_iff.mp parsed
              cases same
              exact frame_consumed (by omega) (by omega) (Nat.not_lt.mp storable) consumed
  · cases parsed

/-- `processHttp2()`: the requests that nghttp2 completed were enqueued by its
callbacks before the call returned; `none` stands for the exception. -/
def processHttp2 (connection : ClientConnection) (batch : Http2Batch) :
    List Task × Option ClientConnection :=
  if connection.readBuffer.isEmpty then ([], some connection)
  else
    (batch.completed.map fun stream => .http2 stream.1 stream.2,
      batch.taken.bind fun taken =>
        (consume connection.readBuffer taken).map fun buffer =>
          { connection with readBuffer := buffer })

end ClientConnection

def emptyFrame : WebSocketFrame := { fin := false, opcode := .continuation, payload := [] }

def wantsUpgrade (request : HttpRequest) : Bool :=
  HttpHeaders.equalsIgnoreCase (request.header (ascii "Upgrade")) (ascii "websocket") &&
    (findSub (ascii "Upgrade") (request.header (ascii "Connection"))).isSome &&
    !(request.header (ascii "Sec-WebSocket-Key")).isEmpty

def keepsAlive (request : HttpRequest) : Bool :=
  decide (request.version = ascii "HTTP/1.1") &&
    !HttpHeaders.equalsIgnoreCase (request.header (ascii "Connection")) (ascii "close")

def badRequestText : Bytes :=
  (((({} : HttpResponse).setStatus .badRequest).setBody (ascii "400 Bad Request")).setHeader
    (ascii "Connection") (ascii "close")).serialize

def switchingProtocolsText (acceptKey : Bytes) : Bytes :=
  (((({} : HttpResponse).setStatus .switchingProtocols).setHeader (ascii "Upgrade")
    (ascii "websocket")).setHeader (ascii "Connection") (ascii "Upgrade")).setHeader
    (ascii "Sec-WebSocket-Accept") acceptKey |>.serialize

namespace Worker

open ClientConnection

/-- `SHA1` and Base64 of the client key are OpenSSL's and stay a parameter. -/
structure Crypto where
  generateAcceptKey : Bytes → Bytes

/-- The HTTP branch of the client loop; each of its paths leaves the loop. -/
def serveRequest (crypto : Crypto) (event : ClientEvent) (connection : ClientConnection) :
    ClientConnection × List Action :=
  match parseRequest connection {} with
  | (.incomplete, connection, _) => (connection, [.modify .readable])
  | (.invalid, connection, _) => (connection, [.send badRequestText, .disconnect])
  | (.complete, connection, request) =>
      if wantsUpgrade request then
        let greeting := switchingProtocolsText
          (crypto.generateAcceptKey (request.header (ascii "Sec-WebSocket-Key")))
        if event.sendThrows then (connection, [.send greeting, .disconnect])
        else
          match consumeParsedRequest connection with
          | none => (connection, [.send greeting, .disconnect])
          | some consumed =>
              (upgradeToWebSocket consumed request.path, [.send greeting, .modify .readable])
      else
        match consumeParsedRequest connection with
        | none => (connection, [.disconnect])
        | some consumed => (consumed, [.enqueue (.http request (keepsAlive request))])

/-- One turn of the client loop; the calls made so far are carried along. -/
def clientTurn (crypto : Crypto) (event : ClientEvent) (cursor : ClientConnection × List Action) :
    Turn (ClientConnection × List Action) (ClientConnection × List Action) :=
  let connection := cursor.1
  if connection.isWebSocket then
    match parseWebSocketFrame connection.readBuffer emptyFrame with
    | none => .done (connection, cursor.2 ++ [.disconnect])
    | some (.incomplete, _, _) => .done (connection, cursor.2 ++ [.modify .readable])
    | some (.invalid, _, _) => .done (connection, cursor.2 ++ [.disconnect])
    | some (.complete, frame, rest) =>
        let connection := { connection with readBuffer := rest }
        if frame.opcode = .close then .done (connection, cursor.2 ++ [.disconnect])
        else if frame.opcode = .text ∨ frame.opcode = .binary then
          .done (connection, cursor.2 ++ [.enqueue (.webSocket frame)])
        else .next (connection, cursor.2 ++ [.modify .readable])
  else
    let served := serveRequest crypto event connection
    .done (served.1, cursor.2 ++ served.2)

/-- The loop goes round only after a frame that is neither data nor `Close`. -/
theorem client_turn_next {crypto : Crypto} {event : ClientEvent}
    {cursor following : ClientConnection × List Action}
    (turned : clientTurn crypto event cursor = .next following) :
    cursor.1.isWebSocket = true ∧ ∃ frame rest,
      parseWebSocketFrame cursor.1.readBuffer emptyFrame = some (.complete, frame, rest) ∧
      frame.opcode ≠ .close ∧ frame.opcode ≠ .text ∧ frame.opcode ≠ .binary ∧
      following = ({ cursor.1 with readBuffer := rest }, cursor.2 ++ [.modify .readable]) := by
  unfold clientTurn at turned
  dsimp only at turned
  split at turned
  · rename_i upgraded
    split at turned
    · cases turned
    · cases turned
    · cases turned
    · rename_i frame rest parsed
      split at turned
      · cases turned
      · rename_i notClose
        split at turned
        · cases turned
        · rename_i notData
          cases turned
          rw [not_or] at notData
          exact ⟨upgraded, frame, rest, parsed, notClose, notData.1, notData.2, rfl⟩
  · cases turned

theorem client_turn_decreases (crypto : Crypto) (event : ClientEvent)
    (cursor following : ClientConnection × List Action)
    (turned : clientTurn crypto event cursor = .next following) :
    following.1.readBuffer.length < cursor.1.readBuffer.length := by
  obtain ⟨_, frame, rest, parsed, _, _, _, rfl⟩ := client_turn_next turned
  obtain ⟨size, positive, fits, rfl⟩ := parse_web_socket_frame_completes parsed
  rw [List.length_drop]
  omega

def clientLoop (crypto : Crypto) (event : ClientEvent) :
    Loop (ClientConnection × List Action) (ClientConnection × List Action) where
  turn := clientTurn crypto event
  rank := fun cursor => cursor.1.readBuffer.length
  decreases := client_turn_decreases crypto event

def serveHttp2 (event : ClientEvent) (connection : ClientConnection) :
    ClientConnection × List Action :=
  match connection.processHttp2 event.http2 with
  | (tasks, none) => (connection, tasks.map .enqueue ++ [.disconnect])
  | (tasks, some processed) => (processed, tasks.map .enqueue ++ [.modify .readable])

/-- `handleClientData` for a connection found in the table. A call that throws
is caught there and followed by `disconnectClient`. -/
def handleClientData (crypto : Crypto) (connection : ClientConnection) (event : ClientEvent) :
    ClientConnection × List Action :=
  match connection.doHandshake event.handshake with
  | .threw => (connection, [.disconnect])
  | .pending interest => (connection, [.modify interest])
  | .ready connection =>
      match connection.read event.received event.readEnd with
      | (connection, some true) =>
          if connection.isHttp2 then serveHttp2 event connection
          else (clientLoop crypto event).run (connection, [])
      | (connection, _) => (connection, [.disconnect])

end Worker

end HttpServer
