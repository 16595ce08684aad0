import HttpServer.ClientConnection

/-!
# What one client event can do

`Handled` lists every way in which `handleClientData` leaves a connection, with
the calls it makes on the way; the proofs about whole runs go through these
cases and never open the handler. `completeFrames` decodes all the frames that
lie complete at the front of a buffer, which is more than the handler takes: it
stops at the first data frame.
-/

namespace HttpServer.ClientHandling

open MeasuredLoop ClientConnection Worker

def frontFrame (buffer : Bytes) : Option (WebSocketFrame × Bytes) :=
  match parseWebSocketFrame buffer emptyFrame with
  | some (.complete, frame, rest) => some (frame, rest)
  | _ => none

theorem front_frame_eq_some_iff (buffer : Bytes) (frame : WebSocketFrame) (rest : Bytes) :
    frontFrame buffer = some (frame, rest) ↔
      parseWebSocketFrame buffer emptyFrame = some (.complete, frame, rest) := by
  unfold frontFrame
  split
  · rename_i parsed
    rw [parsed]
    simp
  · rename_i other
    constructor
    · intro absent
      cases absent
    · intro parsed
      exact absurd parsed (other frame rest)

def frameTurn (buffer : Bytes) : Turn Bytes Unit :=
  match frontFrame buffer with
  | some (_, rest) => .next rest
  | none => .done ()

def frameLoop : Loop Bytes Unit where
  turn := frameTurn
  rank := List.length
  decreases := by
    intro buffer following turned
    unfold frameTurn at turned
    split at turned
    · rename_i frame rest front
      cases turned
      obtain ⟨size, positive, fits, rfl⟩ :=
        parse_web_socket_frame_completes ((front_frame_eq_some_iff _ _ _).mp front)
      rw [List.length_drop]
      omega
    · cases turned

def completeFrames (buffer : Bytes) : List WebSocketFrame :=
  (frameLoop.path buffer).filterMap fun state => (frontFrame state).map Prod.fst

theorem complete_frames_cons {buffer rest : Bytes} {frame : WebSocketFrame}
    (front : frontFrame buffer = some (frame, rest)) :
    completeFrames buffer = frame :: completeFrames rest := by
  have turned : frameLoop.turn buffer = .next rest := by
    simp only [frameLoop, frameTurn, front]
  rw [completeFrames, frameLoop.path_next turned, List.filterMap_cons, front]
  rfl

theorem complete_frames_nil {buffer : Bytes} (front : frontFrame buffer = none) :
    completeFrames buffer = [] := by
  have turned : frameLoop.turn buffer = .done () := by
    simp only [frameLoop, frameTurn, front]
  rw [completeFrames, frameLoop.path_done turned, List.filterMap_cons, front]
  rfl

def isData (frame : WebSocketFrame) : Bool :=
  decide (frame.opcode = .text) || decide (frame.opcode = .binary)

/-- Neither data nor `Close`: `Ping`, `Pong`, a continuation, a reserved opcode. -/
def isControl (frame : WebSocketFrame) : Bool :=
  !isData frame && !decide (frame.opcode = .close)

/-- How the loop ends on an upgraded connection, after the `control` frames: the
bytes it leaves and its last call. -/
inductive FrameEnd (buffer : Bytes) (control : List WebSocketFrame) (rest : Bytes) :
    Action → Prop
  | waits (taken : completeFrames buffer = control) (left : completeFrames rest = []) :
      FrameEnd buffer control rest (.modify .readable)
  | leaves : FrameEnd buffer control rest .disconnect
  | dispatches (frame : WebSocketFrame) (data : isData frame = true)
      (taken : completeFrames buffer = control ++ frame :: completeFrames rest) :
      FrameEnd buffer control rest (.enqueue (.webSocket frame))

theorem frame_end_cons {buffer middle rest : Bytes} {frame : WebSocketFrame}
    {control : List WebSocketFrame} {last : Action}
    (front : frontFrame buffer = some (frame, middle)) (ended : FrameEnd middle control rest last) :
    FrameEnd buffer (frame :: control) rest last := by
  have step := complete_frames_cons front
  cases ended with
  | waits taken left => exact .waits (step.trans (congrArg _ taken)) left
  | leaves => exact .leaves
  | dispatches data isData taken => exact .dispatches data isData (step.trans (congrArg _ taken))

theorem client_loop_frames (crypto : Crypto) (event : ClientEvent)
    (cursor : ClientConnection × List Action) (upgraded : cursor.1.isWebSocket = true) :
    ∃ control rest last, (∀ frame ∈ control, isControl frame = true) ∧
      FrameEnd cursor.1.readBuffer control rest last ∧
      (clientLoop crypto event).run cursor =
        ({ cursor.1 with readBuffer := rest },
          cursor.2 ++ List.replicate control.length (.modify .readable) ++ [last]) := by
  induction cursor using (clientLoop crypto event).run_induction with
  | done cursor result turned =>
      rw [(clientLoop crypto event).run_done turned]
      change clientTurn crypto event cursor = _ at turned
      unfold clientTurn at turned
      dsimp only at turned
      rw [if_pos upgraded] at turned
      split at turned
      · cases turned
        exact ⟨[], cursor.1.readBuffer, _, by simp, .leaves, by simp⟩
      · rename_i outFrame kept parsed
        cases turned
        have front : frontFrame cursor.1.readBuffer = none := by simp only [frontFrame, parsed]
        have none_left := complete_frames_nil front
        exact ⟨[], cursor.1.readBuffer, _, by simp, .waits none_left none_left, by simp⟩
      · cases turned
        exact ⟨[], cursor.1.readBuffer, _, by simp, .leaves, by simp⟩
      · rename_i frame rest parsed
        have front := (front_frame_eq_some_iff _ _ _).mpr parsed
        split at turned
        · cases turned
          exact ⟨[], rest, _, by simp, .leaves, by simp⟩
        · split at turned
          · rename_i data
            cases turned
            have dataFrame : isData frame = true := by simpa [isData] using data
            exact ⟨[], rest, _, by simp,
              .dispatches frame dataFrame (complete_frames_cons front), by simp⟩
          · cases turned
  | next cursor following turned ih =>
      rw [(clientLoop crypto event).run_next turned]
      obtain ⟨_, frame, middle, parsed, notClose, notText, notBinary, rfl⟩ :=
        client_turn_next turned
      obtain ⟨control, rest, last, allControl, ended, ran⟩ := ih upgraded
      refine ⟨frame :: control, rest, last, ?_, ?_, ?_⟩
      · intro member among
        rcases List.mem_cons.mp among with rfl | later
        · simp [isControl, isData, notClose, notText, notBinary]
        · exact allControl member later
      · exact frame_end_cons ((front_frame_eq_some_iff _ _ _).mpr parsed) ended
      · rw [ran]
        simp [List.replicate_succ]

/-- The HTTP branch, by the result of the parser on the connection's buffer. -/
inductive Served (crypto : Crypto) (event : ClientEvent) (connection : ClientConnection) :
    ClientConnection → List Action → Prop
  | waits (stopped : Reading)
      (parsed : HttpParser.parse connection.readBuffer connection.parser {} =
        (.incomplete, stopped)) :
      Served crypto event connection { connection with parser := stopped.1 } [.modify .readable]
  | refuses (stopped : Reading)
      (parsed : HttpParser.parse connection.readBuffer connection.parser {} = (.invalid, stopped)) :
      Served crypto event connection { connection with parser := stopped.1 }
        [.send badRequestText, .disconnect]
  | upgradeFails (stopped : Reading) (greeting : Bytes)
      (parsed : HttpParser.parse connection.readBuffer connection.parser {} = (.complete, stopped))
      (wanted : wantsUpgrade stopped.2 = true) :
      Served crypto event connection { connection with parser := stopped.1 }
        [.send greeting, .disconnect]
  | upgrades (stopped : Reading) (greeting : Bytes)
      (parsed : HttpParser.parse connection.readBuffer connection.parser {} = (.complete, stopped))
      (wanted : wantsUpgrade stopped.2 = true) (greeted : event.sendThrows = false)
      (inside : stopped.1.consumed ≤ connection.readBuffer.length) :
      Served crypto event connection
        { connection with
          isWebSocket := true, wsPath := stopped.2.path, parser := {},
          readBuffer := connection.readBuffer.drop stopped.1.consumed }
        [.send greeting, .modify .readable]
  | dispatchFails (stopped : Reading)
      (parsed : HttpParser.parse connection.readBuffer connection.parser {} = (.complete, stopped))
      (outside : connection.readBuffer.length < stopped.1.consumed) :
      Served crypto event connection { connection with parser := stopped.1 } [.disconnect]
  | dispatches (stopped : Reading)
      (parsed : HttpParser.parse connection.readBuffer connection.parser {} = (.complete, stopped))
      (unwanted : wantsUpgrade stopped.2 = false)
      (inside : stopped.1.consumed ≤ connection.readBuffer.length) :
      Served crypto event connection
        { connection with
          parser := {}, readBuffer := connection.readBuffer.drop stopped.1.consumed }
        [.enqueue (.http stopped.2 (keepsAlive stopped.2))]

theorem consume_cases (connection : ClientConnection) (parser : HttpParser) :
    (consumeParsedRequest { connection with parser := parser } = none ∧
        connection.readBuffer.length < parser.consumed) ∨
      (consumeParsedRequest { connection with parser := parser } =
          some { connection with
            readBuffer := connection.readBuffer.drop parser.consumed, parser := {} } ∧
        parser.consumed ≤ connection.readBuffer.length) := by
  unfold consumeParsedRequest consume HttpParser.consumedBytes HttpParser.reset
  dsimp only
  split
  · exact Or.inl ⟨rfl, by omega⟩
  · exact Or.inr ⟨rfl, by omega⟩

theorem serve_request_served (crypto : Crypto) (event : ClientEvent)
    (connection : ClientConnection) :
    Served crypto event connection (serveRequest crypto event connection).1
      (serveRequest crypto event connection).2 := by
  unfold serveRequest parseRequest
  dsimp only
  rcases parsed : HttpParser.parse connection.readBuffer connection.parser {} with
    ⟨result, stopped⟩
  cases result with
  | incomplete => exact .waits stopped parsed
  | invalid => exact .refuses stopped parsed
  | complete =>
      dsimp only
      rcases consume_cases connection stopped.1 with ⟨failed, outside⟩ | ⟨consumed, inside⟩
      · rw [failed]
        dsimp only
        split
        · rename_i wanted
          split
          all_goals exact .upgradeFails stopped _ parsed wanted
        · exact .dispatchFails stopped parsed outside
      · rw [consumed]
        dsimp only
        split
        · rename_i wanted
          split
          · exact .upgradeFails stopped _ parsed wanted
          · rename_i greeted
            exact .upgrades stopped _ parsed wanted (by simpa using greeted) inside
        · rename_i unwanted
          exact .dispatches stopped parsed (by simpa using unwanted) inside

/-- The connection when its bytes have been read: the handshake is done and
everything received is in the buffer. -/
def afterRead (connection : ClientConnection) (event : ClientEvent) : Option ClientConnection :=
  match connection.doHandshake event.handshake with
  | .ready ready =>
      some { ready with readBuffer := ready.readBuffer ++ event.received.flatten }
  | _ => none

theorem after_read_keeps {connection opened : ClientConnection} {event : ClientEvent}
    (received : afterRead connection event = some opened) :
    opened.isWebSocket = connection.isWebSocket ∧ opened.parser = connection.parser ∧
      opened.readBuffer = connection.readBuffer ++ event.received.flatten ∧
      (connection.isHttp2 = true → opened.isHttp2 = true) ∧
      (connection.isHttp2 = false → event.handshake ≠ .accepted (ascii "h2") →
        opened.isHttp2 = false) := by
  unfold afterRead doHandshake at received
  split at received
  · rename_i ready accepted
    cases received
    split at accepted
    · cases accepted
      exact ⟨rfl, rfl, rfl, id, fun plain _ => plain⟩
    · split at accepted <;> cases accepted
      rename_i alpn handshake
      refine ⟨rfl, rfl, rfl, by simp +contextual, ?_⟩
      intro plain other
      rw [handshake] at other
      simpa [plain] using other
  · cases received

/-- How the HTTP/2 branch ends, behind the enqueued streams: the connection goes
on with what nghttp2 has left of the buffer. -/
inductive Http2End (event : ClientEvent) (opened : ClientConnection) :
    ClientConnection → Action → Prop
  | leaves : Http2End event opened opened .disconnect
  | idle (empty : opened.readBuffer = []) : Http2End event opened opened (.modify .readable)
  | takes (taken : Nat) (reported : event.http2.taken = some taken) :
      Http2End event opened { opened with readBuffer := opened.readBuffer.drop taken }
        (.modify .readable)

theorem serve_http2_ends (event : ClientEvent) (opened : ClientConnection) :
    ∃ (streams : List (Nat × HttpRequest)) (after : ClientConnection) (last : Action),
      Http2End event opened after last ∧
      serveHttp2 event opened =
        (after, (streams.map fun stream => .enqueue (.http2 stream.1 stream.2)) ++ [last]) := by
  unfold serveHttp2 processHttp2
  by_cases empty : opened.readBuffer.isEmpty = true
  · rw [if_pos empty]
    exact ⟨[], opened, _, .idle (List.isEmpty_iff.mp empty), rfl⟩
  · rw [if_neg empty]
    cases reported : event.http2.taken with
    | none => exact ⟨event.http2.completed, opened, _, .leaves, by simp [Function.comp_def]⟩
    | some taken =>
        simp only [Option.bind_some, consume]
        split_ifs
        · exact ⟨event.http2.completed, opened, _, .leaves, by simp [Function.comp_def]⟩
        · exact ⟨event.http2.completed, _, _, .takes taken reported, by simp [Function.comp_def]⟩

inductive Handled (crypto : Crypto) (connection : ClientConnection) (event : ClientEvent) :
    ClientConnection → List Action → Prop
  | handshakeFailed (threw : connection.doHandshake event.handshake = .threw) :
      Handled crypto connection event connection [.disconnect]
  | handshakePending (interest : Interest)
      (pending : connection.doHandshake event.handshake = .pending interest) :
      Handled crypto connection event connection [.modify interest]
  | closed (opened : ClientConnection) (received : afterRead connection event = some opened)
      (ended : event.readEnd ≠ .wantRead ∧ event.readEnd ≠ .wantWrite) :
      Handled crypto connection event opened [.disconnect]
  | http2 (opened : ClientConnection) (received : afterRead connection event = some opened)
      (reading : event.readEnd = .wantRead ∨ event.readEnd = .wantWrite)
      (negotiated : opened.isHttp2 = true) (streams : List (Nat × HttpRequest))
      (after : ClientConnection) (last : Action) (ended : Http2End event opened after last) :
      Handled crypto connection event after
        ((streams.map fun stream => .enqueue (.http2 stream.1 stream.2)) ++ [last])
  | request (opened : ClientConnection) (received : afterRead connection event = some opened)
      (reading : event.readEnd = .wantRead ∨ event.readEnd = .wantWrite)
      (plain : opened.isHttp2 = false) (notUpgraded : opened.isWebSocket = false)
      (after : ClientConnection) (actions : List Action)
      (served : Served crypto event opened after actions) :
      Handled crypto connection event after actions
  | frames (opened : ClientConnection) (received : afterRead connection event = some opened)
      (reading : event.readEnd = .wantRead ∨ event.readEnd = .wantWrite)
      (plain : opened.isHttp2 = false) (upgraded : opened.isWebSocket = true)
      (control : List WebSocketFrame) (rest : Bytes) (last : Action)
      (allControl : ∀ frame ∈ control, isControl frame = true)
      (ended : FrameEnd opened.readBuffer control rest last) :
      Handled crypto connection event { opened with readBuffer := rest }
        (List.replicate control.length (.modify .readable) ++ [last])

theorem serve_opened_handled {crypto : Crypto} {connection opened : ClientConnection}
    {event : ClientEvent} (received : afterRead connection event = some opened)
    (reading : event.readEnd = .wantRead ∨ event.readEnd = .wantWrite) :
    Handled crypto connection event
      (if opened.isHttp2 then serveHttp2 event opened
        else (clientLoop crypto event).run (opened, [])).1
      (if opened.isHttp2 then serveHttp2 event opened
        else (clientLoop crypto event).run (opened, [])).2 := by
  cases negotiated : opened.isHttp2 with
  | true =>
      obtain ⟨streams, after, last, ended, served⟩ := serve_http2_ends event opened
      simp only [if_true, served]
      exact .http2 opened received reading negotiated streams after last ended
  | false =>
      simp only [Bool.false_eq_true, if_false]
      cases upgraded : opened.isWebSocket with
      | true =>
          obtain ⟨control, rest, last, allControl, ended, ran⟩ :=
            client_loop_frames crypto event (opened, []) upgraded
          rw [ran]
          exact .frames opened received reading negotiated upgraded control rest last allControl ended
      | false =>
          have turned : (clientLoop crypto event).turn (opened, []) =
              .done (serveRequest crypto event opened) := by
            simp [clientLoop, clientTurn, upgraded]
          rw [(clientLoop crypto event).run_done turned]
          exact .request opened received reading negotiated upgraded _ _
            (serve_request_served crypto event opened)

theorem handle_client_data_handled (crypto : Crypto) (connection : ClientConnection)
    (event : ClientEvent) :
    Handled crypto connection event (handleClientData crypto connection event).1
      (handleClientData crypto connection event).2 := by
  unfold handleClientData
  split
  · rename_i threw
    exact .handshakeFailed threw
  · rename_i interest pending
    exact .handshakePending interest pending
  · rename_i ready accepted
    have received : afterRead connection event =
        some { ready with readBuffer := ready.readBuffer ++ event.received.flatten } := by
      simp only [afterRead, accepted]
    unfold ClientConnection.read
    cases ended : event.readEnd
    case wantRead => exact serve_opened_handled received (Or.inl ended)
    case wantWrite => exact serve_opened_handled received (Or.inr ended)
    all_goals exact .closed _ received (by rw [ended]; decide)

end HttpServer.ClientHandling
