import HttpServer.RequestSequence
import HttpServer.SessionExclusion
import HttpServer.WebSocketFrames

/-!
# The messages of an upgraded connection are those of its bytes

`parseWebSocketFrame` starts again at the front of the buffer with every event, so the
cut of the bytes into events has no say in the frames, wherever it falls. What the pool
is given are the data frames at the front of the byte stream in their order, up to what
still lies in the buffer, and what the router is given are these frames, each one once,
although not always in that order.
-/

namespace HttpServer.FrameSequence

open TransitionSystem MessageStreams MeasuredLoop ClientConnection ClientHandling Session
  SessionExclusion RequestSequence

def IsFrame (message : Bytes) (frame : WebSocketFrame) : Prop :=
  parseWebSocketFrame message emptyFrame = some (.complete, frame, [])

section Frames

open WebSocketFrames (firstByte secondByte isMasked lengthCode lengthEnd headerSize declaredLength
  header_size_bounds length_end_bounds declared_length_lt parse_frame_of_fits parse_frame_of_wraps
  parse_frame_eq)

variable {data message rest : Bytes} {frame : WebSocketFrame}

theorem complete_iff :
    parseWebSocketFrame data emptyFrame = some (.complete, frame, rest) ↔
      headerSize data + declaredLength data ≤ data.length ∧
        declaredLength data ≤ maxStringSize ∧ frame = WebSocketFrames.frontFrame data ∧
        rest = data.drop (headerSize data + declaredLength data) := by
  have declared := declared_length_lt data
  have bounds := header_size_bounds data
  by_cases header : headerSize data ≤ data.length
  · by_cases fits : headerSize data + declaredLength data < sizeModulus
    · rw [parse_frame_of_fits data emptyFrame fits header]
      split_ifs with few long
      · simp [Nat.not_le.mpr few]
      · simp [Nat.not_le.mpr long]
      · simp [Nat.not_lt.mp few, Nat.not_lt.mp long, eq_comm]
    · rw [parse_frame_of_wraps data emptyFrame (Nat.not_lt.mp fits) header declared]
      have long : ¬declaredLength data ≤ maxStringSize := by
        simp only [sizeModulus, maxStringSize] at fits ⊢
        omega
      simp [long]
  · rw [parse_frame_eq, if_pos (Nat.not_le.mp header)]
    have few : ¬headerSize data + declaredLength data ≤ data.length := by omega
    simp [few]

theorem header_agrees (more : Bytes) (present : 2 ≤ message.length) :
    lengthEnd (message ++ more) = lengthEnd message ∧
      headerSize (message ++ more) = headerSize message ∧
      lengthCode (message ++ more) = lengthCode message := by
  match message, present with
  | first :: second :: tail, _ => exact ⟨rfl, rfl, rfl⟩

theorem take_drop_append {front later : Bytes} {start count : Nat}
    (inside : start + count ≤ front.length) :
    ((front ++ later).drop start).take count = (front.drop start).take count := by
  rw [List.drop_append_of_le_length (by omega), List.take_append_of_le_length]
  rw [List.length_drop]
  omega

theorem declared_agrees (more : Bytes) (arrived : headerSize message ≤ message.length) :
    declaredLength (message ++ more) = declaredLength message := by
  have bounds := header_size_bounds message
  have present : 2 ≤ message.length := by omega
  have code := (header_agrees more present).2.2
  have inside : lengthEnd message ≤ message.length :=
    Nat.le_trans (Nat.le_add_right _ _) arrived
  unfold declaredLength
  rw [code]
  split_ifs with two eight
  · rw [take_drop_append]
    simp only [lengthEnd, if_pos two] at inside
    omega
  · rw [take_drop_append]
    simp only [lengthEnd, if_neg two, if_pos eight] at inside
    omega
  · rfl

theorem front_agrees (more : Bytes)
    (held : headerSize message + declaredLength message ≤ message.length) :
    WebSocketFrames.frontFrame (message ++ more) = WebSocketFrames.frontFrame message := by
  have bounds := header_size_bounds message
  have arrived : headerSize message ≤ message.length := by omega
  have present : 2 ≤ message.length := by omega
  obtain ⟨ends, header, _⟩ := header_agrees more present
  have declared := declared_agrees more arrived
  have masked : isMasked (message ++ more) = isMasked message := by
    match message, present with
    | first :: second :: tail, _ => rfl
  have first : firstByte (message ++ more) = firstByte message := by
    match message, present with
    | first :: second :: tail, _ => rfl
  unfold WebSocketFrames.frontFrame WebSocketFrames.frontOpcode
  rw [ends, header, declared, masked, first, take_drop_append held]
  cases keyed : isMasked message with
  | false => rfl
  | true =>
      have key : lengthEnd message + 4 ≤ message.length := by
        rw [headerSize, if_pos keyed] at arrived
        exact arrived
      rw [take_drop_append key]

theorem frame_extends
    (complete : parseWebSocketFrame data emptyFrame = some (.complete, frame, rest))
    (more : Bytes) :
    parseWebSocketFrame (data ++ more) emptyFrame = some (.complete, frame, rest ++ more) := by
  obtain ⟨held, storable, rfl, rfl⟩ := complete_iff.mp complete
  have bounds := header_size_bounds data
  have arrived : headerSize data ≤ data.length := by omega
  have present : 2 ≤ data.length := by omega
  obtain ⟨_, header, _⟩ := header_agrees more present
  have declared := declared_agrees more arrived
  refine complete_iff.mpr ⟨?_, ?_, ?_, ?_⟩
  · rw [header, declared, List.length_append]
    omega
  · rw [declared]
    exact storable
  · exact (front_agrees more held).symm
  · rw [header, declared, List.drop_append_of_le_length held]

theorem frame_front
    (complete : parseWebSocketFrame data emptyFrame = some (.complete, frame, rest)) :
    ∃ message, data = message ++ rest ∧ IsFrame message frame := by
  obtain ⟨held, storable, rfl, rfl⟩ := complete_iff.mp complete
  have bounds := header_size_bounds data
  generalize sized : headerSize data + declaredLength data = size at held
  have whole : data.take size ++ data.drop size = data := List.take_append_drop size data
  have length : (data.take size).length = size := List.length_take_of_le held
  have present : 2 ≤ (data.take size).length := by omega
  obtain ⟨_, header, _⟩ := header_agrees (data.drop size) present
  rw [whole] at header
  have arrived : headerSize (data.take size) ≤ (data.take size).length := by omega
  have declared := declared_agrees (data.drop size) arrived
  rw [whole] at declared
  have inside : headerSize (data.take size) + declaredLength (data.take size) ≤
      (data.take size).length := by omega
  have front := front_agrees (data.drop size) inside
  rw [whole] at front
  refine ⟨data.take size, whole.symm, complete_iff.mpr ⟨inside, by omega, front, ?_⟩⟩
  rw [List.drop_eq_nil_of_le]
  omega

theorem frames_prefix_free : PrefixFree IsFrame := by
  intro message frame other meaning whole another front
  obtain ⟨more, rfl⟩ := front
  have extended := frame_extends whole more
  rw [List.nil_append] at extended
  have same := extended.symm.trans another
  rw [Option.some.injEq, Prod.mk.injEq, Prod.mk.injEq] at same
  obtain ⟨_, rfl, rfl⟩ := same
  exact ⟨(List.append_nil message).symm, rfl⟩

end Frames

inductive LoopEnd (buffer : Bytes) (control : List WebSocketFrame) (rest : Bytes) : Action → Prop
  | waits (reads : Reads IsFrame buffer control rest) :
      LoopEnd buffer control rest (.modify .readable)
  | leaves : LoopEnd buffer control rest .disconnect
  | dispatches (frame : WebSocketFrame) (data : isData frame = true)
      (reads : Reads IsFrame buffer (control ++ [frame]) rest) :
      LoopEnd buffer control rest (.enqueue (.webSocket frame))

theorem loop_end_cons {buffer middle rest : Bytes} {frame : WebSocketFrame}
    {control : List WebSocketFrame} {last : Action}
    (front : parseWebSocketFrame buffer emptyFrame = some (.complete, frame, middle))
    (ended : LoopEnd middle control rest last) : LoopEnd buffer (frame :: control) rest last := by
  obtain ⟨message, rfl, first⟩ := frame_front front
  cases ended with
  | waits reads => exact .waits (.next first reads)
  | leaves => exact .leaves
  | dispatches other data reads => exact .dispatches other data (.next first reads)

theorem client_loop_reads (crypto : Worker.Crypto) (event : ClientEvent)
    (cursor : ClientConnection × List Action) (upgraded : cursor.1.isWebSocket = true) :
    ∃ control rest last, (∀ frame ∈ control, isControl frame = true) ∧
      LoopEnd cursor.1.readBuffer control rest last ∧
      (Worker.clientLoop crypto event).run cursor =
        ({ cursor.1 with readBuffer := rest },
          cursor.2 ++ List.replicate control.length (.modify .readable) ++ [last]) := by
  induction cursor using (Worker.clientLoop crypto event).run_induction with
  | done cursor result turned =>
      rw [(Worker.clientLoop crypto event).run_done turned]
      change Worker.clientTurn crypto event cursor = _ at turned
      unfold Worker.clientTurn at turned
      dsimp only at turned
      rw [if_pos upgraded] at turned
      split at turned
      · cases turned
        exact ⟨[], cursor.1.readBuffer, _, by simp, .leaves, by simp⟩
      · cases turned
        exact ⟨[], cursor.1.readBuffer, _, by simp, .waits (.done _), by simp⟩
      · cases turned
        exact ⟨[], cursor.1.readBuffer, _, by simp, .leaves, by simp⟩
      · rename_i frame rest parsed
        obtain ⟨message, split, first⟩ := frame_front parsed
        split at turned
        · cases turned
          exact ⟨[], rest, _, by simp, .leaves, by simp⟩
        · split at turned
          · rename_i data
            cases turned
            have dataFrame : isData frame = true := by simpa [isData] using data
            have reads : Reads IsFrame cursor.1.readBuffer [frame] rest := by
              rw [split]
              exact .next first (.done rest)
            exact ⟨[], rest, _, by simp, .dispatches frame dataFrame reads, by simp⟩
          · cases turned
  | next cursor following turned ih =>
      rw [(Worker.clientLoop crypto event).run_next turned]
      obtain ⟨_, frame, middle, parsed, notClose, notText, notBinary, rfl⟩ :=
        Worker.client_turn_next turned
      obtain ⟨control, rest, last, allControl, ended, ran⟩ := ih upgraded
      refine ⟨frame :: control, rest, last, ?_, loop_end_cons parsed ended, ?_⟩
      · intro member among
        rcases List.mem_cons.mp among with rfl | later
        · simp [isControl, isData, notClose, notText, notBinary]
        · exact allControl member later
      · rw [ran]
        simp [List.replicate_succ]

/-- In every run an upgraded connection has finished its handshake and speaks HTTP/1.1,
only a registered descriptor is armed, and every data frame taken from the buffer has
been handled or is with the pool. -/
structure Sound (session : Session) : Prop where
  negotiated : session.connection.isWebSocket = true →
    session.connection.handshakeComplete = true ∧ session.connection.isHttp2 = false
  registered : session.armed.isSome = true → session.registered = true
  handled : (session.framesHandled ++ pendingFrames session.tasks).Perm session.framesTaken

section Steps

variable {crypto : Worker.Crypto} {session following : Session}

theorem pending_append (tasks more : List SessionTask) :
    pendingFrames (tasks ++ more) = pendingFrames tasks ++ pendingFrames more :=
  List.filterMap_append

theorem run_actions_sound (sound : Sound session) (actions : List Action) :
    Sound (session.runActions actions) := by
  induction actions generalizing session with
  | nil => exact sound
  | cons action actions ih =>
      have left : Sound session.disconnectClient := by
        unfold disconnectClient
        split
        · exact ⟨sound.negotiated, by simp, sound.handled⟩
        · exact ⟨sound.negotiated, sound.registered, sound.handled⟩
      cases action with
      | modify interest =>
          unfold runActions
          split
          · rename_i registered
            exact ih ⟨sound.negotiated, fun _ => registered, sound.handled⟩
          · exact left
      | send data => exact ih ⟨sound.negotiated, sound.registered, sound.handled⟩
      | enqueue task =>
          refine ih ⟨sound.negotiated, sound.registered, ?_⟩
          dsimp only
          rw [pending_append, ← List.append_assoc]
          refine List.Perm.append sound.handled ?_
          cases task <;> exact .refl _
      | disconnect => exact left

theorem after_read_complete {connection opened : ClientConnection} {event : ClientEvent}
    (received : afterRead connection event = some opened) : opened.handshakeComplete = true := by
  unfold afterRead doHandshake at received
  split at received
  · rename_i ready accepted
    cases received
    split at accepted
    · rename_i complete
      cases accepted
      exact complete
    · split at accepted <;> cases accepted
      rfl
  · cases received

theorem after_read_finished {connection : ClientConnection}
    (finished : connection.handshakeComplete = true) (event : ClientEvent) :
    afterRead connection event =
      some { connection with readBuffer := connection.readBuffer ++ event.received.flatten } := by
  simp only [afterRead, doHandshake, finished, if_true]

theorem opened_negotiated {opened : ClientConnection} {event : ClientEvent} (sound : Sound session)
    (received : afterRead session.connection event = some opened)
    (upgraded : opened.isWebSocket = true) :
    opened.handshakeComplete = true ∧ opened.isHttp2 = false := by
  have kept := (after_read_keeps received).1
  obtain ⟨finished, plain⟩ := sound.negotiated (kept ▸ upgraded)
  rw [after_read_finished finished, Option.some.injEq] at received
  subst received
  exact ⟨finished, plain⟩

theorem receive_sound (sound : Sound session) (event : ClientEvent) :
    Sound (session.receive crypto event) := by
  obtain ⟨after, actions, handled, same⟩ := receive_handled crypto session event
  rw [same]
  suffices negotiated : after.isWebSocket = true →
      after.handshakeComplete = true ∧ after.isHttp2 = false by
    have begun : Sound (session.delivered event after) :=
      ⟨negotiated, by simp [delivered], sound.handled⟩
    exact run_actions_sound begun actions
  cases handled with
  | handshakeFailed => exact sound.negotiated
  | handshakePending => exact sound.negotiated
  | closed _ received => exact opened_negotiated sound received
  | http2 opened received _ negotiated _ _ _ ended =>
      intro upgraded
      have kept : opened.isWebSocket = true := by
        cases ended <;> exact upgraded
      rw [(opened_negotiated sound received kept).2] at negotiated
      cases negotiated
  | request opened received _ plain _ _ _ served =>
      intro _
      have complete := after_read_complete received
      cases served <;> exact ⟨complete, plain⟩
  | frames opened received _ plain =>
      have complete := after_read_complete received
      exact fun _ => ⟨complete, plain⟩

theorem disconnect_sound (sound : Sound session) : Sound session.disconnectClient :=
  run_actions_sound sound [.disconnect]

theorem disarmed_sound (sound : Sound session) : Sound { session with armed := none } :=
  ⟨sound.negotiated, by simp, sound.handled⟩

theorem erased_perm {Item : Type*} {items : List Item} {index : Nat} {item : Item}
    (found : items[index]? = some item) : items.Perm (item :: items.eraseIdx index) := by
  induction items generalizing index with
  | nil => cases found
  | cons first rest ih =>
      cases index with
      | zero =>
          cases found
          exact .refl _
      | succ index => exact ((ih found).cons first).trans (.swap item first _)

theorem replaced_perm {Item : Type*} {items : List Item} {index : Nat}
    (inside : index < items.length) (item : Item) :
    (items.set index item).Perm (item :: items.eraseIdx index) := by
  have found : (items.set index item)[index]? = some item := by
    rw [List.getElem?_set_self inside]
  have perm := erased_perm found
  rwa [List.eraseIdx_set_eq] at perm

theorem pending_perm {tasks others : List SessionTask} (same : tasks.Perm others) :
    (pendingFrames tasks).Perm (pendingFrames others) :=
  same.filterMap _

theorem pending_erased {index : Nat} {task : SessionTask}
    (found : session.tasks[index]? = some task) :
    (pendingFrames session.tasks).Perm
      (pendingFrames [task] ++ pendingFrames (session.tasks.eraseIdx index)) := by
  rw [← pending_append]
  exact pending_perm (erased_perm found)

theorem pending_replaced {index : Nat} (inside : index < session.tasks.length)
    (task : SessionTask) :
    (pendingFrames (session.tasks.set index task)).Perm
      (pendingFrames [task] ++ pendingFrames (session.tasks.eraseIdx index)) := by
  rw [← pending_append]
  exact pending_perm (replaced_perm inside task)

theorem answers_sound {index : Nat} {outcome : TaskOutcome} (sound : Sound session)
    (answers : Answers session index outcome following) : Sound following := by
  -- a frame passes from the pending ones to the handled ones; a request is no frame
  have kept : ∀ request keepAlive,
      session.tasks[index]? = some { task := .http request keepAlive } →
        (pendingFrames (session.tasks.eraseIdx index)).Perm (pendingFrames session.tasks) :=
    fun request keepAlive queued => (pending_erased queued).symm
  have taken : ∀ frame, session.tasks[index]? = some { task := .webSocket frame } →
      ((session.framesHandled ++ [frame]) ++ pendingFrames (session.tasks.eraseIdx index)).Perm
        session.framesTaken := by
    intro frame queued
    rw [List.append_assoc]
    exact ((pending_erased queued).symm.append_left _).trans sound.handled
  cases answers with
  | request request keepAlive response queued =>
      have inside := (List.getElem?_eq_some_iff.mp queued).1
      refine ⟨sound.negotiated, sound.registered, ?_⟩
      refine List.Perm.trans (List.Perm.append_left _ ?_) sound.handled
      exact (pending_replaced inside _).trans (kept request keepAlive queued)
  | requestUnsent request keepAlive response queued =>
      refine ⟨sound.negotiated, by simp [rawClose], ?_⟩
      exact ((kept request keepAlive queued).append_left _).trans sound.handled
  | requestThrew request keepAlive queued =>
      refine ⟨sound.negotiated, by simp [rawClose], ?_⟩
      exact ((kept request keepAlive queued).append_left _).trans sound.handled
  | frame frame response queued =>
      have inside := (List.getElem?_eq_some_iff.mp queued).1
      refine ⟨sound.negotiated, sound.registered, ?_⟩
      exact ((pending_replaced inside _).append_left _).trans (taken frame queued)
  | frameThrew frame outcome queued =>
      exact ⟨sound.negotiated, by simp [rawClose], taken frame queued⟩
  | stream stream request outcome queued =>
      refine ⟨sound.negotiated, sound.registered, ?_⟩
      exact ((pending_erased queued).symm.append_left _).trans sound.handled

theorem finish_sound {index : Nat} (sound : Sound session)
    (stepped : session.finishTask index = some following) : Sound following := by
  obtain ⟨task, answered, ended⟩ := finish_task_cases stepped
  have handled : (session.framesHandled ++
      pendingFrames (session.tasks.eraseIdx index)).Perm session.framesTaken := by
    refine List.Perm.trans (List.Perm.append_left _ ?_) sound.handled
    have pending := pending_erased answered
    cases task <;> exact pending.symm
  rcases ended with ⟨_, _, registered, rfl⟩ | rfl
  · exact ⟨sound.negotiated, fun _ => registered, handled⟩
  · exact ⟨sound.negotiated, by simp [rawClose], handled⟩

theorem step_sound (sound : Sound session) {label : SessionStep}
    (stepped : session.step crypto label = some following) : Sound following := by
  cases step_stepped stepped with
  | received event => exact receive_sound sound event
  | unknown => exact disarmed_sound sound
  | writable => exact disarmed_sound sound
  | hungUp => exact disconnect_sound (disarmed_sound sound)
  | swept => exact disconnect_sound sound
  | answered index outcome _ answers => exact answers_sound sound answers
  | finished index _ finishes => exact finish_sound sound finishes
  | stopped => exact ⟨sound.negotiated, sound.registered, sound.handled⟩
  | exited => exact ⟨sound.negotiated, by simp, sound.handled⟩

theorem run_sound {labels : List SessionStep} {last : Session}
    (reached : run (step crypto) {} labels = some last) : Sound last := by
  have start : Sound {} := ⟨by simp, fun _ => rfl, .refl _⟩
  refine run_keeps Sound ?_ start reached
  intro session label following sound stepped
  exact step_sound sound stepped

end Steps

/-- The connection is upgraded and its worker has given the pool the data frames of the
bytes so far, `earlier` ones apart. -/
structure Decodes (earlier : List WebSocketFrame) (past : Bytes) (session : Session) : Prop where
  sound : Sound session
  upgraded : session.connection.isWebSocket = true
  reads : ∃ frames rest, Reads IsFrame past frames rest ∧
    session.framesTaken = earlier ++ frames.filter isData ∧
    (session.registered = true → rest = session.connection.readBuffer)

section Frames

variable {crypto : Worker.Crypto} {session following : Session} {earlier : List WebSocketFrame}
  {past : Bytes}

theorem decodes_quiet (decodes : Decodes earlier past session) (sound : Sound following)
    (connection : following.connection = session.connection)
    (taken : following.framesTaken = session.framesTaken)
    (registered : following.registered = true → session.registered = true) :
    Decodes earlier past following := by
  obtain ⟨frames, rest, reads, same, left⟩ := decodes.reads
  refine ⟨sound, connection ▸ decodes.upgraded, frames, rest, reads, taken.trans same, ?_⟩
  intro still
  rw [connection]
  exact left (registered still)

theorem disconnect_quiet (session : Session) :
    session.disconnectClient.connection = session.connection ∧
      session.disconnectClient.framesTaken = session.framesTaken ∧
      (session.disconnectClient.registered = true → session.registered = true) := by
  unfold disconnectClient
  split
  · rename_i registered
    exact ⟨rfl, rfl, fun _ => registered⟩
  · exact ⟨rfl, rfl, id⟩

theorem filter_control {control : List WebSocketFrame}
    (allControl : ∀ frame ∈ control, isControl frame = true) : control.filter isData = [] := by
  rw [List.filter_eq_nil_iff]
  intro frame member data
  have notData := allControl frame member
  simp [isControl, data] at notData

def filled (connection : ClientConnection) (event : ClientEvent) : ClientConnection :=
  { connection with readBuffer := connection.readBuffer ++ event.received.flatten }

theorem handle_upgraded {connection : ClientConnection}
    (finished : connection.handshakeComplete = true) (plain : connection.isHttp2 = false)
    (event : ClientEvent) :
    Worker.handleClientData crypto connection event =
        (filled connection event, [.disconnect]) ∨
      Worker.handleClientData crypto connection event =
        (Worker.clientLoop crypto event).run (filled connection event, []) := by
  unfold Worker.handleClientData doHandshake
  rw [if_pos finished]
  dsimp only [ClientConnection.read]
  cases event.readEnd <;> simp [filled, plain]

theorem loop_decodes {event : ClientEvent} {control : List WebSocketFrame} {rest : Bytes}
    {last : Action} (decodes : Decodes earlier past session)
    (registered : session.registered = true)
    (sound : Sound ((session.delivered event
      { filled session.connection event with readBuffer := rest }).runActions
        (List.replicate control.length (.modify .readable) ++ [last])))
    (allControl : ∀ frame ∈ control, isControl frame = true)
    (ended : LoopEnd (filled session.connection event).readBuffer control rest last) :
    Decodes earlier (past ++ event.received.flatten)
      ((session.delivered event
        { filled session.connection event with readBuffer := rest }).runActions
          (List.replicate control.length (.modify .readable) ++ [last])) := by
  obtain ⟨frames, before, reads, taken, left⟩ := decodes.reads
  have more := reads_extended reads event.received.flatten
  rw [left registered] at more
  have rearmed := fun after => run_actions_rearm (session.delivered event after) registered
  rw [rearmed] at sound ⊢
  cases ended with
  | waits between =>
      refine ⟨sound, ?_, frames ++ control, rest, reads_trans more between, ?_, ?_⟩
      all_goals simp [runActions, delivered, filled, registered, decodes.upgraded, taken,
        filter_control allControl]
  | leaves =>
      refine ⟨sound, ?_, frames, _, more, ?_, ?_⟩
      all_goals simp [runActions, delivered, filled, disconnectClient, registered,
        decodes.upgraded, taken]
  | dispatches frame data between =>
      refine ⟨sound, ?_, frames ++ (control ++ [frame]), rest, reads_trans more between, ?_, ?_⟩
      all_goals simp [runActions, delivered, filled, decodes.upgraded, taken,
        filter_control allControl, data]

theorem receive_decodes {event : ClientEvent} (decodes : Decodes earlier past session)
    (armed : session.armed = some .readable) (listed : session.inTable = true) :
    Decodes earlier (past ++ appended session (.readable event))
      (session.receive crypto event) := by
  have sound : Sound (session.receive crypto event) := receive_sound decodes.sound event
  have registered := decodes.sound.registered (by simp [armed])
  obtain ⟨finished, plain⟩ := decodes.sound.negotiated decodes.upgraded
  have bytes : appended session (.readable event) = event.received.flatten := by
    simp only [appended, listed, if_true, after_read_finished finished event]
  rw [bytes]
  unfold receive at sound ⊢
  dsimp only at sound ⊢
  rcases handle_upgraded finished plain event with closed | looped
  · rw [closed] at sound ⊢
    have none : ∀ frame ∈ ([] : List WebSocketFrame), isControl frame = true := by simp
    exact loop_decodes decodes registered sound none .leaves
  · obtain ⟨control, rest, last, allControl, ended, ran⟩ :=
      client_loop_reads crypto event (filled session.connection event, []) decodes.upgraded
    rw [looped, ran] at sound ⊢
    exact loop_decodes decodes registered sound allControl ended

theorem step_decodes (crypto : Worker.Crypto) (earlier : List WebSocketFrame) (past : Bytes)
    (session : Session) (label : SessionStep) (following : Session)
    (decodes : Decodes earlier past session)
    (stepped : session.step crypto label = some following) :
    Decodes earlier (past ++ appended session label) following := by
  have sound := step_sound decodes.sound stepped
  cases step_stepped stepped with
  | received event armed listed => exact receive_decodes decodes armed listed
  | unknown event armed dropped =>
      have nothing : appended session (.readable event) = [] := by simp [appended, dropped]
      rw [nothing, List.append_nil]
      exact decodes_quiet decodes sound rfl rfl id
  | writable =>
      simp only [appended, List.append_nil]
      exact decodes_quiet decodes sound rfl rfl id
  | hungUp =>
      simp only [appended, List.append_nil]
      obtain ⟨connection, taken, registered⟩ := disconnect_quiet { session with armed := none }
      exact decodes_quiet decodes sound connection taken registered
  | swept =>
      simp only [appended, List.append_nil]
      obtain ⟨connection, taken, registered⟩ := disconnect_quiet session
      exact decodes_quiet decodes sound connection taken registered
  | answered index outcome _ answers =>
      simp only [appended, List.append_nil]
      obtain ⟨connection, _, registered⟩ := answers_keep answers
      have taken : following.framesTaken = session.framesTaken := by cases answers <;> rfl
      exact decodes_quiet decodes sound connection taken registered
  | finished index _ finishes =>
      simp only [appended, List.append_nil]
      obtain ⟨task, _, ⟨_, _, _, rfl⟩ | rfl⟩ := finish_task_cases finishes
      · exact decodes_quiet decodes sound rfl rfl id
      · exact decodes_quiet decodes sound rfl rfl (by simp [rawClose])
  | stopped =>
      simp only [appended, List.append_nil]
      exact decodes_quiet decodes sound rfl rfl id
  | exited =>
      simp only [appended, List.append_nil]
      exact decodes_quiet decodes sound rfl rfl (by simp)

end Frames

def receivedFrom (crypto : Worker.Crypto) (session : Session) (labels : List SessionStep) :
    Bytes :=
  history (step crypto) appended session labels

theorem run_frames {crypto : Worker.Crypto} {before labels : List SessionStep}
    {upgraded last : Session} (reached : run (step crypto) {} before = some upgraded)
    (isWebSocket : upgraded.connection.isWebSocket = true)
    (ran : run (step crypto) upgraded labels = some last) :
    Decodes upgraded.framesTaken
      (upgraded.connection.readBuffer ++ receivedFrom crypto upgraded labels) last := by
  have start : Decodes upgraded.framesTaken upgraded.connection.readBuffer upgraded :=
    ⟨run_sound reached, isWebSocket, [], _, .done _, (List.append_nil _).symm, fun _ => rfl⟩
  refine run_history (Decodes upgraded.framesTaken) ?_ start
    (respects_true (step crypto) upgraded labels) ran
  intro past session label following decodes _ stepped
  exact step_decodes crypto _ past session label following decodes stepped

/-- On an upgraded connection the frames taken are the front part of the bytes received
since, whatever cut these into events, and while it is registered what they leave is what
lies in its buffer. The data frames among them go to the pool in their order, which loses
none of them and handles none twice. So of two continuations in which the same bytes
arrive, one has taken the same frames as the other or the first of them. -/
theorem frames_follow_bytes (crypto : Worker.Crypto) (before labels labels' : List SessionStep)
    (upgraded last last' : Session) (reached : run (step crypto) {} before = some upgraded)
    (isWebSocket : upgraded.connection.isWebSocket = true)
    (ran : run (step crypto) upgraded labels = some last)
    (ran' : run (step crypto) upgraded labels' = some last')
    (agree : receivedFrom crypto upgraded labels <+: receivedFrom crypto upgraded labels') :
    (∃ frames rest,
      Reads IsFrame (upgraded.connection.readBuffer ++ receivedFrom crypto upgraded labels)
        frames rest ∧
      last.framesTaken = upgraded.framesTaken ++ frames.filter isData ∧
      (last.registered = true → rest = last.connection.readBuffer)) ∧
      (last.framesHandled ++ pendingFrames last.tasks).Perm last.framesTaken ∧
      (last.framesTaken <+: last'.framesTaken ∨ last'.framesTaken <+: last.framesTaken) := by
  have one := run_frames reached isWebSocket ran
  have other := run_frames reached isWebSocket ran'
  obtain ⟨frames, rest, reads, taken, left⟩ := one.reads
  obtain ⟨frames', rest', reads', taken', _⟩ := other.reads
  refine ⟨⟨frames, rest, reads, taken, left⟩, one.sound.handled, ?_⟩
  rw [taken, taken', List.prefix_append_right_inj, List.prefix_append_right_inj]
  have agreeing := (List.prefix_append_right_inj upgraded.connection.readBuffer).mpr agree
  rcases reads_comparable frames_prefix_free reads reads' agreeing with shorter | longer
  · exact Or.inl (shorter.filter isData)
  · exact Or.inr (longer.filter isData)

/-- A text frame cut in its header, and a `Ping` and a binary frame in one event. -/
def framesInPieces : List SessionStep :=
  [.readable { received := [(emptyFrameBytes 1).take 3] },
    .readable { received := [(emptyFrameBytes 1).drop 3] }, .answer 0 (.returned {}), .finish 0,
    .readable { received := [emptyFrameBytes 9, emptyFrameBytes 2] }]

def framesInOneEvent : List SessionStep :=
  [.readable { received := [emptyFrameBytes 1 ++ emptyFrameBytes 9 ++ emptyFrameBytes 2] }]

theorem frames_follow_bytes_pieces :
    ∃ upgraded last last',
      run (step { generateAcceptKey := id }) {} [.readable upgradeEvent] = some upgraded ∧
      run (step { generateAcceptKey := id }) upgraded framesInPieces = some last ∧
      run (step { generateAcceptKey := id }) upgraded framesInOneEvent = some last' ∧
      last.framesTaken.map WebSocketFrame.opcode = [.text, .binary] ∧
      last'.framesTaken.map WebSocketFrame.opcode = [.text] ∧
      (last.framesHandled ++ pendingFrames last.tasks).Perm last.framesTaken ∧
      (last.framesTaken <+: last'.framesTaken ∨ last'.framesTaken <+: last.framesTaken) := by
  have evaluated : (run (step { generateAcceptKey := id }) {} [.readable upgradeEvent]).any
      (fun upgraded => decide (upgraded.connection.isWebSocket = true ∧
        (run (step { generateAcceptKey := id }) upgraded framesInPieces).any (fun last =>
          decide (last.framesTaken.map WebSocketFrame.opcode = [.text, .binary])) = true ∧
        (run (step { generateAcceptKey := id }) upgraded framesInOneEvent).any (fun last =>
          decide (last.framesTaken.map WebSocketFrame.opcode = [.text])) = true ∧
        receivedFrom { generateAcceptKey := id } upgraded framesInPieces <+:
          receivedFrom { generateAcceptKey := id } upgraded framesInOneEvent)) = true := by
    decide +kernel
  obtain ⟨upgraded, reached, isWebSocket, one, other, agree⟩ := run_ends evaluated
  obtain ⟨last, ran, taken⟩ := run_ends one
  obtain ⟨last', ran', taken'⟩ := run_ends other
  have follow := frames_follow_bytes _ [.readable upgradeEvent] framesInPieces framesInOneEvent
    upgraded last last' reached isWebSocket ran ran' agree
  exact ⟨upgraded, last, last', reached, ran, ran', taken, taken', follow.2⟩

end HttpServer.FrameSequence
