import HttpServer.ClientHandling
import HttpServer.ParserPrefix

/-!
# A request cut across readable events

The parser of a connection keeps its place between events, but the request
being built is a local of `handleClientData` and starts empty at every event.
A request therefore reaches the router whole exactly when its request line was
first parsed in the event that completed it.
-/

namespace HttpServer.ConnectionFragments

open ListSearch MeasuredLoop ClientConnection Worker ClientHandling ParserResume ParserPrefix

/-- A readable event of an established connection that brings `batch`. -/
def batchEvent (batch : Bytes) : ClientEvent := { received := [batch] }

/-- The request of the task that hands it to `Router::handle`. -/
def dispatchedRequest (actions : List Action) : Option HttpRequest :=
  actions.findSome? fun action =>
    match action with
    | .enqueue (.http request _) => some request
    | _ => none

/-- One request handed to the router: its bytes, and those of them that an
earlier event had already shown to the parser. -/
structure Dispatch where
  request : HttpRequest
  bytes : Bytes
  seen : Bytes
deriving DecidableEq, Repr

/-- A connection that receives batches. `seen` is the part of the pending
request that the parser has been shown; once the worker has disconnected the
client, no event reaches the connection. -/
structure Delivery where
  connection : ClientConnection := { handshakeComplete := true }
  seen : Bytes := []
  disconnected : Bool := false
  dispatched : List Dispatch := []

def Delivery.receive (crypto : Crypto) (delivery : Delivery) (batch : Bytes) : Delivery :=
  if delivery.disconnected then delivery
  else
    let buffer := delivery.connection.readBuffer ++ batch
    let handled := handleClientData crypto delivery.connection (batchEvent batch)
    match dispatchedRequest handled.2 with
    | some request =>
        { connection := handled.1
          seen := []
          disconnected := handled.2.contains .disconnect
          dispatched := delivery.dispatched ++
            [{ request := request
               bytes := buffer.take (buffer.length - handled.1.readBuffer.length)
               seen := delivery.seen }] }
    | none =>
        { connection := handled.1
          seen := buffer
          disconnected := handled.2.contains .disconnect
          dispatched := delivery.dispatched }

def deliver (crypto : Crypto) (batches : List Bytes) : Delivery :=
  batches.foldl (Delivery.receive crypto) {}

/-- The request handed over when one event brings all its bytes. -/
def oneEvent (crypto : Crypto) (bytes : Bytes) : Option HttpRequest :=
  dispatchedRequest (handleClientData crypto { handshakeComplete := true } (batchEvent bytes)).2

/-- A fresh parser either waits, untouched, for the end of the first line, or
has passed that line and knows the method. -/
theorem fresh_parse_cases {data : Bytes} {request : HttpRequest} {result : ParseResult}
    {stopped : Reading} (parsed : HttpParser.parse data {} request = (result, stopped))
    (accepted : result ≠ .invalid) :
    (result = .incomplete ∧ ¬crlf <:+: data ∧ stopped.1 = {}) ∨
      (crlf <:+: data ∧ stopped.1.state ≠ .requestLine ∧ stopped.2.method ≠ .unknown) := by
  have searched := find_sub_eq_none_iff_not_infix crlf data (by decide)
  unfold HttpParser.parse at parsed
  cases turned : HttpParser.parseTurn data ({}, request) with
  | done outcome =>
      rw [(HttpParser.parseLoop data).run_done turned] at parsed
      subst parsed
      obtain ⟨waiting, same, _, absent, _⟩ :=
        handle_request_line_waits ((parse_turn_done_iff _ _ _ _).mp turned) accepted
      left
      exact ⟨waiting, searched.mp absent, by rw [same]⟩
  | next following =>
      rw [(HttpParser.parseLoop data).run_next turned] at parsed
      obtain ⟨lineEnd, _, found, _, line, moved⟩ :=
        HttpParser.handle_request_line_advances ((HttpParser.parse_turn_next_iff _ _ _).mp turned)
      have behind : following.1.state ≠ .requestLine := by
        rw [moved]
        simp
      obtain ⟨still, method⟩ := run_keeps_method data following behind
      rw [parsed] at still method
      right
      refine ⟨?_, still, ?_⟩
      · by_contra absent
        rw [show findSub crlf data = some lineEnd from found] at searched
        exact absurd (searched.mpr absent) (by simp)
      · rw [method]
        exact (HttpParser.parse_request_line_completes line).1

theorem dispatched_frames (control : List WebSocketFrame) {buffer rest : Bytes} {last : Action}
    (ended : FrameEnd buffer control rest last) :
    dispatchedRequest (List.replicate control.length (.modify .readable) ++ [last]) = none := by
  have skipped : ∀ count, dispatchedRequest
      (List.replicate count (.modify .readable) ++ [last]) = dispatchedRequest [last] := by
    intro count
    induction count with
    | zero => rfl
    | succ count ih => exact ih
  rw [skipped]
  cases ended <;> rfl

/-- What a batch does to an established connection: it hands over the request
that the parser completes on the extended buffer, or none. -/
theorem batch_cases (crypto : Crypto) {connection : ClientConnection} {batch : Bytes}
    (established : connection.handshakeComplete = true) (plain : connection.isHttp2 = false)
    {after : ClientConnection} {actions : List Action}
    (handled : Handled crypto connection (batchEvent batch) after actions) :
    (∃ stopped, connection.isWebSocket = false ∧
        HttpParser.parse (connection.readBuffer ++ batch) connection.parser {} =
          (.complete, stopped) ∧
        wantsUpgrade stopped.2 = false ∧
        stopped.1.consumed ≤ (connection.readBuffer ++ batch).length ∧
        dispatchedRequest actions = some stopped.2 ∧
        after = { connection with
          parser := {}, readBuffer := (connection.readBuffer ++ batch).drop stopped.1.consumed }) ∨
      (dispatchedRequest actions = none ∧
        (∀ stopped, connection.isWebSocket = false →
          HttpParser.parse (connection.readBuffer ++ batch) connection.parser {} =
            (.complete, stopped) →
          stopped.1.consumed ≤ (connection.readBuffer ++ batch).length →
            wantsUpgrade stopped.2 = true) ∧
        (actions.contains .disconnect = true ∨
          (after.handshakeComplete = true ∧ after.isHttp2 = false ∧ after.isWebSocket = true) ∨
          ∃ stopped, connection.isWebSocket = false ∧
            HttpParser.parse (connection.readBuffer ++ batch) connection.parser {} =
              (.incomplete, stopped) ∧
            after = { connection with
              readBuffer := connection.readBuffer ++ batch, parser := stopped.1 })) := by
  have shaken : connection.doHandshake (batchEvent batch).handshake = .ready connection := by
    simp only [doHandshake, established, if_true]
  have whole : ∀ opened, afterRead connection (batchEvent batch) = some opened →
      opened = { connection with readBuffer := connection.readBuffer ++ batch } := by
    intro opened received
    simp only [afterRead, shaken, Option.some.injEq] at received
    rw [← received]
    simp [batchEvent]
  cases handled with
  | handshakeFailed threw =>
      rw [shaken] at threw
      cases threw
  | handshakePending interest pending =>
      rw [shaken] at pending
      cases pending
  | closed opened received ended => exact absurd rfl ended.1
  | http2 opened received _ negotiated _ _ _ _ =>
      rw [whole opened received] at negotiated
      exact absurd (plain.symm.trans negotiated) (by decide)
  | request opened received _ _ notUpgraded _ _ served =>
      rw [whole opened received] at served notUpgraded
      cases served with
      | waits stopped parsed =>
          refine Or.inr ⟨rfl, ?_, Or.inr (Or.inr ⟨stopped, notUpgraded, parsed, rfl⟩)⟩
          intro other _ complete _
          exact absurd (parsed.symm.trans complete) (by simp)
      | refuses stopped parsed =>
          refine Or.inr ⟨rfl, ?_, Or.inl (by simp)⟩
          intro other _ complete _
          exact absurd (parsed.symm.trans complete) (by simp)
      | upgradeFails stopped greeting parsed wanted =>
          refine Or.inr ⟨rfl, ?_, Or.inl (by simp)⟩
          intro other _ complete _
          cases parsed.symm.trans complete
          exact wanted
      | upgrades stopped greeting parsed wanted _ inside =>
          refine Or.inr ⟨rfl, ?_, Or.inr (Or.inl ⟨established, plain, rfl⟩)⟩
          intro other _ complete _
          cases parsed.symm.trans complete
          exact wanted
      | dispatchFails stopped parsed outside =>
          refine Or.inr ⟨rfl, ?_, Or.inl (by simp)⟩
          intro other _ complete inside
          cases parsed.symm.trans complete
          exact absurd outside (Nat.not_lt.mpr inside)
      | dispatches stopped parsed unwanted inside =>
          exact Or.inl ⟨stopped, notUpgraded, parsed, unwanted, inside, rfl, rfl⟩
  | frames opened received _ _ upgraded control rest last _ ended =>
      rw [whole opened received] at upgraded ended ⊢
      refine Or.inr ⟨dispatched_frames control ended, ?_,
        Or.inr (Or.inl ⟨established, plain, upgraded⟩)⟩
      intro _ notUpgraded
      exact absurd (notUpgraded.symm.trans upgraded) (by decide)

theorem one_event_eq_some_iff (crypto : Crypto) (bytes : Bytes) (request : HttpRequest) :
    oneEvent crypto bytes = some request ↔
      ∃ stopped, HttpParser.parse bytes {} {} = (.complete, stopped) ∧
        wantsUpgrade stopped.2 = false ∧ stopped.1.consumed ≤ bytes.length ∧
        stopped.2 = request := by
  have handled := handle_client_data_handled crypto { handshakeComplete := true }
    (batchEvent bytes)
  unfold oneEvent
  rcases batch_cases crypto rfl rfl handled with
    ⟨stopped, _, parsed, unwanted, inside, dispatched, _⟩ | ⟨nothing, complete_upgrades, _⟩
  · rw [dispatched]
    constructor
    · intro same
      exact ⟨stopped, parsed, unwanted, inside, Option.some.inj same⟩
    · rintro ⟨other, parsedOther, _, _, same⟩
      have outcome : (ParseResult.complete, stopped) = (.complete, other) :=
        parsed.symm.trans parsedOther
      cases outcome
      rw [same]
  · rw [nothing]
    constructor
    · intro absent
      cases absent
    · rintro ⟨stopped, parsed, unwanted, inside, _⟩
      have wanted := complete_upgrades stopped rfl parsed inside
      rw [unwanted] at wanted
      cases wanted

/-- What is known of the request being received: before its request line has
been shown to the parser, the parser is as new; afterwards it never goes back. -/
def Delivery.Pending (delivery : Delivery) : Prop :=
  delivery.connection.handshakeComplete = true ∧ delivery.connection.isHttp2 = false ∧
    (delivery.connection.isWebSocket = true ∨
      (delivery.seen <+: delivery.connection.readBuffer ∧
        ((¬crlf <:+: delivery.seen ∧ delivery.connection.parser = {}) ∨
          (crlf <:+: delivery.seen ∧ delivery.connection.parser.state ≠ .requestLine))))

/-- A request is whole exactly when no earlier event had seen its line. -/
def Dispatch.WholeIffUnseen (crypto : Crypto) (dispatch : Dispatch) : Prop :=
  oneEvent crypto dispatch.bytes = some dispatch.request ↔ ¬crlf <:+: dispatch.seen

theorem dispatch_whole_iff (crypto : Crypto) {buffer seen : Bytes} {parser : HttpParser}
    {stopped : Reading}
    (complete : HttpParser.parse buffer parser {} = (.complete, stopped))
    (unwanted : wantsUpgrade stopped.2 = false) (inside : stopped.1.consumed ≤ buffer.length)
    (pending : (¬crlf <:+: seen ∧ parser = {}) ∨
      (crlf <:+: seen ∧ parser.state ≠ .requestLine)) :
    oneEvent crypto (buffer.take stopped.1.consumed) = some stopped.2 ↔ ¬crlf <:+: seen := by
  rw [one_event_eq_some_iff]
  rcases pending with ⟨unseen, rfl⟩ | ⟨seenLine, behind⟩
  · obtain ⟨_, _, cut⟩ := complete_run_take ({}, {}) fresh_counters (Nat.zero_le _) complete
    have length : (buffer.take stopped.1.consumed).length = stopped.1.consumed := by
      rw [List.length_take, Nat.min_eq_left inside]
    constructor
    · exact fun _ => unseen
    · intro _
      exact ⟨stopped, cut _ (Nat.le_refl _), unwanted, Nat.le_of_eq length.symm, rfl⟩
  · have method := (run_keeps_method buffer (parser, {}) behind).2
    unfold HttpParser.parse at complete
    rw [complete] at method
    constructor
    · rintro ⟨other, parsed, _, _, same⟩
      exfalso
      rcases fresh_parse_cases parsed (by decide) with ⟨waiting, _⟩ | ⟨_, _, known⟩
      · cases waiting
      · rw [same] at known
        exact known method
    · exact fun unseen => absurd seenLine unseen

theorem receive_keeps (crypto : Crypto) (delivery : Delivery) (batch : Bytes)
    (pending : delivery.disconnected = true ∨ delivery.Pending)
    (dispatches : ∀ dispatch ∈ delivery.dispatched, dispatch.WholeIffUnseen crypto) :
    ((delivery.receive crypto batch).disconnected = true ∨
        (delivery.receive crypto batch).Pending) ∧
      ∀ dispatch ∈ (delivery.receive crypto batch).dispatched,
        dispatch.WholeIffUnseen crypto := by
  unfold Delivery.receive
  split
  · exact ⟨pending, dispatches⟩
  · rename_i connected
    obtain ⟨established, plain, waiting⟩ := pending.resolve_left connected
    have handled := handle_client_data_handled crypto delivery.connection (batchEvent batch)
    dsimp only
    rcases batch_cases crypto established plain handled with
      ⟨stopped, notUpgraded, parsed, unwanted, inside, dispatched, after⟩ |
        ⟨nothing, _, outcome⟩
    · rw [dispatched, after]
      obtain ⟨_, line⟩ := waiting.resolve_left (by rw [notUpgraded]; decide)
      constructor
      · right
        have unseen : ¬crlf <:+: ([] : Bytes) := by decide
        exact ⟨established, plain, Or.inr ⟨List.nil_prefix, Or.inl ⟨unseen, rfl⟩⟩⟩
      · intro dispatch member
        rcases List.mem_append.mp member with earlier | last
        · exact dispatches dispatch earlier
        · rw [List.mem_singleton] at last
          subst last
          have length : (delivery.connection.readBuffer ++ batch).length -
              ((delivery.connection.readBuffer ++ batch).drop stopped.1.consumed).length =
                stopped.1.consumed := by
            rw [List.length_drop]
            omega
          unfold Dispatch.WholeIffUnseen
          dsimp only
          rw [length]
          exact dispatch_whole_iff crypto parsed unwanted inside line
    · rw [nothing]
      refine ⟨?_, dispatches⟩
      rcases outcome with gone | ⟨shaken, still, upgraded⟩ | ⟨stopped, notUpgraded, parsed, after⟩
      · exact Or.inl gone
      · exact Or.inr ⟨shaken, still, Or.inl upgraded⟩
      · right
        obtain ⟨shown, line⟩ := waiting.resolve_left (by rw [notUpgraded]; decide)
        rw [after]
        refine ⟨established, plain, Or.inr ⟨List.prefix_refl _, ?_⟩⟩
        dsimp only
        rcases line with ⟨_, fresh⟩ | ⟨seenLine, behind⟩
        · rw [fresh] at parsed
          rcases fresh_parse_cases parsed (by decide) with
            ⟨_, unseen, same⟩ | ⟨seenLine, passed, _⟩
          · exact Or.inl ⟨unseen, same⟩
          · exact Or.inr ⟨seenLine, passed⟩
        · have still := (run_keeps_method (delivery.connection.readBuffer ++ batch)
            (delivery.connection.parser, {}) behind).1
          unfold HttpParser.parse at parsed
          rw [parsed] at still
          exact Or.inr ⟨seenLine.trans (shown.isInfix.trans (List.prefix_append _ _).isInfix), still⟩

theorem deliver_keeps (crypto : Crypto) (batches : List Bytes) (delivery : Delivery)
    (pending : delivery.disconnected = true ∨ delivery.Pending)
    (dispatches : ∀ dispatch ∈ delivery.dispatched, dispatch.WholeIffUnseen crypto) :
    ∀ dispatch ∈ (batches.foldl (Delivery.receive crypto) delivery).dispatched,
      dispatch.WholeIffUnseen crypto := by
  induction batches generalizing delivery with
  | nil => exact dispatches
  | cons batch batches ih =>
      obtain ⟨pending, dispatches⟩ := receive_keeps crypto delivery batch pending dispatches
      exact ih _ pending dispatches

/-- However a stream is cut into readable events, a request handed to the
router is the one its bytes give in a single event exactly when no line end
among them had been shown to the parser by an earlier event. -/
theorem dispatched_whole_iff_line_unseen (crypto : Crypto) (batches : List Bytes)
    (dispatch : Dispatch) (handedOver : dispatch ∈ (deliver crypto batches).dispatched) :
    oneEvent crypto dispatch.bytes = some dispatch.request ↔ ¬crlf <:+: dispatch.seen := by
  apply deliver_keeps crypto batches {} ?_ ?_ dispatch handedOver
  · right
    exact ⟨rfl, rfl, Or.inr ⟨List.prefix_refl _, Or.inl ⟨by decide, rfl⟩⟩⟩
  · intro earlier member
    cases member

def noAcceptKey : Crypto := { generateAcceptKey := fun _ => [] }

def cutInLine : Dispatch where
  request :=
    { method := .get, target := ascii "/", version := ascii "HTTP/1.1", path := ascii "/"
      headers := ⟨[(ascii "Host", ascii "x")]⟩ }
  bytes := ascii "GET / HTTP/1.1\r\nHost: x\r\n\r\n"
  seen := ascii "GET / HT"

theorem dispatched_whole_iff_line_unseen_cut_in_line :
    cutInLine ∈ (deliver noAcceptKey
        [ascii "GET / HT", ascii "TP/1.1\r\nHost: x\r\n\r\n"]).dispatched ∧
      (oneEvent noAcceptKey cutInLine.bytes = some cutInLine.request ↔
        ¬crlf <:+: cutInLine.seen) :=
  ⟨by decide +kernel, dispatched_whole_iff_line_unseen noAcceptKey
    [ascii "GET / HT", ascii "TP/1.1\r\nHost: x\r\n\r\n"] cutInLine (by decide +kernel)⟩

/-- Cut behind the request line, the request reaches the router without method
and path. -/
theorem cut_behind_line_loses_request :
    (deliver noAcceptKey
        [ascii "GET / HTTP/1.1\r\n", ascii "Host: x\r\n\r\n"]).disconnected = false ∧
      ¬∀ dispatch ∈ (deliver noAcceptKey
          [ascii "GET / HTTP/1.1\r\n", ascii "Host: x\r\n\r\n"]).dispatched,
        oneEvent noAcceptKey dispatch.bytes = some dispatch.request := by
  decide +kernel

end HttpServer.ConnectionFragments
