import HttpServer.ConnectionFragments
import HttpServer.HeaderMultimap

/-!
# Upgrade, keep-alive or close

For a parsed request `handleClientData` upgrades the connection or hands the request
to the pool, with or without keep-alive. Two requests that differ in letter case only
are compared: the `Upgrade` value and the word `close` are compared without letter
case, the word `Upgrade` in the `Connection` value is searched for as it is.
-/

namespace HttpServer.UpgradeDecision

open ListSearch Worker ClientHandling ParserResume ParserPrefix HeaderMultimap

inductive Decision where
  | upgrade | keepAlive | close
deriving DecidableEq, Repr

def decision : List Action → Option Decision
  | .send _ :: _ => some .upgrade
  | .enqueue (.http _ keepAlive) :: _ => some (if keepAlive then .keepAlive else .close)
  | _ => none

def decided (request : HttpRequest) : Decision :=
  if wantsUpgrade request then .upgrade else if keepsAlive request then .keepAlive else .close

def ParsesRequest (connection : ClientConnection) (event : ClientEvent) (request : HttpRequest) :
    Prop :=
  ∃ opened stopped, afterRead connection event = some opened ∧
    (event.readEnd = .wantRead ∨ event.readEnd = .wantWrite) ∧ opened.isHttp2 = false ∧
    opened.isWebSocket = false ∧ CountersOk opened.parser ∧
    opened.parser.consumed ≤ opened.readBuffer.length ∧
    HttpParser.parse opened.readBuffer opened.parser {} = (.complete, stopped) ∧
    stopped.2 = request

theorem served_decision {crypto : Crypto} {event : ClientEvent} {opened after : ClientConnection}
    {actions : List Action} {stopped : Reading} (counters : CountersOk opened.parser)
    (inside : opened.parser.consumed ≤ opened.readBuffer.length)
    (complete : HttpParser.parse opened.readBuffer opened.parser {} = (.complete, stopped))
    (served : Served crypto event opened after actions) :
    decision actions = some (decided stopped.2) := by
  cases served with
  | waits other parsed => cases complete.symm.trans parsed
  | refuses other parsed => cases complete.symm.trans parsed
  | upgradeFails other greeting parsed wanted =>
      cases complete.symm.trans parsed
      rw [decided, if_pos wanted, decision]
  | upgrades other greeting parsed wanted greeted inside =>
      cases complete.symm.trans parsed
      rw [decided, if_pos wanted, decision]
  | dispatchFails other parsed outside =>
      cases complete.symm.trans parsed
      obtain ⟨_, within, _⟩ := complete_run_take (opened.parser, {}) counters inside complete
      exact absurd within (Nat.not_le.mpr outside)
  | dispatches other parsed unwanted inside =>
      cases complete.symm.trans parsed
      rw [decided, if_neg (by rw [unwanted]; decide), decision]

theorem handler_decision (crypto : Crypto) {connection : ClientConnection} {event : ClientEvent}
    {request : HttpRequest} (parses : ParsesRequest connection event request) :
    decision (handleClientData crypto connection event).2 = some (decided request) := by
  obtain ⟨opened, stopped, received, reading, plain, notUpgraded, counters, inside, complete, rfl⟩ :=
    parses
  have handled := handle_client_data_handled crypto connection event
  revert handled
  obtain ⟨after, actions⟩ := handleClientData crypto connection event
  intro handled
  dsimp only at handled ⊢
  cases handled with
  | handshakeFailed threw => simp [afterRead, threw] at received
  | handshakePending interest pending => simp [afterRead, pending] at received
  | closed other _ ended =>
      rcases reading with reads | writes
      · exact absurd reads ended.1
      · exact absurd writes ended.2
  | http2 other receivedOther _ negotiated =>
      cases received.symm.trans receivedOther
      rw [plain] at negotiated
      cases negotiated
  | request other receivedOther _ _ _ _ _ served =>
      cases received.symm.trans receivedOther
      exact served_decision counters inside complete served
  | frames other receivedOther _ _ upgraded =>
      cases received.symm.trans receivedOther
      rw [notUpgraded] at upgraded
      cases upgraded

/-- The values that may differ in letter case between the two requests. -/
def isCased (name : Bytes) : Bool :=
  utils.equalsIgnoreCase name (ascii "Upgrade") ||
    utils.equalsIgnoreCase name (ascii "Connection")

structure SameField (left right : Bytes × Bytes) : Prop where
  name : folded left.1 = folded right.1
  value : if isCased left.1 then folded left.2 = folded right.2 else left.2 = right.2

/-- The same fields up to the letter case of names and of those values. -/
def SameButCase (first second : HttpRequest) : Prop :=
  List.Forall₂ SameField first.headers.headers second.headers.headers

section Lookups

theorem same_name_as {left right : Bytes} (same : folded left = folded right) (name : Bytes) :
    HttpHeaders.equalsIgnoreCase left name = HttpHeaders.equalsIgnoreCase right name := by
  rw [Bool.eq_iff_iff, same_name_iff, same_name_iff, same]

theorem cased_name {left right : Bytes} (same : folded left = folded right) :
    isCased left = isCased right := by
  unfold isCased
  exact congrArg₂ _ (same_name_as same _) (same_name_as same _)

theorem same_lookup (name : Bytes) {first second : List (Bytes × Bytes)}
    (same : List.Forall₂ SameField first second) :
    if isCased name then
      folded (HttpHeaders.get ⟨first⟩ name) = folded (HttpHeaders.get ⟨second⟩ name)
    else HttpHeaders.get ⟨first⟩ name = HttpHeaders.get ⟨second⟩ name := by
  unfold HttpHeaders.get
  induction same with
  | nil =>
      split
      all_goals rfl
  | @cons left right _ _ fields _ ih =>
      rw [List.find?_cons, List.find?_cons, ← same_name_as fields.name name]
      cases named : HttpHeaders.equalsIgnoreCase left.1 name with
      | false => exact ih
      | true =>
          have kind := cased_name ((same_name_iff left.1 name).mp named)
          rw [← kind]
          exact fields.value

variable {first second : HttpRequest}

theorem same_cased_header (same : SameButCase first second) (name : Bytes)
    (cased : isCased name = true) : folded (first.header name) = folded (second.header name) := by
  have found := same_lookup name same
  rwa [if_pos cased] at found

theorem same_header (same : SameButCase first second) (name : Bytes)
    (plain : isCased name = false) : first.header name = second.header name := by
  have found := same_lookup name same
  rwa [plain, if_neg Bool.false_ne_true] at found

end Lookups

/-- What the upgrade needs beside the word in the `Connection` value. -/
def asksWebSocket (request : HttpRequest) : Bool :=
  HttpHeaders.equalsIgnoreCase (request.header (ascii "Upgrade")) (ascii "websocket") &&
    !(request.header (ascii "Sec-WebSocket-Key")).isEmpty

/-- The word as `handleClientData` searches for it. -/
def namesUpgrade (request : HttpRequest) : Bool :=
  (findSub (ascii "Upgrade") (request.header (ascii "Connection"))).isSome

def closes (request : HttpRequest) : Bool :=
  HttpHeaders.equalsIgnoreCase (request.header (ascii "Connection")) (ascii "close")

section Comparison

variable {first second : HttpRequest}

theorem decided_eq (request : HttpRequest) :
    decided request =
      if asksWebSocket request && namesUpgrade request then .upgrade
      else if decide (request.version = ascii "HTTP/1.1") && !closes request then .keepAlive
      else .close := by
  have wanted : wantsUpgrade request = (asksWebSocket request && namesUpgrade request) := by
    rw [wantsUpgrade, asksWebSocket, namesUpgrade, Bool.and_right_comm]
  rw [decided, wanted, keepsAlive, closes]

theorem asks_ignores_case (same : SameButCase first second) :
    asksWebSocket first = asksWebSocket second := by
  have upgrade := same_cased_header same (ascii "Upgrade") (by decide +kernel)
  have key := same_header same (ascii "Sec-WebSocket-Key") (by decide +kernel)
  rw [asksWebSocket, asksWebSocket, same_name_as upgrade, key]

theorem closes_ignores_case (same : SameButCase first second) : closes first = closes second := by
  have connection := same_cased_header same (ascii "Connection") (by decide +kernel)
  rw [closes, closes, same_name_as connection]

/-- The two choices over all outcomes of the comparisons. -/
theorem choices_agree_iff : ∀ asks closing named namedOther current currentOther : Bool,
    (if asks && named then Decision.upgrade else if current && !closing then .keepAlive
        else .close) =
      (if asks && namedOther then Decision.upgrade else if currentOther && !closing then .keepAlive
        else .close) ↔
      (asks = true → named = namedOther) ∧
        (¬(asks = true ∧ named = true) → closing = false → current = currentOther) := by
  decide

end Comparison

/-- The decisions for two requests that differ in letter case agree exactly when the
search for `Upgrade` comes out alike where it matters, and the requests carry the
same version, as all requests do that were parsed in one event. -/
theorem decision_ignores_case_iff (crypto : Crypto) {here there : ClientConnection}
    {event other : ClientEvent} {first second : HttpRequest}
    (parsesFirst : ParsesRequest here event first)
    (parsesSecond : ParsesRequest there other second) (same : SameButCase first second) :
    decision (handleClientData crypto here event).2 =
        decision (handleClientData crypto there other).2 ↔
      (asksWebSocket first = true → namesUpgrade first = namesUpgrade second) ∧
        (¬(asksWebSocket first = true ∧ namesUpgrade first = true) → closes first = false →
          (first.version = ascii "HTTP/1.1" ↔ second.version = ascii "HTTP/1.1")) := by
  have versions : (first.version = ascii "HTTP/1.1" ↔ second.version = ascii "HTTP/1.1") ↔
      decide (first.version = ascii "HTTP/1.1") = decide (second.version = ascii "HTTP/1.1") :=
    decide_eq_decide.symm
  rw [handler_decision crypto parsesFirst, handler_decision crypto parsesSecond, decided_eq,
    decided_eq, ← asks_ignores_case same, ← closes_ignores_case same, versions, Option.some_inj]
  exact choices_agree_iff _ _ _ _ _ _

section Handshakes

instance decidableSameField (left right : Bytes × Bytes) : Decidable (SameField left right) :=
  decidable_of_iff
    (folded left.1 = folded right.1 ∧
      if isCased left.1 then folded left.2 = folded right.2 else left.2 = right.2)
    ⟨fun both => ⟨both.1, both.2⟩, fun same => ⟨same.name, same.value⟩⟩

/-- A handshake with that value of the `Connection` field. -/
def handshakeText (connection : Bytes) : Bytes :=
  ascii "GET /chat HTTP/1.1\r\nUpgrade: websocket\r\nConnection: " ++ connection ++
    ascii "\r\nSec-WebSocket-Key: x\r\n\r\n"

def handshakeRequest (connection : Bytes) : HttpRequest :=
  (HttpParser.parse (handshakeText connection) {} {}).2.2

def sentRequest (connection : Bytes) : HttpRequest where
  method := .get
  target := ascii "/chat"
  version := ascii "HTTP/1.1"
  path := ascii "/chat"
  headers := ⟨[(ascii "Upgrade", ascii "websocket"), (ascii "Connection", connection),
    (ascii "Sec-WebSocket-Key", ascii "x")]⟩

def IsRead (connection : Bytes) : Prop :=
  (HttpParser.parse (handshakeText connection) {} {}).1 = .complete ∧
    handshakeRequest connection = sentRequest connection

instance (connection : Bytes) : Decidable (IsRead connection) :=
  inferInstanceAs (Decidable (_ ∧ _))

theorem handshake_parses {connection : Bytes} (read : IsRead connection) :
    ParsesRequest { handshakeComplete := true }
      (ConnectionFragments.batchEvent (handshakeText connection)) (handshakeRequest connection) := by
  refine ⟨{ handshakeComplete := true, readBuffer := handshakeText connection },
    (HttpParser.parse (handshakeText connection) {} {}).2, ?_, Or.inl rfl, rfl, rfl,
    fresh_counters, Nat.zero_le _, Prod.ext read.1 rfl, rfl⟩
  simp [afterRead, ClientConnection.doHandshake, ConnectionFragments.batchEvent]

theorem handshake_decision {connection : Bytes} (read : IsRead connection) :
    decision (handleClientData ConnectionFragments.noAcceptKey { handshakeComplete := true }
        (ConnectionFragments.batchEvent (handshakeText connection))).2 =
      some (decided (sentRequest connection)) := by
  rw [handler_decision ConnectionFragments.noAcceptKey (handshake_parses read), read.2]

theorem decision_ignores_case_iff_close :
    decision (handleClientData ConnectionFragments.noAcceptKey { handshakeComplete := true }
        (ConnectionFragments.batchEvent (handshakeText (ascii "close")))).2 =
      decision (handleClientData ConnectionFragments.noAcceptKey { handshakeComplete := true }
        (ConnectionFragments.batchEvent (handshakeText (ascii "Close")))).2 := by
  have lower : IsRead (ascii "close") := by decide +kernel
  have upper : IsRead (ascii "Close") := by decide +kernel
  refine (decision_ignores_case_iff ConnectionFragments.noAcceptKey (handshake_parses lower)
    (handshake_parses upper) ?_).mpr ?_
  · rw [lower.2, upper.2]
    unfold SameButCase
    decide +kernel
  · rw [lower.2, upper.2]
    decide +kernel

/-- The handshake is missed when the client writes the word in lower case. -/
theorem lower_case_upgrade_missed :
    SameButCase (handshakeRequest (ascii "Upgrade")) (handshakeRequest (ascii "upgrade")) ∧
      ParsesRequest { handshakeComplete := true }
        (ConnectionFragments.batchEvent (handshakeText (ascii "Upgrade")))
        (handshakeRequest (ascii "Upgrade")) ∧
      ParsesRequest { handshakeComplete := true }
        (ConnectionFragments.batchEvent (handshakeText (ascii "upgrade")))
        (handshakeRequest (ascii "upgrade")) ∧
      decision (handleClientData ConnectionFragments.noAcceptKey { handshakeComplete := true }
        (ConnectionFragments.batchEvent (handshakeText (ascii "Upgrade")))).2 = some .upgrade ∧
      decision (handleClientData ConnectionFragments.noAcceptKey { handshakeComplete := true }
        (ConnectionFragments.batchEvent (handshakeText (ascii "upgrade")))).2 =
          some .keepAlive := by
  have upper : IsRead (ascii "Upgrade") := by decide +kernel
  have lower : IsRead (ascii "upgrade") := by decide +kernel
  refine ⟨?_, handshake_parses upper, handshake_parses lower, ?_, ?_⟩
  · rw [upper.2, lower.2]
    unfold SameButCase
    decide +kernel
  · rw [handshake_decision upper]
    decide +kernel
  · rw [handshake_decision lower]
    decide +kernel

end Handshakes

end HttpServer.UpgradeDecision
