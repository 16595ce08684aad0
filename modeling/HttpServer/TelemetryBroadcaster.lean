import HttpServer.ClientSend
import HttpServer.TcpServer

/-!
# `TelemetryBroadcaster`

The route `/api/telemetry` adds the connection of every text message `subscribe`
to a vector of weak pointers, whether it is there or not. Once a second the
thread goes through the vector: `remove_if` applies its predicate to each entry
once, and the predicate sends to a connection that is still there. Nothing
catches what a send throws, so that an exception ends the thread and the process
with it. A pass is one step: it holds the mutex that `addClient` waits for.
-/

namespace HttpServer

open ClientConnection

namespace services

structure TelemetryBroadcaster where
  /-- The paths with which the connections so far were upgraded. -/
  wsPaths : List Bytes := []
  /-- Whether a `shared_ptr` to the connection is left. -/
  live : ConnectionId → Bool := fun _ => false
  clients : List ConnectionId := []
  /-- An exception has left `run`. -/
  terminated : Bool := false

inductive TelemetryStep where
  | upgrade (wsPath : Bytes)
  | message (connection : ConnectionId) (frame : WebSocketFrame)
  | terminate (connection : ConnectionId)
  /-- A pass, with what `SSL_write` does for each of its sends. -/
  | pass (payload : Bytes) (outcomes : Nat → Nat → SslWrite)

namespace TelemetryBroadcaster

def addClient (broadcaster : TelemetryBroadcaster) (client : ConnectionId) :
    TelemetryBroadcaster :=
  { broadcaster with clients := broadcaster.clients ++ [client] }

abbrev WsHandler := TelemetryBroadcaster → ConnectionId → WebSocketFrame → TelemetryBroadcaster

def telemetryRoute : WsHandler := fun broadcaster connection frame =>
  if frame.opcode = .text ∧ frame.payload = ascii "subscribe" then
    broadcaster.addClient connection
  else broadcaster

/-- The chat route answers on the connection and leaves the broadcaster alone. -/
def chatRoute : WsHandler := fun broadcaster _ _ => broadcaster

def wsRoutes : List (Bytes × WsHandler) :=
  [(ascii "/api/telemetry", telemetryRoute), (ascii "/api/chat", chatRoute)]

def handleWs (broadcaster : TelemetryBroadcaster) (connection : ConnectionId)
    (frame : WebSocketFrame) : TelemetryBroadcaster :=
  match (broadcaster.wsPaths[connection]?).bind fun path => wsRoutes.lookup path with
  | some handler => handler broadcaster connection frame
  | none => broadcaster

/-- `remove_if` over the entries: the sends made, and the entries kept, `none`
when a send throws. -/
def removeIf (live : ConnectionId → Bool) (payload : Bytes) (outcomes : Nat → Nat → SslWrite) :
    List ConnectionId → Nat → List ConnectionId × Option (List ConnectionId)
  | [], _ => ([], some [])
  | connection :: rest, sends =>
      if live connection then
        match (sendWebSocketMessage payload .text (outcomes sends)).2 with
        | .threw => ([connection], none)
        | .returned =>
            let later := removeIf live payload outcomes rest (sends + 1)
            (connection :: later.1, later.2.map (connection :: ·))
      else removeIf live payload outcomes rest sends

def broadcast (broadcaster : TelemetryBroadcaster) (payload : Bytes)
    (outcomes : Nat → Nat → SslWrite) : List ConnectionId × Option (List ConnectionId) :=
  removeIf broadcaster.live payload outcomes broadcaster.clients 0

def step (broadcaster : TelemetryBroadcaster) (label : TelemetryStep) :
    Option TelemetryBroadcaster :=
  if broadcaster.terminated then none
  else
    match label with
    | .upgrade wsPath =>
        some { broadcaster with
          wsPaths := broadcaster.wsPaths ++ [wsPath]
          live := Function.update broadcaster.live broadcaster.wsPaths.length true }
    | .message connection frame =>
        if broadcaster.live connection then some (broadcaster.handleWs connection frame) else none
    | .terminate connection =>
        if broadcaster.live connection then
          some { broadcaster with live := Function.update broadcaster.live connection false }
        else none
    | .pass payload outcomes =>
        match (broadcaster.broadcast payload outcomes).2 with
        | some clients => some { broadcaster with clients := clients }
        | none => some { broadcaster with terminated := true }

end TelemetryBroadcaster

end services

namespace TelemetryBroadcaster

open TransitionSystem services services.TelemetryBroadcaster

def subscribes (broadcaster : services.TelemetryBroadcaster) (client : ConnectionId) :
    TelemetryStep → Bool
  | .message connection frame =>
      decide (connection = client ∧
        broadcaster.wsPaths[connection]? = some (ascii "/api/telemetry") ∧
        frame.opcode = .text ∧ frame.payload = ascii "subscribe")
  | _ => false

def subscriptions (client : ConnectionId) :
    services.TelemetryBroadcaster → List TelemetryStep → Nat
  | _, [] => 0
  | broadcaster, label :: labels =>
      (if subscribes broadcaster client label then 1 else 0) +
        ((step broadcaster label).map fun following =>
          subscriptions client following labels).getD 0

/-- The pass sends once to each live connection that has subscribed, takes out
the entries of the others, and the thread goes on. -/
def DeliversOnce (subscribed : ConnectionId → Nat) (broadcaster : services.TelemetryBroadcaster)
    (payload : Bytes) (outcomes : Nat → Nat → SslWrite) : Prop :=
  (∀ client, (broadcaster.broadcast payload outcomes).1.count client =
      if broadcaster.live client = true ∧ 1 ≤ subscribed client then 1 else 0) ∧
    step broadcaster (.pass payload outcomes) =
      some { broadcaster with clients := broadcaster.clients.filter broadcaster.live }

section Pass

variable {live : ConnectionId → Bool} {payload : Bytes} {outcomes : Nat → Nat → SslWrite}

theorem remove_if_returns {clients : List ConnectionId} {sends : Nat}
    (returned : ∀ send < (clients.filter live).length,
      (sendWebSocketMessage payload .text (outcomes (sends + send))).2 = .returned) :
    removeIf live payload outcomes clients sends =
      (clients.filter live, some (clients.filter live)) := by
  induction clients generalizing sends with
  | nil => rfl
  | cons client clients ih =>
      cases present : live client with
      | true =>
          rw [List.filter_cons_of_pos present] at returned ⊢
          rw [List.length_cons] at returned
          have rest := ih fun send below => by
            have later := returned (send + 1) (by omega)
            rwa [← Nat.add_assoc, Nat.add_right_comm] at later
          have first := returned 0 (by omega)
          rw [Nat.add_zero] at first
          rw [removeIf, if_pos present, first]
          dsimp only
          rw [rest]
          rfl
      | false =>
          have gone : ¬live client = true := by
            rw [present]
            decide
          rw [List.filter_cons_of_neg gone] at returned ⊢
          rw [removeIf, if_neg gone]
          exact ih returned

theorem remove_if_threw {clients : List ConnectionId} {sends send : Nat}
    (below : send < (clients.filter live).length)
    (threw : (sendWebSocketMessage payload .text (outcomes (sends + send))).2 = .threw) :
    (removeIf live payload outcomes clients sends).2 = none := by
  induction clients generalizing sends send with
  | nil => cases below
  | cons client clients ih =>
      cases present : live client with
      | true =>
          rw [List.filter_cons_of_pos present, List.length_cons] at below
          rw [removeIf, if_pos present]
          split
          · rfl
          · rename_i returned
            cases send with
            | zero =>
                rw [Nat.add_zero] at threw
                cases returned.symm.trans threw
            | succ send =>
                rw [← Nat.add_assoc, Nat.add_right_comm] at threw
                have rest := ih (by omega) threw
                dsimp only
                rw [rest]
                rfl
      | false =>
          have gone : ¬live client = true := by
            rw [present]
            decide
          rw [List.filter_cons_of_neg gone] at below
          rw [removeIf, if_neg gone]
          exact ih below threw

def SendsReturn (live : ConnectionId → Bool) (clients : List ConnectionId) (payload : Bytes)
    (outcomes : Nat → Nat → SslWrite) : Prop :=
  ∀ send < (clients.filter live).length,
    (sendWebSocketMessage payload .text (outcomes send)).2 = .returned

theorem remove_if_of_sends_return {clients : List ConnectionId}
    (returned : SendsReturn live clients payload outcomes) :
    removeIf live payload outcomes clients 0 =
      (clients.filter live, some (clients.filter live)) := by
  apply remove_if_returns
  intro send below
  rw [Nat.zero_add]
  exact returned send below

theorem remove_if_of_send_throws {clients : List ConnectionId}
    (throws : ¬SendsReturn live clients payload outcomes) :
    (removeIf live payload outcomes clients 0).2 = none := by
  simp only [SendsReturn, not_forall] at throws
  obtain ⟨send, below, other⟩ := throws
  apply remove_if_threw below
  rw [Nat.zero_add]
  cases ended : (sendWebSocketMessage payload .text (outcomes send)).2 with
  | returned => exact absurd ended other
  | threw => rfl

end Pass

section Runs

variable {broadcaster after : services.TelemetryBroadcaster}

theorem handle_ws_eq (broadcaster : services.TelemetryBroadcaster)
    (connection : ConnectionId) (frame : WebSocketFrame) :
    broadcaster.handleWs connection frame =
      if broadcaster.wsPaths[connection]? = some (ascii "/api/telemetry") ∧
          frame.opcode = .text ∧ frame.payload = ascii "subscribe" then
        broadcaster.addClient connection
      else broadcaster := by
  unfold handleWs
  cases upgraded : broadcaster.wsPaths[connection]? with
  | none => simp
  | some path =>
      by_cases telemetry : path = ascii "/api/telemetry"
      · subst telemetry
        simp [wsRoutes, telemetryRoute]
      · have passed : (path == ascii "/api/telemetry") = false := by
          simpa using telemetry
        by_cases chat : path = ascii "/api/chat"
        · subst chat
          simp [wsRoutes, List.lookup_cons, passed, telemetry, chatRoute]
        · have neither : (path == ascii "/api/chat") = false := by
            simpa using chat
          simp [wsRoutes, List.lookup_cons, passed, neither, telemetry]

theorem handle_ws_wsPaths (broadcaster : services.TelemetryBroadcaster)
    (connection : ConnectionId) (frame : WebSocketFrame) :
    (broadcaster.handleWs connection frame).wsPaths = broadcaster.wsPaths := by
  rw [handle_ws_eq]
  split <;> rfl

theorem handle_ws_live (broadcaster : services.TelemetryBroadcaster)
    (connection : ConnectionId) (frame : WebSocketFrame) :
    (broadcaster.handleWs connection frame).live = broadcaster.live := by
  rw [handle_ws_eq]
  split <;> rfl

theorem handle_ws_count (broadcaster : services.TelemetryBroadcaster)
    (connection client : ConnectionId) (frame : WebSocketFrame) :
    (broadcaster.handleWs connection frame).clients.count client =
      broadcaster.clients.count client +
        if subscribes broadcaster client (.message connection frame) then 1 else 0 := by
  rw [handle_ws_eq]
  unfold subscribes
  split
  · rename_i adds
    rw [addClient, List.count_append, List.count_singleton]
    by_cases same : connection = client
    · subst same
      simp [adds]
    · simp [same]
  · rename_i ignores
    have other : ¬(connection = client ∧
        broadcaster.wsPaths[connection]? = some (ascii "/api/telemetry") ∧
        frame.opcode = .text ∧ frame.payload = ascii "subscribe") :=
      fun subscribing => ignores subscribing.2
    simp [other]

structure Tallied (broadcaster : services.TelemetryBroadcaster) (client : ConnectionId)
    (count : Nat) : Prop where
  entries : broadcaster.live client = true → broadcaster.clients.count client = count
  known : broadcaster.live client = true → client < broadcaster.wsPaths.length
  fresh : broadcaster.wsPaths.length ≤ client →
    count = 0 ∧ broadcaster.clients.count client = 0

theorem tallied_start (client : ConnectionId) : Tallied {} client 0 where
  entries := nofun
  known := nofun
  fresh := fun _ => ⟨rfl, rfl⟩

section Steps

variable {client connection : ConnectionId} {count : Nat}

theorem upgrade_tallied (tallied : Tallied broadcaster client count) (wsPath : Bytes) :
    Tallied
      { broadcaster with
        wsPaths := broadcaster.wsPaths ++ [wsPath]
        live := Function.update broadcaster.live broadcaster.wsPaths.length true }
      client count := by
  refine ⟨?_, ?_, ?_⟩
  · intro present
    dsimp only at present ⊢
    by_cases newest : client = broadcaster.wsPaths.length
    · obtain ⟨none, empty⟩ := tallied.fresh (le_of_eq newest.symm)
      rw [none, empty]
    · rw [Function.update_of_ne newest] at present
      exact tallied.entries present
  · intro present
    dsimp only at present ⊢
    rw [List.length_append, List.length_singleton]
    by_cases newest : client = broadcaster.wsPaths.length
    · rw [newest]
      exact Nat.lt_succ_self _
    · rw [Function.update_of_ne newest] at present
      exact Nat.lt_succ_of_lt (tallied.known present)
  · intro beyond
    dsimp only at beyond
    rw [List.length_append, List.length_singleton] at beyond
    exact tallied.fresh (by omega)

theorem message_tallied (tallied : Tallied broadcaster client count)
    (present : broadcaster.live connection = true) (frame : WebSocketFrame) :
    Tallied (broadcaster.handleWs connection frame) client
      (count + if subscribes broadcaster client (.message connection frame) then 1 else 0) := by
  refine ⟨?_, ?_, ?_⟩
  · intro alive
    rw [handle_ws_live] at alive
    rw [handle_ws_count, tallied.entries alive]
  · rw [handle_ws_live, handle_ws_wsPaths]
    exact tallied.known
  · intro beyond
    rw [handle_ws_wsPaths] at beyond
    obtain ⟨none, empty⟩ := tallied.fresh beyond
    -- the message is from a connection that exists
    have other : connection ≠ client := by
      rintro rfl
      exact absurd (tallied.known present) (Nat.not_lt.mpr beyond)
    rw [handle_ws_count, none, empty]
    simp [subscribes, other]

theorem terminate_tallied (tallied : Tallied broadcaster client count)
    (connection : ConnectionId) :
    Tallied { broadcaster with live := Function.update broadcaster.live connection false }
      client count := by
  have earlier : Function.update broadcaster.live connection false client = true →
      broadcaster.live client = true := by
    intro alive
    by_cases same : client = connection
    · subst same
      rw [Function.update_self] at alive
      cases alive
    · rwa [Function.update_of_ne same] at alive
  exact ⟨fun alive => tallied.entries (earlier alive),
    fun alive => tallied.known (earlier alive), tallied.fresh⟩

theorem filter_tallied (tallied : Tallied broadcaster client count) :
    Tallied { broadcaster with clients := broadcaster.clients.filter broadcaster.live }
      client count := by
  refine ⟨?_, tallied.known, ?_⟩
  · intro alive
    rw [List.count_filter alive]
    exact tallied.entries alive
  · intro beyond
    obtain ⟨none, empty⟩ := tallied.fresh beyond
    refine ⟨none, ?_⟩
    have fewer : (broadcaster.clients.filter broadcaster.live).count client ≤
        broadcaster.clients.count client := List.filter_sublist.count_le client
    dsimp only
    omega

theorem step_tallied (tallied : Tallied broadcaster client count) {label : TelemetryStep}
    (stepped : step broadcaster label = some after) :
    Tallied after client (count + if subscribes broadcaster client label then 1 else 0) := by
  unfold step at stepped
  split at stepped
  · cases stepped
  cases label with
  | upgrade wsPath =>
      cases stepped
      exact upgrade_tallied tallied wsPath
  | message connection frame =>
      dsimp only at stepped
      split at stepped
      · rename_i present
        cases stepped
        exact message_tallied tallied present frame
      · cases stepped
  | terminate connection =>
      dsimp only at stepped
      split at stepped
      · cases stepped
        exact terminate_tallied tallied connection
      · cases stepped
  | pass payload outcomes =>
      dsimp only at stepped
      by_cases returned : SendsReturn broadcaster.live broadcaster.clients payload outcomes
      · rw [broadcast, remove_if_of_sends_return returned] at stepped
        cases stepped
        exact filter_tallied tallied
      · rw [broadcast, remove_if_of_send_throws returned] at stepped
        cases stepped
        exact ⟨tallied.entries, tallied.known, tallied.fresh⟩

end Steps

theorem run_tallied {client : ConnectionId} {count : Nat} {labels : List TelemetryStep}
    (tallied : Tallied broadcaster client count)
    (reached : run step broadcaster labels = some after) :
    Tallied after client (count + subscriptions client broadcaster labels) := by
  induction labels generalizing broadcaster count with
  | nil =>
      cases reached
      exact tallied
  | cons label labels ih =>
      obtain ⟨following, stepped, rest⟩ := run_cons reached
      have later := ih (step_tallied tallied stepped) rest
      rw [subscriptions, stepped, Option.map_some, Option.getD_some, ← Nat.add_assoc]
      exact later

theorem entries_are_subscriptions {client : ConnectionId} {labels : List TelemetryStep}
    (reached : run step {} labels = some broadcaster)
    (alive : broadcaster.live client = true) :
    broadcaster.clients.count client = subscriptions client {} labels := by
  have tallied := run_tallied (tallied_start client) reached
  rw [Nat.zero_add] at tallied
  exact tallied.entries alive

theorem step_pass (going : broadcaster.terminated = false) (payload : Bytes)
    (outcomes : Nat → Nat → SslWrite) :
    step broadcaster (.pass payload outcomes) =
      match (broadcaster.broadcast payload outcomes).2 with
      | some clients => some { broadcaster with clients := clients }
      | none => some { broadcaster with terminated := true } := by
  unfold step
  rw [going]
  rfl

/-- What a pass needs: no live connection has subscribed twice, and no send
throws. -/
def Serviceable (subscribed : ConnectionId → Nat) (broadcaster : services.TelemetryBroadcaster)
    (payload : Bytes) (outcomes : Nat → Nat → SslWrite) : Prop :=
  (∀ client, broadcaster.live client = true → subscribed client ≤ 1) ∧
    SendsReturn broadcaster.live broadcaster.clients payload outcomes

theorem pass_delivers_once_iff {subscribed : ConnectionId → Nat}
    (entries : ∀ client, broadcaster.live client = true →
      broadcaster.clients.count client = subscribed client)
    (going : broadcaster.terminated = false) (payload : Bytes)
    (outcomes : Nat → Nat → SslWrite) :
    DeliversOnce subscribed broadcaster payload outcomes ↔
      Serviceable subscribed broadcaster payload outcomes := by
  by_cases returned : SendsReturn broadcaster.live broadcaster.clients payload outcomes
  · have sent := remove_if_of_sends_return returned
    have counted : ∀ client, broadcaster.live client = true →
        (broadcaster.broadcast payload outcomes).1.count client = subscribed client := by
      intro client alive
      rw [broadcast, sent, List.count_filter alive]
      exact entries client alive
    constructor
    · rintro ⟨once, _⟩
      refine ⟨?_, returned⟩
      intro client alive
      have number := once client
      rw [counted client alive] at number
      rw [number]
      split <;> decide
    · rintro ⟨single, _⟩
      refine ⟨?_, ?_⟩
      · intro client
        cases alive : broadcaster.live client with
        | true =>
            have atMost := single client alive
            rw [counted client alive]
            split
            · rename_i subscriber
              exact Nat.le_antisymm atMost subscriber.2
            · rename_i stranger
              by_contra some
              exact stranger ⟨rfl, Nat.one_le_iff_ne_zero.mpr some⟩
        | false =>
            have absent : client ∉ broadcaster.clients.filter broadcaster.live := by
              simp [alive]
            rw [broadcast, sent, List.count_eq_zero_of_not_mem absent]
            simp
      · rw [step_pass going, broadcast, sent]
  · constructor
    · rintro ⟨_, stepped⟩
      rw [step_pass going, broadcast, remove_if_of_send_throws returned] at stepped
      have same := congrArg (Option.map services.TelemetryBroadcaster.terminated) stepped
      rw [Option.map_some, Option.map_some, going] at same
      cases same
    · intro serviceable
      exact absurd serviceable.2 returned

end Runs

section Passes

/-- A condition on each pass of a run, with the steps and the state before it. -/
def EachPass (holds : List TelemetryStep → services.TelemetryBroadcaster → Bytes →
    (Nat → Nat → SslWrite) → Prop) (labels : List TelemetryStep) : Prop :=
  ∀ earlier payload outcomes later broadcaster,
    labels = earlier ++ .pass payload outcomes :: later →
    run step {} earlier = some broadcaster → holds earlier broadcaster payload outcomes

/-- Along any run every pass sends once to each live subscriber, takes out the
entries of the others and is followed by the next, exactly when no pass finds a
connection that has subscribed twice or a send that throws. -/
theorem every_pass_delivers_once_iff (labels : List TelemetryStep)
    (last : services.TelemetryBroadcaster) (reached : run step {} labels = some last) :
    EachPass (fun earlier => DeliversOnce fun client => subscriptions client {} earlier) labels ↔
      EachPass (fun earlier => Serviceable fun client => subscriptions client {} earlier)
        labels := by
  have pointwise : ∀ earlier payload outcomes later broadcaster,
      labels = earlier ++ .pass payload outcomes :: later →
      run step {} earlier = some broadcaster →
      (DeliversOnce (fun client => subscriptions client {} earlier) broadcaster payload outcomes ↔
        Serviceable (fun client => subscriptions client {} earlier) broadcaster payload
          outcomes) := by
    intro earlier payload outcomes later broadcaster split before
    have going : broadcaster.terminated = false := by
      rw [split, run_append, before, Option.bind_some] at reached
      obtain ⟨following, stepped, _⟩ := run_cons reached
      by_contra ended
      rw [Bool.not_eq_false] at ended
      rw [step, if_pos ended] at stepped
      cases stepped
    exact pass_delivers_once_iff (fun _ => entries_are_subscriptions before) going payload outcomes
  constructor
  · intro delivers earlier payload outcomes later broadcaster split before
    exact (pointwise earlier payload outcomes later broadcaster split before).mp
      (delivers earlier payload outcomes later broadcaster split before)
  · intro serviceable earlier payload outcomes later broadcaster split before
    exact (pointwise earlier payload outcomes later broadcaster split before).mpr
      (serviceable earlier payload outcomes later broadcaster split before)

def subscribe (connection : ConnectionId) : TelemetryStep :=
  .message connection { fin := true, opcode := .text, payload := ascii "subscribe" }

/-- A connection on each path sends `subscribe`. -/
def subscribedOnce : List TelemetryStep :=
  [.upgrade (ascii "/api/telemetry"), .upgrade (ascii "/api/chat"), subscribe 0, subscribe 1]

theorem every_pass_delivers_once_iff_subscribed :
    ∃ last, run step {} (subscribedOnce ++ [.pass (ascii "metrics") fun _ _ => .written 3]) =
        some last ∧ last.clients = [0] ∧
      EachPass (fun earlier => DeliversOnce fun client => subscriptions client {} earlier)
        (subscribedOnce ++ [.pass (ascii "metrics") fun _ _ => .written 3]) := by
  refine ⟨_, rfl, by decide +kernel, ?_⟩
  apply (every_pass_delivers_once_iff _ _ rfl).mpr
  intro earlier payload outcomes later broadcaster split before
  -- only the last step is a pass
  have place : earlier = subscribedOnce ∧ payload = ascii "metrics" ∧
      outcomes = fun _ _ => .written 3 := by
    rcases earlier with _ | ⟨_, _ | ⟨_, _ | ⟨_, _ | ⟨_, _ | ⟨_, _⟩⟩⟩⟩⟩ <;>
      simp_all [subscribedOnce, subscribe]
  obtain ⟨rfl, rfl, rfl⟩ := place
  refine ⟨?_, ?_⟩
  · intro client _
    match client with
    | 0 => decide +kernel
    | 1 => decide +kernel
    | client + 2 =>
        have tallied := run_tallied (tallied_start (client + 2)) before
        cases before
        have none := (tallied.fresh (Nat.le_add_left 2 client)).1
        rw [Nat.zero_add] at none
        exact Nat.le_trans (Nat.le_of_eq none) (Nat.zero_le 1)
  · intro send _
    have whole : (sendWebSocketMessage (ascii "metrics") .text fun _ => .written 3).2 =
        .returned := by
      decide +kernel
    exact whole

/-- One connection sends `subscribe` twice before a pass. -/
def subscribedTwice : List TelemetryStep :=
  [.upgrade (ascii "/api/telemetry"), subscribe 0, subscribe 0]

/-- A second `subscribe` gives the connection a second message; a TLS error of
one connection takes the message from those behind it and ends the thread. -/
theorem telemetry_sent_twice_or_ended :
    (∃ broadcaster, run step {} subscribedTwice = some broadcaster ∧
      (broadcaster.broadcast (ascii "metrics") fun _ _ => .written 3).1 = [0, 0] ∧
      ¬EachPass (fun earlier => DeliversOnce fun client => subscriptions client {} earlier)
        (subscribedTwice ++ [.pass (ascii "metrics") fun _ _ => .written 3])) ∧
    ∃ last, run step {} (subscribedOnce ++ [.pass (ascii "metrics") fun _ _ => .failed]) =
        some last ∧ last.terminated = true ∧
      ¬EachPass (fun earlier => DeliversOnce fun client => subscriptions client {} earlier)
        (subscribedOnce ++ [.pass (ascii "metrics") fun _ _ => .failed]) := by
  refine ⟨⟨_, rfl, by decide +kernel, ?_⟩, ⟨_, rfl, by decide +kernel, ?_⟩⟩
  · intro delivers
    have once := (delivers _ _ _ [] _ rfl rfl).1 0
    revert once
    decide +kernel
  · intro delivers
    have going := congrArg (Option.map services.TelemetryBroadcaster.terminated)
      (delivers _ _ _ [] _ rfl rfl).2
    revert going
    decide +kernel

end Passes

end TelemetryBroadcaster

end HttpServer
