import HttpServer.ConnectionViews
import HttpServer.RelatedRuns
import HttpServer.RequestSequence

/-!
# Connections do not mix

In a server with any number of workers, connections and pool tasks, the requests taken
from a connection are the front part of the bytes that were read from this connection.
What the others send, when the workers run and what the pool does in between has no part
in it: the same bytes give the same requests in any other run.
-/

namespace HttpServer.ConnectionIsolation

open TransitionSystem RelatedRuns MessageStreams TcpServer DescriptorOwnership DescriptorRuns
  ClientHandling ConnectionViews RequestSequence PipelinedRequests SessionResponses

section Notes

variable {Note : Type*}

def ofOwnEvent (read : ClientConnection → ClientEvent → List Note) (id : ConnectionId)
    (server : TcpServer) : ServerStep → List Note
  | .client worker event =>
      match nextEntry server worker, server.objects id with
      | some (entry, .readable), some object =>
          if entry = id then read object.connection event else []
      | _, _ => []
  | _ => []

def ofReadable (read : ClientConnection → ClientEvent → List Note) (session : Session) :
    SessionStep → List Note
  | .readable event => if session.inTable then read session.connection event else []
  | _ => []

end Notes

def bytesRead (connection : ClientConnection) (event : ClientEvent) : Bytes :=
  match afterRead connection event with
  | some _ => event.received.flatten
  | none => []

def bytesOf (crypto : Worker.Crypto) (id : ConnectionId) (labels : List ServerStep) : Bytes :=
  history (step crypto) (ofOwnEvent bytesRead id) {} labels

def requestsOf (crypto : Worker.Crypto) (id : ConnectionId) (labels : List ServerStep) :
    List HttpRequest :=
  history (step crypto) (ofOwnEvent completedRequest id) {} labels

/-- The server keeps running, and the event, if it is the connection's, asks for no
upgrade and does not end behind the request line of an unfinished request. -/
def calm (id : ConnectionId) (server : TcpServer) : ServerStep → Bool
  | .client worker event =>
      match nextEntry server worker, server.objects id with
      | some (entry, .readable), some object =>
          decide (entry ≠ id) ||
            (inIsolation { connection := object.connection } (.readable event) &&
              lineUnread { connection := object.connection } (.readable event))
      | _, _ => true
  | .accept _ _ => server.running
  | .stop => false
  | _ => true

/-- No task closes a number, and the connection's own events are plain requests. -/
def plainFor (id : ConnectionId) (server : TcpServer) (label : ServerStep) : Prop :=
  rawCloses server label = false ∧ inTurn id server label = true ∧ calm id server label = true

instance (id : ConnectionId) (server : TcpServer) (label : ServerStep) :
    Decidable (plainFor id server label) :=
  inferInstanceAs (Decidable (_ ∧ _ ∧ _))

section Steps

variable {crypto : Worker.Crypto} {server after : TcpServer} {id : ConnectionId}
  {session following : Session} {label : ServerStep}

theorem step_completed {label : SessionStep} (stepped : session.step crypto label = some following) :
    following.completed = session.completed ++ ofReadable completedRequest session label := by
  cases Session.step_stepped stepped with
  | received event armed listed =>
      have same := (run_actions_connection
        (session.delivered event (Worker.handleClientData crypto session.connection event).1)
        (Worker.handleClientData crypto session.connection event).2).2
      rw [ofReadable, if_pos listed]
      exact same
  | unknown event armed dropped =>
      rw [ofReadable, dropped]
      exact (List.append_nil _).symm
  | writable => exact (List.append_nil _).symm
  | hungUp =>
      have same := (RequestSequence.disconnect_keeps { session with armed := none }).2.1
      exact same.trans (List.append_nil _).symm
  | swept => exact (RequestSequence.disconnect_keeps session).2.1.trans (List.append_nil _).symm
  | answered index outcome _ answers =>
      exact (answers_keep answers).2.1.trans (List.append_nil _).symm
  | finished index _ finishes =>
      exact (finish_keeps finishes).2.1.trans (List.append_nil _).symm
  | stopped => exact (List.append_nil _).symm
  | exited => exact (List.append_nil _).symm

theorem run_completed {labels : List SessionStep} {last : Session}
    (reached : run (Session.step crypto) {} labels = some last) :
    last.completed = history (Session.step crypto) (ofReadable completedRequest) {} labels := by
  have start : ({} : Session).completed = [] := rfl
  have kept := run_history (fun past (session : Session) => session.completed = past)
    (fun past session label following same _ stepped => by
      rw [step_completed stepped, same])
    start (respects_true (Session.step crypto) {} labels) reached
  exact kept

theorem appended_eq : appended = ofReadable bytesRead := by
  funext session label
  cases label <;> rfl

def readsNothing : SessionStep → Bool
  | .sweep | .hangup | .writable | .finish _ | .answer _ (.returned _) => true
  | _ => false

theorem undisturbed_without {step : SessionStep} (nothing : readsNothing step = true)
    (state : Session) : undisturbed state step := by
  cases step with
  | answer index outcome =>
      cases outcome with
      | returned response => exact ⟨rfl, rfl⟩
      | threw => cases nothing
      | sendThrew response => cases nothing
  | readable event => cases nothing
  | stop => cases nothing
  | exit => cases nothing
  | _ => exact ⟨rfl, rfl⟩

theorem note_without {Note : Type*} {read : ClientConnection → ClientEvent → List Note}
    {step : SessionStep} (nothing : readsNothing step = true) (state : Session) :
    ofReadable read state step = [] := by
  cases step with
  | readable event => cases nothing
  | _ => rfl

theorem own_steps_without (quiet : ∀ worker event, label ≠ .client worker event)
    (condition : calm id server label = true) :
    ∀ step ∈ sessionSteps id server label, readsNothing step = true := by
  intro step member
  cases label with
  | client worker event => exact absurd rfl (quiet worker event)
  | accept worker fd =>
      have running : server.running = true := condition
      simp [sessionSteps, running] at member
  | sweep worker stale =>
      simp only [sessionSteps] at member
      split at member
      · rw [List.mem_singleton.mp member]
        rfl
      · cases member
  | finish index throws =>
      simp only [sessionSteps] at member
      split at member
      · split at member
        · split at member
          · rcases List.mem_cons.mp member with rfl | last
            · rfl
            · rw [List.mem_singleton.mp last]
              rfl
          · rw [List.mem_singleton.mp member]
            rfl
        · cases member
      · cases member
  | stop => cases condition
  | _ => cases member

theorem next_entry_shown {worker : WorkerId} {readiness : Readiness}
    (follows : Follows id server session)
    (next : nextEntry server worker = some (id, readiness)) :
    ∃ object, server.objects id = some object ∧ session.connection = object.connection ∧
      session.inTable = true := by
  unfold nextEntry awaiting at next
  split at next
  · rename_i fd reported events awaited
    obtain ⟨entry, stored, same⟩ := Option.map_eq_some_iff.mp next
    rw [Prod.mk.injEq] at same
    obtain ⟨rfl, rfl⟩ := same
    obtain ⟨object, found, number, home, _⟩ := follows.consistent.entries worker fd entry stored
    have active : (server.workers object.worker).phase ≠ .exited := by
      intro exited
      rw [home] at exited
      rw [exited] at awaited
      cases awaited
    have shown := follows.view object found active
    refine ⟨object, found, shown.connection, ?_⟩
    rw [shown.inTable, home, number, stored, decide_eq_true rfl]
  · cases next

theorem notes_without {Note : Type*} (read : ClientConnection → ClientEvent → List Note)
    {steps : List SessionStep} (nothing : ∀ step ∈ steps, readsNothing step = true) :
    Respects (Session.step crypto) undisturbed session steps ∧
      history (Session.step crypto) (ofReadable read) session steps = [] :=
  ⟨respects_always (fun state step member => undisturbed_without (nothing step member) state) session,
    history_silent (fun state step member => note_without (nothing step member) state) session⟩

theorem step_notes {Note : Type*} (read : ClientConnection → ClientEvent → List Note)
    (follows : Follows id server session) (condition : calm id server label = true) :
    Respects (Session.step crypto) undisturbed session (sessionSteps id server label) ∧
      history (Session.step crypto) (ofReadable read) session (sessionSteps id server label) =
        ofOwnEvent read id server label := by
  cases label with
  | client worker event =>
      cases next : nextEntry server worker with
      | none =>
          simp only [sessionSteps, ofOwnEvent, next]
          exact ⟨trivial, rfl⟩
      | some pair =>
          obtain ⟨entry, readiness⟩ := pair
          by_cases own : entry = id
          · subst own
            obtain ⟨object, found, connection, listed⟩ := next_entry_shown follows next
            cases readiness with
            | readable =>
                simp only [calm, next, found, ne_eq, not_true_eq_false, decide_false,
                  Bool.false_or, Bool.and_eq_true] at condition
                simp only [sessionSteps, ofOwnEvent, next, found, if_true, deliveredAs]
                refine ⟨⟨?_, fun _ _ => trivial⟩, ?_⟩
                · simpa only [undisturbed, inIsolation, lineUnread, connection] using condition
                · rw [history, ofReadable, if_pos listed, connection]
                  cases Session.step crypto session (.readable event) with
                  | none => exact List.append_nil _
                  | some following => exact List.append_nil _
            | hangup =>
                simp only [sessionSteps, ofOwnEvent, next, found, if_true, deliveredAs]
                exact notes_without read (by simp [readsNothing])
            | writable =>
                simp only [sessionSteps, ofOwnEvent, next, found, if_true, deliveredAs]
                exact notes_without read (by simp [readsNothing])
          · have other : ofOwnEvent read id server (.client worker event) = [] := by
              simp only [ofOwnEvent, next]
              split
              · rename_i same _
                cases same
                exact if_neg own
              · rfl
            rw [other]
            simp only [sessionSteps, next, if_neg own]
            exact ⟨trivial, rfl⟩
  | _ =>
      have nothing := own_steps_without (by simp) condition
      exact notes_without read nothing

end Steps

section Runs

variable {crypto : Worker.Crypto} {labels : List ServerStep} {last : TcpServer} {id : ConnectionId}

/-- What the connection's session reads and completes is what the server reads of it and
takes from it. -/
theorem run_notes {Note : Type*} (read : ClientConnection → ClientEvent → List Note)
    (respects : Respects (step crypto) (plainFor id) {} labels)
    (reached : run (step crypto) {} labels = some last) :
    Respects (Session.step crypto) undisturbed {}
        (history (step crypto) (sessionSteps id) {} labels) ∧
      history (Session.step crypto) (ofReadable read) {}
          (history (step crypto) (sessionSteps id) {} labels) =
        history (step crypto) (ofOwnEvent read id) {} labels ∧
      ∃ session, run (Session.step crypto) {} (history (step crypto) (sessionSteps id) {} labels) =
        some session ∧ Follows id last session := by
  have start : Follows id {} {} := by
    refine ⟨initially_consistent, SessionExclusion.exclusive_of_idle rfl (fun _ => rfl) rfl rfl, rfl,
      fun _ => rfl, ?_⟩
    intro object found
    cases found
  apply run_simulates_saying (Follows id) ?_ start respects reached
  intro server label after session follows condition stepped
  obtain ⟨allowed, noted⟩ := step_notes read follows condition.2.2
  exact ⟨allowed, noted, step_follows follows ⟨condition.1, condition.2.1⟩ stepped⟩

theorem requests_decode_bytes (respects : Respects (step crypto) (plainFor id) {} labels)
    (reached : run (step crypto) {} labels = some last) :
    ∃ rest, Reads IsRequest (bytesOf crypto id labels) (requestsOf crypto id labels) rest ∧
      ∀ object, last.objects id = some object → (last.workers object.worker).phase ≠ .exited →
        rest = object.connection.readBuffer := by
  obtain ⟨allowed, bytes, session, ran, follows⟩ := run_notes bytesRead respects reached
  obtain ⟨_, requests, _⟩ := run_notes completedRequest respects reached
  have reads := (run_decodes allowed ran).reads
  rw [received, appended_eq, bytes, run_completed ran, requests] at reads
  refine ⟨_, reads, ?_⟩
  intro object found active
  rw [(follows.view object found active).connection]

end Runs

/-- The requests taken from a connection are the front part of what was read from it, and
the rest lies in its buffer. So two connections, of one server or of two, from which the
same bytes were read have the same requests taken, or the one the first of the other's. -/
theorem connections_do_not_mix (crypto crypto' : Worker.Crypto) (labels labels' : List ServerStep)
    (last last' : TcpServer) (id id' : ConnectionId)
    (respects : Respects (step crypto) (plainFor id) {} labels)
    (reached : run (step crypto) {} labels = some last)
    (respects' : Respects (step crypto') (plainFor id') {} labels')
    (reached' : run (step crypto') {} labels' = some last')
    (agree : bytesOf crypto id labels <+: bytesOf crypto' id' labels') :
    (∃ rest, Reads IsRequest (bytesOf crypto id labels) (requestsOf crypto id labels) rest ∧
      ∀ object, last.objects id = some object → (last.workers object.worker).phase ≠ .exited →
        rest = object.connection.readBuffer) ∧
      (requestsOf crypto id labels <+: requestsOf crypto' id' labels' ∨
        requestsOf crypto' id' labels' <+: requestsOf crypto id labels) := by
  obtain ⟨rest, one, left⟩ := requests_decode_bytes respects reached
  obtain ⟨rest', other, _⟩ := requests_decode_bytes respects' reached'
  exact ⟨⟨rest, one, left⟩, reads_comparable requests_prefix_free one other agree⟩

/-- Two connections of one server send the same request, the second while the first is
being answered. -/
theorem connections_do_not_mix_two :
    (requestsOf { generateAcceptKey := id } 0 twoConnections).length = 1 ∧
      (requestsOf { generateAcceptKey := id } 0 twoConnections <+:
          requestsOf { generateAcceptKey := id } 1 twoConnections ∨
        requestsOf { generateAcceptKey := id } 1 twoConnections <+:
          requestsOf { generateAcceptKey := id } 0 twoConnections) := by
  obtain ⟨last, reached⟩ := Option.isSome_iff_exists.mp
    (show (run (step { generateAcceptKey := id }) {} twoConnections).isSome = true by
      decide +kernel)
  have first : Respects (step { generateAcceptKey := id }) (plainFor 0) {} twoConnections := by
    decide +kernel
  have second : Respects (step { generateAcceptKey := id }) (plainFor 1) {} twoConnections := by
    decide +kernel
  have agree : bytesOf { generateAcceptKey := id } 0 twoConnections <+:
      bytesOf { generateAcceptKey := id } 1 twoConnections := by
    decide +kernel
  exact ⟨by decide +kernel, (connections_do_not_mix _ _ _ _ last last 0 1 first reached second
    reached agree).2⟩

end HttpServer.ConnectionIsolation
