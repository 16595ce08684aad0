import HttpServer.TransitionSystem
import HttpServer.WebSocketStream

/-!
# `ClientConnection::send` and its callers

`send` hands its data to `SSL_write` piece by piece. When TLS would block or the
socket fails it returns as if it had finished, and drops the rest; only another
TLS error throws. The callers cannot tell: the pool tasks and the upgrade re-arm
the connection, the broadcaster keeps it for its next pass. Where a caller closes
the connection anyway nothing follows the part that was handed over.
-/

namespace HttpServer

open MeasuredLoop

/-- How one `SSL_write` call ended; one that writes takes at least one byte and
at most what is left. -/
inductive SslWrite where
  | written (more : Nat)
  | wantRead | wantWrite | syscall | failed
deriving DecidableEq, Repr

inductive SendEnd where
  | returned | threw
deriving DecidableEq, Repr

namespace ClientConnection

/-- What `send` has left, what it has handed over, and what the calls to come
will do. -/
structure SendCursor where
  remaining : Bytes
  handed : Bytes := []
  outcomes : Nat → SslWrite

def sendTurn (cursor : SendCursor) : Turn SendCursor (Bytes × SendEnd) :=
  if cursor.remaining.isEmpty then .done (cursor.handed, .returned)
  else
    match cursor.outcomes 0 with
    | .written more =>
        .next { remaining := cursor.remaining.drop (more + 1)
                handed := cursor.handed ++ cursor.remaining.take (more + 1)
                outcomes := fun call => cursor.outcomes (call + 1) }
    | .wantRead | .wantWrite => .done (cursor.handed, .returned)
    | .syscall => .done (cursor.handed, .returned)
    | .failed => .done (cursor.handed, .threw)

theorem send_turn_next {cursor following : SendCursor}
    (turned : sendTurn cursor = .next following) :
    ∃ more, cursor.remaining ≠ [] ∧ cursor.outcomes 0 = .written more ∧
      following = { remaining := cursor.remaining.drop (more + 1)
                    handed := cursor.handed ++ cursor.remaining.take (more + 1)
                    outcomes := fun call => cursor.outcomes (call + 1) } := by
  unfold sendTurn at turned
  split at turned
  · cases turned
  · rename_i present
    split at turned
    · rename_i more written
      cases turned
      exact ⟨more, by simpa using present, written, rfl⟩
    all_goals cases turned

theorem send_turn_decreases (cursor following : SendCursor)
    (turned : sendTurn cursor = .next following) :
    following.remaining.length < cursor.remaining.length := by
  obtain ⟨more, present, _, rfl⟩ := send_turn_next turned
  have positive := List.length_pos_iff.mpr present
  rw [List.length_drop]
  omega

def sendLoop : Loop SendCursor (Bytes × SendEnd) where
  turn := sendTurn
  rank := fun cursor => cursor.remaining.length
  decreases := send_turn_decreases

/-- The bytes handed over, and how the call ends. -/
def send (data : Bytes) (outcomes : Nat → SslWrite) : Bytes × SendEnd :=
  sendLoop.run { remaining := data, outcomes := outcomes }

def webSocketMessage (payload : Bytes) (opcode : WebSocketOpcode) : Bytes :=
  (0x80 ||| WebSocketStream.opcodeByte opcode) ::
    ((if payload.length < 126 then [UInt8.ofNat payload.length]
      else if payload.length ≤ 65535 then
        126 :: WebSocketStream.bigEndianBytes 2 payload.length
      else 127 :: WebSocketStream.bigEndianBytes 8 payload.length) ++ payload)

def sendWebSocketMessage (payload : Bytes) (opcode : WebSocketOpcode)
    (outcomes : Nat → SslWrite) : Bytes × SendEnd :=
  send (webSocketMessage payload opcode) outcomes

end ClientConnection

namespace ClientSend

open TransitionSystem ClientConnection

section Loop

def size : SslWrite → Nat
  | .written more => more + 1
  | _ => 0

/-- After such an outcome `send` returns without a word. -/
def stops : SslWrite → Bool
  | .wantRead | .wantWrite | .syscall => true
  | _ => false

/-- What the first calls can take together. -/
def takenBy (outcomes : Nat → SslWrite) : Nat → Nat
  | 0 => 0
  | calls + 1 => size (outcomes 0) + takenBy (fun call => outcomes (call + 1)) calls

/-- The first call that does not write would block or fail on the socket, and
comes before all is taken. -/
def EndsEarly (outcomes : Nat → SslWrite) (length : Nat) : Prop :=
  ∃ calls, (∀ earlier < calls, size (outcomes earlier) ≠ 0) ∧ takenBy outcomes calls < length ∧
    stops (outcomes calls) = true

theorem ends_early_iff (outcomes : Nat → SslWrite) (length : Nat) :
    EndsEarly outcomes length ↔
      0 < length ∧ (stops (outcomes 0) = true ∨
        ∃ more, outcomes 0 = .written more ∧
          EndsEarly (fun call => outcomes (call + 1)) (length - (more + 1))) := by
  constructor
  · rintro ⟨calls, writes, below, stopped⟩
    refine ⟨by omega, ?_⟩
    cases calls with
    | zero => exact Or.inl stopped
    | succ calls =>
        have first := writes 0 (by omega)
        cases outcome : outcomes 0 with
        | written more =>
            refine Or.inr ⟨more, rfl, calls, ?_, ?_, stopped⟩
            · intro earlier before
              exact writes (earlier + 1) (by omega)
            · rw [takenBy, outcome, size] at below
              omega
        | wantRead => rw [outcome] at first; exact absurd rfl first
        | wantWrite => rw [outcome] at first; exact absurd rfl first
        | syscall => rw [outcome] at first; exact absurd rfl first
        | failed => rw [outcome] at first; exact absurd rfl first
  · rintro ⟨positive, stopped | ⟨more, outcome, calls, writes, below, stopped⟩⟩
    · exact ⟨0, nofun, positive, stopped⟩
    · refine ⟨calls + 1, ?_, ?_, stopped⟩
      · intro earlier before
        cases earlier with
        | zero =>
            rw [outcome]
            nofun
        | succ earlier => exact writes earlier (by omega)
      · rw [takenBy, outcome, size]
        omega

theorem send_turn_done {cursor : SendCursor} {result : Bytes × SendEnd}
    (turned : sendTurn cursor = .done result) :
    result.1 = cursor.handed ∧
      (cursor.remaining = [] ∧ result.2 = .returned ∨
        cursor.remaining ≠ [] ∧ stops (cursor.outcomes 0) = true ∧ result.2 = .returned ∨
        cursor.remaining ≠ [] ∧ cursor.outcomes 0 = .failed ∧ result.2 = .threw) := by
  unfold sendTurn at turned
  split at turned
  · rename_i empty
    cases turned
    exact ⟨rfl, Or.inl ⟨by simpa using empty, rfl⟩⟩
  · rename_i present
    have left : cursor.remaining ≠ [] := by
      simpa using present
    split at turned
    · cases turned
    all_goals
      rename_i outcome
      cases turned
      simp [left, outcome, stops]

/-- A send hands over a front part of its data. It returns normally with a rest
exactly when it ends early. -/
theorem send_loop_spec (cursor : SendCursor) :
    ∃ handed, (sendLoop.run cursor).1 = cursor.handed ++ handed ∧ handed <+: cursor.remaining ∧
      (EndsEarly cursor.outcomes cursor.remaining.length →
        (sendLoop.run cursor).2 = .returned ∧ handed ≠ cursor.remaining) ∧
      (¬EndsEarly cursor.outcomes cursor.remaining.length →
        (sendLoop.run cursor).2 = .returned → handed = cursor.remaining) := by
  induction cursor using sendLoop.run_induction with
  | done cursor result turned =>
      rw [sendLoop.run_done turned]
      obtain ⟨handed, cause⟩ := send_turn_done turned
      refine ⟨[], by rw [handed, List.append_nil], List.nil_prefix, ?_⟩
      rw [ends_early_iff]
      rcases cause with ⟨empty, returned⟩ | ⟨left, stopped, returned⟩ | ⟨left, failed, threw⟩
      · simp [empty]
      · simp [stopped, returned, left.symm, List.length_pos_iff.mpr left]
      · simp [failed, threw, stops]
  | next cursor following turned ih =>
      rw [sendLoop.run_next turned]
      obtain ⟨more, present, outcome, rfl⟩ := send_turn_next turned
      obtain ⟨handed, whole, within, early, complete⟩ := ih
      dsimp only at whole within early complete
      have same : EndsEarly cursor.outcomes cursor.remaining.length ↔
          EndsEarly (fun call => cursor.outcomes (call + 1))
            (cursor.remaining.drop (more + 1)).length := by
        rw [ends_early_iff, List.length_drop, outcome]
        simp [stops, List.length_pos_iff.mpr present]
      have parts : cursor.remaining.take (more + 1) ++ cursor.remaining.drop (more + 1) =
          cursor.remaining := List.take_append_drop _ _
      refine ⟨cursor.remaining.take (more + 1) ++ handed, ?_, ?_, ?_, ?_⟩
      · rw [whole, List.append_assoc]
      · conv_rhs => rw [← parts]
        exact (List.prefix_append_right_inj _).mpr within
      · intro ends
        obtain ⟨returned, short⟩ := early (same.mp ends)
        refine ⟨returned, ?_⟩
        intro all
        apply short
        apply List.append_cancel_left
        rw [all, parts]
      · intro lasts returned
        rw [complete (fun ends => lasts (same.mpr ends)) returned, parts]

theorem send_handed_prefix (data : Bytes) (outcomes : Nat → SslWrite) :
    (send data outcomes).1 <+: data := by
  obtain ⟨handed, whole, within, _, _⟩ := send_loop_spec { remaining := data, outcomes := outcomes }
  rw [send, whole, List.nil_append]
  exact within

theorem send_ends_early {data : Bytes} {outcomes : Nat → SslWrite}
    (ends : EndsEarly outcomes data.length) :
    (send data outcomes).2 = .returned ∧ (send data outcomes).1 ≠ data := by
  obtain ⟨handed, whole, _, early, _⟩ := send_loop_spec { remaining := data, outcomes := outcomes }
  obtain ⟨returned, short⟩ := early ends
  refine ⟨returned, ?_⟩
  rw [send, whole, List.nil_append]
  exact short

theorem send_hands_all {data : Bytes} {outcomes : Nat → SslWrite}
    (lasts : ¬EndsEarly outcomes data.length) (returned : (send data outcomes).2 = .returned) :
    (send data outcomes).1 = data := by
  obtain ⟨handed, whole, _, _, complete⟩ :=
    send_loop_spec { remaining := data, outcomes := outcomes }
  rw [send, whole, List.nil_append]
  exact complete lasts returned

end Loop

section Callers

/-- Who calls `send`: the task of a request, the upgrade and the refusal of
`handleClientData`, the handler of a WebSocket task, and the broadcaster. -/
inductive Sender where
  | response (keepAlive : Bool)
  | upgrade
  | refusal
  | handler
  | broadcaster
deriving DecidableEq, Repr

/-- One call, with the answer `isRunning()` gives after it. -/
structure Delivery where
  sender : Sender
  data : Bytes
  outcomes : Nat → SslWrite
  running : Bool := true

namespace Delivery

variable (delivery : Delivery)

/-- Whether the caller goes on with the connection when `send` returns. -/
def keeps : Bool :=
  match delivery.sender with
  | .response keepAlive => keepAlive && delivery.running
  | .upgrade => true
  | .refusal => false
  | .handler => delivery.running
  | .broadcaster => true

def handed : Bytes := (send delivery.data delivery.outcomes).1

def staysInUse : Bool :=
  delivery.keeps && decide ((send delivery.data delivery.outcomes).2 = .returned)

end Delivery

/-- What the peer of a connection is given. -/
structure Outbound where
  stream : Bytes := []
  dropped : Bool := false
deriving DecidableEq, Repr

def deliver (outbound : Outbound) (delivery : Delivery) : Option Outbound :=
  if outbound.dropped then none
  else
    some { stream := outbound.stream ++ delivery.handed
           dropped := !delivery.staysInUse }

/-- Whole messages, and a front part of one more only where the connection is
then dropped. -/
def WholeMessages (history : List Delivery) (outbound : Outbound) : Prop :=
  outbound.stream = (history.map Delivery.data).flatten ∨
    outbound.dropped = true ∧ ∃ earlier last part, history = earlier ++ [last] ∧
      part <+: last.data ∧ outbound.stream = (earlier.map Delivery.data).flatten ++ part

def AllOrNothing (history : List Delivery) (outbound : Outbound) : Prop :=
  (∀ delivery ∈ history, delivery.staysInUse = true → delivery.handed = delivery.data) ∧
    WholeMessages history outbound

theorem delivered_iff (delivery : Delivery) :
    (delivery.staysInUse = true → delivery.handed = delivery.data) ↔
      (delivery.keeps = true → ¬EndsEarly delivery.outcomes delivery.data.length) := by
  simp only [Delivery.staysInUse, Bool.and_eq_true, decide_eq_true_eq]
  constructor
  · intro delivered keeps ends
    obtain ⟨returned, short⟩ := send_ends_early ends
    exact short (delivered ⟨keeps, returned⟩)
  · rintro lasts ⟨keeps, returned⟩
    exact send_hands_all (lasts keeps) returned

/-- Only the last delivery of a history can have dropped the connection. -/
theorem run_deliveries {history : List Delivery} {outbound last : Outbound}
    (reached : run deliver outbound history = some last) :
    last.stream = outbound.stream ++ (history.map Delivery.handed).flatten ∧
      ∀ earlier final, history = earlier ++ [final] →
        (∀ delivery ∈ earlier, delivery.staysInUse = true) ∧
          last.dropped = !final.staysInUse := by
  induction history generalizing outbound with
  | nil =>
      cases reached
      refine ⟨by simp, ?_⟩
      intro earlier final impossible
      exact absurd impossible.symm (by simp)
  | cons delivery history ih =>
      obtain ⟨following, stepped, rest⟩ := run_cons reached
      unfold deliver at stepped
      split at stepped
      · cases stepped
      · cases stepped
        obtain ⟨stream, ends⟩ := ih rest
        refine ⟨by rw [stream, List.map_cons, List.flatten_cons, List.append_assoc], ?_⟩
        intro earlier final split
        cases earlier with
        | nil =>
            cases split
            cases rest
            exact ⟨nofun, rfl⟩
        | cons first earlier =>
            rw [List.cons_append, List.cons.injEq] at split
            obtain ⟨rfl, split⟩ := split
            obtain ⟨kept, dropped⟩ := ends earlier final split
            have going : delivery.staysInUse = true := by
              cases history with
              | nil => exact absurd split.symm (by simp)
              | cons next history =>
                  obtain ⟨_, onward, _⟩ := run_cons rest
                  by_contra dropping
                  simp [deliver, dropping] at onward
            refine ⟨?_, dropped⟩
            intro other member
            rcases List.mem_cons.mp member with rfl | later
            · exact going
            · exact kept other later

theorem delivered_whole {history : List Delivery} {last : Outbound}
    (reached : run deliver {} history = some last)
    (delivered : ∀ delivery ∈ history, delivery.staysInUse = true →
      delivery.handed = delivery.data) : WholeMessages history last := by
  obtain ⟨stream, ends⟩ := run_deliveries reached
  rw [List.nil_append] at stream
  rcases List.eq_nil_or_concat history with rfl | ⟨earlier, final, split⟩
  · exact Or.inl stream
  · rw [List.concat_eq_append] at split
    obtain ⟨kept, dropped⟩ := ends earlier final split
    have whole : earlier.map Delivery.handed = earlier.map Delivery.data := by
      apply List.map_congr_left
      intro delivery member
      apply delivered delivery _ (kept delivery member)
      rw [split]
      exact List.mem_append_left _ member
    rw [split, List.map_append, whole, List.flatten_append] at stream
    cases stays : final.staysInUse with
    | true =>
        have all := delivered final (by rw [split]; simp) stays
        left
        rw [stream, split, List.map_append, List.flatten_append, List.map_singleton,
          List.map_singleton, all]
    | false =>
        right
        rw [stays] at dropped
        refine ⟨dropped, earlier, final, final.handed, split, send_handed_prefix _ _, ?_⟩
        rw [stream, List.map_singleton, List.flatten_singleton]

/-- Along any history of a connection every message that its caller goes on
after has been handed over, and the peer sees whole messages, exactly when no
send of a caller that goes on ends early. -/
theorem sends_all_or_nothing_iff (history : List Delivery) (last : Outbound)
    (reached : run deliver {} history = some last) :
    AllOrNothing history last ↔
      ∀ delivery ∈ history, delivery.keeps = true →
        ¬EndsEarly delivery.outcomes delivery.data.length := by
  constructor
  · rintro ⟨delivered, _⟩ delivery member
    exact (delivered_iff delivery).mp (delivered delivery member)
  · intro lasts
    have delivered : ∀ delivery ∈ history, delivery.staysInUse = true →
        delivery.handed = delivery.data :=
      fun delivery member => (delivered_iff delivery).mpr (lasts delivery member)
    exact ⟨delivered, delivered_whole reached delivered⟩

/-- A response in two pieces, and a refusal that is cut off. -/
def answeredThenRefused : List Delivery :=
  [{ sender := .response true, data := ascii "200", outcomes := fun _ => .written 1 },
    { sender := .refusal, data := ascii "400", outcomes := fun _ => .wantWrite }]

theorem sends_all_or_nothing_iff_refused :
    ∃ last, run deliver {} answeredThenRefused = some last ∧ last.stream = ascii "200" ∧
      last.dropped = true ∧ AllOrNothing answeredThenRefused last := by
  refine ⟨_, rfl, by decide +kernel, by decide +kernel, ?_⟩
  apply (sends_all_or_nothing_iff answeredThenRefused _ rfl).mpr
  intro delivery member keeps
  simp only [answeredThenRefused, List.mem_cons, List.not_mem_nil, or_false] at member
  rcases member with rfl | rfl
  · rintro ⟨_, _, _, stopped⟩
    cases stopped
  · cases keeps

/-- The kernel's buffer is full after one byte of the first response. -/
def cutThenAnswered : List Delivery :=
  [{ sender := .response true
     data := ascii "ab"
     outcomes := fun call => if call = 0 then .written 0 else .wantWrite },
    { sender := .response true, data := ascii "cd", outcomes := fun _ => .written 1 }]

theorem cut_response_stays_in_use :
    ∃ last, run deliver {} cutThenAnswered = some last ∧ last.stream = ascii "acd" ∧
      last.dropped = false ∧ ¬WholeMessages cutThenAnswered last ∧
      ¬AllOrNothing cutThenAnswered last := by
  have cut : ∀ last, run deliver {} cutThenAnswered = some last →
      last.stream = ascii "acd" → last.dropped = false →
      ¬WholeMessages cutThenAnswered last := by
    rintro last _ stream going (whole | ⟨dropped, _⟩)
    · rw [stream] at whole
      exact absurd whole (by decide)
    · rw [going] at dropped
      cases dropped
  refine ⟨_, rfl, by decide +kernel, by decide +kernel, ?_, ?_⟩
  · exact cut _ rfl (by decide +kernel) (by decide +kernel)
  · intro both
    exact cut _ rfl (by decide +kernel) (by decide +kernel) both.2

end Callers

end ClientSend

end HttpServer
