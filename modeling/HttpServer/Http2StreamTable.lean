import HttpServer.Http2Streams
import HttpServer.TransitionSystem
import Mathlib.Data.Set.Card

/-!
# The table of an HTTP/2 connection and its dead streams

A session is what nghttp2 keeps of its streams together with `h2_streams_`, which
only the three registered callbacks write. No callback is registered for the
closure of a stream, so a stream that is reset or fails before its request is
complete leaves its entry behind for the rest of the connection.
-/

namespace HttpServer

/-- `NGHTTP2_SETTINGS_MAX_CONCURRENT_STREAMS` of `setupHttp2Session`. -/
def maxConcurrentStreams : Nat := 100

/-- The open streams are those whose request is still arriving and those whose
request has been dispatched. -/
structure Http2Session where
  streams : Http2Streams := Http2Streams.initial
  receiving : Finset Nat := ∅
  answering : Finset Nat := ∅
  lastStream : Nat := 0

inductive StreamStep where
  | call (event : Http2Event)
  /-- `RST_STREAM`, a stream error, or the end of the response. -/
  | close (stream : Nat)
deriving DecidableEq, Repr

namespace Http2Session

variable (session : Http2Session)

/-- The callbacks nghttp2 makes: a new stream has a larger identifier and is within
the announced limit, a further header block is a trailer section, and clients push
nothing. -/
def Permits : Http2Event → Prop
  | .beginHeaders type stream =>
      type = .headers ∧ (stream ∈ session.receiving ∨ session.lastStream < stream ∧
        (session.receiving ∪ session.answering).card < maxConcurrentStreams)
  | .header stream _ _ => stream ∈ session.receiving
  | .frameRecv type stream _ =>
      type = .other ∨ (type = .headers ∨ type = .data) ∧ stream ∈ session.receiving

instance (event : Http2Event) : Decidable (session.Permits event) :=
  match event with
  | .beginHeaders type stream =>
      inferInstanceAs (Decidable (type = .headers ∧ (stream ∈ session.receiving ∨
        session.lastStream < stream ∧
          (session.receiving ∪ session.answering).card < maxConcurrentStreams)))
  | .header stream _ _ => inferInstanceAs (Decidable (stream ∈ session.receiving))
  | .frameRecv type stream _ =>
      inferInstanceAs (Decidable (type = .other ∨
        (type = .headers ∨ type = .data) ∧ stream ∈ session.receiving))

def call : Http2Event → Http2Session
  | .beginHeaders type stream =>
      { session with
        streams := session.streams.onBeginHeaders type stream
        receiving := insert stream session.receiving
        lastStream := max session.lastStream stream }
  | .header stream name value =>
      { session with streams := session.streams.onHeader stream name value }
  | .frameRecv type stream endStream =>
      if (type = .headers ∨ type = .data) ∧ endStream = true then
        { session with
          streams := (session.streams.onFrameRecv type stream endStream).1
          receiving := session.receiving.erase stream
          answering := insert stream session.answering }
      else { session with streams := (session.streams.onFrameRecv type stream endStream).1 }

/-- nghttp2 forgets the stream; nothing tells the connection. -/
def closeStream (stream : Nat) : Http2Session :=
  { session with
    receiving := session.receiving.erase stream
    answering := session.answering.erase stream }

def step (session : Http2Session) : StreamStep → Option Http2Session
  | .call event => if session.Permits event then some (session.call event) else none
  | .close stream =>
      if stream ∈ session.receiving ∪ session.answering then some (session.closeStream stream)
      else none

def entries : Set Nat := { stream | (session.streams stream).isSome = true }

end Http2Session

namespace Http2StreamTable

open TransitionSystem Http2Session Http2Streams

/-- Entries stand for open streams that are not dispatched, and there are no more
of them than streams were announced. -/
structure Tidy (session : Http2Session) : Prop where
  undispatched : ∀ stream ∈ session.entries, stream ∈ session.receiving
  bounded : session.entries.Finite ∧ session.entries.ncard ≤ maxConcurrentStreams

/-- No stream is closed before its request has been dispatched. -/
def ClosesDispatched (session : Http2Session) : StreamStep → Prop
  | .call _ => True
  | .close stream => stream ∉ session.receiving

instance (session : Http2Session) (label : StreamStep) :
    Decidable (ClosesDispatched session label) :=
  match label with
  | .call _ => inferInstanceAs (Decidable True)
  | .close stream => inferInstanceAs (Decidable (stream ∉ session.receiving))

def calls (labels : List StreamStep) : List Http2Event :=
  labels.filterMap fun
    | .call event => some event
    | .close _ => none

structure Accounted (session : Http2Session) : Prop where
  begun : ∀ stream ∈ session.receiving, stream ∈ session.entries
  limited : (session.receiving ∪ session.answering).card ≤ maxConcurrentStreams

section Entries

variable {session : Http2Session}

theorem entry_begin_headers (stream other : Nat) :
    other ∈ (session.call (.beginHeaders .headers stream)).entries ↔
      other = stream ∨ other ∈ session.entries := by
  by_cases same : other = stream <;>
    simp [entries, Http2Session.call, onBeginHeaders, store, Function.update_apply, same]

theorem entry_header (stream other : Nat) (name value : Bytes) :
    other ∈ (session.call (.header stream name value)).entries ↔
      other = stream ∨ other ∈ session.entries := by
  by_cases same : other = stream <;>
    simp [entries, Http2Session.call, onHeader, store, Function.update_apply, same]

theorem entry_ended {type : Http2FrameType} {endStream : Bool}
    (ends : (type = .headers ∨ type = .data) ∧ endStream = true) (stream other : Nat) :
    other ∈ (session.call (.frameRecv type stream endStream)).entries ↔
      other ≠ stream ∧ other ∈ session.entries := by
  by_cases same : other = stream <;>
    simp [entries, Http2Session.call, onFrameRecv, erase, Function.update_apply, same, ends]

theorem call_passed {type : Http2FrameType} {endStream : Bool}
    (passes : ¬((type = .headers ∨ type = .data) ∧ endStream = true)) (stream : Nat) :
    session.call (.frameRecv type stream endStream) = session := by
  simp only [Http2Session.call, onFrameRecv, if_neg passes]

theorem tidy_of_undispatched (accounted : Accounted session)
    (undispatched : ∀ stream ∈ session.entries, stream ∈ session.receiving) : Tidy session := by
  have within : session.entries ⊆ ↑(session.receiving ∪ session.answering) := by
    intro stream member
    exact Finset.mem_coe.mpr (Finset.mem_union_left _ (undispatched stream member))
  have few := Set.ncard_le_ncard within (Finset.finite_toSet _)
  rw [Set.ncard_coe_finset] at few
  exact ⟨undispatched, (Finset.finite_toSet _).subset within, few.trans accounted.limited⟩

end Entries

section Steps

variable {session following : Http2Session} {label : StreamStep}

theorem step_call {event : Http2Event} (stepped : session.step (.call event) = some following) :
    session.Permits event ∧ following = session.call event := by
  simp only [Http2Session.step] at stepped
  split_ifs at stepped with permitted
  cases stepped
  exact ⟨permitted, rfl⟩

theorem step_close {stream : Nat} (stepped : session.step (.close stream) = some following) :
    following = session.closeStream stream := by
  simp only [Http2Session.step] at stepped
  split_ifs at stepped
  cases stepped
  rfl

theorem call_streams (session : Http2Session) (event : Http2Event) :
    (session.call event).streams = (session.streams.step event).1 := by
  cases event with
  | beginHeaders type stream => rfl
  | header stream name value => rfl
  | frameRecv type stream endStream =>
      simp only [Http2Session.call, Http2Streams.step]
      split_ifs <;> rfl

theorem run_streams {labels : List StreamStep} {last : Http2Session}
    (reached : run Http2Session.step session labels = some last) :
    last.streams = session.streams.after (calls labels) := by
  induction labels generalizing session with
  | nil =>
      cases reached
      rfl
  | cons label labels ih =>
      obtain ⟨following, stepped, rest⟩ := run_cons reached
      rw [ih rest]
      cases label with
      | call event =>
          rw [(step_call stepped).2, call_streams]
          rfl
      | close stream =>
          rw [step_close stepped]
          rfl

theorem accounted_begin_headers {type : Http2FrameType} {stream : Nat}
    (accounted : Accounted session) (permitted : session.Permits (.beginHeaders type stream)) :
    Accounted (session.call (.beginHeaders type stream)) := by
  obtain ⟨rfl, room⟩ := permitted
  constructor
  · intro other member
    rw [entry_begin_headers]
    rcases Finset.mem_insert.mp member with same | earlier
    · exact Or.inl same
    · exact Or.inr (accounted.begun other earlier)
  · change (insert stream session.receiving ∪ session.answering).card ≤ _
    rcases room with again | ⟨_, free⟩
    · rw [Finset.insert_eq_of_mem again]
      exact accounted.limited
    · rw [Finset.insert_union]
      exact (Finset.card_insert_le _ _).trans free

theorem accounted_frame_recv {type : Http2FrameType} {stream : Nat} {endStream : Bool}
    (accounted : Accounted session)
    (permitted : session.Permits (.frameRecv type stream endStream)) :
    Accounted (session.call (.frameRecv type stream endStream)) := by
  by_cases ends : (type = .headers ∨ type = .data) ∧ endStream = true
  · have arriving : stream ∈ session.receiving := by
      rcases permitted with rfl | ⟨_, arriving⟩
      · exact absurd ends.1 (by decide)
      · exact arriving
    have moved : session.call (.frameRecv type stream endStream) = { session with
        streams := (session.streams.onFrameRecv type stream endStream).1
        receiving := session.receiving.erase stream
        answering := insert stream session.answering } := if_pos ends
    constructor
    · intro other member
      rw [entry_ended ends]
      rw [moved] at member
      obtain ⟨different, earlier⟩ := Finset.mem_erase.mp member
      exact ⟨different, accounted.begun other earlier⟩
    · rw [moved]
      have kept : session.receiving.erase stream ∪ insert stream session.answering =
          session.receiving ∪ session.answering := by
        rw [Finset.union_insert, ← Finset.insert_union, Finset.insert_erase arriving]
      change (session.receiving.erase stream ∪ insert stream session.answering).card ≤ _
      rw [kept]
      exact accounted.limited
  · rw [call_passed ends]
    exact accounted

theorem step_accounted (accounted : Accounted session)
    (stepped : session.step label = some following) : Accounted following := by
  cases label with
  | call event =>
      obtain ⟨permitted, rfl⟩ := step_call stepped
      cases event with
      | beginHeaders type stream => exact accounted_begin_headers accounted permitted
      | header stream name value =>
          refine ⟨?_, accounted.limited⟩
          intro other member
          rw [entry_header]
          exact Or.inr (accounted.begun other member)
      | frameRecv type stream endStream => exact accounted_frame_recv accounted permitted
  | close stream =>
      rw [step_close stepped]
      constructor
      · intro other member
        exact accounted.begun other (Finset.mem_of_mem_erase member)
      · have fewer : session.receiving.erase stream ∪ session.answering.erase stream ⊆
            session.receiving ∪ session.answering :=
          Finset.union_subset_union (Finset.erase_subset _ _) (Finset.erase_subset _ _)
        exact (Finset.card_le_card fewer).trans accounted.limited

theorem call_undispatched {event : Http2Event} (permitted : session.Permits event)
    (undispatched : ∀ stream ∈ session.entries, stream ∈ session.receiving) :
    ∀ stream ∈ (session.call event).entries, stream ∈ (session.call event).receiving := by
  intro other member
  cases event with
  | beginHeaders type stream =>
      obtain ⟨rfl, _⟩ := permitted
      rcases (entry_begin_headers stream other).mp member with same | earlier
      · exact Finset.mem_insert.mpr (Or.inl same)
      · exact Finset.mem_insert_of_mem (undispatched other earlier)
  | header stream name value =>
      rcases (entry_header stream other name value).mp member with rfl | earlier
      · exact permitted
      · exact undispatched other earlier
  | frameRecv type stream endStream =>
      by_cases ends : (type = .headers ∨ type = .data) ∧ endStream = true
      · obtain ⟨different, earlier⟩ := (entry_ended ends stream other).mp member
        have moved : (session.call (.frameRecv type stream endStream)).receiving =
            session.receiving.erase stream := by
          simp only [Http2Session.call, if_pos ends]
        rw [moved]
        exact Finset.mem_erase.mpr ⟨different, undispatched other earlier⟩
      · rw [call_passed ends] at member ⊢
        exact undispatched other member

theorem step_tidy_iff (accounted : Accounted session) (tidy : Tidy session)
    (stepped : session.step label = some following) :
    Tidy following ↔ ClosesDispatched session label := by
  have accountedOn := step_accounted accounted stepped
  cases label with
  | call event =>
      obtain ⟨permitted, rfl⟩ := step_call stepped
      refine iff_of_true (tidy_of_undispatched accountedOn ?_) trivial
      exact call_undispatched permitted tidy.undispatched
  | close stream =>
      have closed := step_close stepped
      constructor
      · intro tidyOn arriving
        have stays : stream ∈ following.entries := by
          rw [closed]
          exact accounted.begun stream arriving
        have gone := tidyOn.undispatched stream stays
        rw [closed] at gone
        exact Finset.notMem_erase stream session.receiving gone
      · intro dispatched
        apply tidy_of_undispatched accountedOn
        intro other member
        rw [closed] at member ⊢
        refine Finset.mem_erase.mpr ⟨?_, tidy.undispatched other member⟩
        intro same
        rw [same] at member
        exact dispatched (tidy.undispatched stream member)

theorem initial_accounted : Accounted {} :=
  ⟨nofun, Nat.zero_le _⟩

theorem initial_tidy : Tidy {} :=
  tidy_of_undispatched initial_accounted nofun

end Steps

/-- Along a run the table holds open, undispatched streams only, and no more than
announced, exactly when no stream is closed before its dispatch. -/
theorem table_tidy_iff (labels : List StreamStep) (last : Http2Session)
    (reached : run Http2Session.step {} labels = some last) :
    Throughout Http2Session.step Tidy {} labels ↔
      Respects Http2Session.step ClosesDispatched {} labels := by
  apply throughout_iff_respects_within Accounted Tidy
  · intro session label following accounted stepped
    exact step_accounted accounted stepped
  · intro session label following accounted tidy stepped
    exact step_tidy_iff accounted tidy stepped
  · exact initial_accounted
  · exact initial_tidy
  · exact reached

section Samples

/-- A `GET` that is answered before its stream is closed. -/
def answeredRun : List StreamStep :=
  [.call (.beginHeaders .headers 1), .call (.header 1 (ascii ":method") (ascii "GET")),
    .call (.header 1 (ascii ":path") (ascii "/")), .call (.frameRecv .headers 1 true), .close 1]

theorem table_tidy_iff_answered :
    ∃ last, run Http2Session.step {} answeredRun = some last ∧
      Respects Http2Session.step ClosesDispatched {} answeredRun ∧
      Throughout Http2Session.step Tidy {} answeredRun := by
  have respects : Respects Http2Session.step ClosesDispatched {} answeredRun := by decide +kernel
  exact ⟨_, rfl, respects, (table_tidy_iff answeredRun _ rfl).mpr respects⟩

/-- Streams that are begun and reset, one after the other. -/
def abandonedRun : Nat → List StreamStep
  | 0 => []
  | count + 1 =>
      abandonedRun count ++
        [StreamStep.call (.beginHeaders .headers (2 * count + 1)),
          StreamStep.close (2 * count + 1)]

/-- However many streams are reset, the entries of all of them stay. -/
theorem abandoned_entries (count : Nat) :
    ∃ last : Http2Session, run Http2Session.step {} (abandonedRun count) = some last ∧
      last.receiving = ∅ ∧ last.answering = ∅ ∧ last.lastStream < 2 * count + 1 ∧
      last.entries = ↑((Finset.range count).image fun index => 2 * index + 1) := by
  induction count with
  | zero => exact ⟨{}, rfl, rfl, rfl, Nat.one_pos, by simp [entries, initial]⟩
  | succ count ih =>
      obtain ⟨last, reached, noneReceiving, noneAnswering, below, kept⟩ := ih
      have permitted : last.Permits (.beginHeaders .headers (2 * count + 1)) := by
        refine ⟨rfl, Or.inr ⟨below, ?_⟩⟩
        rw [noneReceiving, noneAnswering]
        decide
      have arriving : 2 * count + 1 ∈
          (last.call (.beginHeaders .headers (2 * count + 1))).receiving :=
        Finset.mem_insert_self _ _
      refine ⟨(last.call (.beginHeaders .headers (2 * count + 1))).closeStream (2 * count + 1),
        ?_, ?_, ?_, ?_, ?_⟩
      · rw [abandonedRun, run_append, reached, Option.bind_some, run, Http2Session.step,
          if_pos permitted, Option.bind_some, run, Http2Session.step,
          if_pos (Finset.mem_union_left _ arriving), Option.bind_some, run]
      · change (insert (2 * count + 1) last.receiving).erase (2 * count + 1) = ∅
        rw [noneReceiving]
        simp
      · change last.answering.erase (2 * count + 1) = ∅
        rw [noneAnswering]
        rfl
      · change max last.lastStream (2 * count + 1) < _
        omega
      · ext other
        change other ∈ (last.call (.beginHeaders .headers (2 * count + 1))).entries ↔ _
        rw [entry_begin_headers, kept, Finset.range_add_one, Finset.image_insert,
          Finset.coe_insert, Set.mem_insert_iff]

/-- The client resets its upload before the end of it. -/
def resetRun : List StreamStep :=
  [.call (.beginHeaders .headers 1), .call (.header 1 (ascii ":method") (ascii "POST")),
    .call (.header 1 (ascii ":path") (ascii "/upload")), .call (.frameRecv .headers 1 false),
    .call (.frameRecv .other 1 false), .close 1]

/-- The entry outlives its stream, and 101 such streams exceed the limit. -/
theorem reset_stream_keeps_entry :
    (∃ last, run Http2Session.step {} resetRun = some last ∧ 1 ∈ last.entries ∧
      1 ∉ last.receiving ∪ last.answering ∧ ¬Tidy last) ∧
      ∃ last, run Http2Session.step {} (abandonedRun 101) = some last ∧
        maxConcurrentStreams < last.entries.ncard := by
  constructor
  · refine ⟨_, rfl, ?_, ?_, ?_⟩
    · rfl
    · decide +kernel
    · intro tidy
      exact absurd (tidy.undispatched 1 rfl) (by decide +kernel)
  · obtain ⟨last, reached, _, _, _, kept⟩ := abandoned_entries 101
    refine ⟨last, reached, ?_⟩
    rw [kept, Set.ncard_coe_finset,
      Finset.card_image_of_injective _ fun left right same => by simpa using same,
      Finset.card_range]
    decide

end Samples

end Http2StreamTable

end HttpServer
