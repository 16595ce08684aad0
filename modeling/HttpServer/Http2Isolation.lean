import HttpServer.Http2Streams

/-!
# Streams do not see each other

All callbacks work on one map. Each of them reads and writes the entry of its own
stream only, so the events of a stream, with what they dispatch, are the same in
every interleaving with other streams.
-/

namespace HttpServer.Http2Isolation

open Http2Streams

theorem step_other {streams : Http2Streams} {event : Http2Event} {stream : Nat}
    (other : event.stream ≠ stream) : (streams.step event).1 stream = streams stream := by
  cases event with
  | beginHeaders type target =>
      simp only [step, onBeginHeaders]
      split_ifs
      · exact Function.update_of_ne (Ne.symm other) _ _
      · rfl
  | header target name value => exact Function.update_of_ne (Ne.symm other) _ _
  | frameRecv type target endStream =>
      simp only [step, onFrameRecv]
      split_ifs
      · exact Function.update_of_ne (Ne.symm other) _ _
      · rfl

theorem step_own {streams alone : Http2Streams} {event : Http2Event}
    (same : streams event.stream = alone event.stream) :
    (streams.step event).1 event.stream = (alone.step event).1 event.stream ∧
      (streams.step event).2 = (alone.step event).2 := by
  cases event with
  | beginHeaders type target =>
      simp only [Http2Event.stream] at same
      simp only [step, onBeginHeaders, Http2Event.stream, and_true]
      split_ifs
      · simp only [store, Function.update_self]
      · exact same
  | header target name value =>
      simp only [Http2Event.stream] at same
      simp only [step, onHeader, store, entry, Http2Event.stream, Function.update_self, same,
        and_self]
  | frameRecv type target endStream =>
      simp only [Http2Event.stream] at same
      simp only [step, onFrameRecv, Http2Event.stream]
      split_ifs
      · simp only [erase, entry, Function.update_self, same, and_self]
      · exact ⟨same, rfl⟩

theorem trace_filter (stream : Nat) (events : List Http2Event) (streams alone : Http2Streams)
    (same : streams stream = alone stream) :
    (streams.trace events).filter (fun entry => entry.1.stream = stream) =
        alone.trace (events.filter fun event => event.stream = stream) ∧
      streams.after events stream =
        alone.after (events.filter fun event => event.stream = stream) stream := by
  induction events generalizing streams alone with
  | nil => exact ⟨rfl, same⟩
  | cons event events ih =>
      simp only [trace, after]
      by_cases own : event.stream = stream
      · subst own
        obtain ⟨entry, dispatched⟩ := step_own same
        obtain ⟨traced, final⟩ := ih _ _ entry
        simp only [List.filter_cons, decide_true, if_true, trace, after]
        exact ⟨by rw [traced, dispatched], final⟩
      · have entry : (streams.step event).1 stream = alone stream := (step_other own).trans same
        obtain ⟨traced, final⟩ := ih _ _ entry
        simp only [List.filter_cons, own, decide_false, Bool.false_eq_true, if_false]
        exact ⟨traced, final⟩

/-- On one connection and for every interleaving: the events of a stream with what
they dispatch, and the request it has under construction at any time, are those of
the stream alone; and an event of one stream changes no other entry. -/
theorem streams_are_isolated (stream : Nat) (events : List Http2Event) :
    (initial.trace events).filter (fun entry => entry.1.stream = stream) =
        initial.trace (events.filter fun event => event.stream = stream) ∧
      initial.after events stream =
        initial.after (events.filter fun event => event.stream = stream) stream ∧
      ∀ (event : Http2Event) (other : Nat), other ≠ event.stream →
        ((initial.after events).step event).1 other = initial.after events other := by
  obtain ⟨traced, final⟩ := trace_filter stream events initial initial rfl
  refine ⟨traced, final, ?_⟩
  intro event other different
  exact step_other (Ne.symm different)

end HttpServer.Http2Isolation
