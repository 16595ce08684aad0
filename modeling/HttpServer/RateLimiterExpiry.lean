import HttpServer.RateLimiter

/-!
# When the counters of the rate limiter expire

The call that opens a window is the only one that gives the key an expiry, and
it does so in a second command. As long as that command is carried out and the
first value reaches the call that drew it, a key without expiry has exactly one
call about to set it. Otherwise the key stays for ever.
-/

namespace HttpServer.RateLimiter

open TransitionSystem

section Calls

variable {limiter : Limiter} {index : Nat} {call : Call} {phase : CallPhase}

def Expiring (limiter : Limiter) (key : Bytes) (index : Nat) : Prop :=
  ∃ call currentCount, limiter.calls[index]? = some call ∧ call.redisKey = key ∧
    call.phase = .expiring currentCount

theorem expiring_set_phase (found : limiter.calls[index]? = some call) (key : Bytes)
    (other : Nat) :
    Expiring (limiter.setPhase index call phase) key other ↔
      (other = index ∧ call.redisKey = key ∧ ∃ currentCount, phase = .expiring currentCount) ∨
        (other ≠ index ∧ Expiring limiter key other) := by
  by_cases here : other = index
  · subst here
    simp only [Expiring, set_phase_same found, true_and, ne_eq, not_true_eq_false, false_and,
      or_false]
    constructor
    · rintro ⟨_, currentCount, same, named, expiring⟩
      cases same
      exact ⟨named, currentCount, expiring⟩
    · rintro ⟨named, currentCount, expiring⟩
      exact ⟨_, currentCount, rfl, named, expiring⟩
  · simp only [Expiring, set_phase_other here, here, false_and, false_or, ne_eq, not_false_eq_true,
      true_and]

theorem expiring_kept (found : limiter.calls[index]? = some call)
    (before : ∀ currentCount, call.phase ≠ .expiring currentCount)
    (after : ∀ currentCount, phase ≠ .expiring currentCount) (key : Bytes) :
    Expiring (limiter.setPhase index call phase) key = Expiring limiter key := by
  funext other
  rw [eq_iff_iff, expiring_set_phase found]
  constructor
  · rintro (⟨_, _, currentCount, expiring⟩ | ⟨_, same⟩)
    · exact absurd expiring (after currentCount)
    · exact same
  · intro same
    refine Or.inr ⟨?_, same⟩
    rintro rfl
    obtain ⟨there, currentCount, same, _, expiring⟩ := same
    rw [found] at same
    cases same
    exact before currentCount expiring

theorem expiring_elsewhere (found : limiter.calls[index]? = some call) {key : Bytes}
    (different : key ≠ call.redisKey) :
    Expiring (limiter.setPhase index call phase) key = Expiring limiter key := by
  funext other
  rw [eq_iff_iff, expiring_set_phase found]
  constructor
  · rintro (⟨_, named, _⟩ | ⟨_, same⟩)
    · exact absurd named.symm different
    · exact same
  · intro same
    refine Or.inr ⟨?_, same⟩
    rintro rfl
    obtain ⟨there, _, same, named, _⟩ := same
    rw [found] at same
    cases same
    exact different named.symm

theorem expiring_enter (limiter : Limiter) (request : HttpRequest) (key : Bytes) :
    Expiring (limiter.enter request) key = Expiring limiter key := by
  funext other
  rw [eq_iff_iff]
  unfold Expiring Limiter.enter
  constructor
  · rintro ⟨call, currentCount, found, named, expiring⟩
    rcases Census.found_concat found with earlier | ⟨_, rfl⟩
    · exact ⟨call, currentCount, earlier, named, expiring⟩
    · cases expiring
  · rintro ⟨call, currentCount, found, named, expiring⟩
    have earlier : other < limiter.calls.length := (List.getElem?_eq_some_iff.mp found).1
    exact ⟨call, currentCount, (List.getElem?_append_left earlier).trans found, named, expiring⟩

end Calls

section Expiry

/-- A counter without expiry has one call about to set it, and no other counter
has any. -/
def TimedKey : Option Counter → (Nat → Prop) → Prop
  | none, expiring => ∀ index, ¬expiring index
  | some counter, expiring =>
      1 ≤ counter.count ∧
        if counter.expires then ∀ index, ¬expiring index else ∃! index, expiring index

def Timed (limiter : Limiter) : Prop :=
  ∀ key, TimedKey (limiter.keys key) (Expiring limiter key)

def inProgress (call : Call) : Bool :=
  match call.phase with
  | .returned _ => false
  | _ => true

def KeysExpire (limiter : Limiter) : Prop :=
  ∀ key counter, limiter.keys key = some counter →
    (∀ call ∈ limiter.calls, call.redisKey = key → inProgress call = false) →
    counter.expires = true

/-- No expiry is refused, and no reply of an `INCR` that makes a key is lost. -/
def ExpiryKept (limiter : Limiter) : LimiterStep → Prop
  | .incr index fault =>
      fault = some .replyLost →
        ∀ call ∈ limiter.calls[index]?, (limiter.keys call.redisKey).isSome = true
  | .expire _ fault => fault ≠ some .refused
  | _ => True

instance (limiter : Limiter) : ∀ label, Decidable (ExpiryKept limiter label)
  | .incr index fault =>
      inferInstanceAs (Decidable (fault = some .replyLost →
        ∀ call ∈ limiter.calls[index]?, (limiter.keys call.redisKey).isSome = true))
  | .expire _ fault => inferInstanceAs (Decidable (fault ≠ some .refused))
  | .enter _ | .compare _ | .lapse _ => isTrue trivial

/-- The key has no expiry and no call will set one. -/
def Stuck (limiter : Limiter) (key : Bytes) : Prop :=
  ∃ counter, limiter.keys key = some counter ∧ 1 ≤ counter.count ∧ counter.expires = false ∧
    ∀ index, ¬Expiring limiter key index

variable {maxRequests windowSeconds : Int} {limiter after : Limiter}

theorem keys_expire_of_timed (timed : Timed limiter) : KeysExpire limiter := by
  intro key counter present idle
  have here := timed key
  rw [present] at here
  by_contra lasting
  rw [Bool.not_eq_true] at lasting
  simp only [TimedKey, lasting, Bool.false_eq_true, if_false] at here
  obtain ⟨_, index, ⟨call, currentCount, found, named, expiring⟩, _⟩ := here
  have done := idle call (List.mem_of_getElem? found) named
  simp only [inProgress, expiring] at done
  cases done

theorem returned_not_expiring (admitted : Bool) (currentCount : Int) :
    CallPhase.returned admitted ≠ .expiring currentCount := nofun

theorem incrementing_not_expiring {call : Call} (phase : call.phase = .incrementing)
    (currentCount : Int) : call.phase ≠ .expiring currentCount := by
  rw [phase]
  nofun

theorem comparing_not_expiring {call : Call} {compared : Int}
    (phase : call.phase = .comparing compared) (currentCount : Int) :
    call.phase ≠ .expiring currentCount := by
  rw [phase]
  nofun

theorem after_incr_not_expiring {counted : Int} (later : counted ≠ 1) (currentCount : Int) :
    afterIncr counted ≠ .expiring currentCount := by
  rw [afterIncr, if_neg later]
  simp

theorem timed_counted (timed : Timed limiter) {index : Nat} {call : Call} {currentCount : Int}
    {counted : Limiter} {phase : CallPhase} {counter : Counter}
    (found : limiter.calls[index]? = some call) (begun : call.phase = .incrementing)
    (present : limiter.keys call.redisKey = some counter)
    (incremented : limiter.increment call.redisKey index = some (currentCount, counted))
    (passes : ∀ count, phase ≠ .expiring count) :
    Timed (counted.setPhase index call phase) := by
  obtain ⟨_, rfl⟩ := increment_eq incremented
  intro key
  rw [expiring_kept (by exact found) (incrementing_not_expiring begun) passes]
  have before := timed key
  change TimedKey (Function.update limiter.keys call.redisKey _ key) (Expiring limiter key)
  by_cases here : key = call.redisKey
  · subst here
    rw [present] at before
    simp only [Function.update_self, present, Limiter.countOf, Option.map_some, Option.getD_some]
    have positive : 1 ≤ counter.count := before.1
    exact ⟨le_add_of_le_of_nonneg positive (by decide), before.2⟩
  · rw [Function.update_of_ne here]
    exact before

/-- The first count on a key: its call is the one that will set the expiry. -/
theorem timed_opened (timed : Timed limiter) {index : Nat} {call : Call} {currentCount : Int}
    {counted : Limiter} (found : limiter.calls[index]? = some call)
    (absent : limiter.keys call.redisKey = none)
    (incremented : limiter.increment call.redisKey index = some (currentCount, counted)) :
    Timed (counted.setPhase index call (afterIncr currentCount)) := by
  obtain ⟨rfl, rfl⟩ := increment_eq incremented
  have none := timed call.redisKey
  rw [absent] at none
  have first : limiter.countOf call.redisKey + 1 = 1 := by
    rw [Limiter.countOf, absent]
    rfl
  intro key
  have before := timed key
  change TimedKey (Function.update limiter.keys call.redisKey _ key) _
  by_cases here : key = call.redisKey
  · subst here
    rw [Function.update_self, absent]
    refine ⟨le_of_eq first.symm, ?_⟩
    rw [if_neg (by simp)]
    refine ⟨index, (expiring_set_phase (by exact found) _ _).mpr (Or.inl ⟨rfl, rfl, 1, ?_⟩), ?_⟩
    · rw [first]
      rfl
    · intro other expiring
      rcases (expiring_set_phase (by exact found) _ _).mp expiring with ⟨same, _⟩ | ⟨_, waiting⟩
      · exact same
      · exact absurd waiting (none other)
  · rw [Function.update_of_ne here]
    rw [expiring_elsewhere (by exact found) here]
    exact before

theorem expiring_present (timed : Timed limiter) {key : Bytes} {index : Nat}
    (expiring : Expiring limiter key index) :
    ∃ counter, limiter.keys key = some counter ∧ 1 ≤ counter.count ∧ counter.expires = false ∧
      ∀ other, Expiring limiter key other → other = index := by
  have here := timed key
  cases present : limiter.keys key with
  | none =>
      rw [present] at here
      exact absurd expiring (here index)
  | some counter =>
      rw [present] at here
      obtain ⟨positive, waiting⟩ := here
      cases expires : counter.expires with
      | true =>
          rw [expires, if_pos rfl] at waiting
          exact absurd expiring (waiting index)
      | false =>
          rw [expires, if_neg Bool.false_ne_true] at waiting
          exact ⟨counter, rfl, positive, expires, fun other also => waiting.unique also expiring⟩

theorem expire_keys (limiter : Limiter) (windowSeconds : Int) {key other : Bytes}
    (different : other ≠ key) : (limiter.expire windowSeconds key).keys other = limiter.keys other := by
  unfold Limiter.expire Limiter.remove
  repeat' split
  all_goals simp [different]

theorem expire_key (windowSeconds : Int) {key : Bytes} {counter : Counter}
    (present : limiter.keys key = some counter) :
    (limiter.expire windowSeconds key).keys key = none ∨
      (limiter.expire windowSeconds key).keys key = some { counter with expires := true } := by
  unfold Limiter.expire
  rw [present]
  dsimp only
  split
  · left
    simp only [Limiter.remove, Function.update_self]
  · right
    simp only [Function.update_self]

theorem expiring_of_calls {other : Limiter} (calls : other.calls = limiter.calls) (key : Bytes) :
    Expiring other key = Expiring limiter key := by
  unfold Expiring
  rw [calls]

/-- The expiry is set, or the key removed, by the one call that was to do it. -/
theorem timed_expired (timed : Timed limiter) {index : Nat} {call : Call} {currentCount : Int}
    {phase : CallPhase} (found : limiter.calls[index]? = some call)
    (begun : call.phase = .expiring currentCount) (passes : ∀ count, phase ≠ .expiring count) :
    Timed ((limiter.expire windowSeconds call.redisKey).setPhase index call phase) := by
  have calls := expire_calls limiter windowSeconds call.redisKey
  have foundAfter : (limiter.expire windowSeconds call.redisKey).calls[index]? = some call := by
    rw [calls]
    exact found
  obtain ⟨counter, present, positive, lasting, only⟩ :=
    expiring_present timed ⟨call, currentCount, found, rfl, begun⟩
  intro key
  by_cases here : key = call.redisKey
  · subst here
    have gone : ∀ other, ¬Expiring ((limiter.expire windowSeconds call.redisKey).setPhase index
        call phase) call.redisKey other := by
      intro other expiring
      rcases (expiring_set_phase foundAfter _ _).mp expiring with ⟨_, _, count, same⟩ | ⟨apart, was⟩
      · exact passes count same
      · rw [expiring_of_calls calls] at was
        exact apart (only other was)
    change TimedKey ((limiter.expire windowSeconds call.redisKey).keys call.redisKey) _
    rcases expire_key windowSeconds present with removed | timedOut
    · rw [removed]
      exact gone
    · rw [timedOut]
      exact ⟨positive, gone⟩
  · rw [expiring_elsewhere foundAfter here, expiring_of_calls calls]
    change TimedKey ((limiter.expire windowSeconds call.redisKey).keys key) _
    rw [expire_keys limiter windowSeconds here]
    exact timed key

theorem exhausted_present {key : Bytes} {index : Nat}
    (exhausted : limiter.increment key index = none) : (limiter.keys key).isSome = true := by
  by_contra absent
  rw [Option.not_isSome_iff_eq_none] at absent
  unfold Limiter.increment Limiter.countOf at exhausted
  rw [absent] at exhausted
  cases exhausted

theorem timed_lapse (timed : Timed limiter) {key : Bytes} {counter : Counter}
    (present : limiter.keys key = some counter) (expires : counter.expires = true) :
    Timed (limiter.remove key) := by
  have here := timed key
  rw [present] at here
  simp only [TimedKey, expires, if_true] at here
  intro other
  change TimedKey (Function.update limiter.keys key none other) (Expiring limiter other)
  by_cases same : other = key
  · subst same
    rw [Function.update_self]
    exact here.2
  · rw [Function.update_of_ne same]
    exact timed other

theorem timed_moves (timed : Timed limiter) {index : Nat} {call : Call} {phase : CallPhase}
    (found : limiter.calls[index]? = some call)
    (before : ∀ count, call.phase ≠ .expiring count)
    (passes : ∀ count, phase ≠ .expiring count) :
    Timed (limiter.setPhase index call phase) := by
  intro key
  rw [expiring_kept found before passes]
  exact timed key

/-- A step that keeps the condition keeps every key timed. -/
theorem step_timed (timed : Timed limiter) {label : LimiterStep}
    (kept : ExpiryKept limiter label)
    (stepped : step maxRequests windowSeconds limiter label = some after) : Timed after := by
  cases step_stepped stepped with
  | enter request =>
      intro key
      rw [expiring_enter]
      exact timed key
  | incrRaised index fault call found phase raised =>
      exact timed_moves timed found (incrementing_not_expiring phase) (returned_not_expiring _)
  | incrLost index call currentCount counted found phase incremented =>
      obtain ⟨counter, present⟩ := Option.isSome_iff_exists.mp (kept rfl call found)
      exact timed_counted timed found phase present incremented (returned_not_expiring _)
  | incr index call currentCount counted found phase incremented =>
      cases present : limiter.keys call.redisKey with
      | none => exact timed_opened timed found present incremented
      | some counter =>
          have here := timed call.redisKey
          rw [present] at here
          have positive : 1 ≤ counter.count := here.1
          have later : currentCount ≠ 1 := by
            obtain ⟨same, _⟩ := increment_eq incremented
            rw [Limiter.countOf, present, Option.map_some, Option.getD_some] at same
            omega
          exact timed_counted timed found phase present incremented (after_incr_not_expiring later)
  | expireRefused index call currentCount found phase => exact absurd rfl kept
  | expired index fault call currentCount found phase carriedOut =>
      apply timed_expired timed found phase
      intro count
      split
      · simp
      · exact returned_not_expiring _ count
  | compare index call currentCount found phase =>
      exact timed_moves timed found (comparing_not_expiring phase) (returned_not_expiring _)
  | lapse key counter present expires => exact timed_lapse timed present expires

/-- A step that breaks the condition leaves a key that nobody will time. -/
theorem step_stuck (timed : Timed limiter) {label : LimiterStep}
    (broken : ¬ExpiryKept limiter label)
    (stepped : step maxRequests windowSeconds limiter label = some after) :
    ∃ key, Stuck after key := by
  cases step_stepped stepped with
  | enter request => exact absurd trivial broken
  | compare index call currentCount found phase => exact absurd trivial broken
  | lapse key counter present expires => exact absurd trivial broken
  | expired index fault call currentCount found phase carriedOut => exact absurd carriedOut broken
  | expireRefused index call currentCount found phase =>
      obtain ⟨counter, present, positive, lasting, only⟩ :=
        expiring_present timed ⟨call, currentCount, found, rfl, phase⟩
      refine ⟨call.redisKey, counter, present, positive, lasting, ?_⟩
      intro other expiring
      rcases (expiring_set_phase found _ _).mp expiring with ⟨_, _, count, same⟩ | ⟨apart, was⟩
      · cases same
      · exact apart (only other was)
  | incr index call currentCount counted found phase incremented =>
      exact absurd (fun lost => by cases lost) broken
  | incrRaised index fault call found phase raised =>
      exfalso
      apply broken
      intro lost other here
      cases found.symm.trans here
      rcases raised with refused | exhausted
      · cases lost.symm.trans refused
      · exact exhausted_present exhausted
  | incrLost index call currentCount counted found phase incremented =>
      have absent : limiter.keys call.redisKey = none := by
        by_contra present
        apply broken
        intro _ other here
        cases found.symm.trans here
        exact Option.isSome_iff_ne_none.mpr present
      have none := timed call.redisKey
      rw [absent] at none
      obtain ⟨_, rfl⟩ := increment_eq incremented
      refine ⟨call.redisKey, ⟨limiter.countOf call.redisKey + 1, false⟩, ?_, ?_, rfl, ?_⟩
      · change Function.update limiter.keys call.redisKey _ call.redisKey = _
        rw [Function.update_self, absent]
        rfl
      · rw [Limiter.countOf, absent]
        decide
      · rw [expiring_kept (by exact found) (incrementing_not_expiring phase)
          (returned_not_expiring true)]
        exact none

section Stuck

variable {key : Bytes} {index : Nat} {call : Call} {phase : CallPhase}

theorem stuck_moves (stuck : Stuck limiter key) (found : limiter.calls[index]? = some call)
    (before : ∀ count, call.phase ≠ .expiring count)
    (passes : ∀ count, phase ≠ .expiring count) : Stuck (limiter.setPhase index call phase) key := by
  obtain ⟨counter, present, positive, lasting, none⟩ := stuck
  refine ⟨counter, present, positive, lasting, ?_⟩
  rw [expiring_kept found before passes]
  exact none

/-- The count of such a key is above one already, so that no call will time it. -/
theorem stuck_counts (stuck : Stuck limiter key) {currentCount : Int} {counted : Limiter}
    (found : limiter.calls[index]? = some call) (begun : call.phase = .incrementing)
    (incremented : limiter.increment call.redisKey index = some (currentCount, counted))
    (passes : currentCount ≠ 1 → ∀ count, phase ≠ .expiring count) :
    Stuck (counted.setPhase index call phase) key := by
  obtain ⟨counter, present, positive, lasting, none⟩ := stuck
  obtain ⟨rfl, rfl⟩ := increment_eq incremented
  by_cases here : key = call.redisKey
  · subst here
    refine ⟨⟨counter.count + 1, false⟩, ?_, by dsimp only; omega, rfl, ?_⟩
    · change Function.update limiter.keys call.redisKey _ call.redisKey = _
      rw [Function.update_self, Limiter.countOf, present, Option.map_some, Option.map_some, lasting]
      rfl
    · have later : limiter.countOf call.redisKey + 1 ≠ 1 := by
        rw [Limiter.countOf, present, Option.map_some, Option.getD_some]
        omega
      rw [expiring_kept (by exact found) (incrementing_not_expiring begun) (passes later)]
      exact none
  · refine ⟨counter, ?_, positive, lasting, ?_⟩
    · change Function.update limiter.keys call.redisKey _ key = _
      rw [Function.update_of_ne here, present]
    · rw [expiring_elsewhere (by exact found) here]
      exact none

theorem stuck_stays (stuck : Stuck limiter key) {label : LimiterStep}
    (stepped : step maxRequests windowSeconds limiter label = some after) : Stuck after key := by
  have here := stuck
  obtain ⟨counter, present, positive, lasting, none⟩ := here
  have elsewhere : ∀ {index : Nat} {call : Call} {currentCount : Int},
      limiter.calls[index]? = some call → call.phase = .expiring currentCount → key ≠ call.redisKey := by
    intro index call currentCount found expiring same
    exact none index ⟨call, currentCount, found, same.symm, expiring⟩
  cases step_stepped stepped with
  | enter request =>
      refine ⟨counter, present, positive, lasting, ?_⟩
      rw [expiring_enter]
      exact none
  | incrRaised index fault call found phase raised =>
      exact stuck_moves stuck found (incrementing_not_expiring phase) (returned_not_expiring _)
  | incrLost index call currentCount counted found phase incremented =>
      exact stuck_counts stuck found phase incremented fun _ => returned_not_expiring _
  | incr index call currentCount counted found phase incremented =>
      exact stuck_counts stuck found phase incremented after_incr_not_expiring
  | expireRefused index call currentCount found phase =>
      refine ⟨counter, present, positive, lasting, ?_⟩
      rw [expiring_elsewhere found (elsewhere found phase)]
      exact none
  | expired index fault call currentCount found phase carriedOut =>
      have apart := elsewhere found phase
      have calls := expire_calls limiter windowSeconds call.redisKey
      refine ⟨counter, ?_, positive, lasting, ?_⟩
      · exact (expire_keys limiter windowSeconds apart).trans present
      · rw [expiring_elsewhere (by rw [calls]; exact found) apart, expiring_of_calls calls]
        exact none
  | compare index call currentCount found phase =>
      exact stuck_moves stuck found (comparing_not_expiring phase) (returned_not_expiring _)
  | lapse other gone there expires =>
      have apart : key ≠ other := by
        rintro rfl
        rw [present] at there
        cases there
        rw [lasting] at expires
        cases expires
      refine ⟨counter, ?_, positive, lasting, none⟩
      change Function.update limiter.keys other Option.none key = some counter
      rw [Function.update_of_ne apart, present]

end Stuck

/-- A run keeps the condition, or ends with a key that stays for ever. -/
theorem run_respects_or_stuck (timed : Timed limiter) {labels : List LimiterStep}
    (reached : run (step maxRequests windowSeconds) limiter labels = some after) :
    Respects (step maxRequests windowSeconds) ExpiryKept limiter labels ∨
      ∃ key, Stuck after key := by
  induction labels generalizing limiter with
  | nil => exact Or.inl trivial
  | cons label labels ih =>
      obtain ⟨following, stepped, rest⟩ := run_cons reached
      by_cases kept : ExpiryKept limiter label
      · rcases ih (step_timed timed kept stepped) rest with respects | stuck
        · refine Or.inl ⟨kept, ?_⟩
          intro other reachedOther
          cases stepped.symm.trans reachedOther
          exact respects
        · exact Or.inr stuck
      · obtain ⟨key, stuck⟩ := step_stuck timed kept stepped
        refine Or.inr ⟨key, run_keeps (Stuck · key) ?_ stuck rest⟩
        intro state other following still onward
        exact stuck_stays still onward

theorem timed_start : Timed {} := by
  rintro key index ⟨call, _, found, _⟩
  cases found

/-- While the condition is kept every counter without a call in progress has an
expiry, in every state; a run that breaks it and lets its calls return ends with
a counter that has none. -/
theorem counters_expire (maxRequests windowSeconds : Int) (labels : List LimiterStep)
    (last : Limiter) (reached : run (step maxRequests windowSeconds) {} labels = some last) :
    (Respects (step maxRequests windowSeconds) ExpiryKept {} labels →
        Throughout (step maxRequests windowSeconds) KeysExpire {} labels) ∧
      ((∀ call ∈ last.calls, inProgress call = false) →
        Throughout (step maxRequests windowSeconds) KeysExpire {} labels →
          Respects (step maxRequests windowSeconds) ExpiryKept {} labels) := by
  constructor
  · intro respects
    refine throughout_of_respects Timed ?_ (fun _ => keys_expire_of_timed) timed_start respects
    intro limiter label after timed kept stepped
    exact step_timed timed kept stepped
  intro quiet expire
  rcases run_respects_or_stuck timed_start reached with respects | ⟨key, counter, present, _,
    lasting, _⟩
  · exact respects
  · have expires := throughout_last expire reached key counter present
      fun call member _ => quiet call member
    rw [lasting] at expires
    cases expires

theorem counters_expire_overtaken :
    ∃ last, run (step 5 10) {} [.enter loginAttempt, .enter loginAttempt, .incr 1 none,
        .incr 0 (some .replyLost), .expire 1 (some .replyLost)] = some last ∧
      Throughout (step 5 10) KeysExpire {} [.enter loginAttempt, .enter loginAttempt,
        .incr 1 none, .incr 0 (some .replyLost), .expire 1 (some .replyLost)] := by
  refine ⟨_, rfl, (counters_expire 5 10 _ _ rfl).1 ?_⟩
  decide +kernel

/-- The `EXPIRE` of the first call is refused; the key is there and stays. -/
theorem refused_expire_lasts :
    ∃ last, run (step 5 10) {} [.enter loginAttempt, .incr 0 none,
        .expire 0 (some .refused)] = some last ∧
      last.keys (ascii "rate_limit:10.0.0.7") = some ⟨1, false⟩ ∧
      (∀ call ∈ last.calls, inProgress call = false) ∧ ¬KeysExpire last := by
  refine ⟨_, rfl, by decide +kernel, by decide +kernel, ?_⟩
  intro expire
  have expires := expire (ascii "rate_limit:10.0.0.7") ⟨1, false⟩ (by decide +kernel)
    fun call member _ => by
      cases List.mem_singleton.mp member
      rfl
  cases expires

end Expiry

end HttpServer.RateLimiter
