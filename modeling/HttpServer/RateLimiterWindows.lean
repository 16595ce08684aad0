import HttpServer.RateLimiter

/-!
# Which calls the rate limiter admits

A call learns its place in the window of its key from `INCR` and is admitted or
not by that place alone, however the calls go on from there and whenever the key
is removed.
-/

namespace HttpServer.RateLimiter

open TransitionSystem

section Windows

/-- The calls that counted between two removals of a key. -/
def IsWindow (limiter : Limiter) (window : List Nat) : Prop :=
  window ∈ limiter.closed ∨ ∃ key, window = limiter.window key

def isAdmitted (limiter : Limiter) (index : Nat) : Bool :=
  (limiter.calls[index]?).any fun call => decide (call.phase = .returned true)

/-- At most so many calls of the window are admitted, and of those that have
returned just the first ones in the order of their counts. -/
def AdmitsFirst (maxRequests : Int) (limiter : Limiter) (window : List Nat) : Prop :=
  (window.filter (isAdmitted limiter)).length ≤ maxRequests.toNat ∧
    ∀ (position index : Nat) (call : Call) (admitted : Bool), window[position]? = some index →
      limiter.calls[index]? = some call → call.phase = .returned admitted →
        (admitted = true ↔ (position : Int) < maxRequests)

def ErrorFree (limiter : Limiter) : LimiterStep → Prop
  | .incr index fault =>
      fault = none ∧
        ∀ call ∈ limiter.calls[index]?, (limiter.increment call.redisKey index).isSome = true
  | .expire _ fault => fault = none
  | _ => True

instance (limiter : Limiter) : ∀ label, Decidable (ErrorFree limiter label)
  | .incr index fault =>
      inferInstanceAs (Decidable (fault = none ∧
        ∀ call ∈ limiter.calls[index]?, (limiter.increment call.redisKey index).isSome = true))
  | .expire _ fault => inferInstanceAs (Decidable (fault = none))
  | .enter _ | .compare _ | .lapse _ => isTrue trivial

def Settles (maxRequests : Int) (position : Nat) (phase : CallPhase) : Prop :=
  phase = .expiring (position + 1) ∨ phase = .comparing (position + 1) ∨
    phase = .returned (decide ((position : Int) < maxRequests))

structure Counted (maxRequests : Int) (limiter : Limiter) : Prop where
  counts : ∀ key, limiter.countOf key = (limiter.window key).length
  settled : ∀ window, IsWindow limiter window → ∀ position index,
    window[position]? = some index →
      ∃ call, limiter.calls[index]? = some call ∧ Settles maxRequests position call.phase
  complete : ∀ index call, limiter.calls[index]? = some call → call.phase ≠ .incrementing →
    ∃ window, IsWindow limiter window ∧ index ∈ window

variable {maxRequests windowSeconds : Int} {limiter after : Limiter}

theorem counted_start (maxRequests : Int) : Counted maxRequests {} where
  counts _ := rfl
  settled := by
    rintro window (member | ⟨key, rfl⟩) position index found
    · cases member
    · cases found
  complete := by
    intro index call found
    cases found

theorem counted_enter (counted : Counted maxRequests limiter) (request : HttpRequest) :
    Counted maxRequests (limiter.enter request) where
  counts := counted.counts
  settled window isWindow position index found := by
    obtain ⟨call, there, settles⟩ := counted.settled window isWindow position index found
    have earlier : index < limiter.calls.length := (List.getElem?_eq_some_iff.mp there).1
    exact ⟨call, (List.getElem?_append_left earlier).trans there, settles⟩
  complete index call found begun := by
    rcases Census.found_concat found with earlier | ⟨_, rfl⟩
    · exact counted.complete index call earlier begun
    · exact absurd rfl begun

theorem counted_moves (counted : Counted maxRequests limiter) {index : Nat} {call : Call}
    {phase : CallPhase} (found : limiter.calls[index]? = some call)
    (begun : call.phase ≠ .incrementing)
    (moves : ∀ position, Settles maxRequests position call.phase →
      Settles maxRequests position phase) :
    Counted maxRequests (limiter.setPhase index call phase) where
  counts := counted.counts
  settled window isWindow position other member := by
    obtain ⟨there, present, settles⟩ := counted.settled window isWindow position other member
    by_cases here : other = index
    · subst here
      rw [found] at present
      cases present
      exact ⟨_, set_phase_same found, moves position settles⟩
    · exact ⟨there, (set_phase_other here).trans present, settles⟩
  complete other there present counts := by
    by_cases here : other = index
    · subst here
      exact counted.complete other call found begun
    · rw [set_phase_other here] at present
      exact counted.complete other there present counts

theorem counted_remove (counted : Counted maxRequests limiter) (key : Bytes) :
    Counted maxRequests (limiter.remove key) where
  counts other := by
    by_cases here : other = key
    · subst here
      simp [Limiter.countOf, Limiter.remove]
    · have before := counted.counts other
      simpa [Limiter.countOf, Limiter.remove, here] using before
  settled window isWindow position index found := by
    rcases isWindow with closed | ⟨other, rfl⟩
    · rcases List.mem_append.mp closed with before | last
      · exact counted.settled window (Or.inl before) position index found
      · rw [List.mem_singleton.mp last] at found
        exact counted.settled _ (Or.inr ⟨key, rfl⟩) position index found
    · by_cases here : other = key
      · subst here
        simp [Limiter.remove] at found
      · rw [show (limiter.remove key).window other = limiter.window other from
          Function.update_of_ne here _ _] at found
        exact counted.settled _ (Or.inr ⟨other, rfl⟩) position index found
  complete index call found begun := by
    obtain ⟨window, isWindow, member⟩ := counted.complete index call found begun
    refine ⟨window, ?_, member⟩
    rcases isWindow with closed | ⟨other, rfl⟩
    · exact Or.inl (List.mem_append_left _ closed)
    · by_cases here : other = key
      · subst here
        exact Or.inl (List.mem_append_right _ (List.mem_singleton_self _))
      · exact Or.inr ⟨other, (Function.update_of_ne here _ _).symm⟩

theorem counted_expire (counted : Counted maxRequests limiter) (windowSeconds : Int)
    (key : Bytes) : Counted maxRequests (limiter.expire windowSeconds key) := by
  unfold Limiter.expire
  split
  · exact counted
  · rename_i counter present
    split
    · exact counted_remove counted key
    · refine ⟨?_, counted.settled, counted.complete⟩
      intro other
      have before := counted.counts other
      by_cases here : other = key
      · subst here
        simpa [Limiter.countOf, present] using before
      · simpa [Limiter.countOf, here] using before

theorem uncounted_apart (counted : Counted maxRequests limiter) {index : Nat} {call : Call}
    (found : limiter.calls[index]? = some call) (begun : call.phase = .incrementing)
    {window : List Nat} (isWindow : IsWindow limiter window) {position other : Nat}
    (member : window[position]? = some other) : other ≠ index := by
  intro same
  obtain ⟨there, present, settles⟩ := counted.settled window isWindow position other member
  rw [same, found] at present
  cases present
  rw [begun] at settles
  rcases settles with impossible | impossible | impossible
  all_goals cases impossible

theorem settles_after_incr (maxRequests : Int) (position : Nat) :
    Settles maxRequests position (afterIncr (position + 1)) := by
  unfold afterIncr
  split
  · exact Or.inl rfl
  · exact Or.inr (Or.inl rfl)

theorem counted_incr (counted : Counted maxRequests limiter) {index : Nat} {call : Call}
    {currentCount : Int} {raised : Limiter} (found : limiter.calls[index]? = some call)
    (begun : call.phase = .incrementing)
    (incremented : limiter.increment call.redisKey index = some (currentCount, raised)) :
    Counted maxRequests (raised.setPhase index call (afterIncr currentCount)) := by
  obtain ⟨rfl, rfl⟩ := increment_eq incremented
  have kept : ∀ window, IsWindow limiter window → ∀ (position other : Nat),
      window[position]? = some other →
      ∃ there, (limiter.calls.set index { call with
        phase := afterIncr (limiter.countOf call.redisKey + 1) })[other]? = some there ∧
          Settles maxRequests position there.phase := by
    intro window isWindow position other member
    obtain ⟨there, present, settles⟩ := counted.settled window isWindow position other member
    have different := uncounted_apart counted found begun isWindow member
    exact ⟨there, (List.getElem?_set_ne different.symm).trans present, settles⟩
  have placed := counted.counts call.redisKey
  constructor
  · intro key
    by_cases here : key = call.redisKey
    · subst here
      simp only [Limiter.countOf, Limiter.setPhase, Function.update_self, Option.map_some,
        Option.getD_some, List.length_append, List.length_singleton] at placed ⊢
      omega
    · have before := counted.counts key
      simpa [Limiter.countOf, Limiter.setPhase, here] using before
  · rintro window (closed | ⟨key, rfl⟩) position other member
    · exact kept window (Or.inl closed) position other member
    · by_cases here : key = call.redisKey
      · subst here
        simp only [Limiter.setPhase, Function.update_self] at member
        rcases Census.found_concat member with earlier | ⟨last, rfl⟩
        · exact kept _ (Or.inr ⟨call.redisKey, rfl⟩) position other earlier
        · refine ⟨_, set_phase_same (by exact found), ?_⟩
          rw [placed, ← last]
          exact settles_after_incr maxRequests position
      · simp only [Limiter.setPhase, Function.update_of_ne here] at member
        exact kept _ (Or.inr ⟨key, rfl⟩) position other member
  · intro other there present counts
    by_cases here : other = index
    · refine ⟨limiter.window call.redisKey ++ [index], Or.inr ⟨call.redisKey, ?_⟩, ?_⟩
      · simp [Limiter.setPhase]
      · rw [here]
        exact List.mem_append_right _ (List.mem_singleton_self _)
    · rw [set_phase_other here] at present
      obtain ⟨window, isWindow, member⟩ := counted.complete other there present counts
      rcases isWindow with closed | ⟨key, rfl⟩
      · exact ⟨window, Or.inl closed, member⟩
      · by_cases same : key = call.redisKey
        · subst same
          refine ⟨limiter.window call.redisKey ++ [index], Or.inr ⟨call.redisKey, ?_⟩,
            List.mem_append_left _ member⟩
          simp [Limiter.setPhase]
        · refine ⟨limiter.window key, Or.inr ⟨key, ?_⟩, member⟩
          simp [Limiter.setPhase, same]

theorem step_counted (counted : Counted maxRequests limiter) {label : LimiterStep}
    (errorFree : ErrorFree limiter label)
    (stepped : step maxRequests windowSeconds limiter label = some after) :
    Counted maxRequests after := by
  cases step_stepped stepped with
  | enter request => exact counted_enter counted request
  | incrRaised index fault call found phase raised =>
      obtain ⟨noFault, fits⟩ := errorFree
      rcases raised with refused | exhausted
      · cases noFault.symm.trans refused
      · have more := fits call found
        rw [exhausted] at more
        cases more
  | incrLost index call currentCount raised found phase incremented => cases errorFree.1
  | incr index call currentCount raised found phase incremented =>
      exact counted_incr counted found phase incremented
  | expireRefused index call currentCount found phase => cases errorFree
  | expired index fault call currentCount found phase carriedOut =>
      rw [if_pos (show fault = none from errorFree)]
      have calls := expire_calls limiter windowSeconds call.redisKey
      apply counted_moves (counted_expire counted windowSeconds call.redisKey)
        (by rw [calls]; exact found) (by rw [phase]; nofun)
      intro position settles
      rw [phase] at settles
      rcases settles with same | same | same
      · cases same
        exact Or.inr (Or.inl rfl)
      · cases same
      · cases same
  | compare index call currentCount found phase =>
      apply counted_moves counted found (by rw [phase]; nofun)
      intro position settles
      rw [phase] at settles
      rcases settles with same | same | same
      · cases same
      · cases same
        refine Or.inr (Or.inr ?_)
        rw [CallPhase.returned.injEq, ← decide_not, decide_eq_decide]
        omega
      · cases same
  | lapse key counter present expires => exact counted_remove counted key

theorem filter_length_le {Item : Type} {items : List Item} {chosen : Item → Bool} {bound : Nat}
    (first : ∀ (position : Nat) (item : Item), items[position]? = some item →
      chosen item = true → position < bound) : (items.filter chosen).length ≤ bound := by
  have rest : (items.drop bound).filter chosen = [] := by
    rw [List.filter_eq_nil_iff]
    intro item member isChosen
    obtain ⟨offset, found⟩ := List.getElem?_of_mem member
    rw [List.getElem?_drop] at found
    have below := first (bound + offset) item found isChosen
    omega
  have parts : items.filter chosen = (items.take bound).filter chosen := by
    conv_lhs => rw [← List.take_append_drop bound items]
    rw [List.filter_append, rest, List.append_nil]
  rw [parts]
  exact (List.length_filter_le _ _).trans (List.length_take_le _ _)

theorem counted_admits (counted : Counted maxRequests limiter) {window : List Nat}
    (isWindow : IsWindow limiter window) : AdmitsFirst maxRequests limiter window := by
  have placed : ∀ (position index : Nat) (call : Call) (admitted : Bool),
      window[position]? = some index → limiter.calls[index]? = some call →
        call.phase = .returned admitted → (admitted = true ↔ (position : Int) < maxRequests) := by
    intro position index call admitted member found returned
    obtain ⟨there, present, settles⟩ := counted.settled window isWindow position index member
    cases found.symm.trans present
    rw [returned] at settles
    rcases settles with same | same | same
    · cases same
    · cases same
    · cases same
      exact decide_eq_true_iff
  refine ⟨filter_length_le ?_, placed⟩
  intro position index member admitted
  obtain ⟨call, found, returned⟩ := (Option.any_eq_true ..).mp admitted
  have below := (placed position index call true member found (of_decide_eq_true returned)).mp rfl
  omega

/-- Without errors every call that counted belongs to a window, and each window
admits its first calls, as many as allowed. -/
theorem window_admits_first (maxRequests windowSeconds : Int) (labels : List LimiterStep)
    (last : Limiter)
    (errorFree : Respects (step maxRequests windowSeconds) ErrorFree {} labels)
    (reached : run (step maxRequests windowSeconds) {} labels = some last) :
    (∀ window, IsWindow last window → AdmitsFirst maxRequests last window) ∧
      ∀ (index : Nat) (call : Call), last.calls[index]? = some call →
        call.phase ≠ .incrementing → ∃ window, IsWindow last window ∧ index ∈ window := by
  have counted : Counted maxRequests last := by
    refine run_invariant (Counted maxRequests) ?_ (counted_start maxRequests) errorFree reached
    intro limiter label after before free stepped
    exact step_counted before free stepped
  exact ⟨fun window isWindow => counted_admits counted isWindow, counted.complete⟩

/-- Two calls count before the first sets the expiry, and the key goes later. -/
def pairRun : List LimiterStep :=
  [.enter loginAttempt, .enter loginAttempt, .incr 1 none, .incr 0 none, .compare 0,
    .expire 1 none, .compare 1, .lapse (ascii "rate_limit:10.0.0.7")]

theorem window_admits_first_pair :
    Respects (step 1 10) ErrorFree {} pairRun ∧
      ∃ last, run (step 1 10) {} pairRun = some last ∧ last.closed = [[1, 0]] ∧
        isAdmitted last 1 = true ∧ isAdmitted last 0 = false ∧ AdmitsFirst 1 last [1, 0] := by
  have errorFree : Respects (step 1 10) ErrorFree {} pairRun := by
    decide +kernel
  refine ⟨errorFree, _, rfl, by decide +kernel, by decide +kernel, by decide +kernel, ?_⟩
  exact (window_admits_first 1 10 pairRun _ errorFree rfl).1 [1, 0] (Or.inl (by decide +kernel))

end Windows

end HttpServer.RateLimiter
