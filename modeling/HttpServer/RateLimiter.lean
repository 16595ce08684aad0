import HttpServer.App
import HttpServer.Census
import HttpServer.TransitionSystem

/-!
# Concurrent calls of the rate limiter

The middleware runs on several threads at once against one Redis server, which
carries out one command at a time: between its `INCR` and its `EXPIRE` a call can
be overtaken by any other. A command may be refused before it is carried out or
lose its reply afterwards; either raises and lets the request pass. `INCR` also
raises at the end of the 64-bit range, and `EXPIRE` with a window that is not
positive removes the key. A key that expires may go at any time and one that
does not never goes. `window` and `closed` record which calls counted on a key
between two of its removals; no step reads them.
-/

namespace HttpServer.RateLimiter

open TransitionSystem

structure Counter where
  count : Int
  expires : Bool := false
deriving DecidableEq, Repr

inductive CallPhase where
  | incrementing
  | expiring (currentCount : Int)
  | comparing (currentCount : Int)
  | returned (admitted : Bool)
deriving DecidableEq, Repr

structure Call where
  redisKey : Bytes
  phase : CallPhase := .incrementing
deriving DecidableEq, Repr

structure Limiter where
  keys : Bytes → Option Counter := fun _ => none
  calls : List Call := []
  /-- The calls that counted on a key since it was last removed, in order. -/
  window : Bytes → List Nat := fun _ => []
  closed : List (List Nat) := []

inductive RedisFault where
  | refused | replyLost
deriving DecidableEq, Repr

inductive LimiterStep where
  | enter (request : HttpRequest)
  | incr (index : Nat) (fault : Option RedisFault)
  | expire (index : Nat) (fault : Option RedisFault)
  | compare (index : Nat)
  | lapse (key : Bytes)
deriving DecidableEq, Repr

def redisKey (request : HttpRequest) : Bytes :=
  let forwarded := request.header (ascii "X-Forwarded-For")
  ascii "rate_limit:" ++ if forwarded.isEmpty then ascii "unknown_ip" else forwarded

namespace Limiter

variable (limiter : Limiter)

def countOf (key : Bytes) : Int := ((limiter.keys key).map Counter.count).getD 0

/-- `INCR`; `none` when the counter would leave the range of `long long`. -/
def increment (key : Bytes) (index : Nat) : Option (Int × Limiter) :=
  let currentCount := limiter.countOf key + 1
  if currentCount < 2 ^ 63 then
    some (currentCount, { limiter with
      keys := Function.update limiter.keys key
        (some ⟨currentCount, ((limiter.keys key).map Counter.expires).getD false⟩)
      window := Function.update limiter.window key (limiter.window key ++ [index]) })
  else none

def remove (key : Bytes) : Limiter :=
  { limiter with
    keys := Function.update limiter.keys key none
    window := Function.update limiter.window key []
    closed := limiter.closed ++ [limiter.window key] }

/-- `EXPIRE`, which does nothing to an absent key. -/
def expire (windowSeconds : Int) (key : Bytes) : Limiter :=
  match limiter.keys key with
  | none => limiter
  | some counter =>
      if windowSeconds ≤ 0 then limiter.remove key
      else
        { limiter with
          keys := Function.update limiter.keys key (some { counter with expires := true }) }

def enter (request : HttpRequest) : Limiter :=
  { limiter with calls := limiter.calls ++ [{ redisKey := redisKey request }] }

def setPhase (index : Nat) (call : Call) (phase : CallPhase) : Limiter :=
  { limiter with calls := limiter.calls.set index { call with phase := phase } }

end Limiter

def afterIncr (currentCount : Int) : CallPhase :=
  if currentCount = 1 then .expiring currentCount else .comparing currentCount

def step (maxRequests windowSeconds : Int) (limiter : Limiter) : LimiterStep → Option Limiter
  | .enter request => some (limiter.enter request)
  | .incr index fault =>
      match limiter.calls[index]? with
      | none => none
      | some call =>
          if call.phase ≠ .incrementing then none
          else
            match fault, limiter.increment call.redisKey index with
            | some .refused, _ => some (limiter.setPhase index call (.returned true))
            | _, none => some (limiter.setPhase index call (.returned true))
            | some .replyLost, some (_, counted) =>
                some (counted.setPhase index call (.returned true))
            | none, some (currentCount, counted) =>
                some (counted.setPhase index call (afterIncr currentCount))
  | .expire index fault =>
      match limiter.calls[index]? with
      | none => none
      | some call =>
          match call.phase, fault with
          | .expiring _, some .refused =>
              some (limiter.setPhase index call (.returned true))
          | .expiring _, some .replyLost =>
              some ((limiter.expire windowSeconds call.redisKey).setPhase index call
                (.returned true))
          | .expiring currentCount, none =>
              some ((limiter.expire windowSeconds call.redisKey).setPhase index call
                (.comparing currentCount))
          | _, _ => none
  | .compare index =>
      match limiter.calls[index]? with
      | none => none
      | some call =>
          match call.phase with
          | .comparing currentCount =>
              some (limiter.setPhase index call (.returned (!decide (currentCount > maxRequests))))
          | _ => none
  | .lapse key =>
      match limiter.keys key with
      | some counter => if counter.expires then some (limiter.remove key) else none
      | none => none

section Inversion

variable {maxRequests windowSeconds : Int} {limiter after : Limiter}

inductive Stepped (maxRequests windowSeconds : Int) (limiter : Limiter) :
    LimiterStep → Limiter → Prop
  | enter (request : HttpRequest) :
      Stepped maxRequests windowSeconds limiter (.enter request) (limiter.enter request)
  | incrRaised (index : Nat) (fault : Option RedisFault) (call : Call)
      (found : limiter.calls[index]? = some call) (phase : call.phase = .incrementing)
      (raised : fault = some .refused ∨ limiter.increment call.redisKey index = none) :
      Stepped maxRequests windowSeconds limiter (.incr index fault)
        (limiter.setPhase index call (.returned true))
  | incrLost (index : Nat) (call : Call) (currentCount : Int) (counted : Limiter)
      (found : limiter.calls[index]? = some call) (phase : call.phase = .incrementing)
      (incremented : limiter.increment call.redisKey index = some (currentCount, counted)) :
      Stepped maxRequests windowSeconds limiter (.incr index (some .replyLost))
        (counted.setPhase index call (.returned true))
  | incr (index : Nat) (call : Call) (currentCount : Int) (counted : Limiter)
      (found : limiter.calls[index]? = some call) (phase : call.phase = .incrementing)
      (incremented : limiter.increment call.redisKey index = some (currentCount, counted)) :
      Stepped maxRequests windowSeconds limiter (.incr index none)
        (counted.setPhase index call (afterIncr currentCount))
  | expireRefused (index : Nat) (call : Call) (currentCount : Int)
      (found : limiter.calls[index]? = some call) (phase : call.phase = .expiring currentCount) :
      Stepped maxRequests windowSeconds limiter (.expire index (some .refused))
        (limiter.setPhase index call (.returned true))
  | expired (index : Nat) (fault : Option RedisFault) (call : Call) (currentCount : Int)
      (found : limiter.calls[index]? = some call) (phase : call.phase = .expiring currentCount)
      (carriedOut : fault ≠ some .refused) :
      Stepped maxRequests windowSeconds limiter (.expire index fault)
        ((limiter.expire windowSeconds call.redisKey).setPhase index call
          (if fault = none then .comparing currentCount else .returned true))
  | compare (index : Nat) (call : Call) (currentCount : Int)
      (found : limiter.calls[index]? = some call) (phase : call.phase = .comparing currentCount) :
      Stepped maxRequests windowSeconds limiter (.compare index)
        (limiter.setPhase index call (.returned (!decide (currentCount > maxRequests))))
  | lapse (key : Bytes) (counter : Counter) (present : limiter.keys key = some counter)
      (expires : counter.expires = true) :
      Stepped maxRequests windowSeconds limiter (.lapse key) (limiter.remove key)

theorem step_stepped {label : LimiterStep}
    (stepped : step maxRequests windowSeconds limiter label = some after) :
    Stepped maxRequests windowSeconds limiter label after := by
  cases label with
  | enter request =>
      cases stepped
      exact .enter request
  | incr index fault =>
      simp only [step] at stepped
      split at stepped
      · cases stepped
      · rename_i call found
        split at stepped
        · cases stepped
        · rename_i begun
          have phase : call.phase = .incrementing := not_not.mp begun
          split at stepped
          · cases stepped
            exact .incrRaised index _ call found phase (Or.inl rfl)
          · rename_i _ incremented
            cases stepped
            exact .incrRaised index _ call found phase (Or.inr incremented)
          · rename_i currentCount counted incremented
            cases stepped
            exact .incrLost index call currentCount counted found phase incremented
          · rename_i currentCount counted incremented
            cases stepped
            exact .incr index call currentCount counted found phase incremented
  | expire index fault =>
      simp only [step] at stepped
      split at stepped
      · cases stepped
      · rename_i call found
        split at stepped
        · rename_i currentCount phase
          cases stepped
          exact .expireRefused index call currentCount found phase
        · rename_i currentCount phase
          cases stepped
          exact .expired index _ call currentCount found phase (by decide)
        · rename_i currentCount phase
          cases stepped
          exact .expired index none call currentCount found phase (by decide)
        · cases stepped
  | compare index =>
      simp only [step] at stepped
      split at stepped
      · cases stepped
      · rename_i call found
        split at stepped
        · rename_i currentCount phase
          cases stepped
          exact .compare index call currentCount found phase
        · cases stepped
  | lapse key =>
      simp only [step] at stepped
      split at stepped
      · rename_i counter present
        split at stepped
        · rename_i expires
          cases stepped
          exact .lapse key counter present expires
        · cases stepped
      · cases stepped

end Inversion

section Calls

variable {limiter : Limiter} {index : Nat} {call : Call} {phase : CallPhase}

theorem set_phase_same (found : limiter.calls[index]? = some call) :
    (limiter.setPhase index call phase).calls[index]? = some { call with phase := phase } := by
  have bound : index < limiter.calls.length := (List.getElem?_eq_some_iff.mp found).1
  exact List.getElem?_set_self bound

theorem set_phase_other {other : Nat} (different : other ≠ index) :
    (limiter.setPhase index call phase).calls[other]? = limiter.calls[other]? :=
  List.getElem?_set_ne fun same => different same.symm

theorem increment_eq {key : Bytes} {currentCount : Int} {counted : Limiter}
    (incremented : limiter.increment key index = some (currentCount, counted)) :
    currentCount = limiter.countOf key + 1 ∧
      counted = { limiter with
        keys := Function.update limiter.keys key
          (some ⟨limiter.countOf key + 1,
            ((limiter.keys key).map Counter.expires).getD false⟩)
        window := Function.update limiter.window key (limiter.window key ++ [index]) } := by
  unfold Limiter.increment at incremented
  dsimp only at incremented
  split at incremented
  · cases incremented
    exact ⟨rfl, rfl⟩
  · cases incremented

theorem expire_calls (limiter : Limiter) (windowSeconds : Int) (key : Bytes) :
    (limiter.expire windowSeconds key).calls = limiter.calls := by
  unfold Limiter.expire Limiter.remove
  repeat' split
  all_goals rfl

end Calls

section Alone

variable {maxRequests windowSeconds : Int}

def Finishes (maxRequests windowSeconds : Int) (limiter : Limiter) (index : Nat)
    (admitted : Bool) : Prop :=
  ∃ labels last call, run (step maxRequests windowSeconds) limiter labels = some last ∧
    last.calls[index]? = some call ∧ call.phase = .returned admitted

theorem finishes_step {limiter following : Limiter} {index : Nat} {admitted : Bool}
    {label : LimiterStep} (stepped : step maxRequests windowSeconds limiter label = some following)
    (onward : Finishes maxRequests windowSeconds following index admitted) :
    Finishes maxRequests windowSeconds limiter index admitted := by
  obtain ⟨labels, last, call, reached, found, returned⟩ := onward
  refine ⟨label :: labels, last, call, ?_, found, returned⟩
  rw [run, stepped]
  exact reached

theorem finishes_returned {limiter : Limiter} {index : Nat} {call : Call} {admitted : Bool}
    (found : limiter.calls[index]? = some call) :
    Finishes maxRequests windowSeconds (limiter.setPhase index call (.returned admitted)) index
      admitted :=
  ⟨[], _, _, rfl, set_phase_same found, rfl⟩

theorem finishes_comparing {limiter : Limiter} {index : Nat} {call : Call} {currentCount : Int}
    (found : limiter.calls[index]? = some call) :
    Finishes maxRequests windowSeconds
      (limiter.setPhase index call (.comparing currentCount)) index
      (!decide (currentCount > maxRequests)) := by
  have there := @set_phase_same limiter index call (.comparing currentCount) found
  have compared : step maxRequests windowSeconds
      (limiter.setPhase index call (.comparing currentCount)) (.compare index) =
        some ((limiter.setPhase index call (.comparing currentCount)).setPhase index
          { call with phase := .comparing currentCount }
          (.returned (!decide (currentCount > maxRequests)))) := by
    simp only [step, there]
  exact finishes_step compared (finishes_returned there)

theorem finishes_expiring {limiter : Limiter} {index : Nat} {call : Call} {currentCount : Int}
    (found : limiter.calls[index]? = some call) (fails : Bool) :
    Finishes maxRequests windowSeconds
      (limiter.setPhase index call (.expiring currentCount)) index
      (fails || !decide (currentCount > maxRequests)) := by
  have there := @set_phase_same limiter index call (.expiring currentCount) found
  cases fails with
  | true =>
      have refused : step maxRequests windowSeconds
          (limiter.setPhase index call (.expiring currentCount))
          (.expire index (some .refused)) =
            some ((limiter.setPhase index call (.expiring currentCount)).setPhase index
              { call with phase := .expiring currentCount } (.returned true)) := by
        simp only [step, there]
      exact finishes_step refused (finishes_returned there)
  | false =>
      have expired : step maxRequests windowSeconds
          (limiter.setPhase index call (.expiring currentCount)) (.expire index none) =
            some (((limiter.setPhase index call (.expiring currentCount)).expire windowSeconds
              call.redisKey).setPhase index { call with phase := .expiring currentCount }
              (.comparing currentCount)) := by
        simp only [step, there]
      refine finishes_step expired (finishes_comparing ?_)
      rw [expire_calls]
      exact there

/-- The answer of the middleware, by the value of its `INCR` and what raises. -/
def verdict (redis : Redis) (maxRequests currentCount : Int) : Bool :=
  redis.incrFails || (decide (currentCount = 1) && redis.expireFails) ||
    !decide (currentCount > maxRequests)

theorem create_verdict (exchange : Exchange Backend) :
    (middlewares.RateLimiter.create maxRequests windowSeconds exchange).1 =
      .ok (verdict exchange.world.redis maxRequests
        ((exchange.world.redis.counters.lookup (redisKey exchange.request)).getD 0 + 1)) := by
  have decided : ∀ count exchange, (middlewares.RateLimiter.decideCount maxRequests count
      exchange).1 = .ok (!decide (count > maxRequests)) := by
    intro count exchange
    unfold middlewares.RateLimiter.decideCount
    by_cases exceeded : count > maxRequests <;> simp [exceeded]
  unfold middlewares.RateLimiter.create
  dsimp only
  rw [← redisKey]
  unfold Redis.incr Redis.expire verdict
  cases incrFails : exchange.world.redis.incrFails with
  | true => rfl
  | false =>
      by_cases first :
        (exchange.world.redis.counters.lookup (redisKey exchange.request)).getD 0 + 1 = 1
      · cases expireFails : exchange.world.redis.expireFails with
        | true => simp [first]
        | false => simp [first, decided]
      · simp [first, decided]

/-- A call that no other overtakes returns what the middleware returns on the
counters it meets. -/
theorem call_alone (limiter : Limiter) (exchange : Exchange Backend)
    (counts : limiter.countOf (redisKey exchange.request) =
      (exchange.world.redis.counters.lookup (redisKey exchange.request)).getD 0)
    (inRange : limiter.countOf (redisKey exchange.request) + 1 < 2 ^ 63) :
    ∃ admitted,
      Finishes maxRequests windowSeconds (limiter.enter exchange.request) limiter.calls.length
        admitted ∧
      (middlewares.RateLimiter.create maxRequests windowSeconds exchange).1 = .ok admitted := by
  refine ⟨_, ?_, create_verdict exchange⟩
  rw [← counts]
  have found : (limiter.enter exchange.request).calls[limiter.calls.length]? =
      some { redisKey := redisKey exchange.request } := by
    simp [Limiter.enter]
  cases incrFails : exchange.world.redis.incrFails with
  | true =>
      have refused : step maxRequests windowSeconds (limiter.enter exchange.request)
          (.incr limiter.calls.length (some .refused)) =
            some ((limiter.enter exchange.request).setPhase limiter.calls.length
              { redisKey := redisKey exchange.request } (.returned true)) := by
        simp only [step, found, ne_eq, not_true_eq_false, if_false]
      rw [verdict, incrFails]
      exact finishes_step refused (finishes_returned found)
  | false =>
      obtain ⟨counted, incremented⟩ : ∃ counted,
          (limiter.enter exchange.request).increment (redisKey exchange.request)
            limiter.calls.length =
              some (limiter.countOf (redisKey exchange.request) + 1, counted) := by
        unfold Limiter.increment
        exact ⟨_, if_pos inRange⟩
      have foundCounted : counted.calls[limiter.calls.length]? =
          some { redisKey := redisKey exchange.request } := by
        obtain ⟨_, rfl⟩ := increment_eq incremented
        exact found
      have counting : step maxRequests windowSeconds (limiter.enter exchange.request)
          (.incr limiter.calls.length none) =
            some (counted.setPhase limiter.calls.length { redisKey := redisKey exchange.request }
              (afterIncr (limiter.countOf (redisKey exchange.request) + 1))) := by
        simp only [step, found, incremented, ne_eq, not_true_eq_false, if_false]
      refine finishes_step counting ?_
      by_cases first : limiter.countOf (redisKey exchange.request) + 1 = 1
      · rw [afterIncr, if_pos first, verdict, incrFails, decide_eq_true first]
        exact finishes_expiring foundCounted exchange.world.redis.expireFails
      · rw [afterIncr, if_neg first, verdict, incrFails, decide_eq_false first]
        exact finishes_comparing foundCounted

end Alone

def loginAttempt : HttpRequest :=
  { path := ascii "/api/login", headers := ⟨[(ascii "X-Forwarded-For", ascii "10.0.0.7")]⟩ }

end HttpServer.RateLimiter
