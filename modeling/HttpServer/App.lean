import HttpServer.UserGuard
import Mathlib.Tactic.IntervalCases

/-!
# `RateLimiter` and the router of `App`

The constructor mounts the static files on `/` before it registers the user
routes, so that the mount stands first in the table and takes every `GET` whose
path starts with a slash. Which route a request reaches is settled by that
position alone: no two user routes match the same request.
-/

namespace HttpServer

open GuardChain RouterDispatch Router UserGuard controllers

/-- `INCR`; `none` when the command raises. An absent key counts from zero. -/
def Redis.incr (redis : Redis) (key : Bytes) : Option (Int × Redis) :=
  if redis.incrFails then none
  else
    let count := (redis.counters.lookup key).getD 0 + 1
    some (count, { redis with
      counters := redis.counters.filter (fun entry => entry.1 ≠ key) ++ [(key, count)] })

def Redis.expire (redis : Redis) (key : Bytes) (seconds : Int) : Option Redis :=
  if redis.expireFails then none
  else
    some { redis with
      expiring := redis.expiring.filter (fun entry => entry.1 ≠ key) ++ [(key, seconds)] }

namespace middlewares

def withRedis (redis : Redis) (exchange : Exchange Backend) : Exchange Backend :=
  { exchange with world := { exchange.world with redis } }

def RateLimiter.decideCount (maxRequests count : Int) (exchange : Exchange Backend) :
    Except StdException Bool × Exchange Backend :=
  if count > maxRequests then
    (.ok false, respond .tooManyRequests
      (errorJson (ascii "Too many requests. Please slow down.")) exchange)
  else (.ok true, exchange)

/-- A Redis error lets the request pass. -/
def RateLimiter.create (maxRequests windowSeconds : Int) : Middleware Backend := fun exchange =>
  let forwarded := exchange.request.header (ascii "X-Forwarded-For")
  let clientId := if forwarded.isEmpty then ascii "unknown_ip" else forwarded
  let redisKey := ascii "rate_limit:" ++ clientId
  match exchange.world.redis.incr redisKey with
  | none => (.ok true, exchange)
  | some (currentCount, counted) =>
      if currentCount = 1 then
        match counted.expire redisKey windowSeconds with
        | none => (.ok true, withRedis counted exchange)
        | some expiring => decideCount maxRequests currentCount (withRedis expiring exchange)
      else decideCount maxRequests currentCount (withRedis counted exchange)

end middlewares

namespace App

def logRequest : Middleware Backend := fun exchange => (.ok true, exchange)

def limitLogin (rateLimit : Middleware Backend) : Middleware Backend := fun exchange =>
  if exchange.request.path = ascii "/api/login" then rateLimit exchange else (.ok true, exchange)

def router (libraries : Libraries) (publicDir : Bytes) : Router Backend :=
  registerRoutes libraries
    (((({} : Router Backend).serveFiles Backend.files (ascii "/") publicDir).use logRequest).use
      (limitLogin (middlewares.RateLimiter.create 100000 10)))

def handlersRun (calls : List Call) : List Nat :=
  calls.filterMap fun
    | .handler route => some route
    | _ => none

theorem handlers_run_append (first second : List Call) :
    handlersRun (first ++ second) = handlersRun first ++ handlersRun second :=
  List.filterMap_append

theorem handlers_run_guards (count : Nat) (name : Nat → Call)
    (guards : ∀ index, handlersRun [name index] = []) :
    handlersRun ((List.range count).map name) = [] := by
  induction count with
  | zero => rfl
  | succ count ih =>
      rw [List.range_succ, List.map_append, handlers_run_append, ih]
      exact guards count

theorem rate_limiter_keeps_request (maxRequests windowSeconds : Int)
    (exchange : Exchange Backend) :
    (middlewares.RateLimiter.create maxRequests windowSeconds exchange).2.request =
      exchange.request := by
  unfold middlewares.RateLimiter.create middlewares.RateLimiter.decideCount
  dsimp only
  repeat' split
  all_goals rfl

theorem limit_login_keeps_request {rateLimit : Middleware Backend}
    (keeps : ∀ exchange, (rateLimit exchange).2.request = exchange.request)
    (exchange : Exchange Backend) :
    (limitLogin rateLimit exchange).2.request = exchange.request := by
  unfold limitLogin
  split_ifs
  · exact keeps exchange
  · rfl

theorem admitted_request (libraries : Libraries) (publicDir : Bytes) (request : HttpRequest)
    (backend : Backend) :
    (admitted (router libraries publicDir) request backend).request = request :=
  limit_login_keeps_request (rate_limiter_keeps_request 100000 10) _

theorem app_routes (libraries : Libraries) (publicDir : Bytes) :
    ∃ fileHandler, (router libraries publicDir).routes =
      { method := .get, path := ascii "/", handler := fileHandler, isPrefix := true } ::
        (userRouter libraries).routes :=
  ⟨_, rfl⟩

/-- A pattern with a colon needs as many segments as it has. -/
theorem id_pattern_refuses_collection :
    ¬PatternMatches (ascii "/api/users/:id") (ascii "/api/users") := by
  rintro (same | ⟨_, pairs⟩)
  · exact absurd same (by decide)
  · exact absurd pairs.length_eq (by decide)

theorem user_routes_exclusive {libraries : Libraries} {request : HttpRequest} {earlier later : Nat}
    {first second : Route Backend} (ordered : earlier < later)
    (firstHere : (userRouter libraries).routes[earlier]? = some first)
    (secondHere : (userRouter libraries).routes[later]? = some second)
    (firstPath : PathMatches first request.path) (secondPath : PathMatches second request.path) :
    first.method ≠ second.method := by
  have bound : later < 6 := (List.getElem?_eq_some_iff.mp secondHere).1
  intro sameMethod
  interval_cases later <;> interval_cases earlier <;> cases firstHere <;> cases secondHere <;>
    try cases sameMethod
  · have login := plain_pattern_matches login_path_plain firstPath
    have users := plain_pattern_matches users_path_plain secondPath
    exact absurd (login.symm.trans users) (by decide)
  · have users : request.path = ascii "/api/users" :=
      plain_pattern_matches users_path_plain firstPath
    rw [users] at secondPath
    exact id_pattern_refuses_collection secondPath

theorem root_mount_matches_iff (path : Bytes) :
    ascii "/" <+: path ↔ path.head? = some StaticFiles.slash := by
  have root : ascii "/" = [StaticFiles.slash] := by decide
  rw [root]
  cases path with
  | nil => simp
  | cons byte path =>
      rw [List.cons_prefix_cons, List.head?_cons, Option.some.injEq]
      constructor
      · exact fun starts => starts.1.symm
      · exact fun same => ⟨same.symm, List.nil_prefix⟩

/-- One handler runs for a request that passes the global middlewares and is
selected by a route of the application. -/
theorem handlers_run_of_first {libraries : Libraries} {publicDir : Bytes} {request : HttpRequest}
    {backend : Backend} {position : Nat} {route : Route Backend}
    (passes : PassesAll (router libraries publicDir).globalMiddlewares (arriving request backend))
    (first : FirstMatch (router libraries publicDir).routes request position route)
    (noGuards : route.middlewares = []) :
    handlersRun ((router libraries publicDir).handle request backend).calls = [position] := by
  have firstAdmitted : FirstMatch (router libraries publicDir).routes
      (admitted (router libraries publicDir) request backend).request position route := by
    rw [admitted_request]
    exact first
  rw [handle_selects passes firstAdmitted, serve_route_passes (unguarded_passes noGuards _)]
  dsimp only [finish]
  rw [handlers_run_append, handlers_run_append, globalCalls,
    handlers_run_guards _ Call.globalMiddleware fun _ => rfl,
    handlers_run_guards _ (Call.routeMiddleware position) fun _ => rfl]
  rfl

theorem static_route_first (libraries : Libraries) (publicDir : Bytes) {request : HttpRequest}
    (method : request.method = .get) (path : request.path.head? = some StaticFiles.slash) :
    ∃ route, FirstMatch (router libraries publicDir).routes request 0 route ∧
      route.middlewares = [] := by
  obtain ⟨fileHandler, routes⟩ := app_routes libraries publicDir
  rw [routes]
  refine ⟨_, ⟨rfl, ?_, method.symm, ?_⟩, rfl⟩
  · exact (root_mount_matches_iff request.path).mpr path
  · intro before other below
    exact absurd below (Nat.not_lt_zero _)

theorem user_route_first {libraries : Libraries} {publicDir : Bytes} {request : HttpRequest}
    {position : Nat} {route : Route Backend}
    (here : (userRouter libraries).routes[position]? = some route)
    (path : PathMatches route request.path) (method : route.method = request.method)
    (unmounted : request.method ≠ .get ∨ request.path.head? ≠ some StaticFiles.slash) :
    FirstMatch (router libraries publicDir).routes request (position + 1) route := by
  obtain ⟨fileHandler, routes⟩ := app_routes libraries publicDir
  rw [routes]
  refine ⟨here, path, method, ?_⟩
  intro before other below found both
  cases before with
  | zero =>
      cases found
      rcases unmounted with otherMethod | noSlash
      · exact otherMethod both.2.symm
      · exact noSlash ((root_mount_matches_iff request.path).mp both.1)
  | succ before =>
      exact user_routes_exclusive (Nat.lt_of_succ_lt_succ below) found here both.1 path
        (both.2.trans method.symm)

/-- A user route that matches a request answers it exactly when the static
mount does not: for methods other than `GET` and for paths without a leading slash. -/
theorem user_route_reached_iff (libraries : Libraries) (publicDir : Bytes) (request : HttpRequest)
    (backend : Backend) (position : Nat) (route : Route Backend)
    (registered : (userRouter libraries).routes[position]? = some route)
    (path : PathMatches route request.path) (method : route.method = request.method)
    (passes : PassesAll (router libraries publicDir).globalMiddlewares
      (arriving request backend)) :
    handlersRun ((router libraries publicDir).handle request backend).calls = [position + 1] ↔
      request.method ≠ .get ∨ request.path.head? ≠ some StaticFiles.slash := by
  constructor
  · intro reached
    by_contra mounted
    simp only [not_or, not_not] at mounted
    obtain ⟨mount, first, noGuards⟩ :=
      static_route_first libraries publicDir mounted.1 mounted.2
    rw [handlers_run_of_first passes first noGuards] at reached
    exact absurd (List.cons.inj reached).1 (Nat.succ_ne_zero position).symm
  · intro unmounted
    have noGuards : route.middlewares = [] := by
      have member := List.mem_of_getElem? registered
      rw [user_routes] at member
      simp only [List.mem_cons, List.not_mem_nil, or_false] at member
      rcases member with rfl | rfl | rfl | rfl | rfl | rfl
      all_goals rfl
    exact handlers_run_of_first passes (user_route_first registered path method unmounted) noGuards

theorem other_path_passes {libraries : Libraries} {publicDir : Bytes} {request : HttpRequest}
    (other : request.path ≠ ascii "/api/login") (backend : Backend) :
    PassesAll (router libraries publicDir).globalMiddlewares (arriving request backend) := by
  intro position inside
  have bound : position < 2 := inside
  interval_cases position
  · exact ⟨_, rfl, rfl⟩
  · refine ⟨_, rfl, ?_⟩
    exact congrArg Prod.fst (if_neg other)

theorem user_route_reached_iff_creating :
    handlersRun ((router sampleLibraries (ascii "public")).handle createRequest
      sampleBackend).calls = [2] := by
  have passes : PassesAll (router sampleLibraries (ascii "public")).globalMiddlewares
      (arriving createRequest sampleBackend) :=
    other_path_passes (by decide) sampleBackend
  have reached := user_route_reached_iff sampleLibraries (ascii "public") createRequest
    sampleBackend 1 _ rfl (Or.inl rfl) rfl passes
  exact reached.mpr (Or.inl (by decide))

theorem listing_reaches_files :
    ∃ route, (userRouter sampleLibraries).routes[2]? = some route ∧
      PathMatches route listRequest.path ∧ route.method = listRequest.method ∧
      PassesAll (router sampleLibraries (ascii "public")).globalMiddlewares
        (arriving listRequest sampleBackend) ∧
      handlersRun ((router sampleLibraries (ascii "public")).handle listRequest
        sampleBackend).calls = [0] := by
  refine ⟨_, rfl, Or.inl rfl, rfl, other_path_passes (by decide) sampleBackend, ?_⟩
  decide +kernel

end App

end HttpServer
