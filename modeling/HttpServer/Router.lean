import HttpServer.GuardChain
import HttpServer.MeasuredLoop
import HttpServer.StaticFiles

/-!
# `Router`

A callback is given the request and the response by reference and may change
both, and whatever it captured; that is the `Exchange` it maps to another one.
It may also throw, and `handle` catches nothing. The list of calls a run of
`handle` makes is recorded beside its result and read by no definition.
-/

namespace HttpServer

open ListSearch MeasuredLoop GuardChain

structure StdException where
  what : Bytes
deriving DecidableEq, Repr

structure Exchange (World : Type) where
  request : HttpRequest
  response : HttpResponse
  world : World

variable {World : Type}

abbrev Middleware (World : Type) := Guard (Exchange World) StdException

abbrev Handler (World : Type) := Exchange World → Except StdException Unit × Exchange World

structure Route (World : Type) where
  method : HttpMethod
  path : Bytes
  handler : Handler World
  isPrefix : Bool := false
  middlewares : List (Middleware World) := []

structure Router (World : Type) where
  routes : List (Route World) := []
  globalMiddlewares : List (Middleware World) := []

namespace utils

def splitTurn (delim : Byte) (cursor : Bytes × List Bytes) :
    Turn (Bytes × List Bytes) (List Bytes) :=
  if cursor.1.isEmpty then .done cursor.2
  else
    match findSub [delim] cursor.1 with
    | none => .done (cursor.2 ++ [cursor.1])
    | some segmentEnd =>
        if segmentEnd > 0 then
          .next (cursor.1.drop (segmentEnd + 1), cursor.2 ++ [cursor.1.take segmentEnd])
        else .next (cursor.1.drop (segmentEnd + 1), cursor.2)

theorem split_turn_decreases (delim : Byte) (cursor following : Bytes × List Bytes)
    (turned : splitTurn delim cursor = .next following) :
    following.1.length < cursor.1.length := by
  unfold splitTurn at turned
  split at turned
  · cases turned
  · rename_i nonempty
    have positive : 0 < cursor.1.length := by
      rw [List.isEmpty_iff] at nonempty
      exact List.length_pos_iff.mpr nonempty
    split at turned
    · cases turned
    · split at turned
      all_goals
        cases turned
        dsimp only
        rw [List.length_drop]
        omega

def splitLoop (delim : Byte) : Loop (Bytes × List Bytes) (List Bytes) where
  turn := splitTurn delim
  rank := fun cursor => cursor.1.length
  decreases := split_turn_decreases delim

/-- The pieces between delimiters, empty ones left out. -/
def splitPath (text : Bytes) (delim : Byte) : List Bytes := (splitLoop delim).run (text, [])

/-- The loop over both segment lists, which have the same length when it
starts; `none` is its `return false`. -/
def extractParams : List Bytes → List Bytes → List (Bytes × Bytes) → Option (List (Bytes × Bytes))
  | routeSegment :: routeSegments, requestSegment :: requestSegments, extracted =>
      if !routeSegment.isEmpty && routeSegment.head? == some 58 then
        extractParams routeSegments requestSegments
          (extracted ++ [(routeSegment.drop 1, requestSegment)])
      else if routeSegment ≠ requestSegment then none
      else extractParams routeSegments requestSegments extracted
  | _, _, extracted => some extracted

def setParams (request : HttpRequest) (extracted : List (Bytes × Bytes)) : HttpRequest :=
  extracted.foldl (fun request param => request.setParam param.1 param.2) request

def matchDynamicPath (routePath requestPath : Bytes) (request : HttpRequest) :
    Bool × HttpRequest :=
  if routePath = requestPath then (true, request)
  else if findSub [58] routePath = none then (false, request)
  else
    let routeSegments := splitPath routePath StaticFiles.slash
    let requestSegments := splitPath requestPath StaticFiles.slash
    if routeSegments.length ≠ requestSegments.length then (false, request)
    else
      match extractParams routeSegments requestSegments [] with
      | none => (false, request)
      | some extracted => (true, setParams request extracted)

end utils

namespace Router

def use (router : Router World) (middleware : Middleware World) : Router World :=
  { router with globalMiddlewares := router.globalMiddlewares ++ [middleware] }

/-- The body the registration functions share. -/
def addRoute (router : Router World) (route : Route World) : Router World :=
  { router with routes := router.routes ++ [route] }

def get (router : Router World) (path : Bytes) (middlewares : List (Middleware World))
    (handler : Handler World) : Router World :=
  router.addRoute { method := .get, path, handler, middlewares }

def post (router : Router World) (path : Bytes) (middlewares : List (Middleware World))
    (handler : Handler World) : Router World :=
  router.addRoute { method := .post, path, handler, middlewares }

def put (router : Router World) (path : Bytes) (middlewares : List (Middleware World))
    (handler : Handler World) : Router World :=
  router.addRoute { method := .put, path, handler, middlewares }

def patch (router : Router World) (path : Bytes) (middlewares : List (Middleware World))
    (handler : Handler World) : Router World :=
  router.addRoute { method := .patch, path, handler, middlewares }

def del (router : Router World) (path : Bytes) (middlewares : List (Middleware World))
    (handler : Handler World) : Router World :=
  router.addRoute { method := .delete, path, handler, middlewares }

def head (router : Router World) (path : Bytes) (middlewares : List (Middleware World))
    (handler : Handler World) : Router World :=
  router.addRoute { method := .head, path, handler, middlewares }

/-- The file handler asks the file system of the world it runs in. -/
def serveFiles (files : World → StaticFiles.FileSystem) (router : Router World)
    (mountPoint directory : Bytes) : Router World :=
  router.addRoute
    { method := .get
      path := StaticFiles.mountPath mountPoint
      handler := fun exchange =>
        match (StaticFiles.fileHandler mountPoint directory (files exchange.world)
          exchange.request exchange.response).1 with
        | .ok response => (.ok (), { exchange with response })
        | .error what => (.error { what }, exchange)
      isPrefix := true }

/-- One call of a callback, named by the positions of its route and of the
middleware in its list. -/
inductive Call where
  | globalMiddleware (index : Nat)
  | routeMiddleware (route index : Nat)
  | handler (route : Nat)
deriving DecidableEq, Repr

structure Handled (World : Type) where
  result : Except StdException HttpResponse
  request : HttpRequest
  world : World
  calls : List Call

/-- The response goes back to the caller unless the last callback threw. -/
def finish {Answer : Type} (answer : Except StdException Answer) (exchange : Exchange World)
    (calls : List Call) : Handled World :=
  { result := answer.map fun _ => exchange.response
    request := exchange.request
    world := exchange.world
    calls }

/-- The path test of the route loop, with the request as the test leaves it. -/
def matchRoute (route : Route World) (request : HttpRequest) : Bool × HttpRequest :=
  if route.isPrefix then (StaticFiles.prefixMatches route.path request.path, request)
  else utils.matchDynamicPath route.path request.path request

def serveRoute (index : Nat) (route : Route World) (exchange : Exchange World) : Handled World :=
  let guarded := walk route.middlewares exchange
  let calls := guarded.entered.map (Call.routeMiddleware index)
  match guarded.verdict with
  | .ok true =>
      let answered := route.handler guarded.state
      finish answered.1 answered.2 (calls ++ [.handler index])
  | stopped => finish stopped guarded.state calls

def unmatched (pathFound : Bool) (response : HttpResponse) : HttpResponse :=
  if pathFound then (response.setStatus .methodNotAllowed).setBody (ascii "Method Not Allowed")
  else (response.setStatus .notFound).setBody (ascii "Not Found")

/-- The route loop from position `index` on. -/
def scanRoutes (index : Nat) (pathFound : Bool) :
    List (Route World) → Exchange World → Handled World
  | [], exchange =>
      finish (.ok ()) { exchange with response := unmatched pathFound exchange.response } []
  | route :: routes, exchange =>
      let matched := matchRoute route exchange.request
      let scanned := { exchange with request := matched.2 }
      if !matched.1 then scanRoutes (index + 1) pathFound routes scanned
      else if route.method ≠ scanned.request.method then scanRoutes (index + 1) true routes scanned
      else serveRoute index route scanned

def handle (router : Router World) (request : HttpRequest) (world : World) : Handled World :=
  let guarded := walk router.globalMiddlewares
    { request := request, response := {}, world := world }
  let calls := guarded.entered.map Call.globalMiddleware
  match guarded.verdict with
  | .ok true =>
      let handled := scanRoutes 0 false router.routes guarded.state
      { handled with calls := calls ++ handled.calls }
  | stopped => finish stopped guarded.state calls

end Router

end HttpServer
