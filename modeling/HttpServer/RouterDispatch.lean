import HttpServer.Router
import Mathlib.Data.Nat.Find

/-!
# `Router::handle` dispatches to the first match

`PathMatches` says which paths a route matches, in terms of segments and not of
the loops that compare them. Scanning the table writes path parameters and
nothing else, so the path and the method every route is tested on are those the
global middlewares left. `FirstMatchDispatch` is what the router is for.
-/

namespace HttpServer.RouterDispatch

open ListSearch MeasuredLoop GuardChain LexicalPath Router

variable {World : Type}

def colon : Byte := 58

/-- A segment of a route that starts with a colon matches every segment. -/
def SegmentMatches (routeSegment segment : Bytes) : Prop :=
  routeSegment.head? = some colon ∨ routeSegment = segment

def PatternMatches (routePath path : Bytes) : Prop :=
  routePath = path ∨ colon ∈ routePath ∧
    List.Forall₂ SegmentMatches (segments StaticFiles.slash routePath)
      (segments StaticFiles.slash path)

def PathMatches (route : Route World) (path : Bytes) : Prop :=
  if route.isPrefix then route.path <+: path else PatternMatches route.path path

/-- The route at that position is the first whose path and method match. -/
structure FirstMatch (routes : List (Route World)) (request : HttpRequest) (position : Nat)
    (route : Route World) : Prop where
  here : routes[position]? = some route
  path : PathMatches route request.path
  method : route.method = request.method
  earlier : ∀ before other, before < position → routes[before]? = some other →
    ¬(PathMatches other request.path ∧ other.method = request.method)

/-- The request after the path tests of the first `count` routes. -/
def scanned (routes : List (Route World)) (request : HttpRequest) (count : Nat) : HttpRequest :=
  (routes.take count).foldl (fun request route => (matchRoute route request).2) request

/-- One turn of the split loop keeps the segments of the whole text: those
already pushed and those of the rest. -/
theorem split_turn_next {delim : Byte} {cursor following : Bytes × List Bytes}
    (turned : utils.splitTurn delim cursor = .next following) :
    following.2 ++ segments delim following.1 = cursor.2 ++ segments delim cursor.1 := by
  unfold utils.splitTurn at turned
  split at turned
  · cases turned
  · split at turned
    · cases turned
    · rename_i segmentEnd found
      have cut : cursor.1 = cursor.1.take segmentEnd ++ delim :: cursor.1.drop (segmentEnd + 1) := by
        have split := find_sub_split found
        rwa [List.append_assoc] at split
      have pieces := segments_cut (find_sub_before found) (cursor.1.drop (segmentEnd + 1))
      rw [← cut] at pieces
      rw [pieces]
      split at turned
      · rename_i positive
        cases turned
        have nonempty : cursor.1.take segmentEnd ≠ [] := by
          have bound := find_sub_bound found
          rw [List.length_singleton] at bound
          rw [← List.length_pos_iff, List.length_take]
          omega
        rw [if_neg nonempty, List.append_assoc]
      · rename_i zero
        cases turned
        have atFront : segmentEnd = 0 := by omega
        rw [atFront, List.take_zero, if_pos rfl, List.nil_append]

theorem split_turn_done {delim : Byte} {cursor : Bytes × List Bytes} {result : List Bytes}
    (turned : utils.splitTurn delim cursor = .done result) :
    result = cursor.2 ++ segments delim cursor.1 := by
  unfold utils.splitTurn at turned
  split at turned
  · rename_i empty
    cases turned
    rw [List.isEmpty_iff.mp empty]
    exact (List.append_nil _).symm
  · rename_i nonempty
    rw [List.isEmpty_iff] at nonempty
    split at turned
    · rename_i absent
      cases turned
      have plain : delim ∉ cursor.1 := (find_sub_single_none_iff delim cursor.1).mp absent
      rw [segments, segments_from_plain plain, List.nil_append, if_neg nonempty]
    · split at turned
      all_goals cases turned

theorem split_path_segments (text : Bytes) (delim : Byte) :
    utils.splitPath text delim = segments delim text := by
  refine (utils.splitLoop delim).run_invariant
    (fun cursor => cursor.2 ++ segments delim cursor.1 = segments delim text)
    (fun result => result = segments delim text) ?_ ?_ rfl
  · intro cursor following kept turned
    exact (split_turn_next turned).trans kept
  · intro cursor result kept turned
    exact (split_turn_done turned).trans kept

theorem extract_params_iff (routeSegments requestSegments : List Bytes)
    (extracted : List (Bytes × Bytes))
    (sameCount : routeSegments.length = requestSegments.length) :
    (utils.extractParams routeSegments requestSegments extracted).isSome = true ↔
      List.Forall₂ SegmentMatches routeSegments requestSegments := by
  induction routeSegments generalizing requestSegments extracted with
  | nil =>
      cases requestSegments with
      | nil => simp [utils.extractParams]
      | cons segment rest => cases sameCount
  | cons routeSegment routeSegments ih =>
      cases requestSegments with
      | nil => cases sameCount
      | cons segment rest =>
          have sameRest : routeSegments.length = rest.length := Nat.succ.inj sameCount
          rw [List.forall₂_cons, utils.extractParams]
          by_cases capture : routeSegment.head? = some colon
          · have nonempty : routeSegment.isEmpty = false := by
              cases routeSegment with
              | nil => cases capture
              | cons _ _ => rfl
            have test : (!routeSegment.isEmpty && routeSegment.head? == some 58) = true := by
              rw [nonempty, capture]
              rfl
            rw [if_pos test, ih rest _ sameRest]
            simp only [SegmentMatches, capture, true_or, true_and]
          · have test : ¬(!routeSegment.isEmpty && routeSegment.head? == some 58) = true := by
              simp only [Bool.and_eq_true, beq_iff_eq, not_and]
              exact fun _ => capture
            rw [if_neg test]
            by_cases same : routeSegment = segment
            · rw [if_neg (not_not.mpr same), ih rest _ sameRest]
              simp only [SegmentMatches, same, or_true, true_and]
            · rw [if_pos same]
              simp [SegmentMatches, capture, same]

theorem match_dynamic_path_iff (routePath path : Bytes) (request : HttpRequest) :
    (utils.matchDynamicPath routePath path request).1 = true ↔ PatternMatches routePath path := by
  have search : findSub [58] routePath = none ↔ colon ∉ routePath :=
    find_sub_single_none_iff colon routePath
  unfold utils.matchDynamicPath PatternMatches
  by_cases same : routePath = path
  · simp [same]
  · rw [if_neg same]
    by_cases plain : findSub [58] routePath = none
    · rw [if_pos plain]
      simp [same, search.mp plain]
    · have dynamic : colon ∈ routePath := by
        rw [search, not_not] at plain
        exact plain
      rw [if_neg plain]
      simp only [split_path_segments, same, dynamic, false_or, true_and]
      by_cases sameCount : (segments StaticFiles.slash routePath).length =
          (segments StaticFiles.slash path).length
      · rw [if_neg (not_not.mpr sameCount), ← extract_params_iff _ _ [] sameCount]
        split
        · rename_i refused
          simp [refused]
        · rename_i extracted captured
          simp [captured]
      · rw [if_pos sameCount]
        simp only [Bool.false_eq_true, false_iff]
        exact fun pairs => sameCount pairs.length_eq

/-- A path test that fails has written nothing: the parameters are stored after the
last segment has matched. -/
theorem match_dynamic_path_refused {routePath path : Bytes} {request left : HttpRequest}
    (refused : utils.matchDynamicPath routePath path request = (false, left)) :
    left = request := by
  unfold utils.matchDynamicPath at refused
  dsimp only at refused
  repeat' split at refused
  all_goals cases refused
  all_goals rfl

theorem pattern_matches_cases (routePath path : Bytes) :
    PatternMatches routePath path ↔
      colon ∉ routePath ∧ routePath = path ∨
        colon ∈ routePath ∧ List.Forall₂ SegmentMatches (segments StaticFiles.slash routePath)
          (segments StaticFiles.slash path) := by
  unfold PatternMatches
  by_cases dynamic : colon ∈ routePath
  · have reflexive : routePath = path → List.Forall₂ SegmentMatches
        (segments StaticFiles.slash routePath) (segments StaticFiles.slash path) := by
      rintro rfl
      exact List.forall₂_same.mpr fun segment _ => Or.inr rfl
    simp only [dynamic, not_true_eq_false, false_and, true_and, false_or]
    exact ⟨fun matched => matched.elim reflexive id, Or.inr⟩
  · simp only [dynamic, not_false_eq_true, true_and, false_and]

/-- `matchDynamicPath` decides the pattern relation and fails without effect;
`splitPath` gives the nonempty pieces between separators. -/
theorem match_dynamic_path_decides (routePath path : Bytes) (request : HttpRequest) :
    ((utils.matchDynamicPath routePath path request).1 = true ↔
      58 ∉ routePath ∧ routePath = path ∨
        58 ∈ routePath ∧ List.Forall₂
          (fun routeSegment segment => routeSegment.head? = some 58 ∨ routeSegment = segment)
          ((routePath.splitOn StaticFiles.slash).filter fun piece => piece ≠ [])
          ((path.splitOn StaticFiles.slash).filter fun piece => piece ≠ [])) ∧
      ((utils.matchDynamicPath routePath path request).1 = false →
        (utils.matchDynamicPath routePath path request).2 = request) ∧
      ∀ text delim, utils.splitPath text delim =
        (text.splitOn delim).filter fun piece => piece ≠ [] := by
  refine ⟨?_, ?_, ?_⟩
  · rw [match_dynamic_path_iff, pattern_matches_cases, segments_split_on, segments_split_on]
    rfl
  · intro refused
    exact match_dynamic_path_refused (Prod.ext refused rfl)
  · intro text delim
    rw [split_path_segments, segments_split_on]

theorem match_route_iff (route : Route World) (request : HttpRequest) :
    (matchRoute route request).1 = true ↔ PathMatches route request.path := by
  unfold matchRoute PathMatches
  by_cases mounted : route.isPrefix = true
  · rw [if_pos mounted, if_pos mounted]
    exact List.isPrefixOf_iff_prefix
  · rw [if_neg mounted, if_neg mounted]
    exact match_dynamic_path_iff route.path request.path request

def withoutParams (request : HttpRequest) : HttpRequest := { request with pathParams := [] }

theorem set_params_keeps (request : HttpRequest) (extracted : List (Bytes × Bytes)) :
    withoutParams (utils.setParams request extracted) = withoutParams request := by
  unfold utils.setParams
  induction extracted generalizing request with
  | nil => rfl
  | cons param extracted ih => exact ih (request.setParam param.1 param.2)

theorem match_route_keeps (route : Route World) (request : HttpRequest) :
    withoutParams (matchRoute route request).2 = withoutParams request := by
  unfold matchRoute utils.matchDynamicPath
  dsimp only
  repeat' split
  all_goals first
    | rfl
    | exact set_params_keeps request _

theorem match_route_path (route : Route World) (request : HttpRequest) :
    (matchRoute route request).2.path = request.path := by
  have kept := congrArg HttpRequest.path (match_route_keeps route request)
  exact kept

theorem match_route_method (route : Route World) (request : HttpRequest) :
    (matchRoute route request).2.method = request.method := by
  have kept := congrArg HttpRequest.method (match_route_keeps route request)
  exact kept

theorem scanned_keeps (routes : List (Route World)) (request : HttpRequest) (count : Nat) :
    withoutParams (scanned routes request count) = withoutParams request := by
  unfold scanned
  generalize routes.take count = tested
  induction tested generalizing request with
  | nil => rfl
  | cons route tested ih =>
      rw [List.foldl_cons, ih, match_route_keeps]

theorem scanned_succ (route : Route World) (routes : List (Route World)) (request : HttpRequest)
    (count : Nat) :
    scanned (route :: routes) request (count + 1) =
      scanned routes (matchRoute route request).2 count :=
  rfl

theorem scan_routes_skip {route : Route World} {exchange : Exchange World}
    (skipped : ¬(PathMatches route exchange.request.path ∧
      route.method = exchange.request.method))
    (routes : List (Route World)) (index : Nat) (pathFound : Bool) :
    scanRoutes index pathFound (route :: routes) exchange =
      scanRoutes (index + 1) (pathFound || (matchRoute route exchange.request).1) routes
        { exchange with request := (matchRoute route exchange.request).2 } := by
  rw [scanRoutes]
  by_cases matched : (matchRoute route exchange.request).1 = true
  · have otherMethod : route.method ≠ (matchRoute route exchange.request).2.method := by
      rw [match_route_method]
      exact fun same => skipped ⟨(match_route_iff route exchange.request).mp matched, same⟩
    simp only [matched, Bool.not_true, Bool.false_eq_true, if_false, otherMethod, ne_eq,
      not_false_eq_true, if_true, Bool.or_true]
  · rw [Bool.not_eq_true] at matched
    simp only [matched, Bool.not_false, if_true, Bool.or_false]

theorem scan_routes_serve {route : Route World} {exchange : Exchange World}
    (path : PathMatches route exchange.request.path)
    (method : route.method = exchange.request.method)
    (routes : List (Route World)) (index : Nat) (pathFound : Bool) :
    scanRoutes index pathFound (route :: routes) exchange =
      serveRoute index route
        { exchange with request := (matchRoute route exchange.request).2 } := by
  have matched := (match_route_iff route exchange.request).mpr path
  have sameMethod : route.method = (matchRoute route exchange.request).2.method := by
    rw [match_route_method]
    exact method
  rw [scanRoutes]
  simp only [matched, Bool.not_true, Bool.false_eq_true, if_false, ← sameMethod, ne_eq,
    not_true_eq_false]

theorem scan_routes_selects (routes : List (Route World)) (exchange : Exchange World)
    (position : Nat) (route : Route World) (first : FirstMatch routes exchange.request position route)
    (base : Nat) (pathFound : Bool) :
    scanRoutes base pathFound routes exchange =
      serveRoute (base + position) route
        { exchange with request := scanned routes exchange.request (position + 1) } := by
  induction routes generalizing exchange position base pathFound with
  | nil => exact absurd first.here (by simp)
  | cons front routes ih =>
      cases position with
      | zero =>
          have same : front = route := Option.some.inj first.here
          subst same
          exact scan_routes_serve first.path first.method routes base pathFound
      | succ position =>
          have skipped := first.earlier 0 front (Nat.zero_lt_succ _) rfl
          rw [scan_routes_skip skipped, scanned_succ, ih _ position ?later, Nat.add_right_comm,
            Nat.add_assoc]
          constructor
          · exact first.here
          · dsimp only
            rw [match_route_path]
            exact first.path
          · dsimp only
            rw [match_route_method]
            exact first.method
          · intro before other below found
            dsimp only
            rw [match_route_path, match_route_method]
            exact first.earlier (before + 1) other (Nat.succ_lt_succ below) found

theorem scan_routes_unmatched (routes : List (Route World)) (exchange : Exchange World)
    (nowhere : ∀ route ∈ routes, ¬(PathMatches route exchange.request.path ∧
      route.method = exchange.request.method))
    (base : Nat) (pathFound found : Bool)
    (known : found = true ↔ pathFound = true ∨
      ∃ route ∈ routes, PathMatches route exchange.request.path) :
    scanRoutes base pathFound routes exchange =
      finish (.ok ())
        { exchange with
          request := scanned routes exchange.request routes.length
          response := unmatched found exchange.response } [] := by
  induction routes generalizing exchange base pathFound with
  | nil =>
      have same : found = pathFound := by
        rw [Bool.eq_iff_iff, known]
        simp
      rw [scanRoutes, same]
      rfl
  | cons front routes ih =>
      rw [scan_routes_skip (nowhere front List.mem_cons_self), List.length_cons, scanned_succ]
      apply ih
      · intro route member
        dsimp only
        rw [match_route_path, match_route_method]
        exact nowhere route (List.mem_cons_of_mem _ member)
      · rw [known, Bool.or_eq_true, match_route_iff, or_assoc]
        dsimp only
        rw [match_route_path]
        simp only [List.mem_cons, exists_eq_or_imp]

theorem serve_route_stops {route : Route World} {exchange : Exchange World} {position : Nat}
    {middleware : Middleware World}
    (stops : StopsAt route.middlewares exchange position middleware) (index : Nat) :
    serveRoute index route exchange =
      finish (middleware (entering route.middlewares exchange position)).1
        (middleware (entering route.middlewares exchange position)).2
        ((List.range (position + 1)).map (Call.routeMiddleware index)) := by
  have refuses := stops.refuses
  rw [serveRoute, walk_stops stops]
  dsimp only
  split
  · rename_i passed
    exact absurd passed refuses
  · rfl

theorem serve_route_passes {route : Route World} {exchange : Exchange World}
    (passes : PassesAll route.middlewares exchange) (index : Nat) :
    serveRoute index route exchange =
      finish (route.handler (entering route.middlewares exchange route.middlewares.length)).1
        (route.handler (entering route.middlewares exchange route.middlewares.length)).2
        ((List.range route.middlewares.length).map (Call.routeMiddleware index) ++
          [.handler index]) := by
  rw [serveRoute, walk_passes passes]

def arriving (request : HttpRequest) (world : World) : Exchange World :=
  { request := request, response := {}, world := world }

/-- The exchange as the global middlewares leave it when all of them pass. -/
def admitted (router : Router World) (request : HttpRequest) (world : World) : Exchange World :=
  entering router.globalMiddlewares (arriving request world) router.globalMiddlewares.length

/-- The exchange the code of the route at that position starts with. -/
def selected (router : Router World) (request : HttpRequest) (world : World) (position : Nat) :
    Exchange World :=
  { admitted router request world with
    request := scanned router.routes (admitted router request world).request (position + 1) }

def globalCalls (router : Router World) : List Call :=
  (List.range router.globalMiddlewares.length).map Call.globalMiddleware

theorem handle_stops {router : Router World} {request : HttpRequest} {world : World}
    {position : Nat} {middleware : Middleware World}
    (stops : StopsAt router.globalMiddlewares (arriving request world) position middleware) :
    router.handle request world =
      finish (middleware (entering router.globalMiddlewares (arriving request world) position)).1
        (middleware (entering router.globalMiddlewares (arriving request world) position)).2
        ((List.range (position + 1)).map Call.globalMiddleware) := by
  have refuses := stops.refuses
  have walked := walk_stops stops
  rw [arriving] at walked refuses
  rw [handle, walked]
  dsimp only
  split
  · rename_i passed
    exact absurd passed refuses
  · rfl

theorem handle_scans {router : Router World} {request : HttpRequest} {world : World}
    (passes : PassesAll router.globalMiddlewares (arriving request world)) :
    router.handle request world =
      { scanRoutes 0 false router.routes (admitted router request world) with
        calls := globalCalls router ++
          (scanRoutes 0 false router.routes (admitted router request world)).calls } := by
  have walked := walk_passes passes
  rw [arriving] at walked
  rw [handle, walked]
  rfl

theorem handle_selects {router : Router World} {request : HttpRequest} {world : World}
    (passes : PassesAll router.globalMiddlewares (arriving request world)) {position : Nat}
    {route : Route World}
    (first : FirstMatch router.routes (admitted router request world).request position route) :
    router.handle request world =
      { serveRoute position route (selected router request world position) with
        calls := globalCalls router ++
          (serveRoute position route (selected router request world position)).calls } := by
  have scan := scan_routes_selects router.routes (admitted router request world) position route
    first 0 false
  rw [Nat.zero_add] at scan
  rw [handle_scans passes, scan]
  rfl

theorem handle_unmatched {router : Router World} {request : HttpRequest} {world : World}
    (passes : PassesAll router.globalMiddlewares (arriving request world))
    (nowhere : ∀ route ∈ router.routes,
      ¬(PathMatches route (admitted router request world).request.path ∧
        route.method = (admitted router request world).request.method))
    (found : Bool) (known : found = true ↔
      ∃ route ∈ router.routes, PathMatches route (admitted router request world).request.path) :
    router.handle request world =
      finish (.ok ())
        { admitted router request world with
          request := scanned router.routes (admitted router request world).request
            router.routes.length
          response := unmatched found (admitted router request world).response }
        (globalCalls router ++ []) := by
  have scan := scan_routes_unmatched router.routes (admitted router request world) nowhere 0 false
    found (by simp [known])
  rw [handle_scans passes, scan]
  rfl

theorem first_match_exists (routes : List (Route World)) (request : HttpRequest)
    (route : Route World) (member : route ∈ routes)
    (selectable : PathMatches route request.path ∧ route.method = request.method) :
    ∃ position first, FirstMatch routes request position first := by
  classical
  have some_position : ∃ position : Nat, ∃ candidate, routes[position]? = some candidate ∧
      PathMatches candidate request.path ∧ candidate.method = request.method := by
    obtain ⟨position, found⟩ := List.mem_iff_getElem?.mp member
    exact ⟨position, route, found, selectable⟩
  obtain ⟨first, here, path, method⟩ := Nat.find_spec some_position
  refine ⟨Nat.find some_position, first, here, path, method, ?_⟩
  intro before other below found both
  exact Nat.find_min some_position below ⟨other, found, both⟩

theorem nothing_selectable {routes : List (Route World)} {request : HttpRequest}
    (noFirst : ∀ position route, ¬FirstMatch routes request position route) :
    ∀ route ∈ routes, ¬(PathMatches route request.path ∧ route.method = request.method) := by
  intro route member selectable
  obtain ⟨position, first, isFirst⟩ := first_match_exists routes request route member selectable
  exact noFirst position first isFirst

theorem unguarded_passes {middlewares : List (Middleware World)} (none : middlewares = [])
    (exchange : Exchange World) : PassesAll middlewares exchange := by
  intro position inside
  rw [none] at inside
  exact absurd inside (Nat.not_lt_zero _)

theorem unguarded_admitted {router : Router World} (noGlobals : router.globalMiddlewares = [])
    (request : HttpRequest) (world : World) :
    admitted router request world = arriving request world := by
  rw [admitted, noGlobals]
  rfl

/-- A router without middlewares hands the request to the first match. -/
theorem handle_unguarded {router : Router World} (noGlobals : router.globalMiddlewares = [])
    {request : HttpRequest} {position : Nat} {route : Route World}
    (first : FirstMatch router.routes request position route) (noGuards : route.middlewares = [])
    (world : World) :
    router.handle request world =
      finish (route.handler ⟨scanned router.routes request (position + 1), {}, world⟩).1
        (route.handler ⟨scanned router.routes request (position + 1), {}, world⟩).2
        [.handler position] := by
  have arrives := unguarded_admitted noGlobals request world
  have firstAdmitted :
      FirstMatch router.routes (admitted router request world).request position route := by
    rw [arrives]
    exact first
  rw [handle_selects (unguarded_passes noGlobals _) firstAdmitted,
    serve_route_passes (unguarded_passes noGuards _), globalCalls, noGlobals, noGuards, selected,
    arrives]
  rfl

/-- Without a match the answer is one for every world. -/
theorem handle_unguarded_unmatched {router : Router World}
    (noGlobals : router.globalMiddlewares = []) {request : HttpRequest}
    (noFirst : ∀ position route, ¬FirstMatch router.routes request position route) :
    ∃ response, ∀ world, router.handle request world =
      finish (.ok ()) ⟨scanned router.routes request router.routes.length, response, world⟩ [] := by
  classical
  have nowhere := nothing_selectable noFirst
  refine ⟨unmatched (decide (∃ route ∈ router.routes, PathMatches route request.path)) {}, ?_⟩
  intro world
  have arrives := unguarded_admitted noGlobals request world
  rw [handle_unmatched (unguarded_passes noGlobals _) (by rw [arrives]; exact nowhere)
    (decide (∃ route ∈ router.routes, PathMatches route request.path))
    (by rw [arrives, decide_eq_true_iff]; rfl), globalCalls, noGlobals, arrives]
  rfl

/-- Dispatch to the first match, for one request in one world. -/
structure FirstMatchDispatch (router : Router World) (request : HttpRequest) (world : World) :
    Prop where
  /-- A global middleware that does not pass ends the request with its response. -/
  refused : ∀ position middleware,
    StopsAt router.globalMiddlewares (arriving request world) position middleware →
      let left := middleware
        (entering router.globalMiddlewares (arriving request world) position)
      router.handle request world =
        finish left.1 left.2 ((List.range (position + 1)).map Call.globalMiddleware)
  /-- A middleware of the first matching route that does not pass keeps its handler out. -/
  guarded : PassesAll router.globalMiddlewares (arriving request world) →
    ∀ position route, FirstMatch router.routes (admitted router request world).request
        position route →
      ∀ stop middleware,
        StopsAt route.middlewares (selected router request world position) stop middleware →
          let left := middleware
            (entering route.middlewares (selected router request world position) stop)
          router.handle request world =
            finish left.1 left.2
              (globalCalls router ++
                (List.range (stop + 1)).map (Call.routeMiddleware position))
  /-- When all of them pass, the handler runs once, last. -/
  handled : PassesAll router.globalMiddlewares (arriving request world) →
    ∀ position route, FirstMatch router.routes (admitted router request world).request
        position route →
      PassesAll route.middlewares (selected router request world position) →
        let left := route.handler
          (entering route.middlewares (selected router request world position)
            route.middlewares.length)
        router.handle request world =
          finish left.1 left.2
            (globalCalls router ++
              (List.range route.middlewares.length).map (Call.routeMiddleware position) ++
              [.handler position])
  /-- Without a match no route code runs, and the response keeps its headers. -/
  unmatched : PassesAll router.globalMiddlewares (arriving request world) →
    (∀ position route, ¬FirstMatch router.routes (admitted router request world).request
        position route) →
      (router.handle request world).calls = globalCalls router ∧
        ∃ response, (router.handle request world).result = .ok response ∧
          response.headers = (admitted router request world).response.headers ∧
          ((∃ route ∈ router.routes,
              PathMatches route (admitted router request world).request.path) →
            response.status = .methodNotAllowed) ∧
          ((∀ route ∈ router.routes,
              ¬PathMatches route (admitted router request world).request.path) →
            response.status = .notFound)

theorem handle_refines_first_match (router : Router World) (request : HttpRequest)
    (world : World) : FirstMatchDispatch router request world := by
  constructor
  · intro position middleware stops
    exact handle_stops stops
  · intro passes position route first stop middleware stops
    rw [handle_selects passes first, serve_route_stops stops position]
    rfl
  · intro passes position route first routePasses
    rw [handle_selects passes first, serve_route_passes routePasses position, List.append_assoc]
    rfl
  · intro passes noFirst
    have nowhere := nothing_selectable noFirst
    by_cases found : ∃ route ∈ router.routes,
        PathMatches route (admitted router request world).request.path
    · rw [handle_unmatched passes nowhere true (by simp [found])]
      refine ⟨List.append_nil _, _, rfl, rfl, fun _ => rfl, ?_⟩
      intro absent
      obtain ⟨route, member, path⟩ := found
      exact absurd path (absent route member)
    · rw [handle_unmatched passes nowhere false (by simp [found])]
      exact ⟨List.append_nil _, _, rfl, rfl, fun present => absurd present found, fun _ => rfl⟩

end HttpServer.RouterDispatch
