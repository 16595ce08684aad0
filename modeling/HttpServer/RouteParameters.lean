import HttpServer.RouterDispatch

/-!
# Path parameters

A matching path test writes the segments that stand under the colons of the route
path, unless the two paths are the same text: then it returns before the segments are
looked at. The test writes into the request before the method is compared, so a
handler also sees what the routes before its own have written.
-/

namespace HttpServer.RouteParameters

open ListSearch MeasuredLoop GuardChain LexicalPath Router RouterDispatch

variable {World : Type}

def parameterName (segment : Bytes) : Option Bytes :=
  if segment.head? = some colon then some (segment.drop 1) else none

def parameterNames (routePath : Bytes) : List Bytes :=
  (segments StaticFiles.slash routePath).filterMap parameterName

def captured (routeSegments requestSegments : List Bytes) : List (Bytes × Bytes) :=
  (routeSegments.zip requestSegments).filterMap fun pair =>
    (parameterName pair.1).map fun name => (name, pair.2)

section Capture

theorem parameter_name_iff (segment name : Bytes) :
    parameterName segment = some name ↔ segment = colon :: name := by
  unfold parameterName
  cases segment with
  | nil => simp
  | cons first rest =>
      by_cases isColon : first = colon
      · simp [isColon]
      · simp [isColon]

theorem parameter_test (segment : Bytes) :
    (!segment.isEmpty && segment.head? == some 58) = true ↔ segment.head? = some colon := by
  cases segment with
  | nil => simp
  | cons first rest =>
      rw [List.isEmpty_cons, Bool.not_false, Bool.true_and, beq_iff_eq]
      rfl

theorem captured_cons (routeSegment segment : Bytes) (routeSegments rest : List Bytes) :
    captured (routeSegment :: routeSegments) (segment :: rest) =
      ((parameterName routeSegment).map fun name => (name, segment)).toList ++
        captured routeSegments rest := by
  rw [captured, List.zip_cons_cons, List.filterMap_cons, captured]
  cases parameterName routeSegment <;> rfl

theorem extract_params_captured {routeSegments requestSegments : List Bytes}
    {before extracted : List (Bytes × Bytes)}
    (matched : utils.extractParams routeSegments requestSegments before = some extracted) :
    extracted = before ++ captured routeSegments requestSegments := by
  induction routeSegments generalizing requestSegments before with
  | nil =>
      cases matched
      exact (List.append_nil _).symm
  | cons routeSegment routeSegments ih =>
      cases requestSegments with
      | nil =>
          cases matched
          exact (List.append_nil _).symm
      | cons segment rest =>
          rw [captured_cons]
          rw [utils.extractParams] at matched
          by_cases capture : routeSegment.head? = some colon
          · rw [if_pos ((parameter_test routeSegment).mpr capture)] at matched
            have name : parameterName routeSegment = some (routeSegment.drop 1) := if_pos capture
            rw [ih matched, name, List.append_assoc]
            rfl
          · rw [if_neg (fun test => capture ((parameter_test routeSegment).mp test))] at matched
            have name : parameterName routeSegment = none := if_neg capture
            split at matched
            · cases matched
            · rw [ih matched, name]
              rfl

theorem matched_request {routePath path : Bytes} {request : HttpRequest}
    (matched : (utils.matchDynamicPath routePath path request).1 = true) :
    (utils.matchDynamicPath routePath path request).2 =
      if routePath = path then request
      else utils.setParams request (captured (segments StaticFiles.slash routePath)
        (segments StaticFiles.slash path)) := by
  unfold utils.matchDynamicPath at matched ⊢
  by_cases same : routePath = path
  · rw [if_pos same, if_pos same]
  · rw [if_neg same] at matched ⊢
    rw [if_neg same]
    by_cases plain : findSub [58] routePath = none
    · rw [if_pos plain] at matched
      cases matched
    · rw [if_neg plain] at matched ⊢
      dsimp only at matched ⊢
      by_cases sameCount : (utils.splitPath routePath StaticFiles.slash).length ≠
          (utils.splitPath path StaticFiles.slash).length
      · rw [if_pos sameCount] at matched
        cases matched
      · rw [if_neg sameCount] at matched ⊢
        split at matched
        · cases matched
        · rename_i extracted found
          dsimp only
          have pairs := extract_params_captured found
          rw [List.nil_append, split_path_segments, split_path_segments] at pairs
          rw [pairs]

end Capture

section Params

variable {request : HttpRequest} {name : Bytes}

theorem param_set (request : HttpRequest) (key value name : Bytes) :
    (request.setParam key value).param name = if name = key then value else request.param name := by
  unfold HttpRequest.param HttpRequest.setParam
  rw [List.lookup_append]
  by_cases same : name = key
  · subst same
    have erased :
        (request.pathParams.filter fun entry => entry.1 ≠ name).lookup name = none := by
      apply lookup_filter_none
      intro _
      simp
    rw [erased, Option.none_or, List.lookup_cons_self, if_pos rfl, Option.getD_some]
  · have kept : (request.pathParams.filter fun entry => entry.1 ≠ key).lookup name =
        request.pathParams.lookup name := by
      apply lookup_filter
      intro _
      simpa using same
    have different : (name == key) = false := by
      simpa using same
    rw [kept, List.lookup_cons, if_neg same, different, List.lookup_nil, Option.or_none]

theorem set_params_foreign (request : HttpRequest) {params : List (Bytes × Bytes)}
    (foreign : name ∉ params.map Prod.fst) :
    (utils.setParams request params).param name = request.param name := by
  induction params generalizing request with
  | nil => rfl
  | cons param params ih =>
      rw [List.map_cons, List.mem_cons, not_or] at foreign
      have later := ih (request.setParam param.1 param.2) foreign.2
      rw [param_set, if_neg foreign.1] at later
      exact later

theorem set_params_last (request : HttpRequest) (before : List (Bytes × Bytes)) (value : Bytes)
    {later : List (Bytes × Bytes)} (foreign : name ∉ later.map Prod.fst) :
    (utils.setParams request (before ++ (name, value) :: later)).param name = value := by
  have split : utils.setParams request (before ++ (name, value) :: later) =
      utils.setParams ((utils.setParams request before).setParam name value) later := by
    simp only [utils.setParams, List.foldl_append, List.foldl_cons]
  rw [split, set_params_foreign _ foreign, param_set, if_pos rfl]

def keys (request : HttpRequest) : List Bytes := request.pathParams.map Prod.fst

theorem mem_keys_set (request : HttpRequest) (key value name : Bytes) :
    name ∈ keys (request.setParam key value) ↔ name = key ∨ name ∈ keys request := by
  simp only [keys, HttpRequest.setParam, List.map_append, List.mem_append, List.mem_map,
    List.mem_filter, List.map_cons, List.map_nil, List.mem_singleton, decide_eq_true_eq]
  constructor
  · rintro (⟨entry, ⟨stored, _⟩, rfl⟩ | rfl)
    · exact Or.inr ⟨entry, stored, rfl⟩
    · exact Or.inl rfl
  · rintro (rfl | ⟨entry, stored, rfl⟩)
    · exact Or.inr rfl
    · by_cases same : entry.1 = key
      · exact Or.inr same
      · exact Or.inl ⟨entry, ⟨stored, same⟩, rfl⟩

theorem mem_keys_set_params (request : HttpRequest) (params : List (Bytes × Bytes)) :
    name ∈ keys (utils.setParams request params) ↔
      name ∈ params.map Prod.fst ∨ name ∈ keys request := by
  induction params generalizing request with
  | nil => simp [utils.setParams]
  | cons param params ih =>
      have step := ih (request.setParam param.1 param.2)
      rw [mem_keys_set] at step
      rw [List.map_cons, List.mem_cons]
      refine step.trans ?_
      tauto

end Params

/-- A matching path test stores, for the last segment of each parameter name, the
segment of the request path at the same place. -/
def CapturesParameters (routePath path : Bytes) (request : HttpRequest) : Prop :=
  (utils.matchDynamicPath routePath path request).1 = true →
    ∀ before name after,
      segments StaticFiles.slash routePath = before ++ (colon :: name) :: after →
      colon :: name ∉ after →
      (segments StaticFiles.slash path)[before.length]? =
        some ((utils.matchDynamicPath routePath path request).2.param name)

/-- The request has the parameter segments of the route themselves as values. -/
def HoldsOwnSegments (routePath : Bytes) (request : HttpRequest) : Prop :=
  ∀ name ∈ parameterNames routePath, request.param name = colon :: name

def fillSegment (values : Bytes → Bytes) (segment : Bytes) : Bytes :=
  (parameterName segment).elim segment values

def fill (values : Bytes → Bytes) (routePath : Bytes) : Bytes :=
  [StaticFiles.slash].intercalate
    ((routePath.splitOn StaticFiles.slash).map (fillSegment values))

section Patterns

variable {routePath path : Bytes} {request : HttpRequest}

theorem mem_parameter_names_iff (routePath name : Bytes) :
    name ∈ parameterNames routePath ↔
      colon :: name ∈ segments StaticFiles.slash routePath := by
  rw [parameterNames, List.mem_filterMap]
  constructor
  · rintro ⟨segment, member, named⟩
    rw [← (parameter_name_iff segment name).mp named]
    exact member
  · intro member
    exact ⟨_, member, (parameter_name_iff _ name).mpr rfl⟩

theorem last_segment {name : Bytes} (member : name ∈ parameterNames routePath) :
    ∃ before after, segments StaticFiles.slash routePath = before ++ (colon :: name) :: after ∧
      colon :: name ∉ after := by
  rw [mem_parameter_names_iff, ← List.mem_reverse] at member
  obtain ⟨after, before, split, last⟩ := List.eq_append_cons_of_mem member
  refine ⟨before.reverse, after.reverse, ?_, ?_⟩
  · have turned := congrArg List.reverse split
    rw [List.reverse_reverse, List.reverse_append, List.reverse_cons, List.append_assoc] at turned
    exact turned
  · rwa [List.mem_reverse]

theorem captured_names {routeSegments requestSegments : List Bytes} {name : Bytes}
    (member : name ∈ (captured routeSegments requestSegments).map Prod.fst) :
    colon :: name ∈ routeSegments := by
  obtain ⟨param, stored, rfl⟩ := List.mem_map.mp member
  obtain ⟨pair, zipped, named⟩ := List.mem_filterMap.mp stored
  obtain ⟨name, found, rfl⟩ := Option.map_eq_some_iff.mp named
  rw [← (parameter_name_iff pair.1 name).mp found]
  exact (List.of_mem_zip zipped).1

theorem captured_append {before after left right : List Bytes}
    (aligned : before.length = left.length) :
    captured (before ++ after) (left ++ right) = captured before left ++ captured after right := by
  rw [captured, List.zip_append aligned, List.filterMap_append, captured, captured]

theorem captured_value {before after left right : List Bytes} {name segment : Bytes}
    (aligned : before.length = left.length) (last : colon :: name ∉ after) :
    (utils.setParams request (captured (before ++ (colon :: name) :: after)
      (left ++ segment :: right))).param name = segment := by
  have named : parameterName (colon :: name) = some name :=
    (parameter_name_iff _ name).mpr rfl
  rw [captured_append aligned, captured_cons, named]
  apply set_params_last
  exact fun member => last (captured_names member)

theorem getElem?_middle (before after : List Bytes) (segment : Bytes) :
    (before ++ segment :: after)[before.length]? = some segment := by
  rw [List.getElem?_append_right (Nat.le_refl _), Nat.sub_self]
  rfl

theorem aligned_segment {routeSegments requestSegments before after : List Bytes} {piece : Bytes}
    (pairs : List.Forall₂ SegmentMatches routeSegments requestSegments)
    (split : routeSegments = before ++ piece :: after) :
    ∃ left segment right, before.length = left.length ∧
      requestSegments = left ++ segment :: right := by
  have long := pairs.length_eq
  rw [split, List.length_append, List.length_cons] at long
  have inside : before.length < requestSegments.length := by omega
  refine ⟨requestSegments.take before.length, requestSegments[before.length],
    requestSegments.drop (before.length + 1), ?_, ?_⟩
  · rw [List.length_take, Nat.min_eq_left (Nat.le_of_lt inside)]
  · rw [List.getElem_cons_drop, List.take_append_drop]

theorem captures_parameters_iff (routePath path : Bytes) (request : HttpRequest) :
    CapturesParameters routePath path request ↔
      (routePath = path → HoldsOwnSegments routePath request) := by
  constructor
  · rintro captures rfl name member
    have matched : (utils.matchDynamicPath routePath routePath request).1 = true :=
      (match_dynamic_path_iff routePath routePath request).mpr (Or.inl rfl)
    obtain ⟨before, after, split, last⟩ := last_segment member
    have stored := captures matched before name after split last
    rw [matched_request matched, if_pos rfl, split, getElem?_middle] at stored
    exact (Option.some.inj stored).symm
  · intro holds matched before name after split last
    rw [matched_request matched]
    by_cases same : routePath = path
    · have member : name ∈ parameterNames routePath := by
        rw [mem_parameter_names_iff, split]
        exact List.mem_append_right _ List.mem_cons_self
      rw [if_pos same, holds same name member, ← same, split, getElem?_middle]
    · rw [if_neg same]
      have pairs := ((match_dynamic_path_iff routePath path request).mp matched).resolve_left same
      obtain ⟨left, segment, right, aligned, pathSplit⟩ := aligned_segment pairs.2 split
      rw [split, pathSplit, captured_value aligned last, aligned, getElem?_middle]

theorem fill_segment_parameter (values : Bytes → Bytes) {segment name : Bytes}
    (named : parameterName segment = some name) : fillSegment values segment = values name := by
  rw [fillSegment, named]
  rfl

theorem fill_segment_plain (values : Bytes → Bytes) {segment : Bytes}
    (plain : parameterName segment = none) : fillSegment values segment = segment := by
  rw [fillSegment, plain]
  rfl

variable {values : Bytes → Bytes}

theorem piece_parameter {piece name : Bytes} (member : piece ∈ routePath.splitOn StaticFiles.slash)
    (named : parameterName piece = some name) : name ∈ parameterNames routePath := by
  have shape := (parameter_name_iff piece name).mp named
  rw [mem_parameter_names_iff, ← shape, segments_split_on, List.mem_filter]
  refine ⟨member, ?_⟩
  rw [shape]
  rfl

/-- Values that may stand for a segment: not empty and without a separator. -/
theorem segments_fill
    (fits : ∀ name ∈ parameterNames routePath,
      values name ≠ [] ∧ StaticFiles.slash ∉ values name) :
    segments StaticFiles.slash (fill values routePath) =
      (segments StaticFiles.slash routePath).map (fillSegment values) := by
  apply segments_replaced
  · intro piece member
    cases named : parameterName piece with
    | none =>
        rw [fill_segment_plain values named]
        exact split_on_plain _ _ piece member
    | some name =>
        rw [fill_segment_parameter values named]
        exact (fits name (piece_parameter member named)).2
  · intro piece member
    cases named : parameterName piece with
    | none => rw [fill_segment_plain values named]
    | some name =>
        rw [fill_segment_parameter values named, (parameter_name_iff piece name).mp named]
        exact iff_of_false (fits name (piece_parameter member named)).1 (List.cons_ne_nil _ _)

theorem fill_matches
    (fits : ∀ name ∈ parameterNames routePath,
      values name ≠ [] ∧ StaticFiles.slash ∉ values name) :
    PatternMatches routePath (fill values routePath) := by
  by_cases dynamic : colon ∈ routePath
  · refine Or.inr ⟨dynamic, ?_⟩
    rw [segments_fill fits, List.forall₂_map_right_iff, List.forall₂_same]
    intro segment _
    cases named : parameterName segment with
    | none =>
        rw [fill_segment_plain values named]
        exact Or.inr rfl
    | some name =>
        rw [(parameter_name_iff segment name).mp named]
        exact Or.inl rfl
  · left
    have plain : ∀ piece ∈ routePath.splitOn StaticFiles.slash, fillSegment values piece = piece := by
      intro piece member
      apply fill_segment_plain
      rw [Option.eq_none_iff_forall_ne_some]
      intro name named
      have stands := (mem_parameter_names_iff _ _).mp (piece_parameter member named)
      exact dynamic ((infix_of_segment stands).subset List.mem_cons_self)
    rw [fill, List.map_congr_left plain, List.map_id', List.intercalate_splitOn]

theorem filled_values (request : HttpRequest)
    (fits : ∀ name ∈ parameterNames routePath,
      values name ≠ [] ∧ StaticFiles.slash ∉ values name) :
    (∀ name ∈ parameterNames routePath,
      (utils.matchDynamicPath routePath (fill values routePath) request).2.param name =
        values name) ↔
      (routePath = fill values routePath → HoldsOwnSegments routePath request) := by
  have matched := (match_dynamic_path_iff routePath _ request).mpr (fill_matches fits)
  have pieces := segments_fill fits
  by_cases same : routePath = fill values routePath
  · have own : ∀ name ∈ parameterNames routePath, values name = colon :: name := by
      intro name member
      rw [← same] at pieces
      have kept := List.map_inj_left.mp ((List.map_id _).trans pieces) _
        ((mem_parameter_names_iff routePath name).mp member)
      rw [fill_segment_parameter values ((parameter_name_iff _ name).mpr rfl)] at kept
      exact kept.symm
    rw [matched_request matched, if_pos same]
    constructor
    · intro stored _ name member
      rw [stored name member, own name member]
    · intro holds name member
      rw [holds same name member, own name member]
  · refine iff_of_true ?_ (fun equal => absurd equal same)
    intro name member
    obtain ⟨before, after, split, last⟩ := last_segment member
    have captures := (captures_parameters_iff routePath (fill values routePath) request).mpr
      (fun equal => absurd equal same)
    have stored := captures matched before name after split last
    rw [pieces, split, List.map_append, List.map_cons,
      List.getElem?_append_right (by rw [List.length_map]), List.length_map, Nat.sub_self,
      fill_segment_parameter values ((parameter_name_iff _ name).mpr rfl)] at stored
    exact (Option.some.inj stored).symm

end Patterns

/-- A matching path captures its parameters unless it is the route path itself, which
is compared as a whole first; so do values put in the place of the parameters. -/
theorem parameters_captured_iff (routePath : Bytes) (request : HttpRequest) :
    (∀ path, CapturesParameters routePath path request ↔
      (routePath = path → HoldsOwnSegments routePath request)) ∧
      ∀ values, (∀ name ∈ parameterNames routePath,
        values name ≠ [] ∧ StaticFiles.slash ∉ values name) →
        (utils.matchDynamicPath routePath (fill values routePath) request).1 = true ∧
          ((∀ name ∈ parameterNames routePath,
            (utils.matchDynamicPath routePath (fill values routePath) request).2.param name =
              values name) ↔
            (routePath = fill values routePath → HoldsOwnSegments routePath request)) := by
  refine ⟨fun path => captures_parameters_iff routePath path request, ?_⟩
  intro values fits
  exact ⟨(match_dynamic_path_iff routePath _ request).mpr (fill_matches fits),
    filled_values request fits⟩

theorem parameters_captured_iff_item :
    (utils.matchDynamicPath (ascii "/users/:id") (fill (fun _ => ascii "7") (ascii "/users/:id"))
      {}).2.param (ascii "id") = ascii "7" := by
  have fits : ∀ name ∈ parameterNames (ascii "/users/:id"),
      ascii "7" ≠ [] ∧ StaticFiles.slash ∉ ascii "7" := by
    intro name _
    decide
  exact (((parameters_captured_iff (ascii "/users/:id") {}).2 (fun _ => ascii "7") fits).2.mpr
    (fun same => absurd same (by decide +kernel))) _ (by decide +kernel)

/-- The id `:id` is not captured. -/
theorem own_segment_not_captured :
    ¬CapturesParameters (ascii "/users/:id") (ascii "/users/:id") {} := by
  intro captures
  have stored := captures (by decide +kernel) [ascii "users"] (ascii "id") [] (by decide +kernel)
    (by decide)
  revert stored
  decide +kernel

structure Writes (route : Route World) (path name : Bytes) : Prop where
  byPattern : route.isPrefix = false
  different : route.path ≠ path
  path : PatternMatches route.path path
  name : name ∈ parameterNames route.path

/-- Every key with a value names a parameter segment of the route. -/
def OnlyOwn (route : Route World) (request : HttpRequest) : Prop :=
  ∀ key ∈ keys request, key ∈ parameterNames route.path

section Scanning

theorem captured_all {routeSegments requestSegments : List Bytes}
    (pairs : List.Forall₂ SegmentMatches routeSegments requestSegments) :
    (captured routeSegments requestSegments).map Prod.fst =
      routeSegments.filterMap parameterName := by
  induction pairs with
  | nil => rfl
  | @cons routeSegment segment _ _ _ _ ih =>
      rw [captured_cons, List.map_append, ih, List.filterMap_cons]
      cases parameterName routeSegment <;> rfl

theorem mem_keys_match_route (route : Route World) (request : HttpRequest) (name : Bytes) :
    name ∈ keys (matchRoute route request).2 ↔
      name ∈ keys request ∨ Writes route request.path name := by
  unfold matchRoute
  by_cases mounted : route.isPrefix = true
  · rw [if_pos mounted]
    refine ⟨Or.inl, fun stored => stored.resolve_right ?_⟩
    intro writes
    rw [writes.byPattern] at mounted
    cases mounted
  · rw [if_neg mounted]
    cases matched : (utils.matchDynamicPath route.path request.path request).1 with
    | false =>
        have same : (utils.matchDynamicPath route.path request.path request).2 = request :=
          match_dynamic_path_refused (Prod.ext matched rfl)
        rw [same]
        refine ⟨Or.inl, fun stored => stored.resolve_right ?_⟩
        intro writes
        rw [(match_dynamic_path_iff _ _ request).mpr writes.path] at matched
        cases matched
    | true =>
        have pattern := (match_dynamic_path_iff _ _ request).mp matched
        rw [matched_request matched]
        by_cases same : route.path = request.path
        · rw [if_pos same]
          exact ⟨Or.inl, fun stored => stored.resolve_right fun writes => writes.different same⟩
        · rw [if_neg same, mem_keys_set_params, captured_all (pattern.resolve_left same).2, Or.comm]
          refine or_congr_right ?_
          rw [Bool.not_eq_true] at mounted
          exact ⟨fun named => ⟨mounted, same, pattern, named⟩, fun writes => writes.name⟩

theorem mem_keys_scanned (routes : List (Route World)) (request : HttpRequest) (count : Nat)
    (name : Bytes) :
    name ∈ keys (scanned routes request count) ↔
      name ∈ keys request ∨
        ∃ index < count, ∃ route, routes[index]? = some route ∧ Writes route request.path name := by
  induction routes generalizing request count with
  | nil => simp [scanned]
  | cons route routes ih =>
      cases count with
      | zero => simp [scanned]
      | succ count =>
          rw [scanned_succ, ih, mem_keys_match_route, match_route_path, or_assoc]
          refine or_congr_right ⟨?_, ?_⟩
          · rintro (writes | ⟨index, below, other, found, writes⟩)
            · exact ⟨0, Nat.zero_lt_succ _, route, rfl, writes⟩
            · exact ⟨index + 1, Nat.succ_lt_succ below, other, found, writes⟩
          · rintro ⟨index, below, other, found, writes⟩
            cases index with
            | zero =>
                cases found
                exact Or.inl writes
            | succ index =>
                exact Or.inr ⟨index, Nat.lt_of_succ_lt_succ below, other, found, writes⟩

end Scanning

/-- The request a middleware of the selected route, or its handler behind the last
one, is called with. -/
def seenAt (router : Router World) (request : HttpRequest) (world : World) (position : Nat)
    (route : Route World) (index : Nat) : HttpRequest :=
  (entering route.middlewares (selected router request world position) index).request

/-- That callback is called: the middlewares before it have passed. -/
def Called (router : Router World) (request : HttpRequest) (world : World) (position : Nat)
    (route : Route World) (index : Nat) : Prop :=
  ∀ earlier < index, PassesAt route.middlewares (selected router request world position) earlier

/-- Neither the routes before the selected one nor any middleware leave a parameter
that the selected route does not have. -/
structure LeavesNoTrace (router : Router World) (request : HttpRequest) (world : World)
    (position : Nat) (route : Route World) : Prop where
  arriving : OnlyOwn route (admitted router request world).request
  earlier : ∀ index < position, ∀ other, router.routes[index]? = some other →
    ∀ name, Writes other (admitted router request world).request.path name →
      name ∈ parameterNames route.path
  middlewares : ∀ index < route.middlewares.length,
    Called router request world position route (index + 1) →
      OnlyOwn route (seenAt router request world position route index) →
        OnlyOwn route (seenAt router request world position route (index + 1))

theorem selected_only_own_iff {router : Router World} {request : HttpRequest} {world : World}
    {position : Nat} {route : Route World} (here : router.routes[position]? = some route) :
    OnlyOwn route (selected router request world position).request ↔
      OnlyOwn route (admitted router request world).request ∧
        ∀ index < position, ∀ other, router.routes[index]? = some other →
          ∀ name, Writes other (admitted router request world).request.path name →
            name ∈ parameterNames route.path := by
  unfold OnlyOwn selected
  dsimp only
  simp only [mem_keys_scanned]
  constructor
  · intro own
    refine ⟨fun key stored => own key (Or.inl stored), ?_⟩
    intro index below other found name writes
    exact own name (Or.inr ⟨index, Nat.lt_succ_of_lt below, other, found, writes⟩)
  · rintro ⟨arriving, earlier⟩ key (stored | ⟨index, below, other, found, writes⟩)
    · exact arriving key stored
    · rcases Nat.lt_or_eq_of_le (Nat.lt_succ_iff.mp below) with before | rfl
      · exact earlier index before other found key writes
      · cases found.symm.trans here
        exact writes.name

/-- The callbacks of the selected route see its own parameters only, exactly when
nothing before them has left a foreign one. -/
theorem own_parameters_iff {router : Router World} {request : HttpRequest} {world : World}
    {position : Nat} {route : Route World}
    (passes : PassesAll router.globalMiddlewares (arriving request world))
    (first : FirstMatch router.routes (admitted router request world).request position route) :
    router.handle request world =
        { serveRoute position route (selected router request world position) with
          calls := globalCalls router ++
            (serveRoute position route (selected router request world position)).calls } ∧
      ((∀ index ≤ route.middlewares.length, Called router request world position route index →
          OnlyOwn route (seenAt router request world position route index)) ↔
        LeavesNoTrace router request world position route) := by
  refine ⟨handle_selects passes first, ?_, ?_⟩
  · intro own
    have selectedOwn := own 0 (Nat.zero_le _) (fun earlier below => absurd below (Nat.not_lt_zero _))
    obtain ⟨arrivingOwn, earlier⟩ := (selected_only_own_iff first.here).mp selectedOwn
    exact ⟨arrivingOwn, earlier, fun index below called _ => own (index + 1) below called⟩
  · intro quiet index
    induction index with
    | zero =>
        intro _ _
        exact (selected_only_own_iff first.here).mpr ⟨quiet.arriving, quiet.earlier⟩
    | succ index ih =>
        intro below called
        apply quiet.middlewares index below called
        apply ih (Nat.le_of_succ_le below)
        intro earlier before
        exact called earlier (Nat.lt_succ_of_lt before)

section Accounts

def silent : Handler Unit := fun exchange => (.ok (), exchange)

def writeRoute : Route Unit := { method := .put, path := ascii "/users/:uid", handler := silent }

def readRoute : Route Unit := { method := .get, path := ascii "/users/:id", handler := silent }

def itemRequest : HttpRequest := { method := .get, path := ascii "/users/5" }

theorem second_first_match {earlier route : Route Unit} {request : HttpRequest}
    (path : PathMatches route request.path) (method : route.method = request.method)
    (passed : earlier.method ≠ request.method) :
    FirstMatch [earlier, route] request 1 route := by
  refine ⟨rfl, path, method, ?_⟩
  intro before other below found both
  cases Nat.lt_one_iff.mp below
  cases found
  exact passed both.2

theorem read_route_first : FirstMatch [writeRoute, readRoute] itemRequest 1 readRoute :=
  second_first_match ((match_route_iff readRoute itemRequest).mp (by decide +kernel)) rfl
    (by decide)

def passing : Middleware Unit := fun exchange => (.ok true, exchange)

def removeRoute : Route Unit :=
  { method := .delete, path := ascii "/users/:id", handler := silent }

def checkedRoute : Route Unit :=
  { method := .get, path := ascii "/users/:id", handler := silent, middlewares := [passing] }

/-- The route before writes the parameter of the same name. -/
theorem own_parameters_iff_checked :
    OnlyOwn checkedRoute
      (seenAt { routes := [removeRoute, checkedRoute] } itemRequest () 1 checkedRoute 1) := by
  have first : FirstMatch [removeRoute, checkedRoute]
      (admitted { routes := [removeRoute, checkedRoute] } itemRequest ()).request 1
        checkedRoute :=
    second_first_match ((match_route_iff checkedRoute itemRequest).mp (by decide +kernel)) rfl
      (by decide)
  have quiet : LeavesNoTrace { routes := [removeRoute, checkedRoute] } itemRequest () 1
      checkedRoute := by
    refine ⟨?_, ?_, ?_⟩
    · intro key stored
      cases stored
    · intro index below other found name writes
      cases Nat.lt_one_iff.mp below
      cases found
      exact writes.name
    · intro index below _ own
      cases Nat.lt_one_iff.mp below
      exact own
  refine (own_parameters_iff (unguarded_passes rfl _) first).2.mpr quiet 1 (Nat.le_refl _) ?_
  intro earlier below
  cases Nat.lt_one_iff.mp below
  exact ⟨passing, rfl, rfl⟩

/-- The handler of `GET /users/:id` sees the `uid` of the `PUT` route before it. -/
theorem foreign_parameter_seen :
    FirstMatch [writeRoute, readRoute]
        (admitted { routes := [writeRoute, readRoute] } itemRequest ()).request 1 readRoute ∧
      itemRequest.pathParams = [] ∧
      ¬∀ index ≤ readRoute.middlewares.length,
        Called { routes := [writeRoute, readRoute] } itemRequest () 1 readRoute index →
          OnlyOwn readRoute
            (seenAt { routes := [writeRoute, readRoute] } itemRequest () 1 readRoute index) := by
  refine ⟨read_route_first, rfl, ?_⟩
  intro own
  have named := own 0 (Nat.le_refl _) (fun earlier below => absurd below (Nat.not_lt_zero _))
    (ascii "uid") (by decide +kernel)
  revert named
  decide +kernel

end Accounts

end HttpServer.RouteParameters
