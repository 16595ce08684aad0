import HttpServer.RouterDispatch
import HttpServer.UserController

/-!
# Who reaches the user collection

A request that carries no accepted token is answered without reading or writing
the collection, unless it creates a user: the route that creates one is not
guarded. Reading is said by comparing two runs that differ in the collection
alone. The condition on the request is exact.
-/

namespace HttpServer.UserGuard

open LexicalPath RouterDispatch Router controllers repositories middlewares

/-- The path `/api/users` and every path below it, however its slashes repeat. -/
def UnderUsers (path : Bytes) : Prop :=
  [ascii "api", ascii "users"] <+: segments StaticFiles.slash path

instance (path : Bytes) : Decidable (UnderUsers path) :=
  inferInstanceAs (Decidable (_ <+: _))

def CarriesAcceptedToken (libraries : Libraries) (request : HttpRequest) : Prop :=
  ∃ token, request.header (ascii "Authorization") = ascii "Bearer " ++ token ∧
    (libraries.verifyToken token).isSome = true

def withUsers (backend : Backend) (users : Collection) : Backend :=
  { backend with database := { backend.database with users } }

/-- The router of a controller test: the controller's routes and nothing else. -/
def userRouter (libraries : Libraries) : Router Backend := registerRoutes libraries {}

/-- Whatever the collection holds, handling the request keeps it and answers
the same as for any other collection. -/
def Guarded (libraries : Libraries) (request : HttpRequest) (backend : Backend) : Prop :=
  ∀ users other : Collection,
    ((userRouter libraries).handle request (withUsers backend users)).world.database.users =
        users ∧
      ((userRouter libraries).handle request (withUsers backend users)).result =
        ((userRouter libraries).handle request (withUsers backend other)).result

def payloadOf (libraries : Libraries) (request : HttpRequest) (backend : Backend) : Option Json :=
  match backend.requestJson with
  | some payload => some payload
  | none => if request.body.isEmpty then none else (libraries.parseJson request.body).toOption

/-- An object with a string name, a string password that can be hashed, and a
role that is a string or absent. -/
def DescribesUser (libraries : Libraries) (salt : Bytes) (payload : Json) : Prop :=
  (∃ name, payload.field? (ascii "name") = some (.string name)) ∧
    (∃ password, payload.field? (ascii "password") = some (.string password) ∧
      libraries.sodiumInit = true ∧ (libraries.pwhashStr salt password).isSome = true) ∧
    (payload.field? (ascii "role") = none ∨
      ∃ role, payload.field? (ascii "role") = some (.string role))

/-- The request asks for a new user and the database is there to store it. -/
structure Creates (libraries : Libraries) (request : HttpRequest) (backend : Backend) : Prop where
  method : request.method = .post
  path : request.path = ascii "/api/users"
  describes : ∃ payload, payloadOf libraries request backend = some payload ∧
    DescribesUser libraries backend.salt payload
  reachable : backend.database.fault ≠ some .refused

/-- The handler answers one way for every collection and leaves it alone. -/
def IgnoresUsers (handler : Handler Backend) (request : HttpRequest) (response : HttpResponse)
    (backend : Backend) : Prop :=
  ∃ answer left, ∀ users, handler ⟨request, response, withUsers backend users⟩ =
    (answer, ⟨request, left, withUsers backend users⟩)

theorem ignores_of_respond {handler : Handler Backend} {request : HttpRequest}
    {response : HttpResponse} {backend : Backend} (status : HttpStatus) (text : Bytes)
    (responds : ∀ users, handler ⟨request, response, withUsers backend users⟩ =
      (.ok (), respond status text ⟨request, response, withUsers backend users⟩)) :
    IgnoresUsers handler request response backend :=
  ⟨.ok (), (response.setStatus status).json text, responds⟩

theorem if_authenticated_ignores {libraries : Libraries} {request : HttpRequest}
    (unauthenticated : ¬CarriesAcceptedToken libraries request) (handler : Handler Backend)
    (response : HttpResponse) (backend : Backend) :
    IgnoresUsers (ifAuthenticated libraries handler) request response backend := by
  by_cases missing : ((request.header (ascii "Authorization")).isEmpty ||
      (request.header (ascii "Authorization")).take 7 ≠ ascii "Bearer ") = true
  · apply ignores_of_respond .unauthorized
      (errorJson (ascii "Missing or invalid Authorization header"))
    intro users
    unfold ifAuthenticated requireAuth
    dsimp only
    rw [if_pos missing]
  · have bearer : (request.header (ascii "Authorization")).take 7 = ascii "Bearer " := by
      simp only [Bool.or_eq_true, decide_eq_true_eq, not_or, not_not] at missing
      exact missing.2
    have rejected : libraries.verifyToken ((request.header (ascii "Authorization")).drop 7) =
        none := by
      rw [← Option.not_isSome_iff_eq_none]
      intro accepted
      apply unauthenticated
      refine ⟨(request.header (ascii "Authorization")).drop 7, ?_, accepted⟩
      rw [← bearer, List.take_append_drop]
    apply ignores_of_respond .unauthorized (errorJson (ascii "Invalid or expired token"))
    intro users
    unfold ifAuthenticated requireAuth
    dsimp only
    rw [if_neg missing, rejected]

theorem extract_json_payload {libraries : Libraries} {exchange : Exchange Backend} {payload : Json}
    (decoded : payloadOf libraries exchange.request exchange.world = some payload) :
    extractJson libraries exchange = .ok payload := by
  unfold payloadOf at decoded
  unfold extractJson
  cases stored : exchange.world.requestJson with
  | some value =>
      rw [stored] at decoded
      exact congrArg Except.ok (Option.some.inj decoded)
  | none =>
      rw [stored] at decoded
      dsimp only at decoded ⊢
      split_ifs at decoded with noBody
      rw [if_neg noBody]
      cases parsed : libraries.parseJson exchange.request.body with
      | ok value =>
          rw [parsed] at decoded
          exact congrArg Except.ok (Option.some.inj decoded)
      | error raised =>
          rw [parsed] at decoded
          cases decoded

theorem extract_json_missing {libraries : Libraries} {request : HttpRequest} {backend : Backend}
    (missing : payloadOf libraries request backend = none) (response : HttpResponse) :
    ∃ message, ∀ users, extractJson libraries ⟨request, response, withUsers backend users⟩ =
      .error (respond .badRequest (errorJson message)
        ⟨request, response, withUsers backend users⟩) := by
  unfold payloadOf at missing
  unfold extractJson withUsers
  cases stored : backend.requestJson with
  | some value =>
      rw [stored] at missing
      cases missing
  | none =>
      rw [stored] at missing
      dsimp only at missing ⊢
      split_ifs at missing with noBody
      · refine ⟨ascii "Missing request body", ?_⟩
        intro users
        rw [if_pos noBody]
      · cases parsed : libraries.parseJson request.body with
        | ok value =>
            rw [parsed] at missing
            cases missing
        | error raised =>
            refine ⟨ascii "Invalid JSON", ?_⟩
            intro users
            rw [if_neg noBody]

theorem text_field_ok_iff (libraries : Libraries) (payload : Json) (key text : Bytes) :
    textField libraries payload key = .ok text ↔ payload.field? key = some (.string text) := by
  unfold textField
  cases payload.field? key with
  | none => simp
  | some value => cases value <;> simp

theorem hash_password_ok_iff (libraries : Libraries) (salt password : Bytes) :
    (∃ hash, utils.CryptoUtils.hashPassword libraries salt password = .ok hash) ↔
      libraries.sodiumInit = true ∧ (libraries.pwhashStr salt password).isSome = true := by
  unfold utils.CryptoUtils.hashPassword
  cases libraries.sodiumInit with
  | false => simp
  | true => cases libraries.pwhashStr salt password <;> simp

theorem bind_ok_iff {First Second : Type} (first : Except StdException First)
    (onward : First → Except StdException Second) (result : Second) :
    (first >>= onward) = .ok result ↔ ∃ value, first = .ok value ∧ onward value = .ok result := by
  cases first with
  | error raised => simp [bind, Except.bind]
  | ok value => simp [bind, Except.bind]

theorem role_field_ok_iff (libraries : Libraries) (payload : Json) :
    (∃ role, roleField libraries payload = .ok role) ↔
      payload.field? (ascii "role") = none ∨
        ∃ role, payload.field? (ascii "role") = some (.string role) := by
  unfold roleField Json.contains
  cases given : payload.field? (ascii "role") with
  | none => simp
  | some value => simp [text_field_ok_iff, given]

theorem new_user_ok_iff (libraries : Libraries) (salt : Bytes) (payload : Json) :
    (∃ fields, newUser libraries salt payload = .ok fields) ↔
      DescribesUser libraries salt payload := by
  unfold newUser DescribesUser
  simp only [bind_ok_iff, text_field_ok_iff, ← hash_password_ok_iff]
  constructor
  · rintro ⟨_, name, named, password, secret, role, given, hash, hashed, _⟩
    have roles := (role_field_ok_iff libraries payload).mp ⟨role, given⟩
    exact ⟨⟨name, named⟩, ⟨password, secret, hash, hashed⟩, roles⟩
  · rintro ⟨⟨name, named⟩, ⟨password, secret, hash, hashed⟩, roles⟩
    obtain ⟨role, given⟩ := (role_field_ok_iff libraries payload).mpr roles
    exact ⟨(name, hash, role), name, named, password, secret, role, given, hash, hashed, rfl⟩

theorem describes_user_accepted {libraries : Libraries} {salt : Bytes} {payload : Json}
    (describes : DescribesUser libraries salt payload) : acceptsCreation payload = true := by
  obtain ⟨⟨name, named⟩, ⟨password, secret, _⟩, _⟩ := describes
  simp only [acceptsCreation, Json.contains, named, secret, Option.isSome_some, Option.getD_some,
    Json.isString, Bool.and_self]

theorem create_user_unreadable {libraries : Libraries} {exchange refused : Exchange Backend}
    (unreadable : extractJson libraries exchange = .error refused) :
    controllers.createUser libraries exchange = (.ok (), refused) := by
  simp only [controllers.createUser, unreadable]

theorem create_user_rejects {libraries : Libraries} {exchange : Exchange Backend} {payload : Json}
    (extracted : extractJson libraries exchange = .ok payload)
    (rejected : acceptsCreation payload = false) :
    controllers.createUser libraries exchange =
      (.ok (), respond .badRequest
        (errorJson (ascii "Missing or invalid 'name' or 'password' field")) exchange) := by
  simp only [controllers.createUser, extracted, rejected, Bool.not_false, if_true]

theorem create_user_raises {libraries : Libraries} {exchange : Exchange Backend} {payload : Json}
    {raised : StdException} (extracted : extractJson libraries exchange = .ok payload)
    (accepted : acceptsCreation payload = true)
    (computed : newUser libraries exchange.world.salt payload = .error raised) :
    controllers.createUser libraries exchange =
      (.ok (), respond .internalServerError (errorJson raised.what) exchange) := by
  simp only [controllers.createUser, extracted, accepted, computed, Bool.not_true,
    Bool.false_eq_true, if_false]

theorem create_user_writes {libraries : Libraries} {exchange : Exchange Backend} {payload : Json}
    {name hash role : Bytes} (extracted : extractJson libraries exchange = .ok payload)
    (accepted : acceptsCreation payload = true)
    (computed : newUser libraries exchange.world.salt payload = .ok (name, hash, role)) :
    ∃ status text, controllers.createUser libraries exchange =
      (.ok (), respond status text { exchange with
        world := { exchange.world with
          database := (repositories.createUser exchange.world.database name hash role).2 } }) ∧
      ((repositories.createUser exchange.world.database name hash role).1 = false →
        status = .internalServerError ∧ text = errorJson (ascii "Failed to create user")) := by
  simp only [controllers.createUser, extracted, accepted, computed, Bool.not_true,
    Bool.false_eq_true, if_false]
  split
  · rename_i created
    exact ⟨_, _, rfl, fun failed => absurd (created.symm.trans failed) (by decide)⟩
  · exact ⟨_, _, rfl, fun _ => ⟨rfl, rfl⟩⟩

theorem create_user_ignores {libraries : Libraries} {request : HttpRequest} {backend : Backend}
    (harmless : ¬((∃ payload, payloadOf libraries request backend = some payload ∧
      DescribesUser libraries backend.salt payload) ∧ backend.database.fault ≠ some .refused))
    (response : HttpResponse) :
    IgnoresUsers (controllers.createUser libraries) request response backend := by
  cases decoded : payloadOf libraries request backend with
  | none =>
      obtain ⟨message, missing⟩ := extract_json_missing decoded response
      apply ignores_of_respond .badRequest (errorJson message)
      intro users
      exact create_user_unreadable (missing users)
  | some payload =>
      have extracted : ∀ users,
          extractJson libraries ⟨request, response, withUsers backend users⟩ = .ok payload :=
        fun users => extract_json_payload decoded
      cases accepted : acceptsCreation payload with
      | false =>
          apply ignores_of_respond
          intro users
          exact create_user_rejects (extracted users) accepted
      | true =>
          cases computed : newUser libraries backend.salt payload with
          | error raised =>
              apply ignores_of_respond
              intro users
              exact create_user_raises (extracted users) accepted computed
          | ok fields =>
              obtain ⟨name, hash, role⟩ := fields
              have describes := (new_user_ok_iff libraries backend.salt payload).mp ⟨_, computed⟩
              have refused : backend.database.fault = some .refused := by
                by_contra reachable
                exact harmless ⟨⟨payload, decoded, describes⟩, reachable⟩
              apply ignores_of_respond .internalServerError
                (errorJson (ascii "Failed to create user"))
              intro users
              have unwritten : repositories.createUser (withUsers backend users).database name hash
                  role = (false, (withUsers backend users).database) := by
                simp only [repositories.createUser, carryOut, withUsers, refused]
              obtain ⟨status, text, written, failed⟩ :=
                create_user_writes (extracted users) accepted computed
              rw [unwritten] at written failed
              obtain ⟨rfl, rfl⟩ := failed rfl
              exact written

theorem user_routes (libraries : Libraries) :
    (userRouter libraries).routes =
      [ { method := .post, path := ascii "/api/login", handler := loginUser libraries },
        { method := .post, path := ascii "/api/users"
          handler := controllers.createUser libraries },
        { method := .get, path := ascii "/api/users"
          handler := ifAuthenticated libraries (controllers.getAllUsers libraries) },
        { method := .get, path := ascii "/api/users/:id"
          handler := ifAuthenticated libraries (getUserById libraries) },
        { method := .put, path := ascii "/api/users/:id"
          handler := ifAuthenticated libraries (controllers.updateUser libraries) },
        { method := .delete, path := ascii "/api/users/:id"
          handler := ifAuthenticated libraries controllers.deleteUser } ] :=
  rfl

theorem user_router_unguarded (libraries : Libraries) :
    (userRouter libraries).globalMiddlewares = [] :=
  rfl

theorem plain_pattern_matches {routePath path : Bytes} (plain : colon ∉ routePath)
    (matched : PatternMatches routePath path) : path = routePath := by
  rcases matched with same | dynamic
  · exact same.symm
  · exact absurd dynamic.1 plain

theorem login_path_plain : colon ∉ ascii "/api/login" := by decide

theorem users_path_plain : colon ∉ ascii "/api/users" := by decide

theorem scanned_token_iff (libraries : Libraries) (routes : List (Route Backend))
    (request : HttpRequest) (count : Nat) :
    CarriesAcceptedToken libraries (scanned routes request count) ↔
      CarriesAcceptedToken libraries request := by
  have kept : (withoutParams (scanned routes request count)).headers =
      (withoutParams request).headers := by
    rw [scanned_keeps]
  change (scanned routes request count).headers = request.headers at kept
  unfold CarriesAcceptedToken HttpRequest.header
  rw [kept]

theorem scanned_payload (libraries : Libraries) (routes : List (Route Backend))
    (request : HttpRequest) (count : Nat) (backend : Backend) :
    payloadOf libraries (scanned routes request count) backend =
      payloadOf libraries request backend := by
  have kept : (withoutParams (scanned routes request count)).body =
      (withoutParams request).body := by
    rw [scanned_keeps]
  change (scanned routes request count).body = request.body at kept
  unfold payloadOf
  rw [kept]

/-- Every route an unauthenticated request below `/api/users` reaches ignores
the collection, the creating one unless it creates. -/
theorem selected_route_ignores {libraries : Libraries} {request : HttpRequest} {backend : Backend}
    (under : UnderUsers request.path) (unauthenticated : ¬CarriesAcceptedToken libraries request)
    (harmless : ¬Creates libraries request backend) {position : Nat} {route : Route Backend}
    (first : FirstMatch (userRouter libraries).routes request position route) :
    route.middlewares = [] ∧
      IgnoresUsers route.handler
        (scanned (userRouter libraries).routes request (position + 1)) {} backend := by
  have unaccepted : ¬CarriesAcceptedToken libraries
      (scanned (userRouter libraries).routes request (position + 1)) := by
    rw [scanned_token_iff]
    exact unauthenticated
  have member := List.mem_of_getElem? first.here
  have path := first.path
  have method := first.method
  rw [user_routes] at member
  simp only [List.mem_cons, List.not_mem_nil, or_false] at member
  rcases member with rfl | rfl | rfl | rfl | rfl | rfl
  · have login : request.path = ascii "/api/login" := plain_pattern_matches login_path_plain path
    rw [login] at under
    exact absurd under (by decide)
  · refine ⟨rfl, create_user_ignores ?_ {}⟩
    rw [scanned_payload]
    intro creating
    exact harmless
      ⟨method.symm, plain_pattern_matches users_path_plain path, creating.1, creating.2⟩
  all_goals exact ⟨rfl, if_authenticated_ignores unaccepted _ {} backend⟩

theorem guarded_of_harmless {libraries : Libraries} {request : HttpRequest} {backend : Backend}
    (under : UnderUsers request.path) (unauthenticated : ¬CarriesAcceptedToken libraries request)
    (harmless : ¬Creates libraries request backend) : Guarded libraries request backend := by
  by_cases served : ∃ position route,
      FirstMatch (userRouter libraries).routes request position route
  · obtain ⟨position, route, first⟩ := served
    obtain ⟨noGuards, answer, left, ignores⟩ :=
      selected_route_ignores under unauthenticated harmless first
    have handled : ∀ users, (userRouter libraries).handle request (withUsers backend users) =
        finish answer ⟨scanned (userRouter libraries).routes request (position + 1), left,
          withUsers backend users⟩ [.handler position] := by
      intro users
      rw [handle_unguarded (user_router_unguarded libraries) first noGuards, ignores users]
    intro users other
    rw [handled users, handled other]
    exact ⟨rfl, rfl⟩
  · have noFirst : ∀ position route,
        ¬FirstMatch (userRouter libraries).routes request position route :=
      fun position route first => served ⟨position, route, first⟩
    obtain ⟨response, handled⟩ := handle_unguarded_unmatched (user_router_unguarded libraries)
      noFirst
    intro users other
    rw [handled (withUsers backend users), handled (withUsers backend other)]
    exact ⟨rfl, rfl⟩

theorem create_user_stores {database : Database} (empty : database.users.documents = [])
    (reachable : database.fault ≠ some .refused) (name hash role : Bytes) :
    (repositories.createUser database name hash role).2.users.documents ≠ [] := by
  have fresh : database.newOid ∉ database.users.documents.map Prod.fst := by
    rw [empty]
    exact List.not_mem_nil
  unfold repositories.createUser insertOne
  rw [dif_pos fresh]
  cases fault : database.fault with
  | none => simp [carryOut, fault]
  | some kind =>
      cases kind with
      | refused => exact absurd fault reachable
      | replyLost => simp [carryOut, fault]

theorem creating_first_match {libraries : Libraries} {request : HttpRequest}
    (method : request.method = .post) (path : request.path = ascii "/api/users") :
    FirstMatch (userRouter libraries).routes request 1
      { method := .post, path := ascii "/api/users"
        handler := controllers.createUser libraries } := by
  constructor
  · rfl
  · rw [path]
    exact Or.inl rfl
  · exact method.symm
  · intro before other below found both
    have front : before = 0 := by omega
    subst front
    rw [user_routes] at found
    cases found
    have login := plain_pattern_matches login_path_plain both.1
    rw [path] at login
    exact absurd login (by decide)

theorem not_guarded_of_creates {libraries : Libraries} {request : HttpRequest} {backend : Backend}
    (creates : Creates libraries request backend) : ¬Guarded libraries request backend := by
  intro guarded
  let nobody : Collection := ⟨[], List.nodup_nil⟩
  obtain ⟨unchanged, _⟩ := guarded nobody nobody
  have handled := handle_unguarded (user_router_unguarded libraries)
    (creating_first_match creates.method creates.path) rfl (withUsers backend nobody)
  obtain ⟨payload, decoded, describes⟩ := creates.describes
  obtain ⟨⟨name, hash, role⟩, computed⟩ :=
    (new_user_ok_iff libraries backend.salt payload).mpr describes
  rw [← scanned_payload libraries (userRouter libraries).routes request 2] at decoded
  have extracted : extractJson libraries
      ⟨scanned (userRouter libraries).routes request 2, {}, withUsers backend nobody⟩ =
        .ok payload :=
    extract_json_payload decoded
  obtain ⟨status, text, written, _⟩ :=
    create_user_writes extracted (describes_user_accepted describes) computed
  have reachable : (withUsers backend nobody).database.fault ≠ some .refused := creates.reachable
  have stored := create_user_stores rfl reachable name hash role
  dsimp only at handled
  rw [handled, written] at unchanged
  exact stored (congrArg Collection.documents unchanged)

/-- Without an accepted token the collection is neither read nor written below
`/api/users`, exactly when the request is not one that creates a user. -/
theorem users_guarded_iff_not_creating (libraries : Libraries) (request : HttpRequest)
    (backend : Backend) (under : UnderUsers request.path)
    (unauthenticated : ¬CarriesAcceptedToken libraries request) :
    Guarded libraries request backend ↔ ¬Creates libraries request backend := by
  constructor
  · intro guarded creates
    exact not_guarded_of_creates creates guarded
  · intro harmless
    exact guarded_of_harmless under unauthenticated harmless

/-- Libraries for runs on one request: the only JSON text is the object below,
the only token that verifies is `good`. -/
def sampleLibraries : Libraries where
  parseJson text :=
    if text = ascii "\x7b\"name\":\"Eve\",\"password\":\"pw\"\x7d" then
      .ok (.object [(ascii "name", .string (ascii "Eve")), (ascii "password", .string (ascii "pw"))])
    else .error ⟨ascii "parse error"⟩
  dumpJson _ := .ok (ascii "[]")
  notString _ := ⟨ascii "type must be string"⟩
  notErasable _ := ⟨ascii "cannot use erase()"⟩
  sodiumInit := true
  pwhashStr salt password := some (ascii "$argon2id$" ++ salt ++ password)
  pwhashStrVerify hash password := hash.drop 10 = password
  generateToken _ _ := .ok (ascii "good")
  verifyToken token := if token = ascii "good" then some (ascii "5") else none
  setFields _ document := some document
  sortDocuments _ _ documents := some documents

def sampleBackend : Backend where
  database := { users := ⟨[], List.nodup_nil⟩, newOid := ascii "0123456789abcdef01234567" }
  files := ⟨fun _ => .ok false, fun _ => .ok false, fun _ => none⟩

def listRequest : HttpRequest := { method := .get, path := ascii "/api/users" }

def createRequest : HttpRequest :=
  { method := .post
    path := ascii "/api/users"
    body := ascii "\x7b\"name\":\"Eve\",\"password\":\"pw\"\x7d" }

theorem no_token_carried {request : HttpRequest}
    (absent : request.header (ascii "Authorization") = []) :
    ¬CarriesAcceptedToken sampleLibraries request := by
  rintro ⟨token, carried, _⟩
  rw [absent] at carried
  cases carried

theorem users_guarded_iff_not_creating_listing :
    UnderUsers listRequest.path ∧ Guarded sampleLibraries listRequest sampleBackend := by
  have under : UnderUsers listRequest.path := by decide
  refine ⟨under, (users_guarded_iff_not_creating sampleLibraries listRequest sampleBackend under
    (no_token_carried rfl)).mpr ?_⟩
  intro creates
  exact absurd creates.method (by decide)

/-- A request without any token stores a user. -/
theorem anonymous_request_creates_user :
    UnderUsers createRequest.path ∧ ¬CarriesAcceptedToken sampleLibraries createRequest ∧
      sampleBackend.database.users.documents = [] ∧
      ((userRouter sampleLibraries).handle createRequest
        sampleBackend).world.database.users.documents.length = 1 ∧
      ¬Guarded sampleLibraries createRequest sampleBackend := by
  have stored : ((userRouter sampleLibraries).handle createRequest
      sampleBackend).world.database.users.documents.length = 1 := by
    decide +kernel
  refine ⟨by decide, no_token_carried rfl, rfl, stored, ?_⟩
  intro guarded
  have unchanged := (guarded sampleBackend.database.users sampleBackend.database.users).1
  have same : withUsers sampleBackend sampleBackend.database.users = sampleBackend := rfl
  rw [same] at unchanged
  rw [unchanged] at stored
  exact absurd stored (by decide)

end HttpServer.UserGuard
