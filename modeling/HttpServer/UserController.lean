import HttpServer.UserRepository
import Mathlib.Algebra.Group.Int.Defs

/-!
# `AuthMiddleware` and `UserController`

Five of the six routes the controller registers call `requireAuth` by hand in
their lambda; the lambda of `POST /api/users` captures it and does not call it.
A handler whose exception no `catch` takes leaves with that exception. The
decoded JSON body of a request stands beside the request: nothing in the server
sets it.
-/

namespace HttpServer

/-- The rate limiter's store as one request meets it: the counter of each key,
the keys with an expiry, and the commands that raise. -/
structure Redis where
  counters : List (Bytes × Int) := []
  expiring : List (Bytes × Int) := []
  incrFails : Bool := false
  expireFails : Bool := false

/-- What the callbacks reach beyond the request and the response. -/
structure Backend where
  database : repositories.Database
  requestJson : Option Json := none
  /-- What libsodium draws for the next hash. -/
  salt : Bytes := []
  files : StaticFiles.FileSystem
  redis : Redis := {}

namespace utils

def CryptoUtils.hashPassword (libraries : Libraries) (salt plaintext : Bytes) :
    Except StdException Bytes :=
  if !libraries.sodiumInit then .error ⟨ascii "libsodium initialization failed"⟩
  else
    match libraries.pwhashStr salt plaintext with
    | none => .error ⟨ascii "Out of memory while hashing password"⟩
    | some hash => .ok hash

def CryptoUtils.verifyPassword (libraries : Libraries) (plaintext hash : Bytes) :
    Except StdException Bool :=
  if !libraries.sodiumInit then .error ⟨ascii "libsodium initialization failed"⟩
  else .ok (libraries.pwhashStrVerify hash plaintext)

def isSpace (character : Byte) : Bool := character = 32 || (9 ≤ character && character ≤ 13)

/-- `std::stoi`: leading white space, a sign, and the digits that follow;
`none` when there is no digit or the value is no `int`. -/
def stoi (text : Bytes) : Option Int :=
  let unsigned := text.dropWhile isSpace
  let negative := unsigned.head? = some 45
  let digits :=
    (if negative || unsigned.head? = some 43 then unsigned.drop 1 else unsigned).takeWhile isDigit
  let value : Int := if negative then -decimalValue digits else decimalValue digits
  if digits.isEmpty then none
  else if -2 ^ 31 ≤ value ∧ value < 2 ^ 31 then some value
  else none

end utils

/-- `res.setStatus(status)` and `res.json(text)`. -/
def respond (status : HttpStatus) (text : Bytes) (exchange : Exchange Backend) :
    Exchange Backend :=
  { exchange with response := (exchange.response.setStatus status).json text }

def errorJson (message : Bytes) : Bytes := ascii "\x7b\"error\": \"" ++ message ++ ascii "\"\x7d"

def successJson (message : Bytes) : Bytes :=
  ascii "\x7b\"status\": \"success\", \"message\": \"" ++ message ++ ascii "\"\x7d"

def middlewares.requireAuth (libraries : Libraries) : Middleware Backend := fun exchange =>
  let authHeader := exchange.request.header (ascii "Authorization")
  if authHeader.isEmpty || authHeader.take 7 ≠ ascii "Bearer " then
    (.ok false, respond .unauthorized
      (errorJson (ascii "Missing or invalid Authorization header")) exchange)
  else
    match libraries.verifyToken (authHeader.drop 7) with
    | none =>
        (.ok false, respond .unauthorized (errorJson (ascii "Invalid or expired token")) exchange)
    | some _ => (.ok true, exchange)

namespace controllers

open repositories middlewares

/-- The payload, or the exchange with the refusal written. -/
def extractJson (libraries : Libraries) (exchange : Exchange Backend) :
    Except (Exchange Backend) Json :=
  match exchange.world.requestJson with
  | some payload => .ok payload
  | none =>
      if exchange.request.body.isEmpty then
        .error (respond .badRequest (errorJson (ascii "Missing request body")) exchange)
      else
        match libraries.parseJson exchange.request.body with
        | .ok payload => .ok payload
        | .error _ => .error (respond .badRequest (errorJson (ascii "Invalid JSON")) exchange)

/-- `std::string text = payload[key]`. -/
def textField (libraries : Libraries) (payload : Json) (key : Bytes) :
    Except StdException Bytes :=
  match (payload.field? key).getD .null with
  | .string value => .ok value
  | other => .error (libraries.notString other)

/-- The check before the `try` block of `createUser`. -/
def acceptsCreation (payload : Json) : Bool :=
  payload.contains (ascii "name") && payload.contains (ascii "password") &&
    ((payload.field? (ascii "password")).getD .null).isString

def roleField (libraries : Libraries) (payload : Json) : Except StdException Bytes :=
  if payload.contains (ascii "role") then textField libraries payload (ascii "role")
  else .ok (ascii "user")

/-- Name, password hash and role as the `try` block computes them. -/
def newUser (libraries : Libraries) (salt : Bytes) (payload : Json) :
    Except StdException (Bytes × Bytes × Bytes) := do
  let name ← textField libraries payload (ascii "name")
  let password ← textField libraries payload (ascii "password")
  let role ← roleField libraries payload
  let hash ← utils.CryptoUtils.hashPassword libraries salt password
  .ok (name, hash, role)

def createUser (libraries : Libraries) : Handler Backend := fun exchange =>
  match extractJson libraries exchange with
  | .error refused => (.ok (), refused)
  | .ok payload =>
      if !acceptsCreation payload then
        (.ok (), respond .badRequest
          (errorJson (ascii "Missing or invalid 'name' or 'password' field")) exchange)
      else
        match newUser libraries exchange.world.salt payload with
        | .error raised =>
            (.ok (), respond .internalServerError (errorJson raised.what) exchange)
        | .ok (name, hash, role) =>
            let written := repositories.createUser exchange.world.database name hash role
            let stored := { exchange with world := { exchange.world with database := written.2 } }
            if written.1 then
              (.ok (), respond .created (successJson (ascii "User added!")) stored)
            else
              (.ok (), respond .internalServerError
                (errorJson (ascii "Failed to create user")) stored)

def toSafeJson (user : User) : Json :=
  .object [(ascii "_id", .string user.id), (ascii "name", .string user.name),
    (ascii "role", .string user.role)]

def respondDumped (libraries : Libraries) (value : Json) (exchange : Exchange Backend) :
    Except StdException Unit × Exchange Backend :=
  match libraries.dumpJson value with
  | .ok text => (.ok (), respond .ok text exchange)
  | .error raised =>
      (.error raised, { exchange with response := exchange.response.setStatus .ok })

/-- A query parameter read as an `int`, zero when it is absent. -/
def intQuery (request : HttpRequest) (key : Bytes) : Option Int :=
  if (request.query key).isEmpty then some 0 else utils.stoi (request.query key)

def getAllUsers (libraries : Libraries) : Handler Backend := fun exchange =>
  let request := exchange.request
  match intQuery request (ascii "limit"), intQuery request (ascii "skip") with
  | some limit, some skip =>
      let sortOrder : Int := if request.query (ascii "order") = ascii "desc" then -1 else 1
      let users := repositories.getAllUsers libraries exchange.world.database limit skip
        (request.query (ascii "sort")) sortOrder
      respondDumped libraries (.array (users.map toSafeJson)) exchange
  | _, _ =>
      (.ok (), respond .badRequest (errorJson (ascii "Invalid query parameters")) exchange)

def userNotFound (exchange : Exchange Backend) : Exchange Backend :=
  respond .notFound (errorJson (ascii "User not found or invalid ID")) exchange

def getUserById (libraries : Libraries) : Handler Backend := fun exchange =>
  match findById exchange.world.database (exchange.request.param (ascii "id")) with
  | some user => respondDumped libraries (toSafeJson user) exchange
  | none => (.ok (), userNotFound exchange)

/-- The fields a client may not write are taken out; only an object has fields. -/
def erased (libraries : Libraries) : Json → Except StdException Json
  | .object fields =>
      .ok (.object (fields.filter fun field =>
        field.1 ≠ ascii "_id" ∧ field.1 ≠ ascii "password" ∧ field.1 ≠ ascii "password_hash"))
  | other => .error (libraries.notErasable other)

/-- The last statements of `updateUser` and `deleteUser`. -/
def respondWritten (written : Bool × Database) (message : Bytes) (exchange : Exchange Backend) :
    Except StdException Unit × Exchange Backend :=
  let stored := { exchange with world := { exchange.world with database := written.2 } }
  if written.1 then (.ok (), respond .ok (successJson message) stored)
  else (.ok (), userNotFound stored)

def updateUser (libraries : Libraries) : Handler Backend := fun exchange =>
  match extractJson libraries exchange with
  | .error refused => (.ok (), refused)
  | .ok payload =>
      match erased libraries payload with
      | .error raised => (.error raised, exchange)
      | .ok updates =>
          if updates.empty then
            (.ok (), respond .badRequest (errorJson (ascii "No valid fields to update")) exchange)
          else
            respondWritten
              (repositories.updateUser libraries exchange.world.database
                (exchange.request.param (ascii "id")) updates)
              (ascii "User updated") exchange

def deleteUser : Handler Backend := fun exchange =>
  respondWritten
    (repositories.deleteUser exchange.world.database (exchange.request.param (ascii "id")))
    (ascii "User deleted") exchange

/-- The password check of `loginUser`; `none` when user and password do not fit. -/
def authenticate (libraries : Libraries) (database : Database) (name password : Bytes) :
    Except StdException (Option User) :=
  match findByUsername database name with
  | none => .ok none
  | some user =>
      if user.passwordHash.isEmpty then .ok none
      else
        (utils.CryptoUtils.verifyPassword libraries password user.passwordHash).map fun fits =>
          if fits then some user else none

def loginUser (libraries : Libraries) : Handler Backend := fun exchange =>
  match extractJson libraries exchange with
  | .error refused => (.ok (), refused)
  | .ok payload =>
      if !payload.contains (ascii "name") || !payload.contains (ascii "password") then
        (.ok (), respond .badRequest (errorJson (ascii "Missing 'name' or 'password'")) exchange)
      else
        let issued : Except StdException (Option Bytes) := do
          let name ← textField libraries payload (ascii "name")
          let password ← textField libraries payload (ascii "password")
          match ← authenticate libraries exchange.world.database name password with
          | none => .ok none
          | some user => (libraries.generateToken user.id user.role).map some
        match issued with
        | .error raised => (.error raised, exchange)
        | .ok none =>
            (.ok (), respond .unauthorized
              (errorJson (ascii "Invalid username or password")) exchange)
        | .ok (some token) =>
            (.ok (), respond .ok
              (ascii "\x7b\"status\": \"success\", \"token\": \"" ++ token ++ ascii "\"\x7d")
              exchange)

/-- The lambda of a guarded route. -/
def ifAuthenticated (libraries : Libraries) (handler : Handler Backend) : Handler Backend :=
  fun exchange =>
    match requireAuth libraries exchange with
    | (.ok true, admitted) => handler admitted
    | (.ok false, refused) => (.ok (), refused)
    | (.error raised, left) => (.error raised, left)

def registerRoutes (libraries : Libraries) (router : Router Backend) : Router Backend :=
  ((((((router.post (ascii "/api/login") [] (loginUser libraries)).post
    (ascii "/api/users") [] (createUser libraries)).get
    (ascii "/api/users") [] (ifAuthenticated libraries (getAllUsers libraries))).get
    (ascii "/api/users/:id") [] (ifAuthenticated libraries (getUserById libraries))).put
    (ascii "/api/users/:id") [] (ifAuthenticated libraries (updateUser libraries))).del
    (ascii "/api/users/:id") [] (ifAuthenticated libraries deleteUser))

end controllers

end HttpServer
