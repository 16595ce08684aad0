import HttpServer.UserLogin

/-!
# Which requests the user handlers answer

Of the four handlers only `createUser` converts values inside a `try` block.
`updateUser` erases fields of whatever the body decodes to, `loginUser` converts
two fields it has only asked the presence of, and the listing is dumped after
its `try` block has ended. The conditions are exact, whatever the libraries do.
-/

namespace HttpServer.ControllerAnswers

open UserGuard UserLogin controllers repositories

/-- The handler returns, and what it leaves is a status and a JSON text in the
response it was given. -/
def Answers (handler : Handler Backend) (exchange : Exchange Backend) : Prop :=
  ∃ status text left, handler exchange = (.ok (), respond status text left) ∧
    left.request = exchange.request ∧ left.response = exchange.response

/-- What `getAllUsers` dumps for these bounds. -/
def listing (libraries : Libraries) (exchange : Exchange Backend) (limit skip : Int) : Json :=
  .array ((repositories.getAllUsers libraries exchange.world.database limit skip
    (exchange.request.query (ascii "sort"))
    (if exchange.request.query (ascii "order") = ascii "desc" then -1 else 1)).map toSafeJson)

def ListingDumps (libraries : Libraries) (exchange : Exchange Backend) : Prop :=
  ∀ limit skip, intQuery exchange.request (ascii "limit") = some limit →
    intQuery exchange.request (ascii "skip") = some skip →
    ∃ text, libraries.dumpJson (listing libraries exchange limit skip) = .ok text

def BodyIsObject (libraries : Libraries) (exchange : Exchange Backend) : Prop :=
  ∀ payload, payloadOf libraries exchange.request exchange.world = some payload →
    ∃ fields, payload = .object fields

/-- The user's stored hash can be compared and, where it fits, a token signed. -/
def CanBeChecked (libraries : Libraries) (password : Bytes) (user : User) : Prop :=
  user.passwordHash ≠ [] →
    libraries.sodiumInit = true ∧
      (libraries.pwhashStrVerify user.passwordHash password = true →
        ∃ token, libraries.generateToken user.id user.role = .ok token)

/-- A body with both fields has strings in them, and what is asked of the
libraries for the user of that name succeeds. -/
def CredentialsAreText (libraries : Libraries) (exchange : Exchange Backend) : Prop :=
  ∀ payload, payloadOf libraries exchange.request exchange.world = some payload →
    payload.contains (ascii "name") = true → payload.contains (ascii "password") = true →
    ∃ name password, payload.field? (ascii "name") = some (.string name) ∧
      payload.field? (ascii "password") = some (.string password) ∧
      ∀ user, findByUsername exchange.world.database name = some user →
        CanBeChecked libraries password user

section Handlers

variable {libraries : Libraries} {exchange : Exchange Backend}

theorem answers_of_responds {handler : Handler Backend} (status : HttpStatus) (text : Bytes)
    (responds : handler exchange = (.ok (), respond status text exchange)) :
    Answers handler exchange :=
  ⟨status, text, exchange, responds, rfl, rfl⟩

theorem raises_unanswered {handler : Handler Backend} (raised : StdException)
    (left : Exchange Backend) (raises : handler exchange = (.error raised, left)) :
    ¬Answers handler exchange := by
  intro answers
  obtain ⟨status, text, answered, responds, _⟩ := answers
  rw [raises] at responds
  cases responds

theorem extract_json_refuses
    (missing : payloadOf libraries exchange.request exchange.world = none) :
    ∃ message, extractJson libraries exchange =
      .error (respond .badRequest (errorJson message) exchange) := by
  obtain ⟨message, refused⟩ := extract_json_missing missing exchange.response
  exact ⟨message, refused exchange.world.database.users⟩

theorem create_user_answers : Answers (controllers.createUser libraries) exchange := by
  cases decoded : payloadOf libraries exchange.request exchange.world with
  | none =>
      obtain ⟨message, refused⟩ := extract_json_refuses decoded
      exact answers_of_responds _ _ (create_user_unreadable refused)
  | some payload =>
      have extracted := extract_json_payload decoded
      cases accepted : acceptsCreation payload with
      | false => exact answers_of_responds _ _ (create_user_rejects extracted accepted)
      | true =>
          cases computed : newUser libraries exchange.world.salt payload with
          | error raised =>
              exact answers_of_responds _ _ (create_user_raises extracted accepted computed)
          | ok fields =>
              obtain ⟨name, hash, role⟩ := fields
              obtain ⟨status, text, written, _⟩ := create_user_writes extracted accepted computed
              exact ⟨status, text, _, written, rfl, rfl⟩

theorem respond_dumped_answers_iff (value : Json) :
    Answers (respondDumped libraries value) exchange ↔
      ∃ text, libraries.dumpJson value = .ok text := by
  cases dumped : libraries.dumpJson value with
  | ok text =>
      refine iff_of_true ?_ ⟨text, rfl⟩
      apply answers_of_responds .ok text
      simp only [respondDumped, dumped]
  | error raised =>
      refine iff_of_false ?_ nofun
      apply raises_unanswered raised { exchange with response := exchange.response.setStatus .ok }
      simp only [respondDumped, dumped]

theorem get_all_users_answers_iff :
    Answers (controllers.getAllUsers libraries) exchange ↔ ListingDumps libraries exchange := by
  by_cases numbers : ∃ limit skip, intQuery exchange.request (ascii "limit") = some limit ∧
      intQuery exchange.request (ascii "skip") = some skip
  · obtain ⟨limit, skip, limited, skipped⟩ := numbers
    have dumps : controllers.getAllUsers libraries exchange =
        respondDumped libraries (listing libraries exchange limit skip) exchange := by
      simp only [controllers.getAllUsers, limited, skipped, listing]
    have same : Answers (controllers.getAllUsers libraries) exchange ↔
        Answers (respondDumped libraries (listing libraries exchange limit skip)) exchange := by
      unfold Answers
      rw [dumps]
    rw [same, respond_dumped_answers_iff]
    constructor
    · intro dumped otherLimit otherSkip otherLimited otherSkipped
      rw [limited] at otherLimited
      rw [skipped] at otherSkipped
      cases otherLimited
      cases otherSkipped
      exact dumped
    · intro dumps
      exact dumps limit skip limited skipped
  · refine iff_of_true ?_ ?_
    · apply answers_of_responds .badRequest (errorJson (ascii "Invalid query parameters"))
      unfold controllers.getAllUsers
      dsimp only
      split
      · rename_i limit skip limited skipped
        exact absurd ⟨limit, skip, limited, skipped⟩ numbers
      · rfl
    · intro limit skip limited skipped
      exact absurd ⟨limit, skip, limited, skipped⟩ numbers

theorem respond_written_answers (written : Bool × Database) (message : Bytes) :
    Answers (respondWritten written message) exchange := by
  unfold Answers respondWritten
  dsimp only
  split_ifs
  · exact ⟨_, _, _, rfl, rfl, rfl⟩
  · exact ⟨_, _, _, rfl, rfl, rfl⟩

theorem erased_ok_iff (payload : Json) :
    (∃ updates, erased libraries payload = .ok updates) ↔ ∃ fields, payload = .object fields := by
  cases payload <;> simp [erased]

theorem update_user_answers_iff :
    Answers (controllers.updateUser libraries) exchange ↔ BodyIsObject libraries exchange := by
  cases decoded : payloadOf libraries exchange.request exchange.world with
  | none =>
      obtain ⟨message, refused⟩ := extract_json_refuses decoded
      refine iff_of_true (answers_of_responds .badRequest (errorJson message) ?_) ?_
      · simp only [controllers.updateUser, refused]
      · intro payload present
        rw [decoded] at present
        cases present
  | some payload =>
      have extracted := extract_json_payload decoded
      have condition : BodyIsObject libraries exchange ↔ ∃ fields, payload = .object fields := by
        unfold BodyIsObject
        rw [decoded]
        simp
      rw [condition, ← @erased_ok_iff libraries]
      cases edited : erased libraries payload with
      | error raised =>
          refine iff_of_false (raises_unanswered raised exchange ?_) nofun
          simp only [controllers.updateUser, extracted, edited]
      | ok updates =>
          refine iff_of_true ?_ ⟨updates, rfl⟩
          by_cases nothing : updates.empty = true
          · apply answers_of_responds .badRequest (errorJson (ascii "No valid fields to update"))
            simp only [controllers.updateUser, extracted, edited, nothing, if_true]
          · have writes := @respond_written_answers exchange
              (repositories.updateUser libraries exchange.world.database
                (exchange.request.param (ascii "id")) updates) (ascii "User updated")
            unfold Answers at writes ⊢
            simp only [controllers.updateUser, extracted, edited]
            rw [if_neg nothing]
            exact writes

def Authenticates (libraries : Libraries) (database : Database) (name password : Bytes) : Prop :=
  ∃ outcome, authenticate libraries database name password = .ok outcome ∧
    ∀ user, outcome = some user →
      ∃ token, libraries.generateToken user.id user.role = .ok token

theorem login_user_answers_iff_authenticates {name password : Bytes}
    (names : Names libraries exchange name password) :
    Answers (loginUser libraries) exchange ↔
      Authenticates libraries exchange.world.database name password := by
  have answered := login_answers names
  unfold Authenticates
  cases checked : authenticate libraries exchange.world.database name password with
  | error raised =>
      rw [checked] at answered
      exact iff_of_false (raises_unanswered raised exchange answered) nofun
  | ok outcome =>
      rw [checked] at answered
      simp only [Except.ok.injEq, exists_eq_left']
      cases outcome with
      | none => exact iff_of_true (answers_of_responds _ _ answered) nofun
      | some user =>
          simp only [Option.some.injEq, forall_eq']
          dsimp only at answered
          cases signed : libraries.generateToken user.id user.role with
          | error raised =>
              rw [signed] at answered
              exact iff_of_false (raises_unanswered raised exchange answered) nofun
          | ok token =>
              rw [signed] at answered
              exact iff_of_true (answers_of_responds _ _ answered) ⟨token, rfl⟩

theorem authenticates_iff (database : Database) (name password : Bytes) :
    Authenticates libraries database name password ↔
      ∀ user, findByUsername database name = some user → CanBeChecked libraries password user := by
  unfold Authenticates authenticate
  cases findByUsername database name with
  | none => simp
  | some user =>
      simp only [Option.some.injEq, forall_eq']
      by_cases blank : user.passwordHash = []
      · simp [blank, CanBeChecked]
      · have written : ¬user.passwordHash.isEmpty = true := by simpa using blank
        rw [if_neg written]
        unfold CanBeChecked utils.CryptoUtils.verifyPassword
        cases libraries.sodiumInit with
        | false => simp [blank, Except.map]
        | true =>
            cases libraries.pwhashStrVerify user.passwordHash password <;> simp [blank, Except.map]

theorem text_field_error {payload : Json} {key : Bytes}
    (unread : ¬∃ text, payload.field? key = some (.string text)) :
    ∃ raised, textField libraries payload key = .error raised := by
  cases read : textField libraries payload key with
  | error raised => exact ⟨raised, rfl⟩
  | ok text => exact absurd ⟨text, (text_field_ok_iff libraries payload key text).mp read⟩ unread

/-- A field that is there and is no string ends the login with an exception. -/
theorem login_user_raises {payload : Json}
    (extracted : extractJson libraries exchange = .ok payload)
    (named : payload.contains (ascii "name") = true)
    (secret : payload.contains (ascii "password") = true)
    (unread : ¬((∃ name, payload.field? (ascii "name") = some (.string name)) ∧
      ∃ password, payload.field? (ascii "password") = some (.string password))) :
    ∃ raised, loginUser libraries exchange = (.error raised, exchange) := by
  have given : ¬(!payload.contains (ascii "name") || !payload.contains (ascii "password")) =
      true := by
    simp [named, secret]
  unfold loginUser
  rw [extracted]
  dsimp only
  rw [if_neg given]
  cases nameText : textField libraries payload (ascii "name") with
  | error raised => exact ⟨raised, rfl⟩
  | ok name =>
      have nameField := (text_field_ok_iff libraries payload (ascii "name") name).mp nameText
      have noPassword : ¬∃ password,
          payload.field? (ascii "password") = some (.string password) :=
        fun password => unread ⟨⟨name, nameField⟩, password⟩
      obtain ⟨raised, passwordText⟩ := @text_field_error libraries payload _ noPassword
      rw [passwordText]
      exact ⟨raised, rfl⟩

theorem login_user_answers_iff :
    Answers (loginUser libraries) exchange ↔ CredentialsAreText libraries exchange := by
  cases decoded : payloadOf libraries exchange.request exchange.world with
  | none =>
      obtain ⟨message, refused⟩ := extract_json_refuses decoded
      refine iff_of_true (answers_of_responds .badRequest (errorJson message) ?_) ?_
      · simp only [loginUser, refused]
      · intro payload present
        rw [decoded] at present
        cases present
  | some payload =>
      have extracted := extract_json_payload decoded
      unfold CredentialsAreText
      rw [decoded]
      simp only [Option.some.injEq, forall_eq']
      by_cases present : payload.contains (ascii "name") = true ∧
          payload.contains (ascii "password") = true
      · obtain ⟨named, secret⟩ := present
        by_cases readable : (∃ name, payload.field? (ascii "name") = some (.string name)) ∧
            ∃ password, payload.field? (ascii "password") = some (.string password)
        · obtain ⟨⟨name, nameField⟩, password, passwordField⟩ := readable
          rw [login_user_answers_iff_authenticates ⟨payload, decoded, nameField, passwordField⟩,
            authenticates_iff]
          simp [named, secret, nameField, passwordField]
        · obtain ⟨raised, raises⟩ := login_user_raises extracted named secret readable
          refine iff_of_false (raises_unanswered raised exchange raises) ?_
          intro texts
          obtain ⟨name, password, nameField, passwordField, _⟩ := texts named secret
          exact readable ⟨⟨name, nameField⟩, password, passwordField⟩
      · refine iff_of_true (answers_of_responds .badRequest
          (errorJson (ascii "Missing 'name' or 'password'")) ?_) ?_
        · have absent : (!payload.contains (ascii "name") ||
              !payload.contains (ascii "password")) = true := by
            simpa [imp_iff_not_or] using present
          simp only [loginUser, extracted, absent, if_true]
        · intro named secret
          exact absurd ⟨named, secret⟩ present

end Handlers

/-- Creating a user is always answered; the other three are answered under a
condition on the body and the query map each. -/
theorem answers_iff (libraries : Libraries) (exchange : Exchange Backend) :
    Answers (controllers.createUser libraries) exchange ∧
      (Answers (controllers.getAllUsers libraries) exchange ↔ ListingDumps libraries exchange) ∧
      (Answers (controllers.updateUser libraries) exchange ↔ BodyIsObject libraries exchange) ∧
      (Answers (loginUser libraries) exchange ↔ CredentialsAreText libraries exchange) :=
  ⟨create_user_answers, get_all_users_answers_iff, update_user_answers_iff,
    login_user_answers_iff⟩

section Samples

/-- Both bodies are well-formed JSON. -/
def typedLibraries : Libraries :=
  { sampleLibraries with
    parseJson := fun text =>
      if text = ascii "\x7b\"name\":1,\"password\":\"x\"\x7d" then
        .ok (.object [(ascii "name", .number (ascii "1")), (ascii "password", .string (ascii "x"))])
      else if text = ascii "[1]" then .ok (.array [.number (ascii "1")])
      else sampleLibraries.parseJson text }

def loginOfNumber : Exchange Backend :=
  ⟨{ method := .post
     path := ascii "/api/login"
     body := ascii "\x7b\"name\":1,\"password\":\"x\"\x7d" }, {}, sampleBackend⟩

def updateByArray : Exchange Backend :=
  ⟨{ method := .put, path := ascii "/api/users/5", body := ascii "[1]" }, {}, sampleBackend⟩

/-- A name that is a number, and an update that is an array, leave by an exception. -/
theorem typed_bodies_unanswered :
    (∃ left, loginUser typedLibraries loginOfNumber =
      (.error ⟨ascii "type must be string"⟩, left)) ∧
      (∃ left, controllers.updateUser typedLibraries updateByArray =
        (.error ⟨ascii "cannot use erase()"⟩, left)) ∧
      ¬Answers (loginUser typedLibraries) loginOfNumber ∧
      ¬Answers (controllers.updateUser typedLibraries) updateByArray := by
  have login : loginUser typedLibraries loginOfNumber =
      (.error ⟨ascii "type must be string"⟩, loginOfNumber) := rfl
  have update : controllers.updateUser typedLibraries updateByArray =
      (.error ⟨ascii "cannot use erase()"⟩, updateByArray) := rfl
  exact ⟨⟨_, login⟩, ⟨_, update⟩, raises_unanswered _ _ login, raises_unanswered _ _ update⟩

end Samples

end HttpServer.ControllerAnswers
