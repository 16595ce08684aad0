import HttpServer.UserCollection

/-!
# Creating a user and logging in

`loginUser` looks a user up by name and takes the first document the database
finds; `createUser` does not ask whether the name is taken. Documents are only
appended by creations, so whoever was stored first under a name keeps it, and a
user created under a taken name is answered 201 and cannot log in.
-/

namespace HttpServer.UserLogin

open TransitionSystem UserGuard UserCollection controllers repositories

/-- What is relied on of libsodium and of the token library: a hash fits the
password it was made from and no other, and is no empty string; tokens can be
signed, and verify to the identifier they were signed for. -/
structure CredentialLaws (libraries : Libraries) : Prop where
  verifies : ∀ hash password, libraries.pwhashStrVerify hash password = true ↔
    ∃ salt, libraries.pwhashStr salt password = some hash
  nonempty : ∀ salt password hash, libraries.pwhashStr salt password = some hash → hash ≠ []
  signs : ∀ id role, ∃ token, libraries.generateToken id role = .ok token
  signed : ∀ id role token, libraries.generateToken id role = .ok token →
    libraries.verifyToken token = some id

def Names (libraries : Libraries) (exchange : Exchange Backend) (name password : Bytes) : Prop :=
  ∃ payload, payloadOf libraries exchange.request exchange.world = some payload ∧
    payload.field? (ascii "name") = some (.string name) ∧
    payload.field? (ascii "password") = some (.string password)

def loginText (token : Bytes) : Bytes :=
  ascii "\x7b\"status\": \"success\", \"token\": \"" ++ token ++ ascii "\"\x7d"

/-- The answer is 200 with a token for that user. -/
def LogsIn (libraries : Libraries) (users : Collection) (exchange : Exchange Backend) (id : Oid) :
    Prop :=
  (serve libraries users ⟨.login, exchange⟩).1 = .ok () ∧
    (serve libraries users ⟨.login, exchange⟩).2.response.status = .ok ∧
    ∃ token, (serve libraries users ⟨.login, exchange⟩).2.response.body = loginText token ∧
      libraries.verifyToken token = some id

section Requests

variable {libraries : Libraries} {exchange : Exchange Backend} {name password : Bytes}

theorem login_answers (names : Names libraries exchange name password) :
    loginUser libraries exchange =
      match authenticate libraries exchange.world.database name password with
      | .error raised => (.error raised, exchange)
      | .ok none =>
          (.ok (), respond .unauthorized
            (errorJson (ascii "Invalid username or password")) exchange)
      | .ok (some user) =>
          match libraries.generateToken user.id user.role with
          | .error raised => (.error raised, exchange)
          | .ok token => (.ok (), respond .ok (loginText token) exchange) := by
  obtain ⟨payload, decoded, named, secret⟩ := names
  have given : ¬(!payload.contains (ascii "name") || !payload.contains (ascii "password")) =
      true := by
    simp [Json.contains, named, secret]
  have nameText := (text_field_ok_iff libraries payload (ascii "name") name).mpr named
  have passwordText := (text_field_ok_iff libraries payload (ascii "password") password).mpr secret
  unfold loginUser
  rw [extract_json_payload decoded]
  dsimp only
  rw [if_neg given, nameText, passwordText]
  dsimp only [bind, Except.bind]
  cases authenticate libraries exchange.world.database name password with
  | error raised => rfl
  | ok found =>
      cases found with
      | none => rfl
      | some user =>
          cases signed : libraries.generateToken user.id user.role with
          | error raised => simp only [signed, Except.map]
          | ok token => simp only [signed, Except.map, loginText]

theorem hash_password_made {salt hash : Bytes}
    (made : utils.CryptoUtils.hashPassword libraries salt password = .ok hash) :
    libraries.sodiumInit = true ∧ libraries.pwhashStr salt password = some hash := by
  unfold utils.CryptoUtils.hashPassword at made
  split at made
  · cases made
  · rename_i initialised
    refine ⟨by simpa using initialised, ?_⟩
    split at made
    · cases made
    · rename_i drawn found
      cases made
      exact found

theorem new_user_hashes {payload : Json} {salt givenName hash role : Bytes}
    (nameText : textField libraries payload (ascii "name") = .ok name)
    (passwordText : textField libraries payload (ascii "password") = .ok password)
    (computed : newUser libraries salt payload = .ok (givenName, hash, role)) :
    libraries.sodiumInit = true ∧ libraries.pwhashStr salt password = some hash ∧
      givenName = name := by
  unfold newUser at computed
  rw [nameText, passwordText] at computed
  simp only [bind_ok_iff] at computed
  obtain ⟨_, sameName, _, samePassword, _, _, _, made, same⟩ := computed
  cases sameName
  cases samePassword
  cases same
  obtain ⟨initialised, hashed⟩ := hash_password_made made
  exact ⟨initialised, hashed, rfl⟩

theorem insert_one_appends {users after : Collection} {id : Oid} {document : Document}
    (inserted : insertOne users id document = some after) :
    id ∉ users.documents.map Prod.fst ∧ after.documents = users.documents ++ [(id, document)] := by
  unfold insertOne at inserted
  split at inserted
  · rename_i fresh
    cases inserted
    exact ⟨fresh, rfl⟩
  · cases inserted

theorem create_user_confirms {database : Database} {hash role : Bytes}
    (confirmed : (repositories.createUser database name hash role).1 = true) :
    database.newOid ∉ database.users.documents.map Prod.fst ∧
      (repositories.createUser database name hash role).2.users.documents =
        database.users.documents ++ [(database.newOid, userDocument name hash role)] := by
  unfold repositories.createUser at confirmed ⊢
  change (carryOut database ((insertOne database.users database.newOid
    (userDocument name hash role)).map _)).1 = true at confirmed
  change _ ∧ (carryOut database ((insertOne database.users database.newOid
    (userDocument name hash role)).map _)).2.users.documents = _
  cases inserted : insertOne database.users database.newOid (userDocument name hash role) with
  | none =>
      rw [inserted] at confirmed
      unfold carryOut at confirmed
      cases fault : database.fault with
      | none => simp [fault] at confirmed
      | some kind => cases kind <;> simp [fault] at confirmed
  | some users =>
      rw [inserted] at confirmed
      obtain ⟨fresh, documents⟩ := insert_one_appends inserted
      refine ⟨fresh, ?_⟩
      rw [← documents]
      unfold carryOut at confirmed ⊢
      cases fault : database.fault with
      | none => rfl
      | some kind => cases kind <;> simp [fault] at confirmed

theorem created_stores (names : Names libraries exchange name password)
    (answered : (controllers.createUser libraries exchange).2.response.status = .created) :
    ∃ hash role, libraries.sodiumInit = true ∧
      libraries.pwhashStr exchange.world.salt password = some hash ∧
      exchange.world.database.newOid ∉ exchange.world.database.users.documents.map Prod.fst ∧
      (controllers.createUser libraries exchange).2.world.database.users.documents =
        exchange.world.database.users.documents ++
          [(exchange.world.database.newOid, userDocument name hash role)] := by
  obtain ⟨payload, decoded, named, secret⟩ := names
  have nameText := (text_field_ok_iff libraries payload (ascii "name") name).mpr named
  have passwordText := (text_field_ok_iff libraries payload (ascii "password") password).mpr secret
  unfold controllers.createUser at answered ⊢
  rw [extract_json_payload decoded] at answered ⊢
  dsimp only at answered ⊢
  split at answered
  · cases answered
  · rename_i accepted
    rw [if_neg accepted]
    cases computed : newUser libraries exchange.world.salt payload with
    | error raised =>
        rw [computed] at answered
        cases answered
    | ok fields =>
        rw [computed] at answered
        obtain ⟨givenName, hash, role⟩ := fields
        dsimp only at answered ⊢
        obtain ⟨initialised, hashed, sameName⟩ := new_user_hashes nameText passwordText computed
        subst sameName
        split at answered
        · rename_i confirmed
          obtain ⟨fresh, stored⟩ := create_user_confirms confirmed
          rw [if_pos confirmed]
          exact ⟨hash, role, initialised, hashed, fresh, stored⟩
        · cases answered

end Requests

section Lookup

variable {libraries : Libraries} {users last : Collection}

theorem visit_appends (visit : Visit)
    (kind : visit.operation = .create ∨ visit.operation = .login) :
    users.documents <+: (usersAfter libraries users visit).documents := by
  obtain ⟨operation, exchange⟩ := visit
  rcases kind with rfl | rfl
  · rcases @create_served libraries (Visit.meeting ⟨.create, exchange⟩ users) with
      kept | ⟨name, hash, role, added⟩
    · have same : (usersAfter libraries users ⟨.create, exchange⟩).documents = users.documents :=
        congrArg Collection.documents kept
      rw [same]
    · exact ⟨_, added.symm⟩
  · have same : (usersAfter libraries users ⟨.login, exchange⟩).documents = users.documents :=
      congrArg (fun world : Backend => world.database.users.documents) login_keeps_world
    rw [same]

theorem visits_append {visits : List Visit}
    (kinds : ∀ visit ∈ visits, visit.operation = .create ∨ visit.operation = .login)
    (reached : run (step libraries) users visits = some last) :
    users.documents <+: last.documents := by
  induction visits generalizing users with
  | nil =>
      cases reached
      exact List.prefix_refl _
  | cons visit visits ih =>
      obtain ⟨following, stepped, rest⟩ := run_cons reached
      cases stepped
      have here := @visit_appends libraries users visit (kinds visit List.mem_cons_self)
      exact here.trans (ih (fun other member => kinds other (List.mem_cons_of_mem _ member)) rest)

/-- Among documents that begin with the older ones, a new one is found under its
name exactly when no older one has it. -/
theorem finds_new {older more : List (Oid × Document)} {entry : Oid × Document} {name : Bytes}
    (named : namedBy name entry.2 = true) (unnamed : ∀ other ∈ older, namedBy name other.2 = false) :
    (older ++ entry :: more).find? (fun other => namedBy name other.2) = some entry := by
  have none : older.find? (fun other => namedBy name other.2) = none := by
    rw [List.find?_eq_none]
    intro other member
    rw [unnamed other member]
    decide
  rw [List.find?_append, none, Option.none_or, List.find?_cons, named]

theorem finds_older {older more : List (Oid × Document)} {name : Bytes}
    (taken : ∃ other ∈ older, namedBy name other.2 = true) :
    ∃ first ∈ older,
      (older ++ more).find? (fun other => namedBy name other.2) = some first := by
  obtain ⟨other, member, named⟩ := taken
  have present : (older.find? fun other => namedBy name other.2).isSome = true := by
    rw [List.find?_isSome]
    exact ⟨other, member, named⟩
  obtain ⟨first, found⟩ := Option.isSome_iff_exists.mp present
  refine ⟨first, List.mem_of_find?_eq_some found, ?_⟩
  rw [List.find?_append, found, Option.some_or]

end Lookup

section Answers

variable {libraries : Libraries} {last : Collection} {login : Exchange Backend}
  {name password : Bytes}

theorem find_by_username_first (up : login.world.database.fault = none)
    {entry : Oid × Document}
    (found : last.documents.find? (fun other => namedBy name other.2) = some entry) :
    findByUsername (Visit.meeting ⟨.login, login⟩ last).world.database name = readUser entry := by
  have reachable : (Visit.meeting ⟨.login, login⟩ last).world.database.fault.isSome = false := by
    change login.world.database.fault.isSome = false
    rw [up]
    rfl
  have documents : (Visit.meeting ⟨.login, login⟩ last).world.database.users.documents =
      last.documents := rfl
  unfold findByUsername
  rw [reachable, if_neg Bool.false_ne_true, documents, found]
  rfl

theorem logs_in_of_found (laws : CredentialLaws libraries)
    (initialised : libraries.sodiumInit = true) (up : login.world.database.fault = none)
    (names : Names libraries login name password) {id : Oid} {salt hash role : Bytes}
    (hashed : libraries.pwhashStr salt password = some hash)
    (found : last.documents.find? (fun other => namedBy name other.2) =
      some (id, userDocument name hash role)) : LogsIn libraries last login id := by
  obtain ⟨token, signed⟩ := laws.signs id role
  have user : findByUsername (Visit.meeting ⟨.login, login⟩ last).world.database name =
      some { id, name, passwordHash := hash, role } := by
    rw [find_by_username_first up found]
    rfl
  have written : ¬hash.isEmpty = true := by
    simpa using laws.nonempty salt password hash hashed
  have fits : libraries.pwhashStrVerify hash password = true :=
    (laws.verifies hash password).mpr ⟨salt, hashed⟩
  have checked : authenticate libraries (Visit.meeting ⟨.login, login⟩ last).world.database name
      password = .ok (some { id, name, passwordHash := hash, role }) := by
    unfold authenticate utils.CryptoUtils.verifyPassword
    rw [user]
    dsimp only
    rw [if_neg written, initialised, fits]
    rfl
  have namesMet : Names libraries (Visit.meeting ⟨.login, login⟩ last) name password := names
  have answered : serve libraries last ⟨.login, login⟩ =
      (.ok (), respond .ok (loginText token) (Visit.meeting ⟨.login, login⟩ last)) := by
    refine (login_answers namesMet).trans ?_
    rw [checked]
    dsimp only
    rw [signed]
  unfold LogsIn
  rw [answered]
  exact ⟨rfl, rfl, token, rfl, laws.signed id role token signed⟩

theorem authenticate_finds {database : Database} {user : User}
    (checked : authenticate libraries database name password = .ok (some user)) :
    findByUsername database name = some user := by
  unfold authenticate at checked
  split at checked
  · cases checked
  · rename_i found present
    split at checked
    · cases checked
    · cases verified : utils.CryptoUtils.verifyPassword libraries password found.passwordHash with
      | error raised =>
          rw [verified] at checked
          cases checked
      | ok fits =>
          rw [verified] at checked
          cases fits with
          | true =>
              cases checked
              exact present
          | false => cases checked

theorem read_user_id {entry : Oid × Document} {user : User} (read : readUser entry = some user) :
    user.id = entry.1 := by
  unfold readUser at read
  split at read
  · cases read
    rfl
  · cases read

theorem login_text_injective : Function.Injective loginText := by
  intro first second same
  exact List.append_cancel_left (List.append_cancel_right same)

theorem logs_in_found (laws : CredentialLaws libraries) (up : login.world.database.fault = none)
    (names : Names libraries login name password) {id : Oid} {entry : Oid × Document}
    (found : last.documents.find? (fun other => namedBy name other.2) = some entry)
    (logs : LogsIn libraries last login id) : id = entry.1 := by
  have namesMet : Names libraries (Visit.meeting ⟨.login, login⟩ last) name password := names
  have answered : serve libraries last ⟨.login, login⟩ = _ := login_answers namesMet
  obtain ⟨returned, status, token, body, verified⟩ := logs
  rw [answered] at returned status body
  cases checked : authenticate libraries (Visit.meeting ⟨.login, login⟩ last).world.database name
      password with
  | error raised =>
      rw [checked] at returned
      cases returned
  | ok outcome =>
      rw [checked] at returned status body
      cases outcome with
      | none => cases status
      | some user =>
          dsimp only at returned status body
          cases signed : libraries.generateToken user.id user.role with
          | error raised =>
              rw [signed] at returned
              cases returned
          | ok issued =>
              rw [signed] at body
              have same : issued = token := login_text_injective body
              have read : readUser entry = some user :=
                (find_by_username_first up found).symm.trans (authenticate_finds checked)
              have holder := laws.signed user.id user.role issued signed
              rw [same, verified] at holder
              exact (Option.some.inj holder).trans (read_user_id read)

end Answers

/-- A user whose creation was answered 201 can log in, whatever creations and
logins follow, exactly when the name was not taken. -/
theorem created_user_logs_in_iff (libraries : Libraries) (laws : CredentialLaws libraries)
    (users : Collection) (creation : Exchange Backend) (name password : Bytes)
    (asked : Names libraries creation name password)
    (answered : (serve libraries users ⟨.create, creation⟩).2.response.status = .created)
    (visits : List Visit)
    (kinds : ∀ visit ∈ visits, visit.operation = .create ∨ visit.operation = .login)
    (last : Collection)
    (reached : run (step libraries) (usersAfter libraries users ⟨.create, creation⟩) visits =
      some last)
    (login : Exchange Backend) (names : Names libraries login name password)
    (up : login.world.database.fault = none) :
    LogsIn libraries last login creation.world.database.newOid ↔
      ∀ entry ∈ users.documents, namedBy name entry.2 = false := by
  have askedMet : Names libraries (Visit.meeting ⟨.create, creation⟩ users) name password := asked
  obtain ⟨hash, role, initialised, hashed, fresh, stored⟩ := created_stores askedMet answered
  obtain ⟨more, appended⟩ := visits_append kinds reached
  have documents : last.documents = users.documents ++ (creation.world.database.newOid,
      userDocument name hash role) :: more := by
    rw [← appended, show (usersAfter libraries users ⟨.create, creation⟩).documents = _ from stored]
    exact List.append_assoc _ _ _
  constructor
  · intro logs
    by_contra taken
    have older : ∃ entry ∈ users.documents, namedBy name entry.2 = true := by
      simpa using taken
    obtain ⟨first, member, found⟩ := finds_older older
    rw [← documents] at found
    have same := logs_in_found laws up names found logs
    exact fresh (List.mem_map.mpr ⟨first, member, same.symm⟩)
  · intro untaken
    have named : namedBy name (userDocument name hash role) = true := by
      simp [namedBy, userDocument, equalsText]
    have found := @finds_new users.documents more
      (creation.world.database.newOid, userDocument name hash role) name named untaken
    rw [← documents] at found
    exact logs_in_of_found laws initialised up names hashed found

section Samples

def credentials (name password : Bytes) : Json :=
  .object [(ascii "name", .string name), (ascii "password", .string password)]

/-- A hash shows its password, then the salt; a token shows its user. -/
def loginLibraries : Libraries :=
  { sampleLibraries with
    parseJson := fun text =>
      if text = ascii "\x7b\"name\":\"Eve\",\"password\":\"other\"\x7d" then
        .ok (credentials (ascii "Eve") (ascii "other"))
      else sampleLibraries.parseJson text
    pwhashStr := fun salt password => some (36 :: password ++ 36 :: salt)
    pwhashStrVerify := fun hash password => (36 :: password ++ [36]).isPrefixOf hash
    generateToken := fun id _ => .ok (ascii "jwt." ++ id)
    verifyToken := fun token =>
      if (ascii "jwt.").isPrefixOf token then some (token.drop 4) else none }

theorem login_libraries_laws : CredentialLaws loginLibraries where
  verifies hash password := by
    change (36 :: password ++ [36]).isPrefixOf hash = true ↔
      ∃ salt, some (36 :: password ++ 36 :: salt) = some hash
    rw [List.isPrefixOf_iff_prefix]
    constructor
    · rintro ⟨salt, rfl⟩
      exact ⟨salt, by simp⟩
    · rintro ⟨salt, same⟩
      cases same
      exact ⟨salt, by simp⟩
  nonempty salt password hash made := by
    cases made
    exact List.cons_ne_nil _ _
  signs id role := ⟨_, rfl⟩
  signed id role token signed := by
    cases signed
    rfl

def eveExchange (body id : Bytes) : Exchange Backend :=
  ⟨{ method := .post, body := body }, {},
    { sampleBackend with database := { sampleBackend.database with newOid := id } }⟩

def firstEve : Exchange Backend :=
  eveExchange (ascii "\x7b\"name\":\"Eve\",\"password\":\"pw\"\x7d")
    (ascii "0123456789abcdef01234567")

def secondEve : Exchange Backend :=
  eveExchange (ascii "\x7b\"name\":\"Eve\",\"password\":\"other\"\x7d")
    (ascii "0123456789abcdef01234568")

theorem first_eve_names : Names loginLibraries firstEve (ascii "Eve") (ascii "pw") :=
  ⟨credentials (ascii "Eve") (ascii "pw"), rfl, rfl, rfl⟩

theorem second_eve_names : Names loginLibraries secondEve (ascii "Eve") (ascii "other") :=
  ⟨credentials (ascii "Eve") (ascii "other"), rfl, rfl, rfl⟩

theorem created_user_logs_in_iff_first :
    CredentialLaws loginLibraries ∧
      (serve loginLibraries ⟨[], List.nodup_nil⟩ ⟨.create, firstEve⟩).2.response.status =
        .created ∧
      ∃ last, run (step loginLibraries)
          (usersAfter loginLibraries ⟨[], List.nodup_nil⟩ ⟨.create, firstEve⟩)
          [⟨.create, secondEve⟩, ⟨.login, secondEve⟩] = some last ∧
        LogsIn loginLibraries last firstEve (ascii "0123456789abcdef01234567") := by
  have answered : (serve loginLibraries ⟨[], List.nodup_nil⟩
      ⟨.create, firstEve⟩).2.response.status = .created := by
    decide +kernel
  refine ⟨login_libraries_laws, answered, _, rfl, ?_⟩
  exact (created_user_logs_in_iff loginLibraries login_libraries_laws ⟨[], List.nodup_nil⟩ firstEve
    (ascii "Eve") (ascii "pw") first_eve_names answered [⟨.create, secondEve⟩, ⟨.login, secondEve⟩]
    (by simp) _ rfl firstEve first_eve_names rfl).mpr nofun

/-- The second user of a name is answered 201 and then refused. -/
theorem second_of_name_refused :
    CredentialLaws loginLibraries ∧
      Names loginLibraries secondEve (ascii "Eve") (ascii "other") ∧
      (serve loginLibraries (usersAfter loginLibraries ⟨[], List.nodup_nil⟩ ⟨.create, firstEve⟩)
        ⟨.create, secondEve⟩).2.response.status = .created ∧
      (serve loginLibraries (usersAfter loginLibraries (usersAfter loginLibraries
        ⟨[], List.nodup_nil⟩ ⟨.create, firstEve⟩) ⟨.create, secondEve⟩)
        ⟨.login, secondEve⟩).2.response.status = .unauthorized ∧
      ¬LogsIn loginLibraries (usersAfter loginLibraries (usersAfter loginLibraries
        ⟨[], List.nodup_nil⟩ ⟨.create, firstEve⟩) ⟨.create, secondEve⟩) secondEve
        (ascii "0123456789abcdef01234568") := by
  have refused : (serve loginLibraries (usersAfter loginLibraries (usersAfter loginLibraries
      ⟨[], List.nodup_nil⟩ ⟨.create, firstEve⟩) ⟨.create, secondEve⟩)
      ⟨.login, secondEve⟩).2.response.status = .unauthorized := by
    decide +kernel
  refine ⟨login_libraries_laws, second_eve_names, by decide +kernel, refused, ?_⟩
  rintro ⟨_, status, _⟩
  rw [refused] at status
  cases status

end Samples

end HttpServer.UserLogin
