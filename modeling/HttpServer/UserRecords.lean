import HttpServer.UserLogin

/-!
# The collection is what was acknowledged

Nobody who asks the API sees the collection, only answers. As long as no reply of the
database is lost, the answers are enough: what is stored under an identifier is what the
confirmed requests for it say, in their order, and a later `GET` shows it.
-/

namespace HttpServer.UserRecords

open ListSearch TransitionSystem UserGuard UserCollection UserLogin controllers repositories middlewares

structure Served where
  visit : Visit
  answer : Except StdException Unit × Exchange Backend

/-- The handler has returned and the response carries the status. -/
def Confirms (answer : Except StdException Unit × Exchange Backend) (status : HttpStatus) : Prop :=
  answer.1.isOk = true ∧ answer.2.response.status = status

instance (answer : Except StdException Unit × Exchange Backend) (status : HttpStatus) :
    Decidable (Confirms answer status) :=
  inferInstanceAs (Decidable (_ ∧ _))

def requestedDocument (libraries : Libraries) (exchange : Exchange Backend) : Option Document :=
  (payloadOf libraries exchange.request exchange.world).bind fun payload =>
    (newUser libraries exchange.world.salt payload).toOption.map fun user =>
      userDocument user.1 user.2.1 user.2.2

def requestedChange (libraries : Libraries) (exchange : Exchange Backend) (document : Document) :
    Option Document :=
  (payloadOf libraries exchange.request exchange.world).bind fun payload =>
    (erased libraries payload).toOption.bind fun updates => libraries.setFields updates document

def Visit.addresses (visit : Visit) (id : Oid) : Prop :=
  oidOf (visit.exchange.request.param (ascii "id")) = some id

instance (visit : Visit) (id : Oid) : Decidable (Visit.addresses visit id) :=
  inferInstanceAs (Decidable (_ = _))

/-- What an answer says about the record of an identifier. -/
def recordAfter (libraries : Libraries) (id : Oid) (record : Option Document) (served : Served) :
    Option Document :=
  match served.visit.operation with
  | .create =>
      if Confirms served.answer .created ∧ served.visit.exchange.world.database.newOid = id then
        requestedDocument libraries served.visit.exchange
      else record
  | .update =>
      if Confirms served.answer .ok ∧ Visit.addresses served.visit id then
        record.bind (requestedChange libraries served.visit.exchange)
      else record
  | .delete =>
      if Confirms served.answer .ok ∧ Visit.addresses served.visit id then none else record
  | .login | .list | .get => record

def answers (libraries : Libraries) (visits : List Visit) : List Served :=
  history (step libraries) (fun users visit => [⟨visit, serve libraries users visit⟩])
    ⟨[], List.nodup_nil⟩ visits

def acknowledged (libraries : Libraries) (id : Oid) (served : List Served) : Option Document :=
  served.foldl (recordAfter libraries id) none

/-- The database may refuse a command, but tells of every command it has carried out. -/
def repliesArrive (_ : Collection) (visit : Visit) : Prop :=
  visit.exchange.world.database.fault ≠ some .replyLost

section Lookups

variable {documents : List (Oid × Document)} {id other : Oid}

theorem lookup_absent (fresh : id ∉ documents.map Prod.fst) : documents.lookup id = none := by
  rw [List.lookup_eq_none_iff]
  intro entry member
  rw [bne_iff_ne]
  rintro rfl
  exact fresh (List.mem_map_of_mem member)

theorem lookup_created (fresh : other ∉ documents.map Prod.fst) (document : Document) :
    (documents ++ [(other, document)]).lookup id =
      if other = id then some document else documents.lookup id := by
  rw [List.lookup_append, List.lookup_cons]
  by_cases same : other = id
  · rw [if_pos same, lookup_absent (same ▸ fresh), same]
    simp
  · have different : (id == other) = false := by simpa using Ne.symm same
    rw [if_neg same, different]
    simp

theorem lookup_updated (users : Collection) (changed : Document) :
    (updateOne users other fun _ => changed).documents.lookup id =
      (users.documents.lookup id).map fun document =>
        if other = id then changed else document := by
  obtain ⟨documents, distinct⟩ := users
  simp only [updateOne]
  clear distinct
  induction documents with
  | nil => rfl
  | cons entry documents ih =>
      obtain ⟨name, document⟩ := entry
      have keeps : (if name = other then (name, changed) else (name, document)) =
          (name, if name = other then changed else document) := by
        split <;> rfl
      rw [List.map_cons, keeps, List.lookup_cons, List.lookup_cons]
      by_cases here : id = name
      · subst here
        simp [eq_comm]
      · have different : (id == name) = false := by simpa using here
        rw [different]
        exact ih

theorem lookup_deleted (users : Collection) :
    (deleteOne users other).documents.lookup id =
      if other = id then none else users.documents.lookup id := by
  simp only [deleteOne]
  split
  · rename_i same
    apply lookup_filter_none
    simp [same]
  · rename_i different
    apply lookup_filter
    simp [Ne.symm different]

theorem find_by_id_lookup (documents : List (Oid × Document)) (id : Oid) :
    (documents.find? fun entry => entry.1 = id).bind readUser =
      (documents.lookup id).bind fun document => readUser (id, document) := by
  induction documents with
  | nil => rfl
  | cons entry documents ih =>
      obtain ⟨name, document⟩ := entry
      rw [List.find?_cons, List.lookup_cons]
      by_cases same : name = id
      · simp [same]
      · have different : (id == name) = false := by simpa using Ne.symm same
        simpa [same, different] using ih

end Lookups

section Answers

variable {libraries : Libraries} {exchange : Exchange Backend} {database : Database}

theorem extract_json_status {refused : Exchange Backend}
    (unreadable : extractJson libraries exchange = .error refused) :
    refused.response.status = .badRequest := by
  unfold extractJson at unreadable
  repeat' split at unreadable
  all_goals cases unreadable
  all_goals rfl

theorem carry_out_told (arrives : database.fault ≠ some .replyLost)
    (write : Option (Bool × Collection)) :
    (carryOut database write).1 = true ∧
        (∃ users, write = some (true, users) ∧ (carryOut database write).2.users = users) ∨
      (carryOut database write).1 = false ∧
        ((carryOut database write).2.users = database.users ∨
          ∃ users, write = some (false, users) ∧ (carryOut database write).2.users = users) := by
  unfold carryOut
  cases lost : database.fault with
  | none =>
      cases write with
      | none => exact Or.inr ⟨rfl, Or.inl rfl⟩
      | some written =>
          obtain ⟨reply, users⟩ := written
          cases reply with
          | true => exact Or.inl ⟨rfl, users, rfl, rfl⟩
          | false => exact Or.inr ⟨rfl, Or.inr ⟨users, rfl, rfl⟩⟩
  | some fault =>
      cases fault with
      | refused => exact Or.inr ⟨rfl, Or.inl rfl⟩
      | replyLost => exact absurd lost arrives

theorem respond_differs {status other : HttpStatus} (different : status ≠ other) (text : Bytes)
    (exchange : Exchange Backend) : ¬Confirms (.ok (), respond status text exchange) other := by
  rintro ⟨_, same⟩
  exact different same

theorem raised_differs (raised : StdException) (exchange : Exchange Backend)
    (status : HttpStatus) : ¬Confirms (.error raised, exchange) status := by
  rintro ⟨returned, _⟩
  cases returned

theorem create_outcome (libraries : Libraries)
    (arrives : exchange.world.database.fault ≠ some .replyLost) :
    (Confirms (controllers.createUser libraries exchange) .created ∧
        ∃ document, requestedDocument libraries exchange = some document ∧
          exchange.world.database.newOid ∉ exchange.world.database.users.documents.map Prod.fst ∧
          (controllers.createUser libraries exchange).2.world.database.users.documents =
            exchange.world.database.users.documents ++
              [(exchange.world.database.newOid, document)]) ∨
      (¬Confirms (controllers.createUser libraries exchange) .created ∧
        (controllers.createUser libraries exchange).2.world.database.users =
          exchange.world.database.users) := by
  unfold controllers.createUser
  split
  · rename_i refused unreadable
    refine Or.inr ⟨?_, by rw [extract_json_refused unreadable]⟩
    rintro ⟨_, status⟩
    rw [extract_json_status unreadable] at status
    cases status
  · rename_i payload extracted
    split
    · exact Or.inr ⟨respond_differs (by decide) _ _, rfl⟩
    · split
      · exact Or.inr ⟨respond_differs (by decide) _ _, rfl⟩
      · rename_i name hash role computed
        have requested : requestedDocument libraries exchange =
            some (userDocument name hash role) := by
          rw [requestedDocument, payload_of_extracted extracted, Option.bind_some, computed]
          rfl
        have told := carry_out_told arrives
          ((insertOne exchange.world.database.users exchange.world.database.newOid
            (userDocument name hash role)).map fun users => (true, users))
        change (repositories.createUser exchange.world.database name hash role).1 = true ∧ _ ∨
          (repositories.createUser exchange.world.database name hash role).1 = false ∧ _ at told
        dsimp only
        rcases told with ⟨confirmed, users, written, after⟩ | ⟨unconfirmed, after⟩
        · obtain ⟨stored, inserted, same⟩ := Option.map_eq_some_iff.mp written
          cases same
          obtain ⟨fresh, documents⟩ := insert_one_appends inserted
          rw [if_pos confirmed]
          exact Or.inl ⟨⟨rfl, rfl⟩, _, requested, fresh, (congrArg Collection.documents after).trans
            documents⟩
        · rw [if_neg (by rw [unconfirmed]; decide)]
          refine Or.inr ⟨respond_differs (by decide) _ _, ?_⟩
          rcases after with kept | ⟨users, written, _⟩
          · exact kept
          · obtain ⟨stored, _, same⟩ := Option.map_eq_some_iff.mp written
            cases same

theorem written_outcome (written : Bool × Database) (message : Bytes)
    (exchange : Exchange Backend) :
    (Confirms (respondWritten written message exchange) .ok ↔ written.1 = true) ∧
      (respondWritten written message exchange).2.world.database.users = written.2.users := by
  refine ⟨?_, respond_written_users written message exchange⟩
  unfold respondWritten
  dsimp only
  split
  · rename_i confirmed
    exact iff_of_true ⟨rfl, rfl⟩ confirmed
  · rename_i unconfirmed
    exact iff_of_false (respond_differs (by decide) _ _) unconfirmed

theorem refused_outcome (handler : Handler Backend)
    (rejected : ¬CarriesAcceptedToken libraries exchange.request) :
    ¬Confirms (ifAuthenticated libraries handler exchange) .ok ∧
      (ifAuthenticated libraries handler exchange).2.world.database.users =
        exchange.world.database.users := by
  refine ⟨?_, if_authenticated_refuses handler rejected⟩
  unfold ifAuthenticated requireAuth
  dsimp only
  by_cases missing : ((exchange.request.header (ascii "Authorization")).isEmpty ||
      (exchange.request.header (ascii "Authorization")).take 7 ≠ ascii "Bearer ") = true
  · rw [if_pos missing]
    exact respond_differs (by decide) _ _
  · rw [if_neg missing]
    cases verified : libraries.verifyToken
        ((exchange.request.header (ascii "Authorization")).drop 7) with
    | none => exact respond_differs (by decide) _ _
    | some user =>
        refine absurd ⟨_, ?_, Option.isSome_iff_exists.mpr ⟨user, verified⟩⟩ rejected
        simp only [Bool.or_eq_true, decide_eq_true_eq, not_or, not_not] at missing
        rw [← missing.2, List.take_append_drop]

theorem update_outcome (libraries : Libraries)
    (arrives : exchange.world.database.fault ≠ some .replyLost) :
    (Confirms (ifAuthenticated libraries (controllers.updateUser libraries) exchange) .ok ∧
        ∃ id document changed, oidOf (exchange.request.param (ascii "id")) = some id ∧
          exchange.world.database.users.documents.lookup id = some document ∧
          requestedChange libraries exchange document = some changed ∧
          (ifAuthenticated libraries (controllers.updateUser libraries)
            exchange).2.world.database.users =
              updateOne exchange.world.database.users id fun _ => changed) ∨
      (¬Confirms (ifAuthenticated libraries (controllers.updateUser libraries) exchange) .ok ∧
        (ifAuthenticated libraries (controllers.updateUser libraries)
          exchange).2.world.database.users = exchange.world.database.users) := by
  by_cases accepted : CarriesAcceptedToken libraries exchange.request
  swap
  · exact Or.inr (refused_outcome _ accepted)
  rw [if_authenticated_admits _ accepted]
  unfold controllers.updateUser
  split
  · rename_i refused unreadable
    refine Or.inr ⟨?_, by rw [extract_json_refused unreadable]⟩
    rintro ⟨_, status⟩
    rw [extract_json_status unreadable] at status
    cases status
  · rename_i payload extracted
    split
    · exact Or.inr ⟨raised_differs _ _ _, rfl⟩
    · rename_i updates without
      split
      · exact Or.inr ⟨respond_differs (by decide) _ _, rfl⟩
      · obtain ⟨told, users⟩ := written_outcome (repositories.updateUser libraries
          exchange.world.database (exchange.request.param (ascii "id")) updates)
          (ascii "User updated") exchange
        rw [told, users]
        have requested : ∀ document, requestedChange libraries exchange document =
            libraries.setFields updates document := by
          intro document
          rw [requestedChange, payload_of_extracted extracted, Option.bind_some, without]
          rfl
        unfold repositories.updateUser
        split
        · exact Or.inr ⟨Bool.false_ne_true, rfl⟩
        · rename_i id oid
          split
          · rcases carry_out_told arrives (some (false, exchange.world.database.users)) with
              ⟨_, users, written, _⟩ | ⟨unconfirmed, kept | ⟨users, written, kept⟩⟩
            · cases written
            · exact Or.inr ⟨by rw [unconfirmed]; decide, kept⟩
            · cases written
              exact Or.inr ⟨by rw [unconfirmed]; decide, kept⟩
          · rename_i document stored
            rcases carry_out_told arrives ((libraries.setFields updates document).map fun changed =>
                (true, updateOne exchange.world.database.users id fun _ => changed)) with
              ⟨confirmed, users, written, after⟩ | ⟨unconfirmed, kept | ⟨users, written, _⟩⟩
            · obtain ⟨changed, set, same⟩ := Option.map_eq_some_iff.mp written
              cases same
              exact Or.inl ⟨confirmed, id, document, changed, oid, stored,
                (requested document).trans set, after⟩
            · exact Or.inr ⟨by rw [unconfirmed]; decide, kept⟩
            · obtain ⟨changed, _, same⟩ := Option.map_eq_some_iff.mp written
              cases same

theorem delete_outcome (libraries : Libraries)
    (arrives : exchange.world.database.fault ≠ some .replyLost) :
    (Confirms (ifAuthenticated libraries controllers.deleteUser exchange) .ok ∧
        ∃ id, oidOf (exchange.request.param (ascii "id")) = some id ∧
          (ifAuthenticated libraries controllers.deleteUser exchange).2.world.database.users =
            deleteOne exchange.world.database.users id) ∨
      (¬Confirms (ifAuthenticated libraries controllers.deleteUser exchange) .ok ∧
        ∀ id,
          (ifAuthenticated libraries controllers.deleteUser
            exchange).2.world.database.users.documents.lookup id =
              exchange.world.database.users.documents.lookup id) := by
  by_cases accepted : CarriesAcceptedToken libraries exchange.request
  swap
  · obtain ⟨unconfirmed, kept⟩ := refused_outcome controllers.deleteUser accepted
    exact Or.inr ⟨unconfirmed, fun id => by rw [kept]⟩
  rw [if_authenticated_admits _ accepted]
  unfold controllers.deleteUser
  obtain ⟨told, users⟩ := written_outcome (repositories.deleteUser
    exchange.world.database (exchange.request.param (ascii "id"))) (ascii "User deleted") exchange
  rw [told, users]
  unfold repositories.deleteUser
  split
  · exact Or.inr ⟨Bool.false_ne_true, fun _ => rfl⟩
  · rename_i id oid
    rcases carry_out_told arrives
        (some ((exchange.world.database.users.documents.lookup id).isSome,
          deleteOne exchange.world.database.users id)) with
      ⟨confirmed, users, written, after⟩ | ⟨unconfirmed, kept | ⟨users, written, after⟩⟩
    · rw [Option.some.injEq, Prod.mk.injEq] at written
      rw [← written.2] at after
      exact Or.inl ⟨confirmed, id, oid, after⟩
    · exact Or.inr ⟨by rw [unconfirmed]; decide, fun other => by rw [kept]⟩
    · rw [Option.some.injEq, Prod.mk.injEq] at written
      refine Or.inr ⟨by rw [unconfirmed]; decide, ?_⟩
      intro other
      rw [after, ← written.2, lookup_deleted]
      split
      · rename_i same
        rw [← same]
        exact (Option.isNone_iff_eq_none.mp (Option.isSome_eq_false_iff.mp written.1)).symm
      · rfl

end Answers

section Runs

variable {libraries : Libraries} {users : Collection}

theorem reading_keeps (libraries : Libraries) (handler : Handler Backend)
    (keeps : ∀ exchange, (handler exchange).2.world = exchange.world)
    (exchange : Exchange Backend) :
    (ifAuthenticated libraries handler exchange).2.world.database.users =
      exchange.world.database.users := by
  rcases @if_authenticated_users libraries exchange handler with ⟨_, admitted⟩ | kept
  · rw [admitted, keeps]
  · exact kept

/-- What is stored under an identifier after a request is what its answer says. -/
theorem visit_recorded (visit : Visit)
    (arrives : visit.exchange.world.database.fault ≠ some .replyLost) (id : Oid) :
    (usersAfter libraries users visit).documents.lookup id =
      recordAfter libraries id (users.documents.lookup id)
        ⟨visit, serve libraries users visit⟩ := by
  obtain ⟨operation, exchange⟩ := visit
  have met : (Visit.meeting ⟨operation, exchange⟩ users).world.database.fault ≠
      some .replyLost := arrives
  cases operation with
  | login =>
      have kept : (loginUser libraries (Visit.meeting ⟨.login, exchange⟩ users)).2.world =
          (Visit.meeting ⟨.login, exchange⟩ users).world := login_keeps_world
      exact congrArg (fun world => world.database.users.documents.lookup id) kept
  | list =>
      have kept := reading_keeps libraries (controllers.getAllUsers libraries)
        (fun _ => get_all_users_keeps) (Visit.meeting ⟨.list, exchange⟩ users)
      exact congrArg (fun after => after.documents.lookup id) kept
  | get =>
      have kept := reading_keeps libraries (getUserById libraries)
        (fun _ => get_user_by_id_keeps) (Visit.meeting ⟨.get, exchange⟩ users)
      exact congrArg (fun after => after.documents.lookup id) kept
  | create =>
      rcases create_outcome libraries met with
        ⟨confirmed, document, requested, fresh, after⟩ | ⟨unconfirmed, kept⟩
      · have stored := congrArg (List.lookup id) after
        rw [lookup_created fresh] at stored
        refine stored.trans ?_
        by_cases same : exchange.world.database.newOid = id
        · exact (if_pos same).trans (requested.symm.trans (if_pos ⟨confirmed, same⟩).symm)
        · exact (if_neg same).trans (if_neg (fun both => same both.2)).symm
      · refine (congrArg (fun after => after.documents.lookup id) kept).trans ?_
        exact (if_neg (fun both => unconfirmed both.1)).symm
  | update =>
      rcases update_outcome libraries met with
        ⟨confirmed, other, document, changed, oid, stored, requested, after⟩ | ⟨unconfirmed, kept⟩
      · refine (congrArg (fun after => after.documents.lookup id) after).trans ?_
        refine (lookup_updated _ changed).trans ?_
        by_cases same : other = id
        · subst same
          have here : users.documents.lookup other = some document := stored
          refine Eq.trans ?_ (if_pos ⟨confirmed, oid⟩).symm
          rw [here, Option.bind_some]
          refine Eq.trans ?_ requested.symm
          rw [stored, Option.map_some, if_pos rfl]
        · simp only [if_neg same, Option.map_id']
          refine (if_neg ?_).symm
          rintro ⟨_, addressed⟩
          exact same (Option.some.inj (oid.symm.trans addressed))
      · refine (congrArg (fun after => after.documents.lookup id) kept).trans ?_
        exact (if_neg (fun both => unconfirmed both.1)).symm
  | delete =>
      rcases delete_outcome libraries met with
        ⟨confirmed, other, oid, after⟩ | ⟨unconfirmed, kept⟩
      · refine (congrArg (fun after => after.documents.lookup id) after).trans ?_
        refine (lookup_deleted _).trans ?_
        by_cases same : other = id
        · subst same
          exact (if_pos rfl).trans (if_pos ⟨confirmed, oid⟩).symm
        · refine (if_neg same).trans (if_neg ?_).symm
          rintro ⟨_, addressed⟩
          exact same (Option.some.inj (oid.symm.trans addressed))
      · exact (kept id).trans (if_neg (fun both => unconfirmed both.1)).symm

def Recorded (libraries : Libraries) (past : List Served) (users : Collection) : Prop :=
  ∀ id, users.documents.lookup id = acknowledged libraries id past

theorem run_recorded {visits : List Visit}
    (arrive : Respects (step libraries) repliesArrive ⟨[], List.nodup_nil⟩ visits)
    (reached : run (step libraries) ⟨[], List.nodup_nil⟩ visits = some users) (id : Oid) :
    users.documents.lookup id = acknowledged libraries id (answers libraries visits) := by
  have start : Recorded libraries [] ⟨[], List.nodup_nil⟩ := fun _ => rfl
  refine run_history (Recorded libraries) ?_ start arrive reached id
  intro past state visit following recorded arrives stepped id
  cases stepped
  rw [visit_recorded visit arrives, acknowledged, List.foldl_append, recorded id]
  rfl

end Runs

section Samples

/-- Eve is created and promoted; an update without a token in between is refused. -/
def promotionVisits : List Visit :=
  [createVisit,
    ⟨.update, ⟨{ (updateVisit (ascii "\x7b\"role\":\"root\"\x7d")).exchange.request with
      headers := {} }, {}, sampleBackend⟩⟩,
    updateVisit (ascii "\x7b\"role\":\"admin\"\x7d")]

def getEve : Exchange Backend :=
  ⟨{ method := .get
     path := ascii "/api/users/0123456789ABCDEF01234567"
     headers := ⟨[(ascii "Authorization", ascii "Bearer good")]⟩
     pathParams := [(ascii "id", ascii "0123456789ABCDEF01234567")] }, {}, sampleBackend⟩

end Samples

end HttpServer.UserRecords
