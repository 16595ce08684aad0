import HttpServer.TransitionSystem
import HttpServer.UserGuard

/-!
# Runs of the user API

A run takes the collection from request to request; each request comes with all
that its handler meets besides the collection: the decoded body, the salt and the
identifier drawn next, and the fault of the moment. Creation stores strings only.
An update hands the fields of its payload to `$set` as they are, so that the
readers, which take strings and end at the first exception, depend on what the
updates of the run have written.
-/

namespace HttpServer.UserCollection

open ListSearch TransitionSystem UserGuard controllers repositories middlewares

inductive Operation where
  | login | create | list | get | update | delete
deriving DecidableEq, Repr

def Operation.handler (libraries : Libraries) : Operation → Handler Backend
  | .login => loginUser libraries
  | .create => controllers.createUser libraries
  | .list => ifAuthenticated libraries (controllers.getAllUsers libraries)
  | .get => ifAuthenticated libraries (getUserById libraries)
  | .update => ifAuthenticated libraries (controllers.updateUser libraries)
  | .delete => ifAuthenticated libraries controllers.deleteUser

structure Visit where
  operation : Operation
  exchange : Exchange Backend

def Visit.meeting (visit : Visit) (users : Collection) : Exchange Backend :=
  { visit.exchange with world := withUsers visit.exchange.world users }

def serve (libraries : Libraries) (users : Collection) (visit : Visit) :
    Except StdException Unit × Exchange Backend :=
  visit.operation.handler libraries (visit.meeting users)

def usersAfter (libraries : Libraries) (users : Collection) (visit : Visit) : Collection :=
  (serve libraries users visit).2.world.database.users

def step (libraries : Libraries) (users : Collection) (visit : Visit) : Option Collection :=
  some (usersAfter libraries users visit)

/-- The document `createUser` inserts. -/
def userDocument (name hash role : Bytes) : Document :=
  [(ascii "name", .string name), (ascii "password_hash", .string hash),
    (ascii "role", .string role)]

section Handlers

variable {libraries : Libraries} {exchange : Exchange Backend}

theorem extract_json_refused {refused : Exchange Backend}
    (unreadable : extractJson libraries exchange = .error refused) :
    refused.world = exchange.world := by
  unfold extractJson at unreadable
  repeat' split at unreadable
  all_goals cases unreadable
  all_goals rfl

theorem login_keeps_world : (loginUser libraries exchange).2.world = exchange.world := by
  unfold loginUser
  split
  · rename_i refused unreadable
    exact extract_json_refused unreadable
  · dsimp only
    repeat' split
    all_goals rfl

theorem respond_dumped_keeps (value : Json) :
    (respondDumped libraries value exchange).2.world = exchange.world := by
  unfold respondDumped
  split
  all_goals rfl

theorem get_all_users_keeps :
    (controllers.getAllUsers libraries exchange).2.world = exchange.world := by
  unfold controllers.getAllUsers
  dsimp only
  split
  · exact respond_dumped_keeps _
  · rfl

theorem get_user_by_id_keeps : (getUserById libraries exchange).2.world = exchange.world := by
  unfold getUserById
  split
  · exact respond_dumped_keeps _
  · rfl

theorem if_authenticated_admits (handler : Handler Backend)
    (accepted : CarriesAcceptedToken libraries exchange.request) :
    ifAuthenticated libraries handler exchange = handler exchange := by
  obtain ⟨token, carried, verifies⟩ := accepted
  obtain ⟨user, known⟩ := Option.isSome_iff_exists.mp verifies
  have present : ¬((ascii "Bearer " ++ token).isEmpty ||
      (ascii "Bearer " ++ token).take 7 ≠ ascii "Bearer ") = true := by
    simp [ascii]
  have dropped : (ascii "Bearer " ++ token).drop 7 = token := List.drop_left' rfl
  unfold ifAuthenticated requireAuth
  dsimp only
  rw [carried, if_neg present, dropped, known]

theorem if_authenticated_refuses (handler : Handler Backend)
    (rejected : ¬CarriesAcceptedToken libraries exchange.request) :
    (ifAuthenticated libraries handler exchange).2.world.database.users =
      exchange.world.database.users := by
  obtain ⟨answer, left, refuses⟩ :=
    if_authenticated_ignores rejected handler exchange.response exchange.world
  rw [show exchange = ⟨exchange.request, exchange.response,
    withUsers exchange.world exchange.world.database.users⟩ from rfl, refuses]

theorem if_authenticated_users (handler : Handler Backend) :
    CarriesAcceptedToken libraries exchange.request ∧
        ifAuthenticated libraries handler exchange = handler exchange ∨
      (ifAuthenticated libraries handler exchange).2.world.database.users =
        exchange.world.database.users := by
  by_cases accepted : CarriesAcceptedToken libraries exchange.request
  · exact Or.inl ⟨accepted, if_authenticated_admits handler accepted⟩
  · exact Or.inr (if_authenticated_refuses handler accepted)

theorem carry_out_users (database : Database) (write : Option (Bool × Collection)) :
    (carryOut database write).2.users =
      if database.fault = some .refused then database.users
      else (write.map Prod.snd).getD database.users := by
  unfold carryOut
  split <;> simp_all

theorem create_user_users (database : Database) (name hash role : Bytes) :
    (repositories.createUser database name hash role).2.users = database.users ∨
      (repositories.createUser database name hash role).2.users.documents =
        database.users.documents ++ [(database.newOid, userDocument name hash role)] := by
  unfold repositories.createUser insertOne
  rw [carry_out_users]
  split
  · exact Or.inl rfl
  · split
    · exact Or.inr rfl
    · exact Or.inl rfl

theorem create_served (exchange : Exchange Backend) :
    (controllers.createUser libraries exchange).2.world.database.users =
        exchange.world.database.users ∨
      ∃ name hash role,
        (controllers.createUser libraries exchange).2.world.database.users.documents =
          exchange.world.database.users.documents ++
            [(exchange.world.database.newOid, userDocument name hash role)] := by
  unfold controllers.createUser
  split
  · rename_i refused unreadable
    rw [extract_json_refused unreadable]
    exact Or.inl rfl
  · split
    · exact Or.inl rfl
    · split
      · exact Or.inl rfl
      · rename_i name hash role _
        have written := create_user_users exchange.world.database name hash role
        dsimp only
        split
        all_goals
          rcases written with kept | added
          · exact Or.inl kept
          · exact Or.inr ⟨name, hash, role, added⟩

theorem delete_served (exchange : Exchange Backend) :
    ∀ entry ∈ (controllers.deleteUser exchange).2.world.database.users.documents,
      entry ∈ exchange.world.database.users.documents := by
  have removed : ∀ entry ∈ (repositories.deleteUser exchange.world.database
      (exchange.request.param (ascii "id"))).2.users.documents,
      entry ∈ exchange.world.database.users.documents := by
    unfold repositories.deleteUser
    split
    · exact fun _ member => member
    · rw [carry_out_users]
      split
      · exact fun _ member => member
      · exact fun _ member => List.mem_of_mem_filter member
  unfold controllers.deleteUser respondWritten
  dsimp only
  split
  all_goals exact removed

/-- What `updateUser` leaves of the fields of its payload. -/
def writableFields (fields : List (Bytes × Json)) : List (Bytes × Json) :=
  fields.filter fun field =>
    field.1 ≠ ascii "_id" ∧ field.1 ≠ ascii "password" ∧ field.1 ≠ ascii "password_hash"

/-- The request sets the fields of a stored document. -/
structure Updates (libraries : Libraries) (exchange : Exchange Backend)
    (fields : List (Bytes × Json)) (id : Oid) (document changed : Document) : Prop where
  authenticated : CarriesAcceptedToken libraries exchange.request
  payload : payloadOf libraries exchange.request exchange.world = some (.object fields)
  nonempty : writableFields fields ≠ []
  oid : oidOf (exchange.request.param (ascii "id")) = some id
  stored : exchange.world.database.users.documents.lookup id = some document
  set : libraries.setFields (.object (writableFields fields)) document = some changed
  reachable : exchange.world.database.fault ≠ some .refused

theorem respond_written_users (written : Bool × Database) (message : Bytes)
    (exchange : Exchange Backend) :
    (respondWritten written message exchange).2.world.database.users = written.2.users := by
  unfold respondWritten
  dsimp only
  split
  all_goals rfl

theorem update_user_applies {fields : List (Bytes × Json)} {id : Oid} {document changed : Document}
    (updates : Updates libraries exchange fields id document changed) :
    (ifAuthenticated libraries (controllers.updateUser libraries) exchange).2.world.database.users =
      updateOne exchange.world.database.users id fun _ => changed := by
  have extracted := extract_json_payload updates.payload
  have accepted : ¬(Json.object (writableFields fields)).empty = true := by
    simpa [Json.empty] using updates.nonempty
  have without : erased libraries (.object fields) = .ok (.object (writableFields fields)) := rfl
  rw [if_authenticated_admits _ updates.authenticated]
  unfold controllers.updateUser
  rw [extracted]
  dsimp only
  rw [without]
  dsimp only
  rw [if_neg accepted, respond_written_users]
  unfold repositories.updateUser
  rw [updates.oid]
  dsimp only
  rw [updates.stored]
  dsimp only
  rw [updates.set, carry_out_users, if_neg updates.reachable]
  rfl

theorem payload_of_extracted {payload : Json}
    (extracted : extractJson libraries exchange = .ok payload) :
    payloadOf libraries exchange.request exchange.world = some payload := by
  unfold extractJson at extracted
  unfold payloadOf
  cases stored : exchange.world.requestJson with
  | some value =>
      rw [stored] at extracted
      cases extracted
      rfl
  | none =>
      rw [stored] at extracted
      dsimp only at extracted ⊢
      split at extracted
      · cases extracted
      · rename_i noBody
        cases parsed : libraries.parseJson exchange.request.body with
        | ok value =>
            rw [parsed] at extracted
            cases extracted
            rw [if_neg noBody]
            rfl
        | error message =>
            rw [parsed] at extracted
            cases extracted

theorem erased_object {payload updates : Json} (without : erased libraries payload = .ok updates) :
    ∃ fields, payload = .object fields ∧ updates = .object (writableFields fields) := by
  cases payload with
  | object fields =>
      cases without
      exact ⟨fields, rfl, rfl⟩
  | null => cases without
  | boolean _ => cases without
  | number _ => cases without
  | string _ => cases without
  | array _ => cases without

theorem update_served (exchange : Exchange Backend) :
    (∃ fields id document changed, Updates libraries exchange fields id document changed) ∨
      (ifAuthenticated libraries (controllers.updateUser libraries)
        exchange).2.world.database.users = exchange.world.database.users := by
  rcases @if_authenticated_users libraries exchange (controllers.updateUser libraries) with
    ⟨accepted, admitted⟩ | kept
  swap
  · exact Or.inr kept
  rw [admitted]
  unfold controllers.updateUser
  split
  · rename_i refused unreadable
    rw [extract_json_refused unreadable]
    exact Or.inr rfl
  · rename_i payload extracted
    split
    · exact Or.inr rfl
    · rename_i updates without
      split
      · exact Or.inr rfl
      · rename_i accepts
        rw [respond_written_users]
        unfold repositories.updateUser
        split
        · exact Or.inr rfl
        · rename_i id oid
          split
          · rw [carry_out_users]
            simp
          · rename_i document stored
            rw [carry_out_users]
            split
            · exact Or.inr rfl
            · rename_i reachable
              cases set : libraries.setFields updates document with
              | none => exact Or.inr rfl
              | some changed =>
                  obtain ⟨fields, rfl, rfl⟩ := erased_object without
                  refine Or.inl ⟨fields, id, document, changed, accepted,
                    payload_of_extracted extracted, ?_, oid, stored, set, reachable⟩
                  intro none
                  apply accepts
                  change (writableFields fields).isEmpty = true
                  rw [none]
                  rfl

end Handlers

section Types

/-- What the readers rely on. -/
def Typed (document : Document) : Prop :=
  (∃ name, document.lookup (ascii "name") = some (.string name)) ∧
    ∀ key ∈ [ascii "role", ascii "password_hash"], ∀ value,
      document.lookup key = some value → value.isString = true

def WellTyped (users : Collection) : Prop := ∀ entry ∈ users.documents, Typed entry.2

/-- Without limit and skip, in any order the database can sort in, the listing
has every document. -/
def ListsEveryone (libraries : Libraries) (users : Collection) : Prop :=
  ∀ (newOid : Oid) (limit skip sortOrder : Int) (sortField : Bytes), limit ≤ 0 → skip ≤ 0 →
    (sortField = [] ∨
      (libraries.sortDocuments sortField sortOrder users.documents).isSome = true) →
    ((repositories.getAllUsers libraries { users, newOid } limit skip sortField sortOrder).map
      some).Perm (users.documents.map readListed)

/-- What is relied on of the database: `$set` overwrites the named fields, a
string with that string and anything else with no string, and keeps the others;
sorting loses nothing. -/
structure StoreLaws (libraries : Libraries) : Prop where
  kept : ∀ fields document changed key,
    libraries.setFields (.object fields) document = some changed →
      fields.lookup key = none → changed.lookup key = document.lookup key
  text : ∀ fields document changed key value,
    libraries.setFields (.object fields) document = some changed →
      fields.lookup key = some (.string value) → changed.lookup key = some (.string value)
  other : ∀ fields document changed key value,
    libraries.setFields (.object fields) document = some changed →
      fields.lookup key = some value → value.isString = false →
        ∃ stored, changed.lookup key = some stored ∧ stored.isString = false
  sorts : ∀ field order documents sorted,
    libraries.sortDocuments field order documents = some sorted → sorted.Perm documents

/-- The payload gives name and role as strings, if at all. -/
def GivesStrings (fields : List (Bytes × Json)) : Prop :=
  ∀ key ∈ [ascii "name", ascii "role"], ∀ value,
    fields.lookup key = some value → value.isString = true

/-- An update that takes effect gives strings. -/
def KeepsTypes (libraries : Libraries) (users : Collection) (visit : Visit) : Prop :=
  visit.operation = .update → ∀ fields id document changed,
    Updates libraries (visit.meeting users) fields id document changed → GivesStrings fields

theorem is_string_iff (value : Json) : value.isString = true ↔ ∃ text, value = .string text := by
  cases value with
  | string text => exact iff_of_true rfl ⟨text, rfl⟩
  | _ => exact iff_of_false nofun nofun

theorem writable_name (fields : List (Bytes × Json)) :
    (writableFields fields).lookup (ascii "name") = fields.lookup (ascii "name") :=
  lookup_filter (fun _ => rfl) fields

theorem writable_role (fields : List (Bytes × Json)) :
    (writableFields fields).lookup (ascii "role") = fields.lookup (ascii "role") :=
  lookup_filter (fun _ => rfl) fields

theorem writable_hash (fields : List (Bytes × Json)) :
    (writableFields fields).lookup (ascii "password_hash") = none :=
  lookup_filter_none (fun _ => rfl) fields

variable {libraries : Libraries}

/-- What a set field holds afterwards is a string exactly when it was given as one. -/
theorem set_string_iff (laws : StoreLaws libraries) {fields : List (Bytes × Json)}
    {document changed : Document} {key : Bytes}
    (set : libraries.setFields (.object fields) document = some changed)
    (before : ∀ value, document.lookup key = some value → value.isString = true) :
    (∀ value, changed.lookup key = some value → value.isString = true) ↔
      ∀ value, fields.lookup key = some value → value.isString = true := by
  cases given : fields.lookup key with
  | none =>
      rw [laws.kept fields document changed key set given]
      exact iff_of_true before nofun
  | some value =>
      cases text : value.isString with
      | true =>
          obtain ⟨spelled, rfl⟩ := (is_string_iff value).mp text
          rw [laws.text fields document changed key spelled set given]
      | false =>
          obtain ⟨stored, found, unlike⟩ := laws.other fields document changed key value set given text
          rw [found]
          simp [text, unlike]

theorem set_present (laws : StoreLaws libraries) {fields : List (Bytes × Json)}
    {document changed : Document} {key : Bytes}
    (set : libraries.setFields (.object fields) document = some changed)
    (before : (document.lookup key).isSome = true) : (changed.lookup key).isSome = true := by
  cases given : fields.lookup key with
  | none =>
      rw [laws.kept fields document changed key set given]
      exact before
  | some value =>
      cases text : value.isString with
      | true =>
          obtain ⟨spelled, rfl⟩ := (is_string_iff value).mp text
          rw [laws.text fields document changed key spelled set given]
          rfl
      | false =>
          obtain ⟨stored, found, _⟩ := laws.other fields document changed key value set given text
          rw [found]
          rfl

theorem typed_iff (document : Document) :
    Typed document ↔
      (document.lookup (ascii "name")).isSome = true ∧
        ∀ key ∈ [ascii "name", ascii "role", ascii "password_hash"], ∀ value,
          document.lookup key = some value → value.isString = true := by
  constructor
  · rintro ⟨⟨name, named⟩, others⟩
    refine ⟨by rw [named]; rfl, ?_⟩
    intro key member value found
    rcases List.mem_cons.mp member with rfl | later
    · rw [named] at found
      cases found
      rfl
    · exact others key later value found
  · rintro ⟨named, strings⟩
    obtain ⟨value, found⟩ := Option.isSome_iff_exists.mp named
    obtain ⟨text, rfl⟩ := (is_string_iff value).mp
      (strings (ascii "name") List.mem_cons_self value found)
    exact ⟨⟨text, found⟩, fun key member => strings key (List.mem_cons_of_mem _ member)⟩

theorem set_typed_iff (laws : StoreLaws libraries) {fields : List (Bytes × Json)}
    {document changed : Document}
    (set : libraries.setFields (.object (writableFields fields)) document = some changed)
    (typed : Typed document) : Typed changed ↔ GivesStrings fields := by
  obtain ⟨named, strings⟩ := (typed_iff document).mp typed
  have name := set_string_iff laws set (strings (ascii "name") (by simp))
  have role := set_string_iff laws set (strings (ascii "role") (by simp))
  have hash := set_string_iff laws set (strings (ascii "password_hash") (by simp))
  rw [writable_name] at name
  rw [writable_role] at role
  rw [writable_hash] at hash
  have silent := hash.mpr nofun
  have present := set_present laws set named
  rw [typed_iff]
  unfold GivesStrings
  simp only [List.forall_mem_cons, List.not_mem_nil, false_implies, implies_true, and_true]
  rw [name, role]
  exact ⟨fun both => ⟨both.2.1, both.2.2.1⟩, fun both => ⟨present, both.1, both.2, silent⟩⟩

end Types

section Runs

variable {libraries : Libraries} {users : Collection}

theorem lookup_entry {documents : List (Oid × Document)} {id : Oid} {document : Document}
    (stored : documents.lookup id = some document) : (id, document) ∈ documents := by
  obtain ⟨before, after, rfl, _⟩ := List.lookup_eq_some_iff.mp stored
  exact List.mem_append_right _ List.mem_cons_self

theorem update_one_typed_iff {id : Oid} {document : Document} (changed : Document)
    (typed : WellTyped users) (stored : users.documents.lookup id = some document) :
    WellTyped (updateOne users id fun _ => changed) ↔ Typed changed := by
  constructor
  · intro still
    apply still (id, changed)
    refine List.mem_map.mpr ⟨(id, document), lookup_entry stored, ?_⟩
    simp
  · intro fits entry member
    obtain ⟨before, found, rfl⟩ := List.mem_map.mp member
    split
    · exact fits
    · exact typed before found

theorem created_typed (name hash role : Bytes) :
    Typed (userDocument name hash role) := by
  rw [typed_iff]
  refine ⟨rfl, ?_⟩
  intro key member value found
  simp only [List.mem_cons, List.not_mem_nil, or_false] at member
  rcases member with rfl | rfl | rfl
  all_goals
    cases found
    rfl

theorem unchanged_typed (typed : WellTyped users) {visit : Visit}
    (kept : usersAfter libraries users visit = users) :
    WellTyped (usersAfter libraries users visit) := by
  rw [kept]
  exact typed

theorem login_typed (typed : WellTyped users) (exchange : Exchange Backend) :
    WellTyped (usersAfter libraries users ⟨.login, exchange⟩) := by
  unfold usersAfter serve
  dsimp only [Operation.handler]
  rw [login_keeps_world]
  exact typed

theorem create_typed (typed : WellTyped users) (exchange : Exchange Backend) :
    WellTyped (usersAfter libraries users ⟨.create, exchange⟩) := by
  rcases @create_served libraries (Visit.meeting ⟨.create, exchange⟩ users) with
    kept | ⟨name, hash, role, added⟩
  · exact unchanged_typed typed kept
  · intro entry member
    have extended : entry ∈ users.documents ++ _ := added ▸ member
    rcases List.mem_append.mp extended with before | last
    · exact typed entry before
    · rw [List.mem_singleton.mp last]
      exact created_typed name hash role

theorem reading_typed (typed : WellTyped users) {handler : Handler Backend}
    (keeps : ∀ exchange, (handler exchange).2.world = exchange.world) (visit : Visit) :
    WellTyped (ifAuthenticated libraries handler (visit.meeting users)).2.world.database.users := by
  rcases @if_authenticated_users libraries (visit.meeting users) handler with
    ⟨_, admitted⟩ | kept
  · rw [admitted, keeps]
    exact typed
  · rw [kept]
    exact typed

theorem delete_typed (typed : WellTyped users) (exchange : Exchange Backend) :
    WellTyped (usersAfter libraries users ⟨.delete, exchange⟩) := by
  rcases @if_authenticated_users libraries (Visit.meeting ⟨.delete, exchange⟩ users)
    controllers.deleteUser with ⟨_, admitted⟩ | kept
  · intro entry member
    have remaining : entry ∈ (controllers.deleteUser
        (Visit.meeting ⟨.delete, exchange⟩ users)).2.world.database.users.documents :=
      admitted ▸ member
    exact typed entry (delete_served _ entry remaining)
  · exact unchanged_typed typed kept

theorem applied_update_typed_iff (laws : StoreLaws libraries) (typed : WellTyped users)
    {exchange : Exchange Backend} {fields : List (Bytes × Json)} {id : Oid}
    {document changed : Document}
    (updates : Updates libraries (Visit.meeting ⟨.update, exchange⟩ users) fields id document
      changed) :
    WellTyped (usersAfter libraries users ⟨.update, exchange⟩) ↔ GivesStrings fields := by
  have stored : users.documents.lookup id = some document := updates.stored
  have after : usersAfter libraries users ⟨.update, exchange⟩ =
      updateOne users id fun _ => changed := update_user_applies updates
  rw [after, update_one_typed_iff changed typed stored]
  exact set_typed_iff laws updates.set (typed _ (lookup_entry stored))

theorem update_typed_iff (laws : StoreLaws libraries) (typed : WellTyped users)
    (exchange : Exchange Backend) :
    WellTyped (usersAfter libraries users ⟨.update, exchange⟩) ↔
      KeepsTypes libraries users ⟨.update, exchange⟩ := by
  constructor
  · intro still _ fields id document changed updates
    exact (applied_update_typed_iff laws typed updates).mp still
  · intro keeps
    rcases @update_served libraries (Visit.meeting ⟨.update, exchange⟩ users) with
      ⟨fields, id, document, changed, updates⟩ | kept
    · exact (applied_update_typed_iff laws typed updates).mpr
        (keeps rfl fields id document changed updates)
    · exact unchanged_typed typed kept

theorem step_typed_iff (laws : StoreLaws libraries) (visit : Visit) (typed : WellTyped users) :
    WellTyped (usersAfter libraries users visit) ↔ KeepsTypes libraries users visit := by
  obtain ⟨operation, exchange⟩ := visit
  have quiet : ∀ {operation}, operation ≠ .update →
      WellTyped (usersAfter libraries users ⟨operation, exchange⟩) →
      (WellTyped (usersAfter libraries users ⟨operation, exchange⟩) ↔
        KeepsTypes libraries users ⟨operation, exchange⟩) := by
    intro operation other still
    exact iff_of_true still fun same => absurd same other
  cases operation with
  | login => exact quiet (by decide) (login_typed typed exchange)
  | create => exact quiet (by decide) (create_typed typed exchange)
  | list =>
      exact quiet (by decide) (reading_typed typed (fun _ => get_all_users_keeps) ⟨.list, exchange⟩)
  | get =>
      exact quiet (by decide) (reading_typed typed (fun _ => get_user_by_id_keeps) ⟨.get, exchange⟩)
  | update => exact update_typed_iff laws typed exchange
  | delete => exact quiet (by decide) (delete_typed typed exchange)

theorem typed_readable {entry : Oid × Document} (typed : Typed entry.2) :
    (readListed entry).isSome = true := by
  obtain ⟨⟨name, named⟩, others⟩ := typed
  have role : (getStringOr entry.2 (ascii "role") (ascii "user")).isSome = true := by
    unfold getStringOr getString
    cases found : entry.2.lookup (ascii "role") with
    | none => rfl
    | some value =>
        obtain ⟨text, rfl⟩ := (is_string_iff value).mp
          (others (ascii "role") List.mem_cons_self value found)
        rfl
  obtain ⟨text, read⟩ := Option.isSome_iff_exists.mp role
  unfold readListed getString
  rw [named, read]
  rfl

theorem read_all_typed {documents : List (Oid × Document)}
    (typed : ∀ entry ∈ documents, Typed entry.2) :
    (readAll documents).map some = documents.map readListed := by
  induction documents with
  | nil => rfl
  | cons entry documents ih =>
      obtain ⟨user, read⟩ := Option.isSome_iff_exists.mp
        (typed_readable (typed entry List.mem_cons_self))
      have rest := ih fun other member => typed other (List.mem_cons_of_mem _ member)
      rw [readAll, read, List.map_cons, List.map_cons, read, rest]

theorem typed_lists_everyone (laws : StoreLaws libraries) (typed : WellTyped users) :
    ListsEveryone libraries users := by
  intro newOid limit skip sortOrder sortField noLimit noSkip sortable
  have sorted : ∃ documents, (if sortField.isEmpty then some users.documents
      else libraries.sortDocuments sortField sortOrder users.documents) = some documents ∧
      documents.Perm users.documents := by
    by_cases unsorted : sortField = []
    · subst unsorted
      exact ⟨users.documents, rfl, List.Perm.refl _⟩
    · obtain ⟨documents, found⟩ :=
        Option.isSome_iff_exists.mp (sortable.resolve_left unsorted)
      rw [if_neg (by simpa using unsorted)]
      exact ⟨documents, found, laws.sorts _ _ _ _ found⟩
  obtain ⟨documents, found, permuted⟩ := sorted
  have listed : repositories.getAllUsers libraries { users, newOid } limit skip sortField
      sortOrder = readAll documents := by
    unfold repositories.getAllUsers
    dsimp only
    rw [if_neg (by simp), found]
    dsimp only
    rw [if_neg (by omega), if_neg (by omega)]
  have readable : ∀ entry ∈ documents, Typed entry.2 :=
    fun entry member => typed entry (permuted.mem_iff.mp member)
  rw [listed, read_all_typed readable]
  exact permuted.map readListed

/-- Along a run from the empty collection the documents stay well typed and the
listing complete, exactly when no update that takes effect gives the name or the
role another value than a string. -/
theorem users_well_typed_iff (libraries : Libraries) (laws : StoreLaws libraries)
    (visits : List Visit) :
    Throughout (step libraries)
        (fun users => WellTyped users ∧ ListsEveryone libraries users)
        ⟨[], List.nodup_nil⟩ visits ↔
      Respects (step libraries) (KeepsTypes libraries) ⟨[], List.nodup_nil⟩ visits := by
  have total : ∀ visits users, ∃ last, run (step libraries) users visits = some last := by
    intro visits
    induction visits with
    | nil => exact fun users => ⟨users, rfl⟩
    | cons visit visits ih => exact fun users => ih (usersAfter libraries users visit)
  obtain ⟨last, reached⟩ := total visits ⟨[], List.nodup_nil⟩
  have start : WellTyped ⟨[], List.nodup_nil⟩ := nofun
  refine throughout_iff_respects (fun users => WellTyped users ∧ ListsEveryone libraries users) ?_
    ⟨start, typed_lists_everyone laws start⟩ reached
  rintro users visit following ⟨typed, _⟩ stepped
  cases stepped
  rw [← step_typed_iff laws visit typed]
  exact ⟨fun both => both.1, fun still => ⟨still, typed_lists_everyone laws still⟩⟩

end Runs

section Samples

/-- `$set` on top-level fields: the given ones, then those it leaves. -/
def overwrite (fields : List (Bytes × Json)) (document : Document) : Document :=
  fields ++ document.filter fun field => (fields.lookup field.1).isNone

def storeLibraries : Libraries :=
  { sampleLibraries with
    parseJson := fun text =>
      if text = ascii "\x7b\"name\":5\x7d" then .ok (.object [(ascii "name", .number (ascii "5"))])
      else if text = ascii "\x7b\"role\":\"admin\"\x7d" then
        .ok (.object [(ascii "role", .string (ascii "admin"))])
      else sampleLibraries.parseJson text
    setFields := fun updates document =>
      match updates with
      | .object fields => some (overwrite fields document)
      | _ => none }

theorem overwrite_lookup (fields : List (Bytes × Json)) (document : Document) (key : Bytes) :
    (overwrite fields document).lookup key = (fields.lookup key).or (document.lookup key) := by
  rw [overwrite, List.lookup_append]
  cases given : fields.lookup key with
  | some value => rfl
  | none => rw [lookup_filter fun _ => by rw [given]; rfl]

theorem store_libraries_laws : StoreLaws storeLibraries where
  kept fields document changed key set absent := by
    cases set
    rw [overwrite_lookup, absent]
    rfl
  text fields document changed key value set given := by
    cases set
    rw [overwrite_lookup, given]
    rfl
  other fields document changed key value set given unlike := by
    cases set
    rw [overwrite_lookup, given]
    exact ⟨value, rfl, unlike⟩
  sorts field order documents sorted found := by
    cases found
    exact List.Perm.refl _

def createVisit : Visit := ⟨.create, ⟨createRequest, {}, sampleBackend⟩⟩

/-- An authenticated update of the user that `createVisit` stores. -/
def updateVisit (body : Bytes) : Visit :=
  ⟨.update,
    ⟨{ method := .put
       path := ascii "/api/users/0123456789abcdef01234567"
       headers := ⟨[(ascii "Authorization", ascii "Bearer good")]⟩
       pathParams := [(ascii "id", ascii "0123456789abcdef01234567")]
       body := body }, {}, sampleBackend⟩⟩

theorem users_well_typed_iff_promoted :
    Throughout (step storeLibraries)
      (fun users => WellTyped users ∧ ListsEveryone storeLibraries users) ⟨[], List.nodup_nil⟩
      [createVisit, updateVisit (ascii "\x7b\"role\":\"admin\"\x7d")] := by
  rw [users_well_typed_iff storeLibraries store_libraries_laws]
  refine ⟨nofun, fun users _ => ⟨?_, fun _ _ => trivial⟩⟩
  intro _ fields id document changed updates
  have decoded : some (Json.object [(ascii "role", .string (ascii "admin"))]) =
      some (.object fields) := updates.payload
  cases decoded
  intro key member value found
  simp only [List.mem_cons, List.not_mem_nil, or_false] at member
  rcases member with rfl | rfl
  · cases found
  · cases found
    rfl

/-- A number is stored as the name, and the listing ends before it. -/
theorem number_as_name_stored :
    StoreLaws storeLibraries ∧
      ∃ last, run (step storeLibraries) ⟨[], List.nodup_nil⟩
          [createVisit, updateVisit (ascii "\x7b\"name\":5\x7d")] = some last ∧
        last.documents.length = 1 ∧ ¬WellTyped last ∧
        repositories.getAllUsers storeLibraries { users := last, newOid := [] } 0 0 [] 1 = [] ∧
        ¬ListsEveryone storeLibraries last := by
  have stored : (usersAfter storeLibraries (usersAfter storeLibraries ⟨[], List.nodup_nil⟩
      createVisit) (updateVisit (ascii "\x7b\"name\":5\x7d"))).documents.length = 1 := by
    decide +kernel
  have unlike : (usersAfter storeLibraries (usersAfter storeLibraries ⟨[], List.nodup_nil⟩
      createVisit) (updateVisit (ascii "\x7b\"name\":5\x7d"))).documents.any
      (fun entry => !(entry.2.lookup (ascii "name")).any Json.isString) = true := by
    decide +kernel
  have listed : repositories.getAllUsers storeLibraries
      { users := usersAfter storeLibraries (usersAfter storeLibraries ⟨[], List.nodup_nil⟩
          createVisit) (updateVisit (ascii "\x7b\"name\":5\x7d"))
        newOid := [] } 0 0 [] 1 = [] := by
    decide +kernel
  refine ⟨store_libraries_laws, _, rfl, stored, ?_, listed, ?_⟩
  · intro typed
    obtain ⟨entry, member, other⟩ := List.any_eq_true.mp unlike
    obtain ⟨⟨name, named⟩, _⟩ := typed entry member
    rw [named] at other
    cases other
  · intro lists
    have permuted := (lists [] 0 0 1 [] (by decide) (by decide) (Or.inl rfl)).length_eq
    rw [listed, List.length_map, List.length_map, stored] at permuted
    cases permuted

end Samples

end HttpServer.UserCollection
