import HttpServer.RelatedRuns
import HttpServer.UserCollection
import Mathlib.Data.List.Sort

/-!
# What the answers tell of the stored hashes

Two collections that differ only in hashes of the same passwords, made with different
salts, answer every sequence of requests alike. The one way to look at a stored hash is
a listing sorted by `password_hash`: `sort` goes to the database as it is, and the order
of the users is that of their hashes.
-/

namespace HttpServer.HashSecrecy

open TransitionSystem RelatedRuns UserGuard UserCollection controllers repositories middlewares

def AlikeHashes (libraries : Libraries) (one other : Bytes) : Prop :=
  one.isEmpty = other.isEmpty ∧
    ∀ password, libraries.pwhashStrVerify one password = libraries.pwhashStrVerify other password

def AlikeValues (libraries : Libraries) (key : Bytes) (one other : Json) : Prop :=
  one = other ∨ key = ascii "password_hash" ∧
    ∃ hash drawn, one = .string hash ∧ other = .string drawn ∧ AlikeHashes libraries hash drawn

def AlikeDocuments (libraries : Libraries) (one other : Document) : Prop :=
  List.Forall₂ (fun field drawn => field.1 = drawn.1 ∧
    AlikeValues libraries field.1 field.2 drawn.2) one other

def AlikeEntries (libraries : Libraries) (one other : Oid × Document) : Prop :=
  one.1 = other.1 ∧ AlikeDocuments libraries one.2 other.2

def AlikeUsers (libraries : Libraries) (one other : Collection) : Prop :=
  List.Forall₂ (AlikeEntries libraries) one.documents other.documents

/-- What is relied on: a hash is no empty string and fits the password it was made from
and no other; `$set` of other fields and sorting by another field do not look at it. -/
structure HashLaws (libraries : Libraries) : Prop where
  nonempty : ∀ salt password hash, libraries.pwhashStr salt password = some hash → hash ≠ []
  fits : ∀ salt password hash attempt, libraries.pwhashStr salt password = some hash →
    (libraries.pwhashStrVerify hash attempt = true ↔ attempt = password)
  sets : ∀ fields document other, fields.lookup (ascii "password_hash") = none →
    AlikeDocuments libraries document other →
      Option.Rel (AlikeDocuments libraries) (libraries.setFields (.object fields) document)
        (libraries.setFields (.object fields) other)
  sorts : ∀ field order documents others, field ≠ ascii "password_hash" →
    List.Forall₂ (AlikeEntries libraries) documents others →
      Option.Rel (List.Forall₂ (AlikeEntries libraries))
        (libraries.sortDocuments field order documents)
        (libraries.sortDocuments field order others)

structure AlikeReads (libraries : Libraries) (one other : User) : Prop where
  id : one.id = other.id
  name : one.name = other.name
  role : one.role = other.role
  hash : AlikeHashes libraries one.passwordHash other.passwordHash

section Readers

variable {libraries : Libraries}

theorem alike_hashes_refl (hash : Bytes) : AlikeHashes libraries hash hash :=
  ⟨rfl, fun _ => rfl⟩

theorem alike_documents_refl (document : Document) : AlikeDocuments libraries document document := by
  induction document with
  | nil => exact .nil
  | cons field rest ih => exact .cons ⟨rfl, Or.inl rfl⟩ ih

theorem alike_entries_keys {ones others : List (Oid × Document)}
    (alike : List.Forall₂ (AlikeEntries libraries) ones others) :
    ones.map Prod.fst = others.map Prod.fst :=
  keys_related (fun _ _ both => both.1) alike

variable {one other : Document}

theorem lookup_alike (alike : AlikeDocuments libraries one other) {key : Bytes}
    (shown : key ≠ ascii "password_hash") : one.lookup key = other.lookup key := by
  have related := lookup_related alike key
  generalize one.lookup key = left at related ⊢
  generalize other.lookup key = right at related ⊢
  cases related with
  | none => rfl
  | some values =>
      rcases values with same | ⟨secret, _⟩
      · rw [same]
      · exact absurd secret shown

theorem get_string_alike (alike : AlikeDocuments libraries one other) {key : Bytes}
    (shown : key ≠ ascii "password_hash") : getString one key = getString other key := by
  rw [getString, getString, lookup_alike alike shown]

theorem get_string_or_alike (alike : AlikeDocuments libraries one other) {key : Bytes}
    (shown : key ≠ ascii "password_hash") (default : Bytes) :
    getStringOr one key default = getStringOr other key default := by
  rw [getStringOr, getStringOr, lookup_alike alike shown, get_string_alike alike shown]

theorem get_hash_alike (alike : AlikeDocuments libraries one other) :
    Option.Rel (AlikeHashes libraries) (getStringOr one (ascii "password_hash") [])
      (getStringOr other (ascii "password_hash") []) := by
  have related := lookup_related alike (ascii "password_hash")
  unfold getStringOr getString
  generalize one.lookup (ascii "password_hash") = left at related ⊢
  generalize other.lookup (ascii "password_hash") = right at related ⊢
  cases related with
  | none => exact .some (alike_hashes_refl [])
  | @some first second values =>
      rcases values with same | ⟨_, hash, drawn, rfl, rfl, fit⟩
      · subst same
        cases first with
        | string text => exact .some (alike_hashes_refl text)
        | _ => exact .none
      · exact .some fit

theorem name_open : ascii "name" ≠ ascii "password_hash" := by decide

theorem role_open : ascii "role" ≠ ascii "password_hash" := by decide

theorem read_user_alike {first second : Oid × Document}
    (alike : AlikeEntries libraries first second) :
    Option.Rel (AlikeReads libraries) (readUser first) (readUser second) := by
  obtain ⟨id, document⟩ := first
  obtain ⟨same, drawn⟩ := second
  obtain ⟨rfl, documents⟩ := alike
  have hashes := get_hash_alike documents
  unfold readUser
  dsimp only at documents hashes ⊢
  rw [get_string_alike documents name_open, get_string_or_alike documents role_open]
  generalize getStringOr document (ascii "password_hash") [] = left at hashes ⊢
  generalize getStringOr drawn (ascii "password_hash") [] = right at hashes ⊢
  cases getString drawn (ascii "name") with
  | none => exact .none
  | some name =>
      cases hashes with
      | none => exact .none
      | some fit =>
          cases getStringOr drawn (ascii "role") (ascii "user") with
          | none => exact .none
          | some role => exact .some ⟨rfl, rfl, rfl, fit⟩

theorem read_listed_alike {first second : Oid × Document}
    (alike : AlikeEntries libraries first second) : readListed first = readListed second := by
  unfold readListed
  rw [alike.1, get_string_alike alike.2 name_open, get_string_or_alike alike.2 role_open]

theorem read_all_alike {ones others : List (Oid × Document)}
    (alike : List.Forall₂ (AlikeEntries libraries) ones others) : readAll ones = readAll others := by
  induction alike with
  | nil => rfl
  | cons head tail ih => rw [readAll, readAll, read_listed_alike head, ih]

theorem named_by_alike (name : Bytes) (alike : AlikeDocuments libraries one other) :
    namedBy name one = namedBy name other := by
  rw [namedBy, namedBy, lookup_alike alike name_open]

end Readers

section Repository

variable {libraries : Libraries} {database : Database} {users : Collection}

theorem find_by_username_alike (alike : AlikeUsers libraries database.users users) (name : Bytes) :
    Option.Rel (AlikeReads libraries) (findByUsername database name)
      (findByUsername { database with users } name) := by
  unfold findByUsername
  split
  · exact .none
  · apply bind_related (find_related ?_ alike) fun _ _ => read_user_alike
    exact fun _ _ entries => named_by_alike name entries.2

theorem find_by_id_alike (alike : AlikeUsers libraries database.users users) (id : Bytes) :
    Option.Rel (AlikeReads libraries) (findById database id)
      (findById { database with users } id) := by
  unfold findById
  cases oidOf id with
  | none => exact .none
  | some documentId =>
      dsimp only
      split
      · exact .none
      · apply bind_related (find_related ?_ alike) fun _ _ => read_user_alike
        intro first second entries
        rw [entries.1]

theorem stored_alike {first second : Collection} (alike : AlikeUsers libraries first second)
    (id : Oid) :
    Option.Rel (AlikeDocuments libraries) (first.documents.lookup id)
      (second.documents.lookup id) :=
  @lookup_related _ _ _ _ _ (fun _ => AlikeDocuments libraries) _ _ alike id

def AlikeWrites (libraries : Libraries) (one other : Bool × Collection) : Prop :=
  one.1 = other.1 ∧ AlikeUsers libraries one.2 other.2

theorem carry_out_alike (alike : AlikeUsers libraries database.users users)
    {write drawn : Option (Bool × Collection)}
    (writes : Option.Rel (AlikeWrites libraries) write drawn) :
    (carryOut database write).1 = (carryOut { database with users } drawn).1 ∧
      AlikeUsers libraries (carryOut database write).2.users
        (carryOut { database with users } drawn).2.users := by
  unfold carryOut
  cases database.fault with
  | none =>
      cases writes with
      | none => exact ⟨rfl, alike⟩
      | some both => exact both
  | some fault =>
      cases fault with
      | refused => exact ⟨rfl, alike⟩
      | replyLost =>
          cases writes with
          | none => exact ⟨rfl, alike⟩
          | some both => exact ⟨rfl, both.2⟩

theorem insert_alike (alike : AlikeUsers libraries database.users users) (id : Oid)
    {document drawn : Document} (documents : AlikeDocuments libraries document drawn) :
    Option.Rel (AlikeUsers libraries) (insertOne database.users id document)
      (insertOne users id drawn) := by
  unfold insertOne
  have keys := alike_entries_keys alike
  by_cases fresh : id ∉ database.users.documents.map Prod.fst
  · have also : id ∉ users.documents.map Prod.fst := keys ▸ fresh
    rw [dif_pos fresh, dif_pos also]
    exact .some (List.rel_append alike (.cons ⟨rfl, documents⟩ .nil))
  · have also : ¬id ∉ users.documents.map Prod.fst := keys ▸ fresh
    rw [dif_neg fresh, dif_neg also]
    exact .none

theorem create_user_alike (alike : AlikeUsers libraries database.users users) (name role : Bytes)
    {hash drawn : Bytes} (hashes : AlikeHashes libraries hash drawn) :
    (repositories.createUser database name hash role).1 =
        (repositories.createUser { database with users } name drawn role).1 ∧
      AlikeUsers libraries (repositories.createUser database name hash role).2.users
        (repositories.createUser { database with users } name drawn role).2.users := by
  apply carry_out_alike alike
  have documents : AlikeDocuments libraries
      [(ascii "name", .string name), (ascii "password_hash", .string hash),
        (ascii "role", .string role)]
      [(ascii "name", .string name), (ascii "password_hash", .string drawn),
        (ascii "role", .string role)] :=
    .cons ⟨rfl, Or.inl rfl⟩
      (.cons ⟨rfl, Or.inr ⟨rfl, hash, drawn, rfl, rfl, hashes⟩⟩ (.cons ⟨rfl, Or.inl rfl⟩ .nil))
  have inserted := insert_alike alike database.newOid documents
  generalize insertOne database.users database.newOid _ = left at inserted ⊢
  dsimp only
  generalize insertOne users database.newOid _ = right at inserted ⊢
  cases inserted with
  | none => exact .none
  | some after => exact .some ⟨rfl, after⟩

theorem update_one_alike {first second : Collection} (alike : AlikeUsers libraries first second)
    (id : Oid) {changed drawn : Document} (documents : AlikeDocuments libraries changed drawn) :
    AlikeUsers libraries (updateOne first id fun _ => changed)
      (updateOne second id fun _ => drawn) := by
  apply List.rel_map ?_ alike
  intro one other entries
  dsimp only
  rw [← entries.1]
  split
  · exact ⟨rfl, documents⟩
  · exact entries

theorem update_user_alike (laws : HashLaws libraries)
    (alike : AlikeUsers libraries database.users users) (id : Bytes)
    {fields : List (Bytes × Json)} (silent : fields.lookup (ascii "password_hash") = none) :
    (repositories.updateUser libraries database id (.object fields)).1 =
        (repositories.updateUser libraries { database with users } id (.object fields)).1 ∧
      AlikeUsers libraries (repositories.updateUser libraries database id (.object fields)).2.users
        (repositories.updateUser libraries { database with users } id (.object fields)).2.users := by
  unfold repositories.updateUser
  cases oidOf id with
  | none => exact ⟨rfl, alike⟩
  | some documentId =>
      dsimp only
      have stored := stored_alike alike documentId
      generalize database.users.documents.lookup documentId = left at stored ⊢
      generalize users.documents.lookup documentId = right at stored ⊢
      cases stored with
      | none => exact carry_out_alike alike (.some ⟨rfl, alike⟩)
      | @some document other documents =>
          apply carry_out_alike alike
          have set := laws.sets fields document other silent documents
          generalize libraries.setFields (.object fields) document = before at set ⊢
          generalize libraries.setFields (.object fields) other = after at set ⊢
          cases set with
          | none => exact .none
          | some changed => exact .some ⟨rfl, update_one_alike alike documentId changed⟩

theorem delete_user_alike (alike : AlikeUsers libraries database.users users) (id : Bytes) :
    (repositories.deleteUser database id).1 =
        (repositories.deleteUser { database with users } id).1 ∧
      AlikeUsers libraries (repositories.deleteUser database id).2.users
        (repositories.deleteUser { database with users } id).2.users := by
  unfold repositories.deleteUser
  cases oidOf id with
  | none => exact ⟨rfl, alike⟩
  | some documentId =>
      apply carry_out_alike alike
      refine .some ⟨?_, ?_⟩
      · have stored := stored_alike alike documentId
        dsimp only
        generalize database.users.documents.lookup documentId = left at stored ⊢
        generalize users.documents.lookup documentId = right at stored ⊢
        cases stored with
        | none => rfl
        | some _ => rfl
      · apply List.rel_filter ?_ alike
        intro one other entries
        dsimp only
        rw [entries.1]

theorem get_all_users_alike (laws : HashLaws libraries)
    (alike : AlikeUsers libraries database.users users) (limit skip order : Int) {field : Bytes}
    (shown : field ≠ ascii "password_hash") :
    repositories.getAllUsers libraries database limit skip field order =
      repositories.getAllUsers libraries { database with users } limit skip field order := by
  have sorted : Option.Rel (List.Forall₂ (AlikeEntries libraries))
      (if field.isEmpty then some database.users.documents
        else libraries.sortDocuments field order database.users.documents)
      (if field.isEmpty then some users.documents
        else libraries.sortDocuments field order users.documents) := by
    split
    · exact .some alike
    · exact laws.sorts field order _ _ shown alike
  unfold repositories.getAllUsers
  dsimp only
  split
  · rfl
  · generalize (if field.isEmpty then some database.users.documents
      else libraries.sortDocuments field order database.users.documents) = left at sorted ⊢
    generalize (if field.isEmpty then some users.documents
      else libraries.sortDocuments field order users.documents) = right at sorted ⊢
    cases sorted with
    | none => rfl
    | some documents =>
        dsimp only
        apply read_all_alike
        have skipped : List.Forall₂ (AlikeEntries libraries) _ _ :=
          List.forall₂_drop skip.toNat documents
        split
        · split
          · exact List.forall₂_take _ skipped
          · exact List.forall₂_take _ documents
        · split
          · exact skipped
          · exact documents

end Repository

/-- The same exchange over another collection and with another salt. -/
def elsewhere (exchange : Exchange Backend) (salt : Bytes) (users : Collection) :
    Exchange Backend :=
  { exchange with world := { withUsers exchange.world users with salt } }

@[simp]
theorem elsewhere_request (exchange : Exchange Backend) (salt : Bytes) (users : Collection) :
    (elsewhere exchange salt users).request = exchange.request := rfl

@[simp]
theorem elsewhere_database (exchange : Exchange Backend) (salt : Bytes) (users : Collection) :
    (elsewhere exchange salt users).world.database = { exchange.world.database with users } := rfl

@[simp]
theorem elsewhere_salt (exchange : Exchange Backend) (salt : Bytes) (users : Collection) :
    (elsewhere exchange salt users).world.salt = salt := rfl

structure Agree (libraries : Libraries) (one other : Except StdException Unit × Exchange Backend) :
    Prop where
  result : one.1 = other.1
  response : one.2.response = other.2.response
  users : AlikeUsers libraries one.2.world.database.users other.2.world.database.users

section Handlers

variable {libraries : Libraries} {exchange : Exchange Backend} {salt : Bytes} {users : Collection}

theorem extract_elsewhere :
    extractJson libraries (elsewhere exchange salt users) =
      (extractJson libraries exchange).mapError fun refused => elsewhere refused salt users := by
  have decoded : (elsewhere exchange salt users).world.requestJson =
      exchange.world.requestJson := rfl
  unfold extractJson
  rw [elsewhere_request, decoded]
  cases exchange.world.requestJson with
  | some payload => rfl
  | none =>
      dsimp only
      by_cases noBody : exchange.request.body.isEmpty
      · rw [if_pos noBody, if_pos noBody]
        rfl
      · rw [if_neg noBody, if_neg noBody]
        cases libraries.parseJson exchange.request.body with
        | ok payload => rfl
        | error raised => rfl

theorem authenticate_alike {database : Database} (alike : AlikeUsers libraries database.users users)
    (name password : Bytes) :
    (∃ raised, authenticate libraries database name password = .error raised ∧
        authenticate libraries { database with users } name password = .error raised) ∨
      ∃ one other, authenticate libraries database name password = .ok one ∧
        authenticate libraries { database with users } name password = .ok other ∧
        Option.Rel (AlikeReads libraries) one other := by
  have found := find_by_username_alike alike name
  unfold authenticate
  generalize findByUsername database name = left at found ⊢
  generalize findByUsername { database with users } name = right at found ⊢
  cases found with
  | none => exact Or.inr ⟨none, none, rfl, rfl, .none⟩
  | @some one other reads =>
      dsimp only
      rw [← reads.hash.1]
      by_cases missing : one.passwordHash.isEmpty
      · rw [if_pos missing, if_pos missing]
        exact Or.inr ⟨none, none, rfl, rfl, .none⟩
      · rw [if_neg missing, if_neg missing]
        unfold utils.CryptoUtils.verifyPassword
        by_cases down : (!libraries.sodiumInit) = true
        · rw [if_pos down, if_pos down]
          exact Or.inl ⟨_, rfl, rfl⟩
        · rw [if_neg down, if_neg down, ← reads.hash.2]
          dsimp only [Except.map]
          cases libraries.pwhashStrVerify one.passwordHash password with
          | true => exact Or.inr ⟨some one, some other, rfl, rfl, .some reads⟩
          | false => exact Or.inr ⟨none, none, rfl, rfl, .none⟩

theorem login_agrees (alike : AlikeUsers libraries exchange.world.database.users users) :
    Agree libraries (loginUser libraries exchange)
      (loginUser libraries (elsewhere exchange salt users)) := by
  unfold loginUser
  rw [extract_elsewhere]
  cases extracted : extractJson libraries exchange with
  | error refused =>
      refine ⟨rfl, rfl, ?_⟩
      dsimp only
      rw [extract_json_refused extracted]
      exact alike
  | ok payload =>
      dsimp only [Except.mapError]
      split
      · exact ⟨rfl, rfl, alike⟩
      · cases textField libraries payload (ascii "name") with
        | error raised => exact ⟨rfl, rfl, alike⟩
        | ok name =>
            cases textField libraries payload (ascii "password") with
            | error raised => exact ⟨rfl, rfl, alike⟩
            | ok password =>
                dsimp only [bind, Except.bind]
                simp only [elsewhere_database]
                rcases authenticate_alike alike name password with
                  ⟨raised, one, other⟩ | ⟨one, other, first, second, reads⟩
                · rw [one, other]
                  exact ⟨rfl, rfl, alike⟩
                · rw [first, second]
                  cases reads with
                  | none => exact ⟨rfl, rfl, alike⟩
                  | @some found drawn reads =>
                      dsimp only
                      rw [reads.id, reads.role]
                      cases libraries.generateToken drawn.id drawn.role with
                      | error raised => exact ⟨rfl, rfl, alike⟩
                      | ok token => exact ⟨rfl, rfl, alike⟩

theorem hash_password_alike (laws : HashLaws libraries) {first second password : Bytes}
    (both : (libraries.pwhashStr second password).isSome =
      (libraries.pwhashStr first password).isSome) :
    (∃ raised, utils.CryptoUtils.hashPassword libraries first password = .error raised ∧
        utils.CryptoUtils.hashPassword libraries second password = .error raised) ∨
      ∃ hash drawn, utils.CryptoUtils.hashPassword libraries first password = .ok hash ∧
        utils.CryptoUtils.hashPassword libraries second password = .ok drawn ∧
        AlikeHashes libraries hash drawn := by
  unfold utils.CryptoUtils.hashPassword
  by_cases down : (!libraries.sodiumInit) = true
  · rw [if_pos down, if_pos down]
    exact Or.inl ⟨_, rfl, rfl⟩
  · rw [if_neg down, if_neg down]
    cases one : libraries.pwhashStr first password with
    | none =>
        rw [one] at both
        cases other : libraries.pwhashStr second password with
        | none => exact Or.inl ⟨_, rfl, rfl⟩
        | some drawn =>
            rw [other] at both
            cases both
    | some hash =>
        rw [one] at both
        cases other : libraries.pwhashStr second password with
        | none =>
            rw [other] at both
            cases both
        | some drawn =>
            refine Or.inr ⟨hash, drawn, rfl, rfl, ?_, ?_⟩
            · have full := laws.nonempty first password hash one
              have also := laws.nonempty second password drawn other
              rw [List.isEmpty_eq_false_iff.mpr full, List.isEmpty_eq_false_iff.mpr also]
            · intro attempt
              rw [Bool.eq_iff_iff, laws.fits first password hash attempt one,
                laws.fits second password drawn attempt other]

theorem new_user_alike (laws : HashLaws libraries) {first second : Bytes}
    (both : ∀ password, (libraries.pwhashStr second password).isSome =
      (libraries.pwhashStr first password).isSome) (payload : Json) :
    (∃ raised, newUser libraries first payload = .error raised ∧
        newUser libraries second payload = .error raised) ∨
      ∃ name role hash drawn, newUser libraries first payload = .ok (name, hash, role) ∧
        newUser libraries second payload = .ok (name, drawn, role) ∧
        AlikeHashes libraries hash drawn := by
  unfold newUser
  cases textField libraries payload (ascii "name") with
  | error raised => exact Or.inl ⟨raised, rfl, rfl⟩
  | ok name =>
      cases textField libraries payload (ascii "password") with
      | error raised => exact Or.inl ⟨raised, rfl, rfl⟩
      | ok password =>
          cases roleField libraries payload with
          | error raised => exact Or.inl ⟨raised, rfl, rfl⟩
          | ok role =>
              dsimp only [bind, Except.bind]
              rcases hash_password_alike laws (both password) with
                ⟨raised, one, other⟩ | ⟨hash, drawn, one, other, hashes⟩
              · rw [one, other]
                exact Or.inl ⟨raised, rfl, rfl⟩
              · rw [one, other]
                exact Or.inr ⟨name, role, hash, drawn, rfl, rfl, hashes⟩

theorem create_agrees (laws : HashLaws libraries)
    (alike : AlikeUsers libraries exchange.world.database.users users)
    (both : ∀ password, (libraries.pwhashStr salt password).isSome =
      (libraries.pwhashStr exchange.world.salt password).isSome) :
    Agree libraries (controllers.createUser libraries exchange)
      (controllers.createUser libraries (elsewhere exchange salt users)) := by
  unfold controllers.createUser
  rw [extract_elsewhere]
  cases extracted : extractJson libraries exchange with
  | error refused =>
      refine ⟨rfl, rfl, ?_⟩
      dsimp only
      rw [extract_json_refused extracted]
      exact alike
  | ok payload =>
      dsimp only [Except.mapError]
      split
      · exact ⟨rfl, rfl, alike⟩
      · rcases new_user_alike laws both payload with
          ⟨raised, one, other⟩ | ⟨name, role, hash, drawn, one, other, hashes⟩
        · rw [one, elsewhere_salt, other]
          exact ⟨rfl, rfl, alike⟩
        · rw [one, elsewhere_salt, other]
          obtain ⟨same, after⟩ := create_user_alike alike name role hashes
          dsimp only
          by_cases written : (repositories.createUser exchange.world.database name hash role).1 = true
          · rw [if_pos written, if_pos (show (repositories.createUser
              (elsewhere exchange salt users).world.database name drawn role).1 = true from
                same ▸ written)]
            exact ⟨rfl, rfl, after⟩
          · rw [if_neg written, if_neg (show ¬(repositories.createUser
              (elsewhere exchange salt users).world.database name drawn role).1 = true from
                same ▸ written)]
            exact ⟨rfl, rfl, after⟩

theorem respond_dumped_agrees (alike : AlikeUsers libraries exchange.world.database.users users)
    (value : Json) :
    Agree libraries (respondDumped libraries value exchange)
      (respondDumped libraries value (elsewhere exchange salt users)) := by
  unfold respondDumped
  split
  · exact ⟨rfl, rfl, alike⟩
  · exact ⟨rfl, rfl, alike⟩

theorem list_agrees (laws : HashLaws libraries)
    (alike : AlikeUsers libraries exchange.world.database.users users)
    (shown : exchange.request.query (ascii "sort") ≠ ascii "password_hash") :
    Agree libraries (controllers.getAllUsers libraries exchange)
      (controllers.getAllUsers libraries (elsewhere exchange salt users)) := by
  unfold controllers.getAllUsers
  simp only [elsewhere_request, elsewhere_database]
  cases intQuery exchange.request (ascii "limit") with
  | none => exact ⟨rfl, rfl, alike⟩
  | some limit =>
      cases intQuery exchange.request (ascii "skip") with
      | none => exact ⟨rfl, rfl, alike⟩
      | some skip =>
          dsimp only
          rw [← get_all_users_alike laws alike limit skip _ shown]
          exact respond_dumped_agrees alike _

theorem get_agrees (alike : AlikeUsers libraries exchange.world.database.users users) :
    Agree libraries (getUserById libraries exchange)
      (getUserById libraries (elsewhere exchange salt users)) := by
  have found := find_by_id_alike alike (exchange.request.param (ascii "id"))
  unfold getUserById
  simp only [elsewhere_request, elsewhere_database]
  generalize findById exchange.world.database _ = left at found ⊢
  generalize findById { exchange.world.database with users } _ = right at found ⊢
  cases found with
  | none => exact ⟨rfl, rfl, alike⟩
  | @some one other reads =>
      have safe : toSafeJson one = toSafeJson other := by
        rw [toSafeJson, toSafeJson, reads.id, reads.name, reads.role]
      dsimp only
      rw [safe]
      exact respond_dumped_agrees alike _

theorem respond_written_agrees {written drawn : Bool × Database}
    (writes : written.1 = drawn.1 ∧ AlikeUsers libraries written.2.users drawn.2.users)
    (message : Bytes) :
    Agree libraries (respondWritten written message exchange)
      (respondWritten drawn message (elsewhere exchange salt users)) := by
  unfold respondWritten
  dsimp only
  rw [← writes.1]
  split
  · exact ⟨rfl, rfl, writes.2⟩
  · exact ⟨rfl, rfl, writes.2⟩

theorem update_agrees (laws : HashLaws libraries)
    (alike : AlikeUsers libraries exchange.world.database.users users) :
    Agree libraries (controllers.updateUser libraries exchange)
      (controllers.updateUser libraries (elsewhere exchange salt users)) := by
  unfold controllers.updateUser
  rw [extract_elsewhere]
  cases extracted : extractJson libraries exchange with
  | error refused =>
      refine ⟨rfl, rfl, ?_⟩
      dsimp only
      rw [extract_json_refused extracted]
      exact alike
  | ok payload =>
      dsimp only [Except.mapError]
      cases without : erased libraries payload with
      | error raised => exact ⟨rfl, rfl, alike⟩
      | ok updates =>
          obtain ⟨fields, _, rfl⟩ := erased_object without
          dsimp only
          split
          · exact ⟨rfl, rfl, alike⟩
          · exact respond_written_agrees (update_user_alike laws alike _ (writable_hash fields)) _

theorem delete_agrees (alike : AlikeUsers libraries exchange.world.database.users users) :
    Agree libraries (controllers.deleteUser exchange)
      (controllers.deleteUser (elsewhere exchange salt users)) :=
  respond_written_agrees (delete_user_alike alike _) _

theorem if_authenticated_agrees {handler : Handler Backend}
    (alike : AlikeUsers libraries exchange.world.database.users users)
    (agrees : Agree libraries (handler exchange) (handler (elsewhere exchange salt users))) :
    Agree libraries (ifAuthenticated libraries handler exchange)
      (ifAuthenticated libraries handler (elsewhere exchange salt users)) := by
  unfold ifAuthenticated requireAuth
  dsimp only
  by_cases missing : ((exchange.request.header (ascii "Authorization")).isEmpty ||
      (exchange.request.header (ascii "Authorization")).take 7 ≠ ascii "Bearer ") = true
  · have also : (((elsewhere exchange salt users).request.header (ascii "Authorization")).isEmpty ||
        ((elsewhere exchange salt users).request.header (ascii "Authorization")).take 7 ≠
          ascii "Bearer ") = true := missing
    rw [if_pos missing, if_pos also]
    exact ⟨rfl, rfl, alike⟩
  · have also : ¬(((elsewhere exchange salt users).request.header (ascii "Authorization")).isEmpty ||
        ((elsewhere exchange salt users).request.header (ascii "Authorization")).take 7 ≠
          ascii "Bearer ") = true := missing
    rw [if_neg missing, if_neg also, elsewhere_request]
    cases libraries.verifyToken ((exchange.request.header (ascii "Authorization")).drop 7) with
    | none => exact ⟨rfl, rfl, alike⟩
    | some user => exact agrees

end Handlers

/-- The same request at a moment in which libsodium draws another salt. -/
def redrawn (visit : Visit) (salt : Bytes) : Visit :=
  { visit with exchange := { visit.exchange with world := { visit.exchange.world with salt } } }

/-- Another salt is drawn, and hashing with either works or fails. -/
def DrawsAnew (libraries : Libraries) (visit drawn : Visit) : Prop :=
  ∃ salt, drawn = redrawn visit salt ∧
    ∀ password, (libraries.pwhashStr salt password).isSome =
      (libraries.pwhashStr visit.exchange.world.salt password).isSome

/-- `GET /api/users?sort=password_hash` -/
def SortsByHash (visit : Visit) : Prop :=
  visit.operation = .list ∧ visit.exchange.request.query (ascii "sort") = ascii "password_hash"

instance (visit : Visit) : Decidable (SortsByHash visit) :=
  inferInstanceAs (Decidable (_ ∧ _))

/-- How the request ends, with the response; listings sorted by the hash are left out. -/
def answer (libraries : Libraries) (users : Collection) (visit : Visit) :
    List (Except StdException Unit × HttpResponse) :=
  if SortsByHash visit then []
  else [((serve libraries users visit).1, (serve libraries users visit).2.response)]

section Runs

variable {libraries : Libraries} {users others : Collection} {visit drawn : Visit}

theorem serve_agrees (laws : HashLaws libraries) (alike : AlikeUsers libraries users others)
    (draws : DrawsAnew libraries visit drawn) (shown : ¬SortsByHash visit) :
    Agree libraries (serve libraries users visit) (serve libraries others drawn) := by
  obtain ⟨salt, rfl, both⟩ := draws
  obtain ⟨operation, exchange⟩ := visit
  cases operation with
  | login => exact login_agrees alike
  | create => exact create_agrees laws alike both
  | list =>
      have sorted : exchange.request.query (ascii "sort") ≠ ascii "password_hash" :=
        fun same => shown ⟨rfl, same⟩
      exact if_authenticated_agrees alike (list_agrees laws alike sorted)
  | get => exact if_authenticated_agrees alike (get_agrees alike)
  | update => exact if_authenticated_agrees alike (update_agrees laws alike)
  | delete => exact if_authenticated_agrees alike (delete_agrees alike)

theorem list_keeps (sorts : visit.operation = .list) : usersAfter libraries users visit = users := by
  obtain ⟨operation, exchange⟩ := visit
  cases sorts
  have left := @if_authenticated_users libraries (Visit.meeting ⟨.list, exchange⟩ users)
    (controllers.getAllUsers libraries)
  rcases left with ⟨_, admitted⟩ | kept
  · change (ifAuthenticated libraries (controllers.getAllUsers libraries) _).2.world.database.users =
      users
    rw [admitted, get_all_users_keeps]
    rfl
  · exact kept

theorem step_alike (laws : HashLaws libraries) (alike : AlikeUsers libraries users others)
    (draws : DrawsAnew libraries visit drawn) :
    Option.Rel (AlikeUsers libraries) (step libraries users visit) (step libraries others drawn) ∧
      List.Forall₂ Eq (answer libraries users visit) (answer libraries others drawn) := by
  have also : SortsByHash drawn ↔ SortsByHash visit := by
    obtain ⟨salt, rfl, _⟩ := draws
    exact Iff.rfl
  unfold answer
  by_cases sorts : SortsByHash visit
  · rw [if_pos sorts, if_pos (also.mpr sorts)]
    refine ⟨.some ?_, .nil⟩
    rw [list_keeps sorts.1, list_keeps (also.mpr sorts).1]
    exact alike
  · rw [if_neg sorts, if_neg (sorts ∘ also.mp)]
    obtain ⟨result, response, after⟩ := serve_agrees laws alike draws sorts
    refine ⟨.some after, ?_⟩
    rw [result, response]
    exact .cons rfl .nil

end Runs

theorem answers_hide_hashes (libraries : Libraries) (laws : HashLaws libraries)
    (users others : Collection) (alike : AlikeUsers libraries users others)
    (visits drawn : List Visit) (draws : List.Forall₂ (DrawsAnew libraries) visits drawn) :
    history (step libraries) (answer libraries) users visits =
      history (step libraries) (answer libraries) others drawn := by
  have kept : ∀ one other first second, AlikeUsers libraries one other →
      DrawsAnew libraries first second → Option.Rel (AlikeUsers libraries) _ _ ∧ _ :=
    fun _ _ _ _ alike draws => step_alike laws alike draws
  have related := history_lockstep kept alike draws
  rwa [List.forall₂_eq_eq_eq] at related

section Samples

def eveText : Bytes := ascii "\x7b\"name\":\"Eve\",\"password\":\"pw\"\x7d"

def annText : Bytes := ascii "\x7b\"name\":\"Ann\",\"password\":\"key\"\x7d"

def hashOf (entry : Oid × Document) : Bytes :=
  (getString entry.2 (ascii "password_hash")).getD []

/-- A hash is the first byte of the salt and the password; the dump of a listing has the
names. -/
def saltedLibraries : Libraries :=
  { storeLibraries with
    parseJson := fun text =>
      if text = annText then
        .ok (.object [(ascii "name", .string (ascii "Ann")),
          (ascii "password", .string (ascii "key"))])
      else storeLibraries.parseJson text
    dumpJson := fun value =>
      match value with
      | .array elements => .ok (elements.flatMap fun element =>
          match element.field? (ascii "name") with
          | some (.string name) => name
          | _ => [])
      | _ => .ok []
    pwhashStr := fun salt password => some (salt.headD 0 :: password)
    pwhashStrVerify := fun hash password => hash.tail = password
    sortDocuments := fun field _ documents =>
      if field = ascii "password_hash" then
        some (documents.insertionSort fun one other => hashOf one ≤ hashOf other)
      else some documents }

theorem salted_libraries_laws : HashLaws saltedLibraries where
  nonempty salt password hash made := by
    cases made
    exact List.cons_ne_nil _ _
  fits salt password hash attempt made := by
    cases made
    change decide (password = attempt) = true ↔ attempt = password
    rw [decide_eq_true_iff, eq_comm]
  sets fields document other silent alike := by
    apply Option.Rel.some
    apply List.rel_append (alike_documents_refl fields)
    apply List.rel_filter ?_ alike
    intro one other both
    dsimp only
    rw [both.1]
  sorts field order documents others shown alike := by
    change Option.Rel _ (if field = _ then _ else _) (if field = _ then _ else _)
    rw [if_neg shown, if_neg shown]
    exact .some alike

def created (text newOid salt : Bytes) : Visit :=
  ⟨.create, ⟨{ createRequest with body := text }, {},
    { sampleBackend with
      database := { sampleBackend.database with newOid := newOid }
      salt := salt }⟩⟩

def listing (queries : List (Bytes × Bytes)) : Visit :=
  ⟨.list, ⟨{ listRequest with
    headers := ⟨[(ascii "Authorization", ascii "Bearer good")]⟩
    queries := queries }, {}, sampleBackend⟩⟩

/-- Two users are created, one logs in, and the users are listed. -/
def accounts (first second : Bytes) : List Visit :=
  [created eveText (ascii "0123456789abcdef01234567") first,
    created annText (ascii "0123456789abcdef01234568") second,
    ⟨.login, ⟨{ createRequest with body := eveText }, {}, sampleBackend⟩⟩, listing []]

theorem answers_hide_hashes_accounts :
    history (step saltedLibraries) (answer saltedLibraries) ⟨[], List.nodup_nil⟩
        (accounts [1] [2]) =
      history (step saltedLibraries) (answer saltedLibraries) ⟨[], List.nodup_nil⟩
        (accounts [2] [1]) := by
  have unsalted : ∀ visit : Visit, visit.exchange.world.salt = [] →
      DrawsAnew saltedLibraries visit visit := by
    rintro ⟨operation, exchange⟩ none
    refine ⟨[], ?_, fun _ => rfl⟩
    rw [redrawn, ← none]
  have created : ∀ text newOid salt other,
      DrawsAnew saltedLibraries (created text newOid salt) (created text newOid other) :=
    fun text newOid salt other => ⟨other, rfl, fun _ => rfl⟩
  have none : AlikeUsers saltedLibraries ⟨[], List.nodup_nil⟩ ⟨[], List.nodup_nil⟩ := .nil
  exact answers_hide_hashes saltedLibraries salted_libraries_laws _ _ none _ _
    (.cons (created _ _ _ _) (.cons (created _ _ _ _)
      (.cons (unsalted _ rfl) (.cons (unsalted _ rfl) .nil))))

/-- Sorted by the hash, the listing tells which salt was drawn for whom. -/
theorem sorted_listing_tells :
    ((run (step saltedLibraries) ⟨[], List.nodup_nil⟩ (accounts [1] [2])).map fun users =>
        (serve saltedLibraries users
          (listing [(ascii "sort", ascii "password_hash")])).2.response.body) =
      some (ascii "EveAnn") ∧
    ((run (step saltedLibraries) ⟨[], List.nodup_nil⟩ (accounts [2] [1])).map fun users =>
        (serve saltedLibraries users
          (listing [(ascii "sort", ascii "password_hash")])).2.response.body) =
      some (ascii "AnnEve") := by
  constructor <;> decide +kernel

end Samples

end HttpServer.HashSecrecy
