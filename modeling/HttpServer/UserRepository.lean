import HttpServer.Router
import Mathlib.Data.List.Nodup

/-!
# JSON values and `UserRepository`

The collection is the list of its documents in natural order, one for each
identifier. A command may be refused before the server sees it or lose its
reply after it was carried out; the repository turns either exception into
`nullopt`, `false` or the users read so far. `$set` and sorting are the
database's own and stay parameters, together with the libraries.
-/

namespace HttpServer

/-- `nlohmann::json`; a number is kept as its text, an object as its fields in
key order. -/
inductive Json where
  | null
  | boolean (value : Bool)
  | number (text : Bytes)
  | string (value : Bytes)
  | array (elements : List Json)
  | object (fields : List (Bytes × Json))

namespace Json

/-- `value[key]` for a key that `contains` has confirmed. -/
def field? : Json → Bytes → Option Json
  | .object fields, key => fields.lookup key
  | _, _ => none

def contains (value : Json) (key : Bytes) : Bool := (value.field? key).isSome

def isString : Json → Bool
  | .string _ => true
  | _ => false

def empty : Json → Bool
  | .null => true
  | .array elements => elements.isEmpty
  | .object fields => fields.isEmpty
  | _ => false

end Json

/-- What is linked in: nlohmann, libsodium, jwt-cpp and the database server. -/
structure Libraries where
  parseJson : Bytes → Except StdException Json
  dumpJson : Json → Except StdException Bytes
  /-- The exception of converting a value that is not a string. -/
  notString : Json → StdException
  /-- The exception of `erase` on a value that is not an object. -/
  notErasable : Json → StdException
  sodiumInit : Bool
  /-- `crypto_pwhash_str` with the salt it draws. -/
  pwhashStr : Bytes → Bytes → Option Bytes
  pwhashStrVerify : Bytes → Bytes → Bool
  generateToken : Bytes → Bytes → Except StdException Bytes
  /-- The user id of a token that verifies. -/
  verifyToken : Bytes → Option Bytes
  /-- `from_json` of the update and the server's `$set`; `none` when either raises. -/
  setFields : Json → List (Bytes × Json) → Option (List (Bytes × Json))
  sortDocuments : Bytes → Int → List (Bytes × List (Bytes × Json)) →
    Option (List (Bytes × List (Bytes × Json)))

namespace repositories

abbrev Oid := Bytes

abbrev Document := List (Bytes × Json)

structure Collection where
  documents : List (Oid × Document)
  distinct : (documents.map Prod.fst).Nodup

inductive DatabaseFault where
  | refused | replyLost
deriving DecidableEq, Repr

/-- The database as one request meets it. -/
structure Database where
  users : Collection
  fault : Option DatabaseFault := none
  /-- The identifier the driver gives the next inserted document. -/
  newOid : Oid

structure User where
  id : Bytes
  name : Bytes
  passwordHash : Bytes := []
  role : Bytes
deriving DecidableEq, Repr

/-- `bsoncxx::oid` takes 24 hexadecimal digits and writes them in lower case. -/
def oidOf (id : Bytes) : Option Oid :=
  if id.length = 24 ∧ id.all (fun digit => (utils.hexDigit digit).isSome) then
    some (id.map utils.toLower)
  else none

/-- `view[key].get_string()`; `none` when the accessor throws. -/
def getString (document : Document) (key : Bytes) : Option Bytes :=
  match document.lookup key with
  | some (.string value) => some value
  | _ => none

def getStringOr (document : Document) (key default : Bytes) : Option Bytes :=
  if (document.lookup key).isSome then getString document key else some default

def readUser (entry : Oid × Document) : Option User :=
  match getString entry.2 (ascii "name"), getStringOr entry.2 (ascii "password_hash") [],
      getStringOr entry.2 (ascii "role") (ascii "user") with
  | some name, some passwordHash, some role => some { id := entry.1, name, passwordHash, role }
  | _, _, _ => none

/-- The listing reads no password hash. -/
def readListed (entry : Oid × Document) : Option User :=
  match getString entry.2 (ascii "name"), getStringOr entry.2 (ascii "role") (ascii "user") with
  | some name, some role => some { id := entry.1, name, role }
  | _, _ => none

/-- Equality with a string also holds of an array that has it as an element. -/
def equalsText (text : Bytes) : Json → Bool
  | .string value => value = text
  | .array elements => elements.any fun
      | .string value => value = text
      | _ => false
  | _ => false

def namedBy (username : Bytes) (document : Document) : Bool :=
  match document.lookup (ascii "name") with
  | some name => equalsText username name
  | none => false

def findByUsername (database : Database) (username : Bytes) : Option User :=
  if database.fault.isSome then none
  else
    (database.users.documents.find? fun entry => namedBy username entry.2).bind readUser

def findById (database : Database) (id : Bytes) : Option User :=
  match oidOf id with
  | none => none
  | some documentId =>
      if database.fault.isSome then none
      else
        (database.users.documents.find? fun entry => entry.1 = documentId).bind readUser

theorem distinct_append {documents : List (Oid × Document)}
    (distinct : (documents.map Prod.fst).Nodup) {id : Oid}
    (fresh : id ∉ documents.map Prod.fst) (document : Document) :
    ((documents ++ [(id, document)]).map Prod.fst).Nodup := by
  rw [List.map_append, List.nodup_append]
  refine ⟨distinct, List.nodup_singleton _, ?_⟩
  intro left member right single same
  rw [List.map_singleton, List.mem_singleton] at single
  rw [same, single] at member
  exact fresh member

/-- `insert_one`; a second document with the same identifier is a duplicate key. -/
def insertOne (users : Collection) (id : Oid) (document : Document) : Option Collection :=
  if fresh : id ∉ users.documents.map Prod.fst then
    some ⟨users.documents ++ [(id, document)], distinct_append users.distinct fresh document⟩
  else none

/-- A write under the fault of the moment: what the caller is told, and the
collection behind it. -/
def carryOut (database : Database) (write : Option (Bool × Collection)) : Bool × Database :=
  match database.fault, write with
  | some .refused, _ => (false, database)
  | _, none => (false, database)
  | some .replyLost, some (_, users) => (false, { database with users })
  | none, some (reply, users) => (reply, { database with users })

def createUser (database : Database) (name passwordHash role : Bytes) : Bool × Database :=
  carryOut database ((insertOne database.users database.newOid
    [(ascii "name", .string name), (ascii "password_hash", .string passwordHash),
      (ascii "role", .string role)]).map fun users => (true, users))

/-- The documents with that identifier changed; identifiers stay. -/
def updateOne (users : Collection) (id : Oid) (change : Document → Document) : Collection where
  documents := users.documents.map fun entry =>
    if entry.1 = id then (entry.1, change entry.2) else entry
  distinct := by
    have same : (users.documents.map fun entry =>
        if entry.1 = id then (entry.1, change entry.2) else entry).map Prod.fst =
          users.documents.map Prod.fst := by
      rw [List.map_map]
      apply List.map_congr_left
      intro entry _
      dsimp only [Function.comp]
      split_ifs <;> rfl
    rw [same]
    exact users.distinct

def updateUser (libraries : Libraries) (database : Database) (id : Bytes) (updates : Json) :
    Bool × Database :=
  match oidOf id with
  | none => (false, database)
  | some documentId =>
      match database.users.documents.lookup documentId with
      | none => carryOut database (some (false, database.users))
      | some document =>
          carryOut database ((libraries.setFields updates document).map fun changed =>
            (true, updateOne database.users documentId fun _ => changed))

def deleteOne (users : Collection) (id : Oid) : Collection where
  documents := users.documents.filter fun entry => entry.1 ≠ id
  distinct := List.Nodup.sublist (List.filter_sublist.map Prod.fst) users.distinct

def deleteUser (database : Database) (id : Bytes) : Bool × Database :=
  match oidOf id with
  | none => (false, database)
  | some documentId =>
      carryOut database (some ((database.users.documents.lookup documentId).isSome,
        deleteOne database.users documentId))

/-- The cursor loop: it ends at the first document an accessor throws on, and
keeps what it has read. -/
def readAll : List (Oid × Document) → List User
  | [] => []
  | entry :: rest =>
      match readListed entry with
      | some user => user :: readAll rest
      | none => []

def getAllUsers (libraries : Libraries) (database : Database) (limit skip : Int)
    (sortField : Bytes) (sortOrder : Int) : List User :=
  if database.fault.isSome then []
  else
    let sorted :=
      if sortField.isEmpty then some database.users.documents
      else libraries.sortDocuments sortField sortOrder database.users.documents
    match sorted with
    | none => []
    | some documents =>
        let skipped := if skip > 0 then documents.drop skip.toNat else documents
        readAll (if limit > 0 then skipped.take limit.toNat else skipped)

end repositories

end HttpServer
