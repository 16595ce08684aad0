import HttpServer.HttpResponse
import HttpServer.LexicalPath

/-!
# `Router::serveFiles`

The handler cuts the mount point off the request path, refuses a remainder that
contains `..`, and hands `directory / remainder` to the file system. Joining
replaces the directory when the remainder starts with a slash, so the guard
keeps the file inside the directory exactly when it does not, or when the
remainder is an absolute path that lies inside the directory anyway.
-/

namespace HttpServer.StaticFiles

open ListSearch LexicalPath

def slash : Byte := 47
def dot : Byte := 46

/-- `file.tellg()` and what `file.read` delivers; `none` when reading fails. -/
structure OpenFile where
  size : Int
  content : Option Bytes

/-- The file system as the handler asks it. `fs::exists` and `fs::is_regular_file` throw
for any failure but a missing file, a name that is too long for instance; the error is
the `what` of that exception. -/
structure FileSystem where
  pathExists : Bytes → Except Bytes Bool
  isRegularFile : Bytes → Except Bytes Bool
  openBinary : Bytes → Option OpenFile

/-- `fs::exists(path) && fs::is_regular_file(path)` -/
def FileSystem.isServable (fileSystem : FileSystem) (path : Bytes) : Except Bytes Bool :=
  match fileSystem.pathExists path with
  | .ok true => fileSystem.isRegularFile path
  | missing => missing

def filename (path : Bytes) : Bytes := path.rtakeWhile (· ≠ slash)

/-- `fs::path::extension`: from the last dot of the file name, unless that dot
is its first character or the name is `.` or `..`. -/
def extension (path : Bytes) : Bytes :=
  let name := filename path
  if name = [dot] ∨ name = [dot, dot] then []
  else
    let stem := name.rdropWhile (· ≠ dot)
    if stem.length ≤ 1 then [] else dot :: name.rtakeWhile (· ≠ dot)

def getMimeType (fileExtension : Bytes) : Bytes :=
  if fileExtension = ascii ".html" ∨ fileExtension = ascii ".htm" then ascii "text/html"
  else if fileExtension = ascii ".css" then ascii "text/css"
  else if fileExtension = ascii ".js" then ascii "application/javascript"
  else if fileExtension = ascii ".png" then ascii "image/png"
  else if fileExtension = ascii ".jpg" ∨ fileExtension = ascii ".jpeg" then ascii "image/jpeg"
  else if fileExtension = ascii ".svg" then ascii "image/svg+xml"
  else if fileExtension = ascii ".json" then ascii "application/json"
  else if fileExtension = ascii ".txt" then ascii "text/plain"
  else ascii "application/octet-stream"

/-- `serveFiles` stores the mount point with a trailing slash. `back()` of an
empty string is undefined in the source; here it counts as no slash. -/
def mountPath (mountPoint : Bytes) : Bytes :=
  if mountPoint.getLast? = some slash then mountPoint else mountPoint ++ [slash]

/-- The match `Router::handle` makes for a route with `isPrefix` set. -/
def prefixMatches (routePath requestPath : Bytes) : Bool := routePath.isPrefixOf requestPath

/-- What remains of the request path; an empty remainder and `/` mean the index file. -/
def relativePath (mountPoint requestPath : Bytes) : Bytes :=
  let remainder := requestPath.drop (mountPath mountPoint).length
  if remainder = [] ∨ remainder = [slash] then ascii "index.html" else remainder

def notFound (response : HttpResponse) : HttpResponse :=
  (response.setStatus .notFound).setBody (ascii "404 File Not Found")

/-- The handler `serveFiles` registers; it does not catch what the tests throw. The
second component lists the paths it tests or opens, in order. -/
def fileHandler (mountPoint directory : Bytes) (fileSystem : FileSystem) (request : HttpRequest)
    (response : HttpResponse) : Except Bytes HttpResponse × List Bytes :=
  if request.path.length < (mountPath mountPoint).length then (.ok (notFound response), [])
  else if (findSub [dot, dot] (relativePath mountPoint request.path)).isSome then
    (.ok ((response.setStatus .forbidden).setBody (ascii "403 Forbidden")), [])
  else
    let fullPath := join slash directory (relativePath mountPoint request.path)
    match fileSystem.isServable fullPath with
    | .error what => (.error what, [fullPath])
    | .ok false => (.ok (notFound response), [fullPath])
    | .ok true =>
        match fileSystem.openBinary fullPath with
        | none => (.ok (notFound response), [fullPath, fullPath])
        | some file =>
            let failed := (response.setStatus .internalServerError).setBody
              (ascii "500 Internal Server Error")
            if file.size < 0 then (.ok failed, [fullPath, fullPath])
            else
              match file.content with
              | some content =>
                  (.ok (((response.setStatus .ok).setHeader (ascii "Content-Type")
                    (getMimeType (extension fullPath))).setBody content), [fullPath, fullPath])
              | none => (.ok failed, [fullPath, fullPath])

def Contained (mountPoint directory : Bytes) (fileSystem : FileSystem) (request : HttpRequest)
    (response : HttpResponse) : Prop :=
  ∀ path ∈ (fileHandler mountPoint directory fileSystem request response).2,
    Inside slash dot directory path

/-- The handler touches one path only, and only for a remainder without `..`. -/
theorem file_handler_touches (mountPoint directory : Bytes) (fileSystem : FileSystem)
    (request : HttpRequest) (response : HttpResponse)
    (matched : prefixMatches (mountPath mountPoint) request.path = true) :
    if (findSub [dot, dot] (relativePath mountPoint request.path)).isSome then
      (fileHandler mountPoint directory fileSystem request response).2 = []
    else
      (fileHandler mountPoint directory fileSystem request response).2 ≠ [] ∧
        ∀ path ∈ (fileHandler mountPoint directory fileSystem request response).2,
          path = join slash directory (relativePath mountPoint request.path) := by
  have long : ¬request.path.length < (mountPath mountPoint).length :=
    Nat.not_lt.mpr (List.isPrefixOf_iff_prefix.mp matched).length_le
  unfold fileHandler
  rw [if_neg long]
  split_ifs with climbs
  · rfl
  · dsimp only
    repeat' split
    all_goals simp

theorem dot_dot_search_iff (text : Bytes) :
    (findSub [dot, dot] text).isSome = false ↔ ¬[dot, dot] <:+: text := by
  rw [Option.isSome_eq_false_iff, Option.isNone_iff_eq_none,
    find_sub_eq_none_iff_not_infix [dot, dot] text (by simp)]

/-- The remainder contains `..` and is refused, or it is relative, or it is an
absolute path below the directory. -/
def RemainderStays (mountPoint directory requestPath : Bytes) : Prop :=
  [dot, dot] <:+: relativePath mountPoint requestPath ∨
    isAbsolute slash (relativePath mountPoint requestPath) = false ∨
    Inside slash dot directory (relativePath mountPoint requestPath)

/-- Static files stay inside their directory exactly for remainders that do
not start with a slash, are refused, or name a path inside the directory. -/
theorem files_contained_iff_remainder_stays (mountPoint directory : Bytes)
    (fileSystem : FileSystem) (request : HttpRequest) (response : HttpResponse)
    (matched : prefixMatches (mountPath mountPoint) request.path = true) :
    Contained mountPoint directory fileSystem request response ↔
      RemainderStays mountPoint directory request.path := by
  have touched := file_handler_touches mountPoint directory fileSystem request response matched
  unfold Contained RemainderStays
  by_cases climbs : (findSub [dot, dot] (relativePath mountPoint request.path)).isSome = true
  · rw [if_pos climbs] at touched
    rw [touched]
    constructor
    · intro _
      left
      by_contra absent
      rw [(dot_dot_search_iff _).mpr absent] at climbs
      cases climbs
    · intro _ path member
      cases member
  · rw [if_neg climbs] at touched
    obtain ⟨some_path, only⟩ := touched
    have noClimb := (dot_dot_search_iff _).mp (Bool.not_eq_true _ ▸ climbs)
    cases absolute : isAbsolute slash (relativePath mountPoint request.path) with
    | false =>
        constructor
        · intro _
          exact Or.inr (Or.inl rfl)
        · intro _ path member
          rw [only path member]
          exact inside_join absolute noClimb
    | true =>
        rw [join_of_absolute absolute] at only
        constructor
        · intro contained
          obtain ⟨path, member⟩ := List.exists_mem_of_ne_nil _ some_path
          have inside := contained path member
          rw [only path member] at inside
          exact Or.inr (Or.inr inside)
        · intro stays path member
          rw [only path member]
          rcases stays with occurs | relative | inside
          · exact absurd occurs noClimb
          · cases relative
          · exact inside

def emptyFiles : FileSystem where
  pathExists := fun _ => .ok true
  isRegularFile := fun _ => .ok true
  openBinary := fun _ => some ⟨0, some []⟩

theorem files_contained_iff_remainder_stays_stylesheet :
    prefixMatches (mountPath (ascii "/static")) (ascii "/static/css/site.css") = true ∧
      (Contained (ascii "/static") (ascii "./public") emptyFiles
          { path := ascii "/static/css/site.css" } {} ↔
        RemainderStays (ascii "/static") (ascii "./public") (ascii "/static/css/site.css")) :=
  ⟨by decide +kernel, files_contained_iff_remainder_stays (ascii "/static") (ascii "./public")
    emptyFiles { path := ascii "/static/css/site.css" } {} (by decide +kernel)⟩

/-- With the root mounted, a second slash makes the remainder absolute. -/
theorem double_slash_leaves_directory :
    ¬(prefixMatches (mountPath (ascii "/")) (ascii "//etc/passwd") = true →
      Contained (ascii "/") (ascii "public") emptyFiles { path := ascii "//etc/passwd" } {}) := by
  intro contained
  have inside := contained (by decide +kernel) (ascii "/etc/passwd") (by decide +kernel)
  exact absurd inside.1 (by decide +kernel)

end HttpServer.StaticFiles
