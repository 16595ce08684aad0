import HttpServer.HttpUtils

/-!
# `HttpHeaders` and `HttpRequest`

The two unordered maps of a request are association lists with one entry per
key; `emplace` keeps the old value of a key, `operator[]` replaces it. The
decoded JSON body is set by the controllers only and is not part of the request
as the parser, the connection and the router see it.
-/

namespace HttpServer

structure HttpHeaders where
  headers : List (Bytes × Bytes) := []
deriving DecidableEq, Repr

namespace HttpHeaders

def equalsIgnoreCase (lhs rhs : Bytes) : Bool := utils.equalsIgnoreCase lhs rhs

def add (headers : HttpHeaders) (name value : Bytes) : HttpHeaders :=
  ⟨headers.headers ++ [(name, value)]⟩

/-- Every field of that name goes, then the new one is appended. -/
def set (headers : HttpHeaders) (name value : Bytes) : HttpHeaders :=
  ⟨headers.headers.filter (fun header => !equalsIgnoreCase header.1 name) ++ [(name, value)]⟩

def values (headers : HttpHeaders) (name : Bytes) : List Bytes :=
  (headers.headers.filter fun header => equalsIgnoreCase header.1 name).map Prod.snd

/-- The first field of that name; the empty view when there is none. -/
def get (headers : HttpHeaders) (name : Bytes) : Bytes :=
  match headers.headers.find? fun header => equalsIgnoreCase header.1 name with
  | some header => header.2
  | none => []

def contains (headers : HttpHeaders) (name : Bytes) : Bool :=
  headers.headers.any fun header => equalsIgnoreCase header.1 name

def size (headers : HttpHeaders) : Nat := headers.headers.length

def clear (_ : HttpHeaders) : HttpHeaders := ⟨[]⟩

theorem get_eq_head_values (headers : HttpHeaders) (name : Bytes) :
    headers.get name = (headers.values name).headD [] := by
  obtain ⟨fields⟩ := headers
  simp only [get, values]
  induction fields with
  | nil => rfl
  | cons field fields ih =>
      by_cases named : equalsIgnoreCase field.1 name = true
      · simp [named]
      · simp only [List.find?_cons, List.filter_cons, named, Bool.false_eq_true, if_false]
        exact ih

theorem values_add (headers : HttpHeaders) (name value other : Bytes) :
    (headers.add name value).values other =
      headers.values other ++ if equalsIgnoreCase name other then [value] else [] := by
  simp only [values, add, List.filter_append, List.map_append, List.filter_cons, List.filter_nil]
  split_ifs <;> simp

end HttpHeaders

structure HttpRequest where
  method : HttpMethod := .unknown
  target : Bytes := []
  version : Bytes := []
  path : Bytes := []
  headers : HttpHeaders := {}
  body : Bytes := []
  queries : List (Bytes × Bytes) := []
  pathParams : List (Bytes × Bytes) := []
deriving DecidableEq, Repr

namespace HttpRequest

/-- The three-argument constructor; every other member is default. -/
def ofLine (method : HttpMethod) (target version : Bytes) : HttpRequest :=
  { method := method, target := target, version := version }

def setMethod (request : HttpRequest) (method : HttpMethod) : HttpRequest :=
  { request with method := method }

def setPath (request : HttpRequest) (path : Bytes) : HttpRequest := { request with path := path }

def setBody (request : HttpRequest) (body : Bytes) : HttpRequest := { request with body := body }

def addHeader (request : HttpRequest) (name value : Bytes) : HttpRequest :=
  { request with headers := request.headers.add name value }

def setHeader (request : HttpRequest) (name value : Bytes) : HttpRequest :=
  { request with headers := request.headers.set name value }

def header (request : HttpRequest) (name : Bytes) : Bytes := request.headers.get name

/-- `queries_.emplace`: an existing key keeps its value. -/
def addQuery (request : HttpRequest) (key value : Bytes) : HttpRequest :=
  if (request.queries.lookup key).isSome then request
  else { request with queries := request.queries ++ [(key, value)] }

/-- The empty view when the key is absent. -/
def query (request : HttpRequest) (key : Bytes) : Bytes := (request.queries.lookup key).getD []

/-- `path_params_[key] = value`: an existing key gets the new value. -/
def setParam (request : HttpRequest) (key value : Bytes) : HttpRequest :=
  { request with
    pathParams := request.pathParams.filter (fun entry => entry.1 ≠ key) ++ [(key, value)] }

def param (request : HttpRequest) (key : Bytes) : Bytes :=
  (request.pathParams.lookup key).getD []

end HttpRequest

end HttpServer
