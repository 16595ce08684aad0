import HttpServer.HttpRequest

/-!
# `HttpResponse`

`serialize` writes the stored fields except `Content-Length`, then its own
`Content-Length` line from the body. The reason phrase of a status that the
source's `switch` does not list is `Unknown`.
-/

namespace HttpServer

inductive HttpStatus where
  | switchingProtocols
  | ok | created | noContent
  | badRequest | unauthorized | forbidden | notFound | methodNotAllowed | tooManyRequests
  | internalServerError | notImplemented | serviceUnavailable
deriving DecidableEq, Repr

/-- The enumerator's value. -/
def HttpStatus.code : HttpStatus → Nat
  | .switchingProtocols => 101
  | .ok => 200
  | .created => 201
  | .noContent => 204
  | .badRequest => 400
  | .unauthorized => 401
  | .forbidden => 403
  | .notFound => 404
  | .methodNotAllowed => 405
  | .tooManyRequests => 429
  | .internalServerError => 500
  | .notImplemented => 501
  | .serviceUnavailable => 503

/-- `std::to_string` of a nonnegative number. -/
def decimalText (number : Nat) : Bytes :=
  (Nat.toDigits 10 number).map fun character => UInt8.ofNat character.toNat

structure HttpResponse where
  status : HttpStatus := .ok
  headers : HttpHeaders := {}
  body : Bytes := []
deriving DecidableEq, Repr

namespace HttpResponse

def setStatus (response : HttpResponse) (status : HttpStatus) : HttpResponse :=
  { response with status := status }

def addHeader (response : HttpResponse) (name value : Bytes) : HttpResponse :=
  { response with headers := response.headers.add name value }

def setHeader (response : HttpResponse) (name value : Bytes) : HttpResponse :=
  { response with headers := response.headers.set name value }

def setBody (response : HttpResponse) (body : Bytes) : HttpResponse :=
  { response with body := body }

def reasonPhrase : HttpStatus → Bytes
  | .ok => ascii "OK"
  | .created => ascii "Created"
  | .noContent => ascii "No Content"
  | .badRequest => ascii "Bad Request"
  | .unauthorized => ascii "Unauthorized"
  | .forbidden => ascii "Forbidden"
  | .notFound => ascii "Not Found"
  | .methodNotAllowed => ascii "Method Not Allowed"
  | .internalServerError => ascii "Internal Server Error"
  | .notImplemented => ascii "Not Implemented"
  | .serviceUnavailable => ascii "Service Unavailable"
  | _ => ascii "Unknown"

def serializeHeader (header : Bytes × Bytes) : Bytes :=
  if HttpHeaders.equalsIgnoreCase header.1 (ascii "Content-Length") then []
  else header.1 ++ ascii ": " ++ header.2 ++ crlf

def serialize (response : HttpResponse) : Bytes :=
  ascii "HTTP/1.1 " ++ decimalText response.status.code ++ ascii " " ++
    reasonPhrase response.status ++ crlf ++
    (response.headers.headers.map serializeHeader).flatten ++
    ascii "Content-Length: " ++ decimalText response.body.length ++ crlf ++ crlf ++ response.body

def json (response : HttpResponse) (jsonString : Bytes) : HttpResponse :=
  (response.setHeader (ascii "Content-Type") (ascii "application/json")).setBody jsonString

end HttpResponse

end HttpServer
