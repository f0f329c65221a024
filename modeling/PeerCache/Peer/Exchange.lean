import PeerCache.Peer.Endpoint
import PeerCache.Text.Blank
import PeerCache.Text.Percent
/-!
# PeerCache — asking a peer

One question to a peer is one `GET` request. `Peer.request` says which URL is sent, or why none
can be; `Reply.result` says what an answer means, and `unreachable` what it means when none comes.
-/

namespace PeerCache.Peer

/-- Whether a request can be sent to a URL: its scheme is `http` or `https`, its host has no
character that a request line refuses, and it is not too long. -/
def isSendable (u : Url) : Bool :=
  (u.scheme = "http" || u.scheme = "https")
    && !((u.host?.map Url.Host.render).getD "").toList.any
          (fun c => c ∈ ['"', '\x60', '\x7b', '\x7d'])
    && u.render.utf8ByteSize ≤ 65534

/-- The failure of a question that could not be sent. -/
def notSendable (u : Url) : CacheError := .peer ("builder error for url (" ++ u.render ++ ")")

/-- The failure of a question to which no answer came. -/
def unreachable (u : Url) : CacheError :=
  .peer ("error sending request for url (" ++ u.render ++ ")")

/-- Whether a part of a URL spells a text. -/
def isReadable (part : String) : Bool :=
  (Text.utf8? (Text.Percent.decode (Text.utf8 part))).isSome

/-- Whether user name and password can be sent apart from the URL: the name spells a text, and it
is not empty or the password spells a text. -/
def hasCredentials (a : Url.Authority) : Bool :=
  isReadable a.username && (a.username ≠ "" || a.password.any isReadable)

/-- The URL that is asked for a key of a group. A user name and a password that can be sent apart
from it are not part of it. -/
def request (baseUrl group key : String) : Except CacheError Url := do
  let u ← urlFor baseUrl group key
  let u := if u.authority.any hasCredentials then u.withoutUserinfo else u
  if isSendable u then pure u else throw (notSendable u)

/-- An answer of a peer as it came in. -/
structure Reply where
  status : Nat
  body : List UInt8
  /-- Whether the body ended before its announced length. -/
  isShort : Bool
deriving DecidableEq, Repr

/-- The usual wording of a status. -/
def reason (status : Nat) : String :=
  match status with
  | 100 => "Continue" | 101 => "Switching Protocols" | 102 => "Processing"
  | 200 => "OK" | 201 => "Created" | 202 => "Accepted"
  | 203 => "Non Authoritative Information" | 204 => "No Content" | 205 => "Reset Content"
  | 206 => "Partial Content" | 207 => "Multi-Status" | 208 => "Already Reported"
  | 226 => "IM Used"
  | 300 => "Multiple Choices" | 301 => "Moved Permanently" | 302 => "Found"
  | 303 => "See Other" | 304 => "Not Modified" | 305 => "Use Proxy"
  | 307 => "Temporary Redirect" | 308 => "Permanent Redirect"
  | 400 => "Bad Request" | 401 => "Unauthorized" | 402 => "Payment Required"
  | 403 => "Forbidden" | 404 => "Not Found" | 405 => "Method Not Allowed"
  | 406 => "Not Acceptable" | 407 => "Proxy Authentication Required"
  | 408 => "Request Timeout" | 409 => "Conflict" | 410 => "Gone" | 411 => "Length Required"
  | 412 => "Precondition Failed" | 413 => "Payload Too Large" | 414 => "URI Too Long"
  | 415 => "Unsupported Media Type" | 416 => "Range Not Satisfiable"
  | 417 => "Expectation Failed" | 418 => "I'm a teapot" | 421 => "Misdirected Request"
  | 422 => "Unprocessable Entity" | 423 => "Locked" | 424 => "Failed Dependency"
  | 425 => "Too Early" | 426 => "Upgrade Required" | 428 => "Precondition Required"
  | 429 => "Too Many Requests" | 431 => "Request Header Fields Too Large"
  | 451 => "Unavailable For Legal Reasons"
  | 500 => "Internal Server Error" | 501 => "Not Implemented" | 502 => "Bad Gateway"
  | 503 => "Service Unavailable" | 504 => "Gateway Timeout"
  | 505 => "HTTP Version Not Supported" | 506 => "Variant Also Negotiates"
  | 507 => "Insufficient Storage" | 508 => "Loop Detected" | 510 => "Not Extended"
  | 511 => "Network Authentication Required"
  | _ => "<unknown status code>"

/-- What an answer means: the body of a success is the value, and every other status is a failure
that quotes the body. -/
def Reply.result (r : Reply) : Except CacheError (List UInt8) :=
  if 200 ≤ r.status ∧ r.status < 300 then
    if r.isShort then .error (.peer "reading response body: error decoding response body")
    else .ok r.body
  else
    let body := if r.isShort then "" else Text.trim (Text.lossy r.body)
    .error (.peer ("server returned " ++ toString r.status ++ " " ++ reason r.status ++ ": "
      ++ body))

end PeerCache.Peer
