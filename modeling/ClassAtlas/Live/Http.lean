import ClassAtlas.Live.Service
import ClassAtlas.Text.Percent
import ClassAtlas.Text.Search
import ClassAtlas.Version
/-!
# Requests

The service answers requests for the current diagram, for its own state, for a new pass and for a
diagram to be sent to a room, and it takes clients in over a socket. What a path asks for is an
`Endpoint`, which has one method; whoever asks for `GET` may ask for `HEAD` and gets the same
without a body. Another method is refused with the methods that are allowed, another path is not
found, and a preflight of another site is always welcome. All answers may be read from anywhere.
-/
namespace ClassAtlas.Live

/-- A request as far as the service looks at it. The path is without its query. -/
structure Request where
  method : String
  path : String
  /-- The headers by name; names are in lower case. -/
  headers : List (String × String)
deriving BEq, DecidableEq, Repr, Inhabited

/-- An answer with the headers that tell clients what to do with it. -/
structure Response where
  status : Nat
  contentType : Option String
  allow : Option String
  allowOrigin : Option String
  body : String
deriving BEq, DecidableEq, Repr, Inhabited

namespace Response

/-- An answer of a status alone. -/
def bare (status : Nat) : Response := ⟨status, none, none, some "*", ""⟩

def json (j : Json) : Response :=
  { bare 200 with contentType := some "application/json", body := j.toText }

/-- A refusal with its reason. -/
def refusal (status : Nat) (reason : String) : Response :=
  { bare status with contentType := some "text/plain; charset=utf-8", body := reason }

def withoutBody (r : Response) : Response := { r with body := "" }

end Response

/-- What a path can ask for. Mirrors the routes of `create_router`. -/
inductive Endpoint where
  | socket
  | diagram
  | recompute
  /-- The diagram for a room, whose name is still encoded. -/
  | sessionDiagram (session : String)
  | health
deriving BEq, DecidableEq, Repr, Inhabited

namespace Endpoint

def ofSegments? : List String → Option Endpoint
  | ["", "ws"] => some .socket
  | ["", "api", "diagram"] => some .diagram
  | ["", "api", "recompute"] => some .recompute
  | ["", "api", "sessions", session, "diagram"] => some (.sessionDiagram session)
  | ["", "api", "health"] => some .health
  | _ => none

/-- What a path asks for. -/
def ofPath? (path : String) : Option Endpoint := ofSegments? (FilePath.segments ⟨path⟩)

/-- Whether it is asked for by `POST`, and not by `GET`. -/
def isPost : Endpoint → Bool
  | .recompute | .sessionDiagram _ => true
  | .socket | .diagram | .health => false

/-- The methods it is asked for by. -/
def methods (e : Endpoint) : List String := if e.isPost then ["POST"] else ["GET", "HEAD"]

end Endpoint

namespace Request

/-- The characters a path may hold as they are. -/
def isPathChar (c : Char) : Bool :=
  let n := c.toNat
  c == '!' || c == '"' || (0x24 ≤ n && n ≤ 0x3B) || c == '=' || (0x40 ≤ n && n ≤ 0x5F)
    || (0x61 ≤ n && n ≤ 0x7E) || 0x7F ≤ n

/-- The characters a query may hold as they are. -/
def isQueryChar (c : Char) : Bool :=
  let n := c.toNat
  c == '!' || (0x24 ≤ n && n ≤ 0x3B) || c == '=' || 0x3F ≤ n

/-- The path of a target: what stands before the query and the fragment. -/
def pathOfTarget? (target : String) : Option String :=
  let whole := target.toList.takeWhile (· != '#')
  let path := whole.takeWhile (· != '?')
  let query := (whole.dropWhile (· != '?')).drop 1
  if path.head? == some '/' && path.all isPathChar && query.all isQueryChar then
    some (String.ofList path)
  else none

/-- The characters the name of a method may hold. -/
def isMethodChar (c : Char) : Bool :=
  c.isAlphanum || "!#$%&'*+-.^_|~".toList.contains c || c.toNat == 0x60

/-- A request for a target, if method and target can be sent. -/
def ofTarget? (method target : String) (headers : List (String × String)) : Option Request :=
  if method.isEmpty || !method.toList.all isMethodChar then none
  else (pathOfTarget? target).map fun path =>
    ⟨method, path, headers.map fun h => (h.1.map Char.toLower, h.2)⟩

def header? (r : Request) (name : String) : Option String :=
  (r.headers.find? (·.1 == name)).map (·.2)

/-- Whether a header has a value, in whatever case. -/
def headerIs (r : Request) (name value : String) : Bool :=
  match r.header? name with
  | some v => v.map Char.toLower == value
  | none => false

/-- Whether a header has a value in it, in whatever case. -/
def headerHolds (r : Request) (name value : String) : Bool :=
  match r.header? name with
  | some v => Text.occursIn value.toList (v.map Char.toLower).toList
  | none => false

/-- Why a request cannot become a socket: it lacks something, or it came over a connection that
cannot be turned into one. -/
def socketRefusal (r : Request) : Response :=
  if r.method != "GET" then .refusal 405 "Request method must be `GET`"
  else if !r.headerHolds "connection" "upgrade" then
    .refusal 400 "Connection header did not include 'upgrade'"
  else if !r.headerIs "upgrade" "websocket" then
    .refusal 400 "`Upgrade` header did not include 'websocket'"
  else if !r.headerIs "sec-websocket-version" "13" then
    .refusal 400 "`Sec-WebSocket-Version` header did not include '13'"
  else if (r.header? "sec-websocket-key").isNone then
    .refusal 400 "`Sec-WebSocket-Key` header missing"
  else .refusal 426 "WebSocket request couldn't be upgraded since no upgrade state was present"

end Request

/-! ## Answers -/

/-- A snapshot with the time at which it was computed. Mirrors `DiagramResponse`. -/
def snapshotJson (s : Diagram.Snapshot) (computedAt : String) : Json :=
  .object [("text", .string s.text), ("revision", .number (toString s.revision)),
    ("computed_at", .string computedAt)]

/-- Mirrors `DeliveryResponse`. -/
def deliveredJson (n : Nat) : Json := .object [("delivered", .number (toString n))]

/-- Mirrors `HealthResponse`. -/
def healthJson (connections : Nat) : Json :=
  .object [("status", .string "ok"), ("version", .string version),
    ("connections", .number (toString connections))]

namespace Service

/-- Answers a request that has the method of its endpoint. Mirrors `get_diagram`, `recompute`,
`session_diagram` and `health_check`. -/
def serve (s : Service) (computedAt : String) (r : Request) : Endpoint → Response × Service
  | .socket => (r.socketRefusal, s)
  | .diagram => (.json (snapshotJson s.current computedAt), s)
  | .recompute =>
    let (accepted, s) := s.trigger .requested
    (.bare (if accepted then 202 else 503), s)
  | .sessionDiagram encoded =>
    match Text.Percent.decode? encoded with
    | some session =>
      let (n, s) := s.pushToRoom session
      (.json (deliveredJson n), s)
    | none => (.refusal 400 "Invalid URL: Invalid UTF-8 in `id`", s)
  | .health => (.json (healthJson s.hub.registry.connectionCount), s)

/-- Answers a request; `computedAt` is when the current snapshot was computed. -/
def respond (s : Service) (computedAt : String) (r : Request) : Response × Service :=
  match Endpoint.ofPath? r.path with
  | none => (.bare (if r.method == "OPTIONS" then 200 else 404), s)
  | some e =>
    if e.methods.contains r.method then
      let (response, s) := s.serve computedAt r e
      (if r.method == "HEAD" then response.withoutBody else response, s)
    else
      let response := Response.bare (if r.method == "OPTIONS" then 200 else 405)
      ({ response with allow := some (String.intercalate "," e.methods) }, s)

end Service
end ClassAtlas.Live
