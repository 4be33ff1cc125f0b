import Strongroom.Http.Target

/-!
# Routes

The paths that the service knows, and what it does under each of them. A route is a row of segments,
some of which are holes with a name; a path fits if its segments are as many and equal to the
literal ones, and if it does not end with an empty segment. What fills the holes are the parameters
of the request. Every method that a route has stands for one endpoint, and a request for the head of
something is served like a request for the whole.
-/

namespace Strongroom.Http

/-- A segment of a route. -/
inductive Segment where
  /-- A fixed segment. -/
  | literal (text : String)
  /-- Any segment; it may only be empty if others follow. -/
  | hole (name : String)
  deriving DecidableEq, Repr

/-- A segment in the notation of patterns. -/
def Segment.pattern : Segment → String
  | literal text => text
  | hole name => "\x7b" ++ name ++ "\x7d"

/-- The routes. -/
inductive Route where
  | auth
  | logout
  | keys
  | key
  | keyGroup
  | keyUser
  | adminKeys
  | groups
  | group
  | users
  | user
  | userGroup
  | health
  | live
  | ready
  | document
  deriving DecidableEq, Repr

/-- What is done for somebody who has a session. -/
inductive Endpoint where
  | logout
  | listAccessible
  | createSecret
  | fetchSecret
  | deleteSecret
  | assignToGroup
  | revokeFromGroup
  | assignToPrincipal
  | revokeFromPrincipal
  | listSecrets
  | listGroups
  | createGroup
  | getGroup
  | deleteGroup
  | register
  | getUser
  | deleteUser
  | reassign
  deriving DecidableEq, Repr

/-- What is done for everybody. -/
inductive OpenEndpoint where
  | health
  | liveness
  | readiness
  | document
  deriving DecidableEq, Repr

/-- What is done under a route. -/
inductive Action where
  /-- Opens a session. -/
  | login
  /-- Serves somebody who has a session. -/
  | forCaller (endpoint : Endpoint)
  /-- Serves everybody. -/
  | forAll (endpoint : OpenEndpoint)
  deriving DecidableEq, Repr

namespace Route

/-- The routes in order. -/
def all : List Route :=
  [auth, logout, keys, key, keyGroup, keyUser, adminKeys, groups, group, users, user, userGroup,
    health, live, ready, document]

theorem mem_all (r : Route) : r ∈ all := by
  cases r <;> decide

/-- The segments of a route. -/
def segments : Route → List Segment
  | auth => [.literal "v1", .literal "auth"]
  | logout => [.literal "v1", .literal "logout"]
  | keys => [.literal "v1", .literal "keys"]
  | key => [.literal "v1", .literal "keys", .hole "name"]
  | keyGroup => [.literal "v1", .literal "keys", .hole "name", .literal "groups", .hole "group"]
  | keyUser => [.literal "v1", .literal "keys", .hole "name", .literal "users", .hole "user"]
  | adminKeys => [.literal "v1", .literal "admin", .literal "keys"]
  | groups => [.literal "v1", .literal "groups"]
  | group => [.literal "v1", .literal "groups", .hole "name"]
  | users => [.literal "v1", .literal "users"]
  | user => [.literal "v1", .literal "users", .hole "name"]
  | userGroup => [.literal "v1", .literal "users", .hole "name", .literal "group"]
  | health => [.literal "health"]
  | live => [.literal "health", .literal "live"]
  | ready => [.literal "health", .literal "ready"]
  | document => [.literal "api-doc", .literal "openapi.json"]

/-- The pattern of a route. -/
def pattern : Route → String
  | auth => "/v1/auth"
  | logout => "/v1/logout"
  | keys => "/v1/keys"
  | key => "/v1/keys/\x7bname\x7d"
  | keyGroup => "/v1/keys/\x7bname\x7d/groups/\x7bgroup\x7d"
  | keyUser => "/v1/keys/\x7bname\x7d/users/\x7buser\x7d"
  | adminKeys => "/v1/admin/keys"
  | groups => "/v1/groups"
  | group => "/v1/groups/\x7bname\x7d"
  | users => "/v1/users"
  | user => "/v1/users/\x7bname\x7d"
  | userGroup => "/v1/users/\x7bname\x7d/group"
  | health => "/health"
  | live => "/health/live"
  | ready => "/health/ready"
  | document => "/api-doc/openapi.json"

/-- The pattern of a route spells its segments. -/
theorem pattern_eq (r : Route) :
    r.pattern = String.join (r.segments.map fun s => "/" ++ s.pattern) := by
  cases r <;> rfl

/-- Whether the authorizer stands before a route. -/
def isGuarded : Route → Bool
  | health | live | ready | document => false
  | _ => true

/-- The actions of a route by their methods. -/
def actions : Route → List (String × Action)
  | auth => [("POST", .login)]
  | logout => [("POST", .forCaller .logout)]
  | keys => [("GET", .forCaller .listAccessible), ("POST", .forCaller .createSecret)]
  | key => [("GET", .forCaller .fetchSecret), ("DELETE", .forCaller .deleteSecret)]
  | keyGroup => [("PUT", .forCaller .assignToGroup), ("DELETE", .forCaller .revokeFromGroup)]
  | keyUser => [("PUT", .forCaller .assignToPrincipal), ("DELETE", .forCaller .revokeFromPrincipal)]
  | adminKeys => [("GET", .forCaller .listSecrets)]
  | groups => [("GET", .forCaller .listGroups), ("POST", .forCaller .createGroup)]
  | group => [("GET", .forCaller .getGroup), ("DELETE", .forCaller .deleteGroup)]
  | users => [("POST", .forCaller .register)]
  | user => [("GET", .forCaller .getUser), ("DELETE", .forCaller .deleteUser)]
  | userGroup => [("PUT", .forCaller .reassign)]
  | health => [("GET", .forAll .health)]
  | live => [("GET", .forAll .liveness)]
  | ready => [("GET", .forAll .readiness)]
  | document => [("GET", .forAll .document)]

/-- The methods of a route. -/
def methods (r : Route) : List String :=
  r.actions.flatMap fun (method, _) => if method = "GET" then ["GET", "HEAD"] else [method]

/-- What a method does under a route. -/
def action? (r : Route) (method : String) : Option Action :=
  r.actions.lookup (if method = "HEAD" then "GET" else method)

end Route

/-- What fills the holes of a route, in order and as it was sent. -/
def fill? : List Segment → List Bytes → Option (List (String × Bytes))
  | [], [] => some []
  | .literal text :: route, segment :: path =>
    if segment = utf8 text then fill? route path else none
  | .hole name :: route, segment :: path =>
    if segment.isEmpty ∧ path.isEmpty then none
    else (fill? route path).map ((name, segment) :: ·)
  | _, _ => none

/-- The route that a path fits, and what fills its holes. -/
def findRoute? (target : Target) : Option (Route × List (String × Bytes)) := do
  let path ← target.segments?
  Route.all.findSome? fun route => (fill? route.segments path).map (route, ·)

/-- The parameters of a request by their names. -/
abbrev Parameters := List (String × String)

/-- The parameters that fill the holes of a route; the first that is not UTF-8 is named. -/
def readParameters : List (String × Bytes) → Except String Parameters
  | [] => .ok []
  | (name, raw) :: rest =>
    match ofUtf8? (percentDecode raw) with
    | none => .error name
    | some value => (readParameters rest).map ((name, value) :: ·)

/-- The value of a parameter. Every endpoint asks only for parameters that its route has. -/
def Parameters.get (ps : Parameters) (name : String) : String :=
  (ps.lookup name).getD ""

end Strongroom.Http
