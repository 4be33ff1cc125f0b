import Strongroom.Document.Operations
import Strongroom.Service.Endpoints
import Strongroom.Service.Health
import Strongroom.Service.Login

/-!
# Serving requests

The way of a request through the service: its route, the authorizer, its endpoint, and the next key
of its session. A request for an unknown path is never authenticated. A request for a known path
with a method that the path does not have is authenticated like any other before it is refused.
-/

namespace Strongroom.Service

open Access (Caller)
open Http (Action Parameters Reply Request Route)

/-- Gives a session its next key and the caller the key; there is none if the session is closed. -/
def rotateKey (w : Surroundings) (id : UInt64) (answered : Reply × Service) : Reply × Service :=
  let (reply, s) := answered
  match s.sessions.nextKey w.now id w.sessionKey with
  | (.ok key, sessions) => ({ reply with sessionKey := some key }, { s with sessions })
  | (.error _, _) => (reply, s)

/-- Serves a caller whom the policy lets through. -/
def serveCaller (w : Surroundings) (s : Service) (caller : Caller) (ps : Parameters) (r : Request)
    (action : Option Action) : Reply × Service :=
  match action with
  | some (.forCaller endpoint) =>
    match s.run w caller ps r endpoint with
    | .ok (messages, s) => (.messages messages, s)
    | .error reply => (reply, s)
  | _ => (.empty 405, s)

/-- Authorizes a request and serves it. -/
def authorize (w : Surroundings) (s : Service) (policy : Policy) (ps : Parameters) (r : Request)
    (action : Option Action) : Reply × Service :=
  match Access.authenticate s.sessions w.now r with
  | (.error e, sessions) => ((Http.Failure.ofAuth e).reply, { s with sessions })
  | (.ok caller, sessions) =>
    let s := { s with sessions }
    rotateKey w caller.session <|
      match Access.permit policy s.ledger caller.identity (ps.lookup "name") with
      | .error e => ((Http.Failure.ofAuth e).reply, s)
      | .ok () => s.serveCaller w caller ps r action

/-- Serves a request under a guarded route. The only policy that asks for no session is that of the
login. -/
def serveGuarded (w : Surroundings) (s : Service) (route : Route) (raw : List (String × Bytes))
    (r : Request) : Reply × Service :=
  match Http.readParameters raw with
  | .error name => (.plain 400 ("Invalid UTF-8 in \x60" ++ name ++ "\x60"), s)
  | .ok ps =>
    let policy := Policy.of r.method route.pattern
    if policy.authRequired then s.authorize w policy ps r (route.action? r.method)
    else s.login w r

/-- Serves a request under a route without authorizer. -/
def serveOpen (w : Surroundings) (s : Service) (action : Option Action) : Reply :=
  match action with
  | some (.forAll .health) | some (.forAll .readiness) => (s.checkHealth w).reply
  | some (.forAll .liveness) => alive
  | some (.forAll .document) => .json 200 Document.toJson
  | _ => .empty 405

/-- Serves a request under a route. The reply to a method that the route does not have tells which
ones it has. -/
def serveRoute (w : Surroundings) (s : Service) (route : Route) (raw : List (String × Bytes))
    (r : Request) : Reply × Service :=
  let (reply, s) :=
    if route.isGuarded then s.serveGuarded w route raw r
    else (s.serveOpen w (route.action? r.method), s)
  if (route.action? r.method).isSome then (reply, s)
  else ({ reply with allow := some route.methods }, s)

/-- Serves a request wherever it goes. -/
def serve (w : Surroundings) (s : Service) (r : Request) : Reply × Service :=
  match Http.findRoute? r.target with
  | none => (.empty 404, s)
  | some (route, raw) => s.serveRoute w route raw r

/-- The methods that the path of a request has. -/
def methodsAt (r : Request) : Option (List String) :=
  (Http.findRoute? r.target).map fun (route, _) => route.methods

/-- Marks a reply with the id that the request brings or has been given. -/
def mark (w : Surroundings) (r : Request) (reply : Reply) : Reply :=
  { reply with requestId := some ((r.header "x-request-id").head?.getD w.requestId) }

/-- Handles a request. A browser that asks in advance what it may send is told at once that it may
send anything. -/
def handle (w : Surroundings) (s : Service) (r : Request) : Reply × Service :=
  if r.method = "OPTIONS" then ({ Reply.empty 200 with allow := methodsAt r }, s)
  else
    let (reply, s) := s.serve w r
    let reply := mark w r reply
    (if r.method = "HEAD" then reply.withoutBody else reply, s)

end Strongroom.Service
