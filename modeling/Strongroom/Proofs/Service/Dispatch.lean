import Strongroom.Proofs.Service.Authority

/-!
# Endpoints and their policies

Which endpoint a request goes to and which policy it is held to are said by two tables, that of the
routes and that of the policies.  The documentation knows only one: every endpoint has its policy
(`Http.Endpoint.documented`).  A request reaches an endpoint (`Service.Reaches`) only behind the
policy that the second table has for its method and route, and what is refused before is no business
of the endpoint (`Service.refused_of_not_reaches`).

The two tables agree on every method that the table of routes spells out.  They do not agree on
`HEAD`, which is served like `GET` but is not in the table of policies, so that a session is all it
takes.  For four of the endpoints behind `GET` a session is what the documentation asks for.  For
the other two, the listing of all secrets and a single secret, it is not, and `HEAD` gets to them
past their policies (`head_evades_policies`).  Apart from these two every endpoint runs only under
its documented policy (`endpoints_run_under_policy`).
-/

namespace Strongroom

open Http (Endpoint Parameters Reply Request Route)

/-! ### Documented policies -/

/-- The policy of an endpoint as the documentation has it. -/
def Http.Endpoint.documented : Endpoint → Policy
  | logout | listAccessible | createSecret | listGroups | getGroup | getUser => .authenticated
  | fetchSecret | assignToPrincipal => .readers
  | deleteSecret | assignToGroup | revokeFromGroup | revokeFromPrincipal | listSecrets | register
  | deleteUser => .administrators
  | createGroup | deleteGroup | reassign => .superusers

/-- Whether the policy of an endpoint asks for more than a session. -/
def Http.Endpoint.isPrivileged (endpoint : Endpoint) : Bool :=
  endpoint.documented ≠ .authenticated

/-- A policy holds for an identity and the name that its request speaks of. -/
def Policy.HoldsFor (policy : Policy) (l : Ledger) (i : Identity) (name : String) : Prop :=
  (policy.adminOnly = true → i.admin = true) ∧ (policy.superOnly = true → i.superuser = true) ∧
    ∀ rule, policy.acl = some rule → rule.permits l i name = .ok true

/-- What lets a caller through holds for the caller and the name that the endpoint will look up. -/
theorem holdsFor_of_permit {policy : Policy} {l : Ledger} {i : Identity} {ps : Parameters}
    (h : Access.permit policy l i (ps.lookup "name") = .ok ()) :
    policy.HoldsFor l i (ps.get "name") := by
  obtain ⟨hadmin, hsuper, hacl⟩ := of_permit_eq_ok h
  refine ⟨hadmin, hsuper, fun rule hrule => ?_⟩
  obtain ⟨name, hname, hpermits⟩ := hacl rule hrule
  rwa [Parameters.get, hname]

theorem AuthError.le_status (e : AuthError) : 400 ≤ e.status := by
  cases e <;> decide

/-! ### The two tables -/

/-- The endpoint of an action for a caller. -/
def Http.Action.endpoint? : Http.Action → Option Endpoint
  | .forCaller endpoint => some endpoint
  | .login | .forAll _ => none

/-- On the methods that the table of routes spells out, the table of policies has the documented
policy. Under `HEAD` it asks for a session, which is the documented policy of what `GET` does, save
for two endpoints. -/
theorem documented_of_mem_actions : ∀ route ∈ Route.all, ∀ x ∈ route.actions,
    ∀ endpoint ∈ x.2.endpoint?,
      x.1 ≠ "HEAD" ∧ route.isGuarded = true ∧
      Policy.of x.1 route.pattern = endpoint.documented ∧
      Policy.of "HEAD" route.pattern = .authenticated ∧
      (x.1 = "GET" → endpoint.isPrivileged = true →
        endpoint = .listSecrets ∨ endpoint = .fetchSecret) := by
  decide

/-- The line of the table of routes that a method leads to. -/
theorem mem_actions_of_action? {route : Route} {method : String} {action : Http.Action}
    (h : route.action? method = some action) :
    (if method = "HEAD" then "GET" else method, action) ∈ route.actions := by
  rw [Route.action?, List.lookup_eq_some_iff] at h
  obtain ⟨before, after, hactions, -⟩ := h
  simp [hactions]

/-- **The policy in force is the documented one**, or the method is `HEAD` and the endpoint one of
the two that the policies do not cover. -/
theorem policy_eq_documented {route : Route} {method : String} {endpoint : Endpoint}
    (haction : route.action? method = some (.forCaller endpoint))
    (hhead : method = "HEAD" → endpoint ≠ .listSecrets ∧ endpoint ≠ .fetchSecret) :
    Policy.of method route.pattern = endpoint.documented := by
  obtain ⟨-, -, hof, hofHead, hprivileged⟩ := documented_of_mem_actions route route.mem_all _
    (mem_actions_of_action? haction) endpoint rfl
  by_cases hm : method = "HEAD"
  · obtain ⟨hlist, hfetch⟩ := hhead hm
    have hplain : endpoint.documented = .authenticated := by
      by_contra hne
      exact (hprivileged (if_pos hm) (decide_eq_true hne)).elim hlist hfetch
    rw [hm, hofHead, hplain]
  · rwa [if_neg hm] at hof

theorem isGuarded_of_action? {route : Route} {method : String} {endpoint : Endpoint}
    (haction : route.action? method = some (.forCaller endpoint)) :
    route.isGuarded = true ∧ (Policy.of method route.pattern).authRequired = true := by
  obtain ⟨-, hguarded, hof, hofHead, -⟩ := documented_of_mem_actions route route.mem_all _
    (mem_actions_of_action? haction) endpoint rfl
  refine ⟨hguarded, ?_⟩
  by_cases hm : method = "HEAD"
  · rw [hm, hofHead]
    rfl
  · rw [if_neg hm] at hof
    rw [hof]
    cases endpoint <;> rfl

namespace Service

variable {w : Surroundings} {s : Service} {r : Request} {caller : Access.Caller} {ps : Parameters}
variable {endpoint : Endpoint}

/-! ### Reaching an endpoint -/

/-- A request under a route reaches an endpoint, for a caller and with the parameters in its path:
it is authenticated, and the policy for its method and route lets it through. -/
structure Reaches (w : Surroundings) (s : Service) (r : Request) (caller : Access.Caller)
    (ps : Parameters) (endpoint : Endpoint) (route : Route) (raw : List (String × Bytes)) :
    Prop where
  method : r.method ≠ "OPTIONS"
  path : Http.findRoute? r.target = some (route, raw)
  action : route.action? r.method = some (.forCaller endpoint)
  parameters : Http.readParameters raw = .ok ps
  authenticated : (Access.authenticate s.sessions w.now r).1 = .ok caller
  permitted : Access.permit (Policy.of r.method route.pattern) s.ledger caller.identity
    (ps.lookup "name") = .ok ()

/-- What is done with the reply for a caller: the next key of the session goes with it, and the body
stays behind if only the head was asked for. -/
def finish (w : Surroundings) (r : Request) (caller : Access.Caller) (answered : Reply × Service) :
    Reply × Service :=
  let (reply, s) := rotateKey w caller.session answered
  let reply := mark w r reply
  (if r.method = "HEAD" then reply.withoutBody else reply, s)

/-- **A request that reaches an endpoint gets what the endpoint does.** -/
theorem Reaches.handle_eq {route : Route} {raw : List (String × Bytes)}
    (h : s.Reaches w r caller ps endpoint route raw) :
    s.handle w r = finish w r caller (serveCaller w
      { s with sessions := (Access.authenticate s.sessions w.now r).2 } caller ps r
      (some (.forCaller endpoint))) := by
  obtain ⟨hguarded, hauth⟩ := isGuarded_of_action? h.action
  have hauthenticate : Access.authenticate s.sessions w.now r =
      (.ok caller, (Access.authenticate s.sessions w.now r).2) := Prod.ext h.authenticated rfl
  rw [handle, if_neg h.method, serve, h.path]
  simp only [serveRoute, hguarded, h.action, if_true, serveGuarded, h.parameters, hauth,
    Option.isSome_some]
  rw [authorize, hauthenticate]
  simp only [h.permitted]
  rfl

/-- **A request for an endpoint that does not reach it is refused**: it fails and changes nothing
that is stored. -/
theorem refused_of_not_reaches {route : Route} {raw : List (String × Bytes)}
    (hmethod : r.method ≠ "OPTIONS") (hpath : Http.findRoute? r.target = some (route, raw))
    (haction : route.action? r.method = some (.forCaller endpoint))
    (h : ∀ caller ps, ¬s.Reaches w r caller ps endpoint route raw) :
    400 ≤ (s.handle w r).1.status ∧ (s.handle w r).2.ledger = s.ledger := by
  obtain ⟨hguarded, hauth⟩ := isGuarded_of_action? haction
  have hserve : (s.handle w r).1.status = (s.serveGuarded w route raw r).1.status ∧
      (s.handle w r).2 = (s.serveGuarded w route raw r).2 := by
    rw [handle, if_neg hmethod, serve, hpath]
    simp only [serveRoute, hguarded, haction, if_true, Option.isSome_some]
    split
    · exact ⟨rfl, trivial⟩
    · exact ⟨rfl, trivial⟩
  rw [hserve.1, hserve.2, serveGuarded]
  cases hps : Http.readParameters raw with
  | error name => exact ⟨Nat.le_refl 400, rfl⟩
  | ok ps =>
    simp only [hauth, if_true, authorize]
    cases hauthenticate : Access.authenticate s.sessions w.now r with
    | mk result sessions =>
      cases result with
      | error e => exact ⟨e.le_status, rfl⟩
      | ok caller =>
        simp only [status_rotateKey, ledger_rotateKey]
        cases hpermit : Access.permit (Policy.of r.method route.pattern) s.ledger caller.identity
            (ps.lookup "name") with
        | error e => exact ⟨e.le_status, rfl⟩
        | ok u =>
          exact absurd ⟨hmethod, hpath, haction, hps, by rw [hauthenticate], hpermit⟩ (h caller ps)

/-- **Endpoints run under their documented policies.**  A request that reaches an endpoint gets what
the endpoint does, and it comes from a session for whose owner the documented policy of the endpoint
holds, in the present ledger and for the name that the endpoint will look up; only under the method
`HEAD` two endpoints ask for no more than the session.  A request that does not reach the endpoint
it is for is refused. -/
theorem endpoints_run_under_policy (w : Surroundings) (s : Service) (r : Request) (route : Route)
    (raw : List (String × Bytes)) (endpoint : Endpoint) :
    (∀ caller ps, s.Reaches w r caller ps endpoint route raw →
      s.handle w r = finish w r caller (serveCaller w
        { s with sessions := (Access.authenticate s.sessions w.now r).2 } caller ps r
        (some (.forCaller endpoint))) ∧
      (∃ session, s.AuthenticatedBy w r session ∧ caller.identity = session.identity) ∧
      ((r.method = "HEAD" → endpoint ≠ .listSecrets ∧ endpoint ≠ .fetchSecret) →
        endpoint.documented.HoldsFor s.ledger caller.identity (ps.get "name"))) ∧
    (r.method ≠ "OPTIONS" → Http.findRoute? r.target = some (route, raw) →
      route.action? r.method = some (.forCaller endpoint) →
      (∀ caller ps, ¬s.Reaches w r caller ps endpoint route raw) →
      400 ≤ (s.handle w r).1.status ∧ (s.handle w r).2.ledger = s.ledger) := by
  refine ⟨fun caller ps h => ⟨h.handle_eq, ?_, fun hhead => ?_⟩, refused_of_not_reaches⟩
  · exact of_authenticate_eq_ok (Prod.ext h.authenticated rfl)
  · rw [← policy_eq_documented h.action hhead]
    exact holdsFor_of_permit h.permitted

/-! ### The way past the policies -/

/-- A secret and a client that cannot read it. -/
def sampleClosed : List Command :=
  [.bootstrap leapDay ⟨List.replicate 32 1, [1], none⟩,
    .registerPrincipal leapDay ⟨"ann", .client, List.replicate 32 2, utf8 "pw"⟩,
    .createSecret leapDay ⟨"root", "super", true, true⟩ ⟨"db", [3], [4], none, none⟩]

/-- The surroundings of the example, where passwords are stored as they are. -/
def samplePlain : Surroundings :=
  { sampleSurroundings with passwords := ⟨fun password _ => .ok password, fun password stored =>
      .ok (password = stored)⟩, sessionId := 7 }

/-- The client logs in. -/
def sampleLogin : Request :=
  ⟨"POST", ⟨utf8 "/v1/auth", none⟩, [("content-type", utf8 "application/json")],
    utf8 "\x7b\"name\":\"ann\",\"password\":\"pw\"\x7d"⟩

/-- The service after the client has logged in. -/
def sampleLoggedIn : Service :=
  (Service.handle samplePlain ⟨(Strongroom.run Ledger.execute .empty sampleClosed).2, .empty {}⟩
    sampleLogin).2

/-- The client asks for the head of something. -/
def sampleHead (path : String) : Request :=
  let target : Http.Target := ⟨utf8 path, none⟩
  let code := RequestMac.compute (List.replicate 32 0) target.context []
  ⟨"HEAD", target, [("session-id", utf8 "7"), ("x-auth-mac", utf8 (Base64.encode code.bytes))], []⟩

/-- **`HEAD` evades two policies.**  A client that has just logged in, and that is no administrator
and can read no secret, reaches the listing of all secrets and the look-up of a secret. -/
theorem head_evades_policies :
    let client : Access.Caller := ⟨7, ⟨"ann", "default", false, false⟩⟩
    sampleLoggedIn.Reaches samplePlain (sampleHead "/v1/admin/keys") client [] .listSecrets
        .adminKeys [] ∧
      (sampleLoggedIn.handle samplePlain (sampleHead "/v1/admin/keys")).1.status = 200 ∧
      ¬Endpoint.listSecrets.documented.HoldsFor sampleLoggedIn.ledger client.identity "" ∧
    sampleLoggedIn.Reaches samplePlain (sampleHead "/v1/keys/db") client [("name", "db")]
        .fetchSecret .key [("name", utf8 "db")] ∧
      (sampleLoggedIn.handle samplePlain (sampleHead "/v1/keys/db")).1.status = 200 ∧
      ¬Endpoint.fetchSecret.documented.HoldsFor sampleLoggedIn.ledger client.identity "db" := by
  intro client
  refine ⟨⟨by decide, by decide +kernel, by decide, by decide, by decide +kernel,
      by decide +kernel⟩, by decide +kernel, fun h => ?_,
    ⟨by decide, by decide +kernel, by decide, by decide +kernel, by decide +kernel,
      by decide +kernel⟩, by decide +kernel, fun h => ?_⟩
  · exact absurd (h.1 rfl) (by decide)
  · have hreads : sampleLoggedIn.ledger.canRead "ann" "db" = .ok true := h.2.2 _ rfl
    exact absurd hreads (by decide +kernel)

end Service

end Strongroom
