import Strongroom.Proofs.Ledger.Command
import Strongroom.Service.Handle

/-!
# What a request does to the ledger

A request changes the ledger by one operation or not at all.  Which operation that can be depends on
who has sent it: a request that no live session authenticates executes nothing, and the others
execute only what the policies of the routes leave to their sender (`Command.Permitted`).  This is
one case analysis over routes, methods and endpoints (`Service.ledger_handle`), and nothing behind
it looks at routes again.
-/

namespace Strongroom

open Http (Action Endpoint Parameters Request Route)

/-- The operations that a sender may have executed on a ledger. -/
inductive Command.Permitted (i : Identity) (l : Ledger) : Command → Prop where
  | createSecret (now : Moment) (new : NewSecret) : Permitted i l (.createSecret now i new)
  | assignToPrincipal (now : Moment) (secret principal : String) (sealedKey : Bytes)
      (path : Option String) (h : l.canRead i.name secret = .ok true) :
      Permitted i l (.assignToPrincipal now secret principal sealedKey path)
  | assignToGroup (now : Moment) (secret group : String) (sealedKey : Bytes)
      (path : Option String) (h : i.admin = true) :
      Permitted i l (.assignToGroup now secret group sealedKey path)
  | revokeFromGroup (secret group : String) (h : i.admin = true) :
      Permitted i l (.revokeFromGroup secret group)
  | revokeFromPrincipal (secret principal : String) (h : i.admin = true) :
      Permitted i l (.revokeFromPrincipal secret principal)
  | deleteSecret (name : String) (h : i.admin = true) : Permitted i l (.deleteSecret name)
  | registerPrincipal (now : Moment) (new : NewPrincipal) (h : i.admin = true) :
      Permitted i l (.registerPrincipal now new)
  | deletePrincipal (name : String) (h : i.admin = true) : Permitted i l (.deletePrincipal name)
  | createGroup (now : Moment) (name : String) (kind : Role) (publicKey sealedPrivateKey : Bytes)
      (h : i.superuser = true) :
      Permitted i l (.createGroup now name kind publicKey sealedPrivateKey)
  | deleteGroup (name : String) (h : i.superuser = true) : Permitted i l (.deleteGroup name)
  | reassignPrincipal (principal group : String) (sealedGroupKey : Option Bytes)
      (h : i.superuser = true) :
      Permitted i l (.reassignPrincipal principal group sealedGroupKey)

/-! ### Endpoints -/

/-- The operations by which an endpoint changes the ledger, for a caller and for the parameters of a
request. -/
inductive Http.Endpoint.Executes (i : Identity) (ps : Parameters) : Endpoint → Command → Prop where
  | createSecret (now : Moment) (new : NewSecret) :
      Executes i ps .createSecret (.createSecret now i new)
  | deleteSecret : Executes i ps .deleteSecret (.deleteSecret (ps.get "name"))
  | assignToGroup (now : Moment) (sealedKey : Bytes) (path : Option String) :
      Executes i ps .assignToGroup
        (.assignToGroup now (ps.get "name") (ps.get "group") sealedKey path)
  | revokeFromGroup :
      Executes i ps .revokeFromGroup (.revokeFromGroup (ps.get "name") (ps.get "group"))
  | assignToPrincipal (now : Moment) (sealedKey : Bytes) (path : Option String) :
      Executes i ps .assignToPrincipal
        (.assignToPrincipal now (ps.get "name") (ps.get "user") sealedKey path)
  | revokeFromPrincipal :
      Executes i ps .revokeFromPrincipal (.revokeFromPrincipal (ps.get "name") (ps.get "user"))
  | createGroup (now : Moment) (name : String) (kind : Role) (publicKey sealedPrivateKey : Bytes) :
      Executes i ps .createGroup (.createGroup now name kind publicKey sealedPrivateKey)
  | deleteGroup : Executes i ps .deleteGroup (.deleteGroup (ps.get "name"))
  | register (now : Moment) (new : NewPrincipal) :
      Executes i ps .register (.registerPrincipal now new)
  | deleteUser : Executes i ps .deleteUser (.deletePrincipal (ps.get "name"))
  | reassign (group : String) (sealedGroupKey : Option Bytes) :
      Executes i ps .reassign (.reassignPrincipal (ps.get "name") group sealedGroupKey)

namespace Service

theorem of_ofLedger_eq_ok {α : Type} {x : Except Ledger.Error α} {a : α}
    (h : ofLedger x = .ok a) : x = .ok a := by
  cases x with
  | ok b =>
    cases h
    rfl
  | error e => cases h

theorem execute_of_changed {l l' : Ledger} {c : Command} {x : Except Ledger.Error Ledger}
    (hc : l.execute c = changed x) (hx : ofLedger x = .ok l') : l.execute c = .ok (.done, l') := by
  rw [hc, of_ofLedger_eq_ok hx]
  rfl

theorem execute_of_counted {l l' : Ledger} {n : Nat} {c : Command}
    {x : Except Ledger.Error (Nat × Ledger)} (hc : l.execute c = counted x)
    (hx : ofLedger x = .ok (n, l')) : l.execute c = .ok (.removed n, l') := by
  rw [hc, of_ofLedger_eq_ok hx]
  rfl

variable {w : Surroundings} {s s' : Service} {caller : Access.Caller} {ps : Parameters}
variable {r : Request} {messages : List Bytes}

/-- **An endpoint changes the ledger by one operation or not at all.** -/
theorem ledger_run (hw : w.time.IsValid) {endpoint : Endpoint}
    (h : s.run w caller ps r endpoint = .ok (messages, s')) :
    s'.ledger = s.ledger ∨ ∃ c a, endpoint.Executes caller.identity ps c ∧
      s.ledger.execute c = .ok (a, s'.ledger) := by
  cases endpoint with
  | logout =>
    cases h
    exact .inl rfl
  | listAccessible =>
    obtain ⟨found, -, h⟩ := of_bind_eq_ok h
    cases h
    exact .inl rfl
  | createSecret =>
    obtain ⟨m, -, h⟩ := of_bind_eq_ok h
    obtain ⟨payload, -, h⟩ := of_bind_eq_ok h
    obtain ⟨superKey, -, h⟩ := of_bind_eq_ok h
    obtain ⟨creatorKey, -, h⟩ := of_bind_eq_ok h
    obtain ⟨l, hl, h⟩ := of_bind_eq_ok h
    cases h
    exact .inr ⟨.createSecret ⟨w.time, hw⟩ caller.identity
      ⟨m.name, payload, superKey, creatorKey, optionalText m.path⟩, _, .createSecret _ _,
      execute_of_changed rfl hl⟩
  | fetchSecret =>
    obtain ⟨found, -, h⟩ := of_bind_eq_ok h
    cases h
    exact .inl rfl
  | deleteSecret =>
    obtain ⟨l, hl, h⟩ := of_bind_eq_ok h
    cases h
    exact .inr ⟨.deleteSecret (ps.get "name"), _, .deleteSecret, execute_of_changed rfl hl⟩
  | assignToGroup =>
    obtain ⟨m, -, h⟩ := of_bind_eq_ok h
    obtain ⟨key, -, h⟩ := of_bind_eq_ok h
    obtain ⟨l, hl, h⟩ := of_bind_eq_ok h
    cases h
    exact .inr ⟨.assignToGroup ⟨w.time, hw⟩ (ps.get "name") (ps.get "group") key
      (optionalText m.path), _, .assignToGroup _ _ _, execute_of_changed rfl hl⟩
  | revokeFromGroup =>
    obtain ⟨⟨n, l⟩, hl, h⟩ := of_bind_eq_ok h
    cases h
    exact .inr ⟨.revokeFromGroup (ps.get "name") (ps.get "group"), _, .revokeFromGroup,
      execute_of_counted rfl hl⟩
  | assignToPrincipal =>
    obtain ⟨m, -, h⟩ := of_bind_eq_ok h
    obtain ⟨key, -, h⟩ := of_bind_eq_ok h
    obtain ⟨l, hl, h⟩ := of_bind_eq_ok h
    cases h
    exact .inr ⟨.assignToPrincipal ⟨w.time, hw⟩ (ps.get "name") (ps.get "user") key
      (optionalText m.path), _, .assignToPrincipal _ _ _, execute_of_changed rfl hl⟩
  | revokeFromPrincipal =>
    obtain ⟨⟨n, l⟩, hl, h⟩ := of_bind_eq_ok h
    cases h
    exact .inr ⟨.revokeFromPrincipal (ps.get "name") (ps.get "user"), _, .revokeFromPrincipal,
      execute_of_counted rfl hl⟩
  | listSecrets =>
    obtain ⟨found, -, h⟩ := of_bind_eq_ok h
    cases h
    exact .inl rfl
  | listGroups =>
    obtain ⟨found, -, h⟩ := of_bind_eq_ok h
    cases h
    exact .inl rfl
  | createGroup =>
    replace h : s.createGroup w r = .ok (messages, s') := h
    rw [createGroup] at h
    split at h
    · cases h
    · next admin _ =>
      obtain ⟨m, -, h⟩ := of_bind_eq_ok h
      obtain ⟨publicKey, -, h⟩ := of_bind_eq_ok h
      obtain ⟨sealedPrivateKey, -, h⟩ := of_bind_eq_ok h
      obtain ⟨l, hl, h⟩ := of_bind_eq_ok h
      cases h
      exact .inr ⟨.createGroup ⟨w.time, hw⟩ m.name (.ofAdmin admin) publicKey sealedPrivateKey, _,
        .createGroup _ _ _ _ _, execute_of_changed rfl hl⟩
  | getGroup =>
    obtain ⟨group, -, h⟩ := of_bind_eq_ok h
    obtain ⟨member, -, h⟩ := of_bind_eq_ok h
    cases h
    exact .inl rfl
  | deleteGroup =>
    obtain ⟨l, hl, h⟩ := of_bind_eq_ok h
    cases h
    exact .inr ⟨.deleteGroup (ps.get "name"), _, .deleteGroup, execute_of_changed rfl hl⟩
  | register =>
    obtain ⟨m, -, h⟩ := of_bind_eq_ok h
    obtain ⟨-, -, h⟩ := of_bind_eq_ok h
    split at h
    · cases h
    · obtain ⟨publicKey, -, h⟩ := of_bind_eq_ok h
      obtain ⟨passwordHash, -, h⟩ := of_bind_eq_ok h
      obtain ⟨l, hl, h⟩ := of_bind_eq_ok h
      cases h
      exact .inr ⟨.registerPrincipal ⟨w.time, hw⟩ ⟨m.name, .ofAdmin m.admin, publicKey,
        passwordHash⟩, _, .register _ _, execute_of_changed rfl hl⟩
  | getUser =>
    obtain ⟨p, -, h⟩ := of_bind_eq_ok h
    cases h
    exact .inl rfl
  | deleteUser =>
    replace h : s.deleteUser caller ps = .ok (messages, s') := h
    rw [deleteUser] at h
    split at h
    · cases h
    · obtain ⟨l, hl, h⟩ := of_bind_eq_ok h
      cases h
      exact .inr ⟨.deletePrincipal (ps.get "name"), _, .deleteUser, execute_of_changed rfl hl⟩
  | reassign =>
    obtain ⟨m, -, h⟩ := of_bind_eq_ok h
    split at h
    · cases h
    · obtain ⟨sealedGroupKey, -, h⟩ := of_bind_eq_ok h
      obtain ⟨l, hl, h⟩ := of_bind_eq_ok h
      cases h
      exact .inr ⟨.reassignPrincipal (ps.get "name") m.name sealedGroupKey, _, .reassign _ _,
        execute_of_changed rfl hl⟩

end Service

/-! ### Policies -/

/-- The policy of an endpoint that changes the ledger. -/
def Http.Endpoint.policy? : Endpoint → Option Policy
  | createSecret => some .authenticated
  | assignToPrincipal => some .readers
  | deleteSecret | assignToGroup | revokeFromGroup | revokeFromPrincipal | register | deleteUser =>
    some .administrators
  | createGroup | deleteGroup | reassign => some .superusers
  | logout | listAccessible | fetchSecret | listSecrets | listGroups | getGroup | getUser => none

/-- The policy of an action that changes the ledger. -/
def Http.Action.policy? : Action → Option Policy
  | forCaller endpoint => endpoint.policy?
  | login | forAll _ => none

/-- No action of the table that changes the ledger can be asked for by the method `GET`, and the
table of policies has its policy. -/
theorem policy_of_mem_actions : ∀ route ∈ Route.all, ∀ x ∈ route.actions,
    ∀ policy ∈ x.2.policy?, x.1 ≠ "GET" ∧ Policy.of x.1 route.pattern = policy := by
  decide

/-- **Whatever method asks for an endpoint that changes the ledger, its policy is in force.** -/
theorem policy_of_action? {route : Route} {method : String} {endpoint : Endpoint} {policy : Policy}
    (haction : route.action? method = some (.forCaller endpoint))
    (hpolicy : endpoint.policy? = some policy) : Policy.of method route.pattern = policy := by
  rw [Route.action?, List.lookup_eq_some_iff] at haction
  obtain ⟨before, after, hactions, -⟩ := haction
  obtain ⟨hget, hof⟩ := policy_of_mem_actions route route.mem_all
    (if method = "HEAD" then "GET" else method, .forCaller endpoint)
    (by rw [hactions]; simp) policy hpolicy
  have hmethod : method ≠ "HEAD" := fun hhead => hget (if_pos hhead)
  rwa [if_neg hmethod] at hof

/-- What a policy has checked when it lets a caller through. -/
theorem of_permit_eq_ok {policy : Policy} {l : Ledger} {i : Identity} {target : Option String}
    (h : Access.permit policy l i target = .ok ()) :
    (policy.adminOnly = true → i.admin = true) ∧
      (policy.superOnly = true → i.superuser = true) ∧
      ∀ rule, policy.acl = some rule → ∃ name, target = some name ∧
        rule.permits l i name = .ok true := by
  rw [Access.permit] at h
  split at h
  · cases h
  · next hadmin =>
    split at h
    · cases h
    · next hsuper =>
      refine ⟨fun hp => by simpa [hp] using hadmin, fun hp => by simpa [hp] using hsuper,
        fun rule hrule => ?_⟩
      rw [hrule] at h
      cases target with
      | none => cases h
      | some name =>
        refine ⟨name, rfl, ?_⟩
        replace h : Access.obeys rule l i (some name) = .ok () := h
        rw [Access.obeys] at h
        split at h
        · next heq => exact heq
        · cases h
        · cases h

/-- **What an endpoint executes is permitted to the caller whom its policy lets through.** -/
theorem permitted_of_executes {route : Route} {method : String} {endpoint : Endpoint} {l : Ledger}
    {i : Identity} {ps : Parameters} {c : Command}
    (haction : route.action? method = some (.forCaller endpoint))
    (hpermit : Access.permit (Policy.of method route.pattern) l i (ps.lookup "name") = .ok ())
    (hexecutes : endpoint.Executes i ps c) : c.Permitted i l := by
  have hrules : ∀ policy, endpoint.policy? = some policy →
      (policy.adminOnly = true → i.admin = true) ∧
      (policy.superOnly = true → i.superuser = true) ∧
      ∀ rule, policy.acl = some rule → ∃ name, ps.lookup "name" = some name ∧
        rule.permits l i name = .ok true := by
    intro policy hpolicy
    rw [policy_of_action? haction hpolicy] at hpermit
    exact of_permit_eq_ok hpermit
  cases hexecutes with
  | createSecret now new => exact .createSecret now new
  | assignToPrincipal now sealedKey path =>
    obtain ⟨name, hname, hreads⟩ := (hrules _ rfl).2.2 _ rfl
    refine .assignToPrincipal now _ _ _ _ ?_
    rw [Parameters.get, hname]
    exact hreads
  | deleteSecret => exact .deleteSecret _ ((hrules _ rfl).1 rfl)
  | assignToGroup now sealedKey path => exact .assignToGroup _ _ _ _ _ ((hrules _ rfl).1 rfl)
  | revokeFromGroup => exact .revokeFromGroup _ _ ((hrules _ rfl).1 rfl)
  | revokeFromPrincipal => exact .revokeFromPrincipal _ _ ((hrules _ rfl).1 rfl)
  | register now new => exact .registerPrincipal _ _ ((hrules _ rfl).1 rfl)
  | deleteUser => exact .deletePrincipal _ ((hrules _ rfl).1 rfl)
  | createGroup now name kind publicKey sealedPrivateKey =>
    exact .createGroup _ _ _ _ _ ((hrules _ rfl).2.1 rfl)
  | deleteGroup => exact .deleteGroup _ ((hrules _ rfl).2.1 rfl)
  | reassign group sealedGroupKey => exact .reassignPrincipal _ _ _ ((hrules _ rfl).2.1 rfl)

namespace Service

variable {w : Surroundings} {s : Service} {r : Request}

/-! ### The way of a request -/

/-- A request is authenticated by a live session. -/
def AuthenticatedBy (w : Surroundings) (s : Service) (r : Request) (session : Session) : Prop :=
  ∃ id code, Access.shown r = .ok (id, code) ∧ s.sessions.table.get? id = some session ∧
    session.accepts code r.target.context r.body = true ∧
    session.isExpired w.now s.sessions.config.idleTimeout = false

theorem of_authenticate_eq_ok {caller : Access.Caller} {sessions : Sessions}
    (h : Access.authenticate s.sessions w.now r = (.ok caller, sessions)) :
    ∃ session, s.AuthenticatedBy w r session ∧ caller.identity = session.identity := by
  rw [Access.authenticate] at h
  cases hshown : Access.shown r with
  | error e =>
    rw [hshown] at h
    cases h
  | ok x =>
    obtain ⟨id, code⟩ := x
    simp only [hshown, Sessions.validate] at h
    cases hsession : s.sessions.table.get? id with
    | none =>
      rw [hsession] at h
      cases h
    | some session =>
      simp only [hsession] at h
      by_cases haccepts : session.accepts code r.target.context r.body = true
      · by_cases hexpired : session.isExpired w.now s.sessions.config.idleTimeout = true
        · rw [haccepts, if_neg (by decide), if_pos hexpired] at h
          cases h
        · rw [haccepts, if_neg (by decide), if_neg hexpired] at h
          cases h
          exact ⟨session, ⟨id, code, hshown, hsession, haccepts, by simpa using hexpired⟩, rfl⟩
      · rw [Bool.not_eq_true] at haccepts
        rw [haccepts, if_pos (by decide)] at h
        cases h

theorem ledger_rotateKey (w : Surroundings) (id : UInt64) (answered : Http.Reply × Service) :
    (rotateKey w id answered).2.ledger = answered.2.ledger := by
  obtain ⟨reply, s⟩ := answered
  simp only [rotateKey]
  split
  · rfl
  · rfl

theorem status_rotateKey (w : Surroundings) (id : UInt64) (answered : Http.Reply × Service) :
    (rotateKey w id answered).1.status = answered.1.status := by
  obtain ⟨reply, s⟩ := answered
  simp only [rotateKey]
  split
  · rfl
  · rfl

theorem ledger_login (w : Surroundings) (s : Service) (r : Request) :
    (s.login w r).2.ledger = s.ledger := by
  simp only [login]
  split
  · rfl
  · split
    · rfl
    · split
      · rfl
      · rfl

/-- A request changes a ledger at most by an operation that is permitted to the session which
authenticates it. -/
def Changes (w : Surroundings) (s : Service) (r : Request) (l : Ledger) : Prop :=
  l = s.ledger ∨ ∃ session c a, s.AuthenticatedBy w r session ∧
    c.Permitted session.identity s.ledger ∧ s.ledger.execute c = .ok (a, l)

theorem changes_authorize (hw : w.time.IsValid) (route : Route) (ps : Parameters) :
    s.Changes w r (s.authorize w (Policy.of r.method route.pattern) ps r
      (route.action? r.method)).2.ledger := by
  rw [authorize]
  cases hauthenticate : Access.authenticate s.sessions w.now r with
  | mk result sessions =>
    cases result with
    | error e => exact .inl rfl
    | ok caller =>
      obtain ⟨session, hsession, hidentity⟩ := of_authenticate_eq_ok hauthenticate
      simp only [ledger_rotateKey]
      cases hpermit : Access.permit (Policy.of r.method route.pattern) s.ledger caller.identity
          (ps.lookup "name") with
      | error e => exact .inl rfl
      | ok u =>
        simp only
        cases haction : route.action? r.method with
        | none => exact .inl rfl
        | some action =>
          cases action with
          | login => exact .inl rfl
          | forAll endpoint => exact .inl rfl
          | forCaller endpoint =>
            rw [serveCaller]
            cases hrun : run w { s with sessions } caller ps r endpoint with
            | error reply => exact .inl rfl
            | ok x =>
              obtain ⟨messages, s'⟩ := x
              rcases ledger_run hw hrun with hsame | ⟨c, a, hexecutes, hexecute⟩
              · exact .inl hsame
              · refine .inr ⟨session, c, a, hsession, ?_, hexecute⟩
                rw [← hidentity]
                exact permitted_of_executes haction hpermit hexecutes

/-- **A request changes the ledger by one permitted operation or not at all.** -/
theorem ledger_handle (hw : w.time.IsValid) (s : Service) (r : Request) :
    s.Changes w r (s.handle w r).2.ledger := by
  rw [handle]
  split
  · exact .inl rfl
  · show s.Changes w r (s.serve w r).2.ledger
    rw [serve]
    split
    · exact .inl rfl
    · next route raw _ =>
      have hroute : s.Changes w r (if route.isGuarded then s.serveGuarded w route raw r
          else (s.serveOpen w (route.action? r.method), s)).2.ledger := by
        split
        · rw [serveGuarded]
          split
          · exact .inl rfl
          · next ps _ =>
            simp only
            split
            · exact changes_authorize hw route ps
            · exact .inl (ledger_login w s r)
        · exact .inl rfl
      rw [serveRoute]
      simp only
      split
      · exact hroute
      · exact hroute

end Service

end Strongroom
