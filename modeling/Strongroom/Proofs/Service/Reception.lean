import Strongroom.Proofs.Service.Secrecy

/-!
# Requests that are not authenticated

Every request under a guarded route but a login comes before the authorizer (`Service.Arrives`),
unless it only asks in advance what may be sent or its path is no text.  The authorizer refuses it
for one of five reasons (`Service.Refuses`): the request is ill formed, the session is unknown, its
key is spent, the code does not fit, or the session has idled out.  Of these the caller learns which
header is wrong, and the other four are one to it.

A refused request learns nothing and changes nothing (`Service.refused_request_learns_nothing`).
The authorizer looks at the ledger only for a caller, and it touches the sessions only once the code
is known to fit.  So the reply depends on the method, the path and the error alone, and what is left
of the attempt is at most that a session which had idled out is gone.
-/

namespace Strongroom

open Http (Action Parameters Reply Request Route)

/-- The header with the next key is there exactly if there is a next key. -/
theorem Http.Reply.filter_headers_sessionKey (reply : Reply) :
    (reply.headers.filter fun header => header.1 = "x-auth-key") =
      reply.sessionKey.toList.map fun key => ("x-auth-key", utf8 (Base64.encode key.bytes)) := by
  simp [headers, List.filter_append, List.filter_map, Function.comp_def]

namespace Service

variable {w : Surroundings} {s : Service} {r : Request} {route : Route}
variable {raw : List (String × Bytes)} {ps : Parameters}

/-! ### The way to the authorizer -/

/-- A request is for a guarded route, and it is no login. -/
structure IsGuarded (r : Request) (route : Route) (raw : List (String × Bytes)) : Prop where
  path : Http.findRoute? r.target = some (route, raw)
  guarded : route.isGuarded = true
  noLogin : ¬IsLogin r

/-- A request comes before the authorizer, with the parameters in its path. -/
structure Arrives (r : Request) (route : Route) (raw : List (String × Bytes)) (ps : Parameters) :
    Prop extends IsGuarded r route raw where
  method : r.method ≠ "OPTIONS"
  parameters : Http.readParameters raw = .ok ps

/-- The id of a request. -/
def requestId (w : Surroundings) (r : Request) : Bytes :=
  (r.header "x-request-id").head?.getD w.requestId

/-- What becomes of the reply to a request under a route on its way to the caller. -/
def deliver (w : Surroundings) (r : Request) (route : Route) (reply : Reply) : Reply :=
  let reply := if (route.action? r.method).isSome then reply
    else { reply with allow := some route.methods }
  let reply := { reply with requestId := some (requestId w r) }
  if r.method = "HEAD" then reply.withoutBody else reply

@[simp] theorem sessionKey_deliver (w : Surroundings) (r : Request) (route : Route)
    (reply : Reply) : (deliver w r route reply).sessionKey = reply.sessionKey := by
  simp only [deliver, Reply.withoutBody]
  split <;> split <;> rfl

/-- What a caller gets depends on the request by its method and its id only. -/
theorem deliver_congr {w' : Surroundings} {r' : Request} (hmethod : r'.method = r.method)
    (hid : requestId w' r' = requestId w r) (route : Route) (reply : Reply) :
    deliver w' r' route reply = deliver w r route reply := by
  rw [deliver, deliver, hmethod, hid]

theorem IsGuarded.handle_eq (h : IsGuarded r route raw) (hmethod : r.method ≠ "OPTIONS")
    (w : Surroundings) (s : Service) :
    s.handle w r = (deliver w r route (s.serveGuarded w route raw r).1,
      (s.serveGuarded w route raw r).2) := by
  rw [handle, if_neg hmethod, serve, h.path]
  simp only [serveRoute, h.guarded, if_true]
  cases hserved : s.serveGuarded w route raw r with
  | mk reply s' =>
    by_cases haction : (route.action? r.method).isSome = true
    · simp only [deliver, haction, if_true]
      rfl
    · simp only [deliver, haction]
      rfl

/-- **A request that arrives is authorized.** -/
theorem Arrives.handle_eq (h : Arrives r route raw ps) (w : Surroundings) (s : Service) :
    s.handle w r =
      let answered := s.authorize w (Policy.of r.method route.pattern) ps r
        (route.action? r.method)
      (deliver w r route answered.1, answered.2) := by
  rw [h.toIsGuarded.handle_eq h.method, serveGuarded, h.parameters]
  simp only [authRequired_of_not_isLogin h.noLogin h.path, if_true]

/-- Two requests ask for the same thing: they have the same method, target and id. -/
structure AsksAlike (w : Surroundings) (r : Request) (w' : Surroundings) (r' : Request) : Prop where
  method : r'.method = r.method
  target : r'.target = r.target
  id : requestId w' r' = requestId w r

theorem AsksAlike.isGuarded {w' : Surroundings} {r' : Request} (h : AsksAlike w r w' r')
    (hguarded : IsGuarded r route raw) : IsGuarded r' route raw := by
  refine ⟨by rw [h.target]; exact hguarded.path, hguarded.guarded, fun hlogin => ?_⟩
  rw [IsLogin, h.method, h.target] at hlogin
  exact hguarded.noLogin hlogin

theorem AsksAlike.arrives_iff {w' : Surroundings} {r' : Request} (h : AsksAlike w r w' r')
    (hguarded : IsGuarded r route raw) : Arrives r' route raw ps ↔ Arrives r route raw ps :=
  ⟨fun h' => ⟨hguarded, h.method ▸ h'.method, h'.parameters⟩,
    fun h' => ⟨h.isGuarded hguarded, h.method ▸ h'.method, h'.parameters⟩⟩

/-- A request that does not arrive changes nothing, and it gets one reply, without a key, whatever
is stored and whoever is logged in. -/
theorem IsGuarded.handle_of_not_arrives (h : IsGuarded r route raw)
    (hnot : ∀ ps, ¬Arrives r route raw ps) (w : Surroundings) :
    ∃ reply : Reply, reply.sessionKey = none ∧
      ∀ w' s' r', AsksAlike w r w' r' → handle w' s' r' = (reply, s') := by
  by_cases hmethod : r.method = "OPTIONS"
  · refine ⟨{ Reply.empty 200 with allow := some route.methods }, rfl, fun w' s' r' halike => ?_⟩
    rw [handle, if_pos (halike.method.trans hmethod), methodsAt, halike.target, h.path]
    rfl
  · cases hps : Http.readParameters raw with
    | ok ps => exact absurd ⟨h, hmethod, hps⟩ (hnot ps)
    | error name =>
      refine ⟨deliver w r route (.plain 400 ("Invalid UTF-8 in \x60" ++ name ++ "\x60")),
        sessionKey_deliver _ _ _ _, fun w' s' r' halike => ?_⟩
      rw [(halike.isGuarded h).handle_eq (halike.method ▸ hmethod), serveGuarded, hps]
      exact congrArg (·, s') (deliver_congr halike.method halike.id _ _)

/-! ### Reasons to refuse -/

/-- A session has idled out, and the code of a request fits it. -/
def IdledOut (w : Surroundings) (s : Service) (r : Request) (id : UInt64) : Prop :=
  ∃ code session, Access.shown r = .ok (id, code) ∧ s.sessions.table.get? id = some session ∧
    session.accepts code r.target.context r.body = true ∧
    session.isExpired w.now s.sessions.config.idleTimeout = true

/-- Why a request is not authenticated, and what its sender is told about it. -/
inductive Refuses (w : Surroundings) (s : Service) (r : Request) : AuthError → Prop where
  /-- A header is missing or malformed, or the body cannot be taken. -/
  | illFormed {e : AuthError} (hshown : Access.shown r = .error e) : Refuses w s r e
  /-- There is no such session. -/
  | unknown {id : UInt64} {code : Bytes} (hshown : Access.shown r = .ok (id, code))
      (hnone : s.sessions.table.get? id = none) : Refuses w s r .sessionInvalid
  /-- The key of the session is spent. -/
  | spent {id : UInt64} {code : Bytes} {session : Session}
      (hshown : Access.shown r = .ok (id, code))
      (hsession : s.sessions.table.get? id = some session) (hkey : session.key = none) :
      Refuses w s r .sessionInvalid
  /-- The code is not that of the request under the key of the session. -/
  | forged {id : UInt64} {code : Bytes} {session : Session} {key : SessionKey}
      (hshown : Access.shown r = .ok (id, code))
      (hsession : s.sessions.table.get? id = some session) (hkey : session.key = some key)
      (hmac : RequestMac.verify key.bytes code r.target.context r.body = false) :
      Refuses w s r .sessionInvalid
  /-- The session has idled out. -/
  | idledOut {id : UInt64} (h : s.IdledOut w r id) : Refuses w s r .sessionInvalid

theorem Refuses.of_not_accepts {id : UInt64} {code : Bytes} {session : Session}
    (hshown : Access.shown r = .ok (id, code)) (hsession : s.sessions.table.get? id = some session)
    (haccepts : session.accepts code r.target.context r.body = false) :
    s.Refuses w r .sessionInvalid := by
  cases hkey : session.key with
  | none => exact .spent hshown hsession hkey
  | some key =>
    rw [Session.accepts, hkey] at haccepts
    exact .forged hshown hsession hkey haccepts

theorem refuses_or_authenticatedBy (w : Surroundings) (s : Service) (r : Request) :
    (∃ e, s.Refuses w r e) ∨ ∃ session, s.AuthenticatedBy w r session := by
  cases hshown : Access.shown r with
  | error e => exact .inl ⟨e, .illFormed hshown⟩
  | ok x =>
    obtain ⟨id, code⟩ := x
    cases hsession : s.sessions.table.get? id with
    | none => exact .inl ⟨_, .unknown hshown hsession⟩
    | some session =>
      cases haccepts : session.accepts code r.target.context r.body with
      | false => exact .inl ⟨_, .of_not_accepts hshown hsession haccepts⟩
      | true =>
        cases hexpired : session.isExpired w.now s.sessions.config.idleTimeout with
        | true => exact .inl ⟨_, .idledOut ⟨code, session, hshown, hsession, haccepts, hexpired⟩⟩
        | false => exact .inr ⟨session, id, code, hshown, hsession, haccepts, hexpired⟩

/-- A code that does not fit changes nothing. -/
theorem authenticate_of_not_accepts {id : UInt64} {code : Bytes} {session : Session}
    (hshown : Access.shown r = .ok (id, code)) (hsession : s.sessions.table.get? id = some session)
    (haccepts : session.accepts code r.target.context r.body = false) :
    (∀ id, ¬s.IdledOut w r id) ∧
      Access.authenticate s.sessions w.now r = (.error .sessionInvalid, s.sessions) := by
  refine ⟨?_, ?_⟩
  · rintro id' ⟨code', session', hshown', hsession', haccepts', -⟩
    rw [hshown] at hshown'
    cases hshown'
    rw [hsession] at hsession'
    cases hsession'
    rw [haccepts] at haccepts'
    cases haccepts'
  · simp [Access.authenticate, hshown, Sessions.validate, hsession, haccepts, AuthError.ofSession]

/-- **What the authorizer makes of a request that it refuses.** The sessions stay as they are,
unless one has idled out. -/
theorem Refuses.authenticate_eq {e : AuthError} (h : s.Refuses w r e) :
    (∃ id, s.IdledOut w r id ∧ Access.authenticate s.sessions w.now r =
      (.error e, { s.sessions with table := s.sessions.table.erase id })) ∨
    (∀ id, ¬s.IdledOut w r id) ∧
      Access.authenticate s.sessions w.now r = (.error e, s.sessions) := by
  cases h with
  | illFormed hshown =>
    refine .inr ⟨?_, ?_⟩
    · rintro id ⟨code, session, hshown', -⟩
      rw [hshown] at hshown'
      cases hshown'
    · rw [Access.authenticate, hshown]
  | unknown hshown hnone =>
    refine .inr ⟨?_, ?_⟩
    · rintro id ⟨code, session, hshown', hsession', -⟩
      rw [hshown] at hshown'
      cases hshown'
      rw [hnone] at hsession'
      cases hsession'
    · simp only [Access.authenticate, hshown, Sessions.validate, hnone]
      rfl
  | spent hshown hsession hkey =>
    exact .inr (authenticate_of_not_accepts hshown hsession (by rw [Session.accepts, hkey]; rfl))
  | forged hshown hsession hkey hmac =>
    refine .inr (authenticate_of_not_accepts hshown hsession ?_)
    rw [Session.accepts, hkey]
    exact hmac
  | @idledOut id hidle =>
    refine .inl ⟨id, hidle, ?_⟩
    obtain ⟨code, session, hshown, hsession, haccepts, hexpired⟩ := hidle
    simp [Access.authenticate, hshown, Sessions.validate, hsession, haccepts, hexpired,
      AuthError.ofSession]

theorem Refuses.not_authenticatedBy {e : AuthError} (h : s.Refuses w r e) (session : Session) :
    ¬s.AuthenticatedBy w r session := by
  rintro ⟨id, code, hshown, hsession, haccepts, hexpired⟩
  have hok : (Access.authenticate s.sessions w.now r).1 = .ok ⟨id, session.identity⟩ := by
    simp [Access.authenticate, hshown, Sessions.validate, hsession, haccepts, hexpired]
  rcases h.authenticate_eq with ⟨_, -, heq⟩ | ⟨-, heq⟩
  · rw [heq] at hok
    cases hok
  · rw [heq] at hok
    cases hok

/-! ### What a refused request gets -/

/-- **A refused request that arrives gets the error**, and the ledger and the sessions are as the
authorizer leaves them. -/
theorem Refuses.handle_eq {e : AuthError} (h : s.Refuses w r e)
    (harrives : Arrives r route raw ps) :
    s.handle w r = (deliver w r route (Http.Failure.ofAuth e).reply,
      { s with sessions := (Access.authenticate s.sessions w.now r).2 }) := by
  rw [harrives.handle_eq w s]
  have herror : (Access.authenticate s.sessions w.now r).1 = .error e := by
    rcases h.authenticate_eq with ⟨_, -, heq⟩ | ⟨-, heq⟩ <;> rw [heq]
  have heq : Access.authenticate s.sessions w.now r =
      (.error e, (Access.authenticate s.sessions w.now r).2) := Prod.ext herror rfl
  simp only [authorize]
  rw [heq]

/-- Requests that ask for the same thing and are refused for the same reason get the same reply,
whatever is stored and whoever is logged in. -/
theorem Refuses.reply_eq {e : AuthError} {w' : Surroundings} {s' : Service} {r' : Request}
    (h : s.Refuses w r e) (h' : s'.Refuses w' r' e) (hguarded : IsGuarded r route raw)
    (halike : AsksAlike w r w' r') : (s'.handle w' r').1 = (s.handle w r).1 := by
  by_cases harrives : ∃ ps, Arrives r route raw ps
  · obtain ⟨ps, harrives⟩ := harrives
    rw [h.handle_eq harrives, h'.handle_eq ((halike.arrives_iff hguarded).2 harrives)]
    exact deliver_congr halike.method halike.id _ _
  · -- neither request comes before the authorizer, so why they would be refused does not matter
    obtain ⟨reply, -, heq⟩ := hguarded.handle_of_not_arrives (not_exists.1 harrives) w
    rw [heq w s r ⟨rfl, rfl, rfl⟩, heq w' s' r' halike]

/-- The ledger has no part in a refusal. -/
theorem Refuses.withLedger {e : AuthError} (h : s.Refuses w r e) (l : Ledger) :
    Refuses w { s with ledger := l } r e := by
  cases h with
  | illFormed hshown => exact .illFormed hshown
  | unknown hshown hnone => exact .unknown hshown hnone
  | spent hshown hsession hkey => exact .spent hshown hsession hkey
  | forged hshown hsession hkey hmac => exact .forged hshown hsession hkey hmac
  | idledOut h => exact .idledOut h

/-- A refused request keeps the ledger, gets no key, and leaves the sessions as they are or as the
authorizer leaves them. -/
theorem Refuses.keeps {e : AuthError} (h : s.Refuses w r e) (hguarded : IsGuarded r route raw) :
    (s.handle w r).2.ledger = s.ledger ∧ (s.handle w r).1.sessionKey = none ∧
      ((s.handle w r).2.sessions = s.sessions ∨ ∃ id, s.IdledOut w r id ∧
        (s.handle w r).2.sessions =
          { s.sessions with table := s.sessions.table.erase id }) := by
  by_cases harrives : ∃ ps, Arrives r route raw ps
  · obtain ⟨ps, harrives⟩ := harrives
    rw [h.handle_eq harrives]
    refine ⟨rfl, sessionKey_deliver _ _ _ _, ?_⟩
    rcases h.authenticate_eq with ⟨id, hidle, heq⟩ | ⟨-, heq⟩
    · exact .inr ⟨id, hidle, by rw [heq]⟩
    · exact .inl (by rw [heq])
  · obtain ⟨reply, hkey, heq⟩ := hguarded.handle_of_not_arrives (not_exists.1 harrives) w
    rw [heq w s r ⟨rfl, rfl, rfl⟩]
    exact ⟨rfl, hkey, .inl rfl⟩

/-- **A request that is not authenticated learns nothing and changes nothing.**  For any state and
any request under a guarded route but a login: the request is refused for one of the reasons above
or a session authenticates it, and not both.  If it is refused, the ledger is unchanged and the
reply carries no key.  The reply is the same for every ledger, and the same in any other state in
which a request for the same thing is refused with the same error; an unknown session, a spent key,
a code that does not fit and a session that has idled out give one error.  The sessions are
unchanged, except that a session which had idled out is removed once its code has been checked. -/
theorem refused_request_learns_nothing (hguarded : IsGuarded r route raw) (w : Surroundings)
    (s : Service) :
    ((∃ e, s.Refuses w r e) ↔ ¬∃ session, s.AuthenticatedBy w r session) ∧
      ∀ e, s.Refuses w r e →
        (s.handle w r).2.ledger = s.ledger ∧
        ((s.handle w r).1.headers.filter fun header => header.1 = "x-auth-key") = [] ∧
        (∀ l, (handle w { s with ledger := l } r).1 = (s.handle w r).1) ∧
        (∀ w' s' r', Refuses w' s' r' e → AsksAlike w r w' r' →
          (s'.handle w' r').1 = (s.handle w r).1) ∧
        ((s.handle w r).2.sessions = s.sessions ∨ ∃ id, s.IdledOut w r id ∧
          (s.handle w r).2.sessions =
            { s.sessions with table := s.sessions.table.erase id }) ∧
        ∀ id ps, s.IdledOut w r id → Arrives r route raw ps →
          (s.handle w r).2.sessions =
            { s.sessions with table := s.sessions.table.erase id } := by
  refine ⟨⟨fun ⟨e, h⟩ ⟨session, hsession⟩ => h.not_authenticatedBy session hsession,
    (refuses_or_authenticatedBy w s r).resolve_right⟩, fun e h => ?_⟩
  obtain ⟨hledger, hkey, hsessions⟩ := h.keeps hguarded
  refine ⟨hledger, ?_, fun l => ?_, fun w' s' r' h' halike => ?_, hsessions,
    fun id ps hidle harrives => ?_⟩
  · rw [Reply.filter_headers_sessionKey, hkey]
    rfl
  · exact h.reply_eq (h.withLedger l) hguarded ⟨rfl, rfl, rfl⟩
  · exact h.reply_eq h' hguarded halike
  · rw [h.handle_eq harrives]
    rcases h.authenticate_eq with ⟨id', hidle', heq⟩ | ⟨hnone, -⟩
    · obtain ⟨code, -, hshown, -⟩ := hidle
      obtain ⟨code', -, hshown', -⟩ := hidle'
      rw [hshown] at hshown'
      cases hshown'
      rw [heq]
    · exact absurd hidle (hnone id)

theorem arrives_sampleGrant :
    Arrives sampleGrant .keyUser [("name", utf8 "db"), ("user", utf8 "ann")]
      [("name", "db"), ("user", "ann")] :=
  ⟨⟨by decide +kernel, rfl, fun hlogin => absurd hlogin.1 (by decide)⟩, by decide,
    by decide +kernel⟩

/-- The request of the example shows the code of the request under the key of its session. -/
theorem shown_sampleGrant :
    ∃ code, Access.shown sampleGrant = .ok (7, code) ∧
      RequestMac.verify (Octets.zero 32).bytes code sampleGrant.target.context sampleGrant.body =
        true := by
  obtain ⟨id, code, hshown, hsession, haccepts, -⟩ := authenticatedBy_sampleGrant
  obtain rfl : id = 7 := by
    by_contra hne
    rw [sampleService, Table.get?_insert, if_neg hne] at hsession
    cases hsession
  exact ⟨code, hshown, haccepts⟩

/-- The request of the example with a code that does not fit. -/
def sampleForged : Request :=
  { sampleGrant with headers := [("session-id", utf8 "7"), ("x-auth-mac", utf8 "AQ==")] }

/-- The surroundings of the example after the session has idled out. -/
def sampleLater : Surroundings := { sampleSurroundings with now := 300000 }

theorem refused_request_learns_nothing_sampleForged :
    let s := sampleService
    IsGuarded sampleGrant .keyUser [("name", utf8 "db"), ("user", utf8 "ann")] ∧
      s.Refuses sampleSurroundings sampleForged .sessionInvalid ∧
      s.Refuses sampleLater sampleGrant .sessionInvalid ∧
      (s.handle sampleSurroundings sampleForged).1 = (s.handle sampleLater sampleGrant).1 ∧
      (s.handle sampleLater sampleGrant).2.ledger = s.ledger ∧
      (s.handle sampleLater sampleGrant).2.sessions =
        { s.sessions with table := s.sessions.table.erase 7 } := by
  intro s
  have hforged : s.Refuses sampleSurroundings sampleForged .sessionInvalid :=
    @Refuses.forged _ _ _ 7 [1] ⟨⟨"ann", "default", false, false⟩, some (Octets.zero 32), none, 0⟩ _
      (by decide +kernel) (by decide +kernel) rfl (by decide +kernel)
  have hidle : s.IdledOut sampleLater sampleGrant 7 := by
    obtain ⟨code, hshown, hverify⟩ := shown_sampleGrant
    exact ⟨code, ⟨⟨"ann", "default", false, false⟩, some (Octets.zero 32), none, 0⟩, hshown,
      by decide +kernel, hverify, by decide +kernel⟩
  have hguarded := arrives_sampleGrant.toIsGuarded
  obtain ⟨hledger, -, -, halike, -, hremoved⟩ :=
    (refused_request_learns_nothing hguarded sampleLater s).2 _ (.idledOut hidle)
  exact ⟨hguarded, hforged, .idledOut hidle, halike _ _ _ hforged ⟨rfl, rfl, rfl⟩, hledger,
    hremoved 7 _ hidle arrives_sampleGrant⟩

end Service

end Strongroom
