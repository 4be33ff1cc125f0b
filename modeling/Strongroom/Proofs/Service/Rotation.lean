import Strongroom.Proofs.Service.Dispatch
import Strongroom.Proofs.Service.Reception
import Strongroom.Proofs.Session.Trace
import Strongroom.Proofs.Text.Base64

/-!
# The next key

A code that is accepted spends the key of its session, so a caller who is not given another one is
locked out.  The authorizer therefore gives the session its next key whatever has become of the
request (`Service.accepted_request_rotates`): the policy may refuse the caller, the path may not
have the method, the message may be no good, the ledger may fail.

Between the acceptance and the next key only endpoints have the sessions in their hands.  All of
them but one hand on the sessions as they got them (`Service.keepsSessions_run`), so what is rotated
is what the acceptance has left.  The one is the logout, behind which there is nothing to rotate.
-/

namespace Strongroom

open Http (Action Endpoint Parameters Reply Request Route)

namespace Service

variable {w : Surroundings} {s : Service} {r : Request} {route : Route}
variable {raw : List (String × Bytes)} {ps : Parameters} {caller : Access.Caller}

/-! ### Endpoints keep the sessions -/

/-- What an endpoint does leaves the sessions as they are. -/
def KeepsSessions (s : Service) : Outcome → Prop
  | .ok (_, s') => s'.sessions = s.sessions
  | .error _ => True

theorem KeepsSessions.bind {α : Type} {x : Except Reply α} {f : α → Outcome}
    (h : ∀ a, s.KeepsSessions (f a)) : s.KeepsSessions (x >>= f) := by
  cases x with
  | ok a => exact h a
  | error reply => exact trivial

theorem keepsSessions_answer (s : Service) (items : List Bytes) :
    s.KeepsSessions (s.answer items) :=
  rfl

theorem keepsSessions_acknowledge (s : Service) (l : Ledger) (words : String) :
    s.KeepsSessions (s.acknowledge l words) :=
  rfl

/-- **Every endpoint but the logout keeps the sessions.** -/
theorem keepsSessions_run {endpoint : Endpoint} (hlogout : endpoint ≠ .logout) :
    s.KeepsSessions (s.run w caller ps r endpoint) := by
  cases endpoint with
  | logout => exact absurd rfl hlogout
  | listAccessible => exact .bind fun _ => s.keepsSessions_answer _
  | createSecret =>
    exact .bind fun m => .bind fun payload => .bind fun superKey => .bind fun creatorKey =>
      .bind fun l => s.keepsSessions_acknowledge l _
  | fetchSecret => exact .bind fun _ => s.keepsSessions_answer _
  | deleteSecret => exact .bind fun l => s.keepsSessions_acknowledge l _
  | assignToGroup =>
    exact .bind fun m => .bind fun key => .bind fun l => s.keepsSessions_acknowledge l _
  | revokeFromGroup => exact .bind fun x => s.keepsSessions_acknowledge x.2 _
  | assignToPrincipal =>
    exact .bind fun m => .bind fun key => .bind fun l => s.keepsSessions_acknowledge l _
  | revokeFromPrincipal => exact .bind fun x => s.keepsSessions_acknowledge x.2 _
  | listSecrets => exact .bind fun _ => s.keepsSessions_answer _
  | listGroups => exact .bind fun _ => s.keepsSessions_answer _
  | createGroup =>
    show s.KeepsSessions (s.createGroup w r)
    rw [createGroup]
    split
    · exact trivial
    · exact .bind fun m => .bind fun publicKey => .bind fun sealedPrivateKey =>
        .bind fun l => s.keepsSessions_acknowledge l _
  | getGroup => exact .bind fun group => .bind fun member => s.keepsSessions_answer _
  | deleteGroup => exact .bind fun l => s.keepsSessions_acknowledge l _
  | register =>
    refine .bind fun m => .bind fun _ => ?_
    split
    · exact trivial
    · exact .bind fun publicKey => .bind fun passwordHash =>
        .bind fun l => s.keepsSessions_acknowledge l _
  | getUser => exact .bind fun p => s.keepsSessions_answer _
  | deleteUser =>
    show s.KeepsSessions (s.deleteUser caller ps)
    rw [deleteUser]
    split
    · exact trivial
    · exact .bind fun l => s.keepsSessions_acknowledge l _
  | reassign =>
    refine .bind fun m => ?_
    split
    · exact trivial
    · exact .bind fun sealedGroupKey => .bind fun l => s.keepsSessions_acknowledge l _

/-! ### Between the acceptance and the next key -/

/-- What comes of a request whose code has been accepted, before its session gets the next key. -/
def answerCaller (w : Surroundings) (s : Service) (caller : Access.Caller) (route : Route)
    (ps : Parameters) (r : Request) : Reply × Service :=
  match Access.permit (Policy.of r.method route.pattern) s.ledger caller.identity
      (ps.lookup "name") with
  | .error e => ((Http.Failure.ofAuth e).reply, s)
  | .ok () => s.serveCaller w caller ps r (route.action? r.method)

/-- Only a logout that is let through touches the sessions. -/
theorem sessions_answerCaller
    (hlogout : ¬(Access.permit (Policy.of r.method route.pattern) s.ledger caller.identity
        (ps.lookup "name") = .ok () ∧ route.action? r.method = some (.forCaller .logout))) :
    (s.answerCaller w caller route ps r).2.sessions = s.sessions := by
  rw [answerCaller]
  split
  · rfl
  · next hpermit =>
    cases haction : route.action? r.method with
    | none => rfl
    | some action =>
      cases action with
      | login => rfl
      | forAll endpoint => rfl
      | forCaller endpoint =>
        have hkeeps : s.KeepsSessions (s.run w caller ps r endpoint) :=
          keepsSessions_run fun heq => hlogout ⟨hpermit, heq ▸ haction⟩
        rw [serveCaller]
        split
        · next messages s' hrun =>
          rw [hrun] at hkeeps
          exact hkeeps
        · rfl

/-- The service with a session put in its place. -/
def putSession (s : Service) (id : UInt64) (session : Session) : Service :=
  { s with sessions := { s.sessions with table := s.sessions.table.insert id session } }

@[simp] theorem ledger_putSession (s : Service) (id : UInt64) (session : Session) :
    (s.putSession id session).ledger = s.ledger :=
  rfl

@[simp] theorem table_putSession (s : Service) (id : UInt64) (session : Session) :
    (s.putSession id session).sessions.table = s.sessions.table.insert id session :=
  rfl

/-- **A session that is there gets its next key**, which is neither the live nor the retired one,
and the reply carries the key.  This is so at whatever time it happens. -/
theorem rotateKey_eq {id : UInt64} {session : Session} (reply : Reply)
    (h : s.sessions.table.get? id = some session) (w : Surroundings) :
    ∃ next, session.key ≠ some next ∧ session.retired ≠ some next ∧
      rotateKey w id (reply, s) = ({ reply with sessionKey := some next },
        s.putSession id ⟨session.identity, some next, session.key <|> session.retired, w.now⟩) := by
  rcases s.sessions.nextKey_cases w.now id w.sessionKey with
    ⟨session', next, hsession, hlive, hretired, heq⟩ | ⟨hnone, -⟩
  · rw [h] at hsession
    cases hsession
    refine ⟨next, hlive, hretired, ?_⟩
    rw [rotateKey, heq]
    rfl
  · rw [h] at hnone
    cases hnone

/-! ### Accepted requests -/

/-- The code of a request is accepted under the live key of a session. -/
structure Accepts (w : Surroundings) (s : Service) (r : Request) (route : Route)
    (raw : List (String × Bytes)) (ps : Parameters) (id : UInt64) (session : Session)
    (key : SessionKey) : Prop extends Arrives r route raw ps where
  shown : ∃ code, Access.shown r = .ok (id, code) ∧
    RequestMac.verify key.bytes code r.target.context r.body = true
  there : s.sessions.table.get? id = some session
  live : session.key = some key
  current : session.isExpired w.now s.sessions.config.idleTimeout = false

variable {id : UInt64} {session : Session} {key : SessionKey}

/-- The service once the code of a request has been accepted in a session. -/
def accepted (w : Surroundings) (s : Service) (id : UInt64) (session : Session) : Service :=
  s.putSession id (session.retire w.now)

theorem Accepts.authenticate_eq (h : s.Accepts w r route raw ps id session key) :
    Access.authenticate s.sessions w.now r =
      (.ok ⟨id, session.identity⟩, (s.accepted w id session).sessions) := by
  obtain ⟨code, hshown, hverify⟩ := h.shown
  have haccepts : session.accepts code r.target.context r.body = true := by
    rw [Session.accepts, h.live]
    exact hverify
  simp [Access.authenticate, hshown, Sessions.validate, h.there, haccepts, h.current, accepted,
    putSession]

/-- What comes of a request that has been accepted in a session, if its session gets the next key at
the time `later`. -/
def conclude (w : Surroundings) (s : Service) (route : Route) (ps : Parameters) (r : Request)
    (id : UInt64) (session : Session) (later : Nat) : Reply × Service :=
  let answered := rotateKey { w with now := later } id
    ((s.accepted w id session).answerCaller w ⟨id, session.identity⟩ route ps r)
  (deliver w r route answered.1, answered.2)

/-- **What comes of an accepted request** is what its caller gets, and then the rotation. -/
theorem Accepts.handle_eq (h : s.Accepts w r route raw ps id session key) :
    s.handle w r = s.conclude w route ps r id session w.now := by
  rw [h.toArrives.handle_eq w s, authorize, h.authenticate_eq]
  rfl

/-- An endpoint is reached exactly if the policy lets the caller through and the method leads there.
-/
theorem Accepts.reaches_iff (h : s.Accepts w r route raw ps id session key) (endpoint : Endpoint) :
    s.Reaches w r ⟨id, session.identity⟩ ps endpoint route raw ↔
      Access.permit (Policy.of r.method route.pattern) s.ledger session.identity
        (ps.lookup "name") = .ok () ∧ route.action? r.method = some (.forCaller endpoint) :=
  ⟨fun hreaches => ⟨hreaches.permitted, hreaches.action⟩, fun ⟨hpermit, haction⟩ =>
    ⟨h.method, h.path, haction, h.parameters, by rw [h.authenticate_eq], hpermit⟩⟩

/-- Behind an accepted request that is no logout, the session has a new key and the reply has it
too. -/
theorem Accepts.rotates (h : s.Accepts w r route raw ps id session key)
    (hlogout : ¬s.Reaches w r ⟨id, session.identity⟩ ps .logout route raw) (later : Nat) :
    ∃ next, next ≠ key ∧
      (s.conclude w route ps r id session later).1.sessionKey = some next ∧
      (s.conclude w route ps r id session later).2.sessions.table =
        (s.accepted w id session).sessions.table.insert id
          ⟨session.identity, some next, some key, later⟩ := by
  rw [h.reaches_iff] at hlogout
  have hsessions : ((s.accepted w id session).answerCaller w ⟨id, session.identity⟩ route ps
      r).2.sessions = (s.accepted w id session).sessions := sessions_answerCaller hlogout
  rw [conclude]
  generalize (s.accepted w id session).answerCaller w ⟨id, session.identity⟩ route ps r = answered
    at hsessions
  obtain ⟨reply, s'⟩ := answered
  replace hsessions : s'.sessions = (s.accepted w id session).sessions := hsessions
  have hthere : s'.sessions.table.get? id = some (session.retire w.now) := by
    rw [hsessions, accepted, table_putSession, Table.get?_insert, if_pos rfl]
  -- the key that the request has spent is the retired one by now
  obtain ⟨next, -, hretired, heq⟩ := rotateKey_eq reply hthere { w with now := later }
  refine ⟨next, fun hsame => hretired ?_, ?_, ?_⟩
  · rw [hsame]
    exact h.live
  · rw [heq]
    exact sessionKey_deliver _ _ _ _
  · have hrotated : ((session.retire w.now).key <|> (session.retire w.now).retired) = some key :=
      h.live
    rw [heq, hrotated, ← hsessions]
    rfl

/-- Behind an accepted logout the session is gone, and the reply has no key. -/
theorem Accepts.closes (h : s.Accepts w r route raw ps id session key)
    (hlogout : s.Reaches w r ⟨id, session.identity⟩ ps .logout route raw) (later : Nat) :
    (s.conclude w route ps r id session later).1.sessionKey = none ∧
      (s.conclude w route ps r id session later).2.sessions.table =
        (s.accepted w id session).sessions.table.erase id := by
  obtain ⟨hpermit, haction⟩ := (h.reaches_iff _).1 hlogout
  have hanswer : (s.accepted w id session).answerCaller w ⟨id, session.identity⟩ route ps r =
      (.messages [Message.Response.toJson ⟨"logged out"⟩], { s.accepted w id session with
        sessions := ((s.accepted w id session).sessions.logout id).2 }) := by
    rw [answerCaller, haction, accepted, ledger_putSession, hpermit]
    rfl
  have hnone : ((s.accepted w id session).sessions.logout id).2.table.get? id = none := by
    rw [Sessions.logout, Table.get?_erase, if_pos rfl]
  rw [conclude, hanswer]
  simp only [rotateKey, Sessions.nextKey, hnone]
  exact ⟨sessionKey_deliver _ _ _ _, rfl⟩

/-- **An accepted request ends in exactly one rotation.**  The state is any, with rows that do not
parse too, and the request any under a guarded route but a login whose code is accepted under the
live key of a session.  The service handles it at one time, but the statement holds whenever the
rotation happens.  Unless the logout has run, the session is still there, with the same identity and
a new live key, and active at the time of the rotation; and the reply carries one header with a key,
which is the base64 of the new one.  If the logout has run, the session is gone and there is no such
header.  No other session is touched. -/
theorem accepted_request_rotates (h : s.Accepts w r route raw ps id session key) :
    s.handle w r = s.conclude w route ps r id session w.now ∧ ∀ later,
      let concluded := s.conclude w route ps r id session later
      (¬s.Reaches w r ⟨id, session.identity⟩ ps .logout route raw →
        ∃ next text, next ≠ key ∧
          concluded.2.sessions.table.get? id =
            some ⟨session.identity, some next, some key, later⟩ ∧
          (concluded.1.headers.filter fun header => header.1 = "x-auth-key") =
            [("x-auth-key", utf8 text)] ∧
          Base64.decode? text = some next.bytes) ∧
      (s.Reaches w r ⟨id, session.identity⟩ ps .logout route raw →
        concluded.2.sessions.table.get? id = none ∧
          (concluded.1.headers.filter fun header => header.1 = "x-auth-key") = []) ∧
      ∀ other, other ≠ id →
        concluded.2.sessions.table.get? other = s.sessions.table.get? other := by
  refine ⟨h.handle_eq, fun later => ?_⟩
  dsimp only
  refine ⟨fun hlogout => ?_, fun hlogout => ?_, fun other hother => ?_⟩
  · obtain ⟨next, hne, hkey, htable⟩ := h.rotates hlogout later
    refine ⟨next, Base64.encode next.bytes, hne, ?_, ?_, Base64.decode?_encode _⟩
    · rw [htable, Table.get?_insert, if_pos rfl]
    · rw [Reply.filter_headers_sessionKey, hkey]
      rfl
  · obtain ⟨hkey, htable⟩ := h.closes hlogout later
    refine ⟨?_, ?_⟩
    · rw [htable, Table.get?_erase, if_pos rfl]
    · rw [Reply.filter_headers_sessionKey, hkey]
      rfl
  · have haccepted : (s.accepted w id session).sessions.table.get? other =
        s.sessions.table.get? other := by
      rw [accepted, table_putSession, Table.get?_insert, if_neg hother]
    by_cases hlogout : s.Reaches w r ⟨id, session.identity⟩ ps .logout route raw
    · rw [(h.closes hlogout later).2, Table.get?_erase, if_neg hother, haccepted]
    · obtain ⟨next, -, -, htable⟩ := h.rotates hlogout later
      rw [htable, Table.get?_insert, if_neg hother, haccepted]

theorem accepted_request_rotates_sampleGrant :
    let s := sampleService
    let w := sampleSurroundings
    let session : Session := ⟨⟨"ann", "default", false, false⟩, some (Octets.zero 32), none, 0⟩
    s.Accepts w sampleGrant .keyUser [("name", utf8 "db"), ("user", utf8 "ann")]
        [("name", "db"), ("user", "ann")] 7 session (Octets.zero 32) ∧
      ∃ next text, next ≠ Octets.zero 32 ∧
        (s.handle w sampleGrant).2.sessions.table.get? 7 =
          some ⟨session.identity, some next, some (Octets.zero 32), 1⟩ ∧
        ((s.handle w sampleGrant).1.headers.filter fun header => header.1 = "x-auth-key") =
          [("x-auth-key", utf8 text)] ∧
        Base64.decode? text = some next.bytes := by
  intro s w session
  have haccepts : s.Accepts w sampleGrant .keyUser [("name", utf8 "db"), ("user", utf8 "ann")]
      [("name", "db"), ("user", "ann")] 7 session (Octets.zero 32) :=
    ⟨arrives_sampleGrant, shown_sampleGrant, by decide +kernel, rfl, by decide +kernel⟩
  obtain ⟨heq, hrotates⟩ := accepted_request_rotates haccepts
  rw [heq]
  exact ⟨haccepts, (hrotates 1).1 fun hreaches => absurd hreaches.action (by decide)⟩

end Service

end Strongroom
