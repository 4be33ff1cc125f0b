import Strongroom.Proofs.Service.Dispatch

/-!
# What the status of a reply says

An endpoint that fails does so with the status of a failure (`Service.failsAloud_run`): every piece
that it is made of does, and the property passes through `bind`.  So a reply of 200 to a request for
an endpoint says that the request has reached the endpoint and that the endpoint has done its work
(`Service.of_status_eq_ok`); conversely, whoever reaches an endpoint that does its work gets 200 and
the messages (`Service.Reaches.answer`).
-/

namespace Strongroom

open Http (Endpoint Parameters Reply Request Route)

theorem Http.NoMessage.le_status (e : NoMessage) : 400 ≤ e.reply.status := by
  cases e <;> decide

theorem Http.Failure.le_status_ofLedger (e : Ledger.Error) :
    400 ≤ (Failure.ofLedger e).reply.status := by
  show 400 ≤ (Failure.ofRefusal e.detail e.kind).status
  cases e.kind with
  | invalidInput => exact Nat.le_refl 400
  | notFound => exact Nat.le_add_right 400 4
  | duplicateName => exact Nat.le_add_right 400 9
  | forbidden => exact Nat.le_add_right 400 3
  | corruptRow => exact Nat.le_add_right 400 100

theorem Http.Failure.le_status_ofCrypto (e : CryptoError) :
    400 ≤ (Failure.ofCrypto e).reply.status := by
  show 400 ≤ (Failure.ofCrypto e).status
  cases e with
  | invalidInput detail => exact Nat.le_refl 400
  | decryptionFailed => exact Nat.le_refl 400
  | failure detail => exact Nat.le_add_right 400 100

namespace Service

variable {w : Surroundings} {s s' : Service} {r : Request} {caller : Access.Caller}
variable {ps : Parameters} {endpoint : Endpoint} {route : Route} {raw : List (String × Bytes)}
variable {messages : List Bytes}

/-! ### Failing aloud -/

/-- If there is no result, the reply has the status of a failure. -/
def FailsAloud {α : Type} (x : Except Reply α) : Prop :=
  ∀ reply, x = .error reply → 400 ≤ reply.status

theorem failsAloud_ok {α : Type} (a : α) : FailsAloud (.ok a) := by
  intro reply h
  cases h

theorem failsAloud_error {α : Type} {reply : Reply} (h : 400 ≤ reply.status) :
    FailsAloud (.error reply : Except Reply α) := by
  intro reply' heq
  cases heq
  exact h

theorem FailsAloud.bind {α β : Type} {x : Except Reply α} {f : α → Except Reply β}
    (hx : FailsAloud x) (hf : ∀ a, FailsAloud (f a)) : FailsAloud (x >>= f) := by
  cases x with
  | ok a => exact hf a
  | error reply => exact failsAloud_error (hx reply rfl)

theorem failsAloud_ofLedger {α : Type} (x : Except Ledger.Error α) : FailsAloud (ofLedger x) := by
  cases x with
  | ok a => exact failsAloud_ok a
  | error e => exact failsAloud_error (Http.Failure.le_status_ofLedger e)

theorem failsAloud_ofCrypto {α : Type} (x : Except CryptoError α) : FailsAloud (ofCrypto x) := by
  cases x with
  | ok a => exact failsAloud_ok a
  | error e => exact failsAloud_error (Http.Failure.le_status_ofCrypto e)

theorem failsAloud_messageOf {α : Type} (r : Request) (layout : Json.Layout α) :
    FailsAloud (messageOf r layout) := by
  rw [messageOf]
  cases r.message layout.read with
  | ok a => exact failsAloud_ok a
  | error e => exact failsAloud_error e.le_status

theorem failsAloud_badRequest {α : Type} (words : String) :
    FailsAloud (fail (.badRequest words) : Except Reply α) :=
  failsAloud_error (Nat.le_refl 400)

theorem failsAloud_optionalBytes (value field : String) :
    FailsAloud (optionalBytes value field) := by
  rw [optionalBytes]
  split
  · exact failsAloud_ok _
  · split
    · exact failsAloud_badRequest _
    · exact failsAloud_ok _

theorem failsAloud_requiredBytes (value field : String) :
    FailsAloud (requiredBytes value field) := by
  refine (failsAloud_optionalBytes value field).bind fun bytes => ?_
  cases bytes with
  | none => exact failsAloud_badRequest _
  | some bytes => exact failsAloud_ok _

/-- **An endpoint that fails does so with the status of a failure.** -/
theorem failsAloud_run (w : Surroundings) (s : Service) (caller : Access.Caller) (ps : Parameters)
    (r : Request) (endpoint : Endpoint) : FailsAloud (s.run w caller ps r endpoint) := by
  -- what comes behind the last step of an endpoint always succeeds
  have hlast : ∀ {α : Type} (x : Except Ledger.Error α) (f : α → List Bytes × Service),
      FailsAloud (ofLedger x >>= fun a => .ok (f a)) :=
    fun x f => (failsAloud_ofLedger x).bind fun a => failsAloud_ok _
  cases endpoint with
  | logout => exact failsAloud_ok _
  | listAccessible => exact hlast _ _
  | createSecret =>
    exact (failsAloud_messageOf _ _).bind fun m =>
      (failsAloud_requiredBytes _ _).bind fun payload =>
      (failsAloud_requiredBytes _ _).bind fun superKey =>
      (failsAloud_optionalBytes _ _).bind fun creatorKey => hlast _ _
  | fetchSecret => exact hlast _ _
  | deleteSecret => exact hlast _ _
  | assignToGroup =>
    exact (failsAloud_messageOf _ _).bind fun m => (failsAloud_requiredBytes _ _).bind fun key =>
      hlast _ _
  | revokeFromGroup => exact hlast _ _
  | assignToPrincipal =>
    exact (failsAloud_messageOf _ _).bind fun m => (failsAloud_requiredBytes _ _).bind fun key =>
      hlast _ _
  | revokeFromPrincipal => exact hlast _ _
  | listSecrets => exact hlast _ _
  | listGroups => exact hlast _ _
  | createGroup =>
    show FailsAloud (s.createGroup w r)
    rw [createGroup]
    split
    · exact failsAloud_error (Nat.le_refl 400)
    · exact (failsAloud_messageOf _ _).bind fun m =>
        (failsAloud_requiredBytes _ _).bind fun publicKey =>
        (failsAloud_requiredBytes _ _).bind fun sealedPrivateKey => hlast _ _
  | getGroup =>
    exact (failsAloud_ofLedger _).bind fun group => hlast _ _
  | deleteGroup => exact hlast _ _
  | register =>
    refine (failsAloud_messageOf _ _).bind fun m => (failsAloud_ofLedger _).bind fun _ => ?_
    split
    · exact failsAloud_badRequest _
    · exact (failsAloud_requiredBytes _ _).bind fun publicKey =>
        (failsAloud_ofCrypto _).bind fun passwordHash => hlast _ _
  | getUser => exact hlast _ _
  | deleteUser =>
    show FailsAloud (s.deleteUser caller ps)
    rw [deleteUser]
    split
    · exact failsAloud_error (by decide)
    · exact hlast _ _
  | reassign =>
    refine (failsAloud_messageOf _ _).bind fun m => ?_
    split
    · exact failsAloud_badRequest _
    · exact (failsAloud_optionalBytes _ _).bind fun sealedGroupKey => hlast _ _

/-! ### Success -/

/-- The service once the authorizer has looked at a request. -/
def admitted (w : Surroundings) (s : Service) (r : Request) : Service :=
  { s with sessions := (Access.authenticate s.sessions w.now r).2 }

@[simp] theorem ledger_admitted (w : Surroundings) (s : Service) (r : Request) :
    (s.admitted w r).ledger = s.ledger :=
  rfl

theorem body_rotateKey (w : Surroundings) (id : UInt64) (answered : Reply × Service) :
    (rotateKey w id answered).1.body = answered.1.body := by
  obtain ⟨reply, s⟩ := answered
  simp only [rotateKey]
  split
  · rfl
  · rfl

theorem status_finish (w : Surroundings) (r : Request) (caller : Access.Caller)
    (answered : Reply × Service) : (finish w r caller answered).1.status = answered.1.status := by
  rw [← status_rotateKey w caller.session answered]
  simp only [finish]
  split
  · rfl
  · rfl

theorem ledger_finish (w : Surroundings) (r : Request) (caller : Access.Caller)
    (answered : Reply × Service) : (finish w r caller answered).2.ledger = answered.2.ledger :=
  ledger_rotateKey w caller.session answered

theorem body_finish (hmethod : r.method ≠ "HEAD") (w : Surroundings) (caller : Access.Caller)
    (answered : Reply × Service) : (finish w r caller answered).1.body = answered.1.body := by
  rw [← body_rotateKey w caller.session answered]
  simp only [finish, if_neg hmethod]
  rfl

/-- **Whoever reaches an endpoint that does its work gets 200 and the messages.** -/
theorem Reaches.answer (h : s.Reaches w r caller ps endpoint route raw)
    (hrun : (s.admitted w r).run w caller ps r endpoint = .ok (messages, s')) :
    (s.handle w r).1.status = 200 ∧ (s.handle w r).2.ledger = s'.ledger ∧
      (r.method ≠ "HEAD" → (s.handle w r).1.body = Message.body messages) := by
  have hanswered : (s.admitted w r).serveCaller w caller ps r (some (.forCaller endpoint)) =
      (.messages messages, s') := by
    rw [serveCaller]
    simp only [hrun]
  have hhandle : s.handle w r = finish w r caller (.messages messages, s') := by
    rw [← hanswered]
    exact h.handle_eq
  rw [hhandle, status_finish, ledger_finish]
  refine ⟨rfl, rfl, fun hmethod => ?_⟩
  rw [body_finish hmethod]
  rfl

/-- **A reply of 200 says that the endpoint has done its work.** -/
theorem of_status_eq_ok (hmethod : r.method ≠ "OPTIONS")
    (hpath : Http.findRoute? r.target = some (route, raw))
    (haction : route.action? r.method = some (.forCaller endpoint))
    (hstatus : (s.handle w r).1.status = 200) :
    ∃ caller ps messages s', s.Reaches w r caller ps endpoint route raw ∧
      (s.admitted w r).run w caller ps r endpoint = .ok (messages, s') ∧
      (s.handle w r).2.ledger = s'.ledger := by
  by_cases hreaches : ∃ caller ps, s.Reaches w r caller ps endpoint route raw
  · obtain ⟨caller, ps, hreaches⟩ := hreaches
    cases hrun : (s.admitted w r).run w caller ps r endpoint with
    | ok x =>
      obtain ⟨messages, s'⟩ := x
      exact ⟨caller, ps, messages, s', hreaches, hrun, (hreaches.answer hrun).2.1⟩
    | error reply =>
      have hfailed : 400 ≤ reply.status := failsAloud_run _ _ _ _ _ _ reply hrun
      have hanswered : (s.admitted w r).serveCaller w caller ps r
          (some (.forCaller endpoint)) = (reply, s.admitted w r) := by
        rw [serveCaller]
        simp only [hrun]
      have hhandle : s.handle w r = finish w r caller (reply, s.admitted w r) := by
        rw [← hanswered]
        exact hreaches.handle_eq
      rw [hhandle, status_finish] at hstatus
      replace hstatus : reply.status = 200 := hstatus
      omega
  · have hrefused := (refused_of_not_reaches (s := s) (w := w) hmethod hpath haction
      fun caller ps hreaches' => hreaches ⟨caller, ps, hreaches'⟩).1
    omega

/-- A reply of 200 to a registration says that the ledger has registered the principal in the
message, with a hash of the password. -/
theorem of_register_status {m : Message.User} (hmethod : r.method = "POST")
    (hpath : Http.findRoute? r.target = some (.users, raw))
    (hm : messageOf r Message.User.layout = .ok m) (hstatus : (s.handle w r).1.status = 200) :
    ∃ new : NewPrincipal, new.name = m.name ∧
      w.passwords.hash (utf8 m.password) w.salt = .ok new.passwordHash ∧
      s.ledger.registerPrincipal w.time new = .ok (s.handle w r).2.ledger := by
  have haction : Route.users.action? r.method = some (.forCaller .register) := by
    rw [hmethod]
    rfl
  obtain ⟨caller, ps, messages, s', -, hrun, hledger⟩ :=
    of_status_eq_ok (by rw [hmethod]; decide) hpath haction hstatus
  obtain ⟨m', hm', hrun⟩ := of_bind_eq_ok hrun
  rw [hm] at hm'
  cases hm'
  obtain ⟨-, -, hrun⟩ := of_bind_eq_ok hrun
  split at hrun
  · cases hrun
  · obtain ⟨publicKey, -, hrun⟩ := of_bind_eq_ok hrun
    obtain ⟨passwordHash, hhash, hrun⟩ := of_bind_eq_ok hrun
    obtain ⟨l, hl, hrun⟩ := of_bind_eq_ok hrun
    cases hrun
    refine ⟨⟨m.name, .ofAdmin m.admin, publicKey, passwordHash⟩, rfl, ?_, ?_⟩
    · cases hhashed : w.passwords.hash (utf8 m.password) w.salt with
      | ok bytes =>
        rw [hhashed] at hhash
        cases hhash
        rfl
      | error e =>
        rw [hhashed] at hhash
        cases hhash
    · rw [hledger]
      exact of_ofLedger_eq_ok hl

/-! ### Callers -/

/-- A request that a session authenticates is taken to come from whoever opened the session. -/
theorem AuthenticatedBy.exists_caller {session : Session} (h : s.AuthenticatedBy w r session) :
    ∃ id, (Access.authenticate s.sessions w.now r).1 = .ok ⟨id, session.identity⟩ := by
  obtain ⟨id, code, hshown, hsession, haccepts, hcurrent⟩ := h
  refine ⟨id, ?_⟩
  simp [Access.authenticate, hshown, Sessions.validate, hsession, haccepts, hcurrent]

theorem Reaches.authenticatedBy (h : s.Reaches w r caller ps endpoint route raw) :
    ∃ session, s.AuthenticatedBy w r session ∧ caller.identity = session.identity :=
  of_authenticate_eq_ok (Prod.ext h.authenticated rfl)

/-- A session asks for something under a route, with the parameters in the path. -/
structure Asks (w : Surroundings) (s : Service) (r : Request) (session : Session) (method : String)
    (route : Route) (ps : Parameters) : Prop where
  method : r.method = method
  path : ∃ raw, Http.findRoute? r.target = some (route, raw) ∧ Http.readParameters raw = .ok ps
  sender : s.AuthenticatedBy w r session

/-- **A session that the policy lets through gets what it asks for.** -/
theorem Asks.answer {session : Session} {method : String}
    (h : s.Asks w r session method route ps)
    (haction : route.action? method = some (.forCaller endpoint))
    (hoptions : method ≠ "OPTIONS") (hhead : method ≠ "HEAD")
    (hpermit : Access.permit (Policy.of method route.pattern) s.ledger session.identity
      (ps.lookup "name") = .ok ())
    (hrun : ∀ id, (s.admitted w r).run w ⟨id, session.identity⟩ ps r endpoint =
      .ok (messages, s.admitted w r)) :
    (s.handle w r).1.status = 200 ∧ (s.handle w r).1.body = Message.body messages := by
  obtain ⟨raw, hpath, hps⟩ := h.path
  obtain ⟨id, hcaller⟩ := h.sender.exists_caller
  have hmethod := h.method
  subst hmethod
  have hreaches : s.Reaches w r ⟨id, session.identity⟩ ps endpoint route raw :=
    ⟨hoptions, hpath, haction, hps, hcaller, hpermit⟩
  obtain ⟨hstatus, -, hbody⟩ := hreaches.answer (hrun id)
  exact ⟨hstatus, hbody hhead⟩

/-- The caller whose request reaches an endpoint is the owner of the session behind it. -/
theorem Reaches.identity_eq (h : s.Reaches w r caller ps endpoint route raw) {session : Session}
    (hsession : s.AuthenticatedBy w r session) : caller.identity = session.identity := by
  obtain ⟨session', hsession', hidentity⟩ := h.authenticatedBy
  rw [hidentity, hsession'.unique hsession]

/-- **A reply of 200 says that what the session asks for has been done.** -/
theorem Asks.of_status_eq_ok {session : Session} {method : String}
    (h : s.Asks w r session method route ps)
    (haction : route.action? method = some (.forCaller endpoint))
    (hoptions : method ≠ "OPTIONS") (hstatus : (s.handle w r).1.status = 200) :
    ∃ id messages s', (s.admitted w r).run w ⟨id, session.identity⟩ ps r endpoint =
        .ok (messages, s') ∧ (s.handle w r).2.ledger = s'.ledger := by
  obtain ⟨raw, hpath, hps⟩ := h.path
  have hmethod := h.method
  subst hmethod
  obtain ⟨⟨id, identity⟩, ps', messages, s', hreaches, hrun, hledger⟩ :=
    Service.of_status_eq_ok hoptions hpath haction hstatus
  have hparameters := hreaches.parameters
  rw [hps] at hparameters
  cases hparameters
  obtain rfl : identity = session.identity := hreaches.identity_eq h.sender
  exact ⟨id, messages, s', hrun, hledger⟩

/-- A request in a session of an example, whose live key is zero. -/
def sampleSigned (session method path body : String) : Request :=
  let target : Http.Target := ⟨utf8 path, none⟩
  let code := RequestMac.compute (List.replicate 32 0) target.context (utf8 body)
  ⟨method, target, [("content-type", utf8 "application/json"), ("session-id", utf8 session),
    ("x-auth-mac", utf8 (Base64.encode code.bytes))], utf8 body⟩

end Service

end Strongroom
