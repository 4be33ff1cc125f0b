import Strongroom.Proofs.Ledger.Noninterference
import Strongroom.Proofs.Service.Authority

/-!
# No secret reaches whom it is not meant for

Two services that an audience cannot tell apart (`Service.AlikeFor`) have the same sessions and
differ at most in what is sealed for others: in password hashes, in private keys and in payloads and
wraps that the audience cannot open.  They answer every request that comes from within the audience
in the same way, to the last byte, and afterwards the audience can still not tell them apart
(`AlikeFor.handle`).  So a whole conversation gets the same replies (`AlikeFor.handleAll`).

What the endpoints that write are asked to seal never decides what they do, so for them the audience
does not matter.  It matters for what a caller gets of the secrets and of the keys of groups, and
for the policy of readers: there the caller, as it stands in the ledger, has to be within the
audience.  A login is left out, because it shows whether a password is right.
-/

namespace Strongroom

open Http (Action Endpoint Parameters Reply Request Route)

namespace Service

/-- Two services that an audience cannot tell apart: the same sessions, and ledgers that are alike
for the audience. -/
structure AlikeFor (v : Audience) (s t : Service) : Prop where
  ledger : s.ledger.AlikeFor v t.ledger
  sessions : s.sessions = t.sessions

/-- The same result, and services that an audience cannot tell apart. -/
def AlikeAfter {α : Type} (v : Audience) (x y : α × Service) : Prop :=
  x.1 = y.1 ∧ x.2.AlikeFor v y.2

/-- Whoever has sent a request is within an audience. -/
def SentWithin (v : Audience) (w : Surroundings) (s : Service) (r : Request) : Prop :=
  ∀ session, s.AuthenticatedBy w r session → (s.ledger.audience session.identity).Within v

variable {v : Audience} {w : Surroundings} {s t : Service} {r : Request} {caller : Access.Caller}
variable {ps : Parameters}

/-! ### Endpoints -/

theorem matches_ofLedger {α β : Type} {R : α → β → Prop} {x : Except Ledger.Error α}
    {y : Except Ledger.Error β} (h : Matches R x y) : Matches R (ofLedger x) (ofLedger y) := by
  cases h with
  | ok h => exact .ok h
  | error e => exact .error _

namespace AlikeFor

/-- An endpoint that changes nothing. -/
theorem answer (h : s.AlikeFor v t) (items : List Bytes) :
    Matches (AlikeAfter v) (s.answer items) (t.answer items) :=
  .ok ⟨rfl, h⟩

/-- An endpoint that changes the ledger. -/
theorem acknowledge (h : s.AlikeFor v t) {l l' : Ledger} (hl : l.AlikeFor v l') (words : String) :
    Matches (AlikeAfter v) (s.acknowledge l words) (t.acknowledge l' words) :=
  .ok ⟨rfl, hl, h.sessions⟩

theorem logout (h : s.AlikeFor v t) :
    Matches (AlikeAfter v) (s.logout caller) (t.logout caller) :=
  .ok ⟨rfl, h.ledger, by rw [h.sessions]⟩

theorem listAccessible (h : s.AlikeFor v t)
    (hv : (s.ledger.audience caller.identity).Within v) :
    Matches (AlikeAfter v) (s.listAccessible caller) (t.listAccessible caller) := by
  rw [Service.listAccessible, Service.listAccessible, Ledger.fetchAccessible,
    Ledger.fetchAccessible, (h.ledger.mono hv).accessible_eq]
  exact .check fun _ _ => h.answer _

theorem fetchSecret (h : s.AlikeFor v t) (hv : (s.ledger.audience caller.identity).Within v) :
    Matches (AlikeAfter v) (s.fetchSecret caller ps) (t.fetchSecret caller ps) := by
  rw [Service.fetchSecret, Service.fetchSecret, Ledger.fetchSecret, Ledger.fetchSecret,
    (h.ledger.mono hv).accessible_eq]
  exact .check fun _ _ => h.answer _

theorem listGroups (h : s.AlikeFor v t) : Matches (AlikeAfter v) s.listGroups t.listGroups := by
  obtain ⟨gs, gs', hgs, hgs', hall⟩ := h.ledger.groups.all
  change s.ledger.listGroups = .ok gs at hgs
  change t.ledger.listGroups = .ok gs' at hgs'
  have hshown : gs.map (·.toPublicMessage.toJson) = gs'.map (·.toPublicMessage.toJson) := by
    refine map_eq_of_forall₂ hall fun g g' hsame => ?_
    obtain ⟨_, hsame, -⟩ := hsame
    obtain ⟨hname, -, hkey, -⟩ := Audience.of_showGroup_eq hsame.shows
    simp only [Group.toPublicMessage, hname, hkey]
  rw [Service.listGroups, Service.listGroups, hgs, hgs']
  exact .ok ⟨hshown, h⟩

/-- Of the private key of a group a caller sees the copy sealed for itself or, as a superuser, the
one sealed for the supergroup. -/
theorem groupKeyFor_eq {i : Identity} {group group' : Group} {member member' : Principal}
    (hname : member.name = i.name) (hv : v.name = i.name) (hsuper : v.superuser = i.superuser)
    (hgroup : v.showGroup group = v.showGroup group')
    (hmember : v.showPrincipal member = v.showPrincipal member') :
    groupKeyFor group member i.superuser = groupKeyFor group' member' i.superuser := by
  obtain ⟨hgname, -, -, hprivate, -⟩ := Audience.of_showGroup_eq hgroup
  obtain ⟨-, -, -, hmgroup, hsealed, -⟩ := Audience.of_showPrincipal_eq hmember
  rw [groupKeyFor, groupKeyFor, hgname, hmgroup, hsealed (hname.trans hv.symm)]
  by_cases hi : i.superuser = true
  · rw [hprivate (hsuper.trans hi)]
  · rw [if_neg hi, if_neg hi]

theorem getGroup (h : s.AlikeFor v t) (hv : (s.ledger.audience caller.identity).Within v) :
    Matches (AlikeAfter v) (s.getGroup caller ps) (t.getGroup caller ps) := by
  -- the keys are meant for the caller itself and not for just anybody within `v`
  have hown := h.ledger.mono hv
  refine (matches_ofLedger (hown.groups.row _ _)).bind fun group group' hgroup => ?_
  refine (matches_ofLedger (hown.principals.row _ _)).bind fun member member' hmember => ?_
  obtain ⟨hname, -, hkey, -⟩ := Audience.of_showGroup_eq hgroup.1.shows
  have hmine : member.name = caller.identity.name := (utf8_inj.1 hmember.1.stands).symm
  have hgroupPriv := groupKeyFor_eq (i := caller.identity) hmine rfl rfl hgroup.1.shows
    hmember.1.shows
  simp only [Group.toPublicMessage, hname, hkey, hgroupPriv]
  exact h.answer _

theorem getUser (h : s.AlikeFor v t) :
    Matches (AlikeAfter v) (s.getUser ps) (t.getUser ps) := by
  refine (matches_ofLedger (h.ledger.principals.row _ _)).bind fun p q hpq => ?_
  obtain ⟨hname, hkind, hkey, hgroup, -⟩ := Audience.of_showPrincipal_eq hpq.1.shows
  simp only [Principal.toMessage, hname, hkind, hkey, hgroup]
  exact h.answer _

/-- **Every endpoint gives the same answer**, and the services are alike again. -/
theorem run (h : s.AlikeFor v t) (hw : w.time.IsValid)
    (hv : (s.ledger.audience caller.identity).Within v) (endpoint : Endpoint) :
    Matches (AlikeAfter v) (s.run w caller ps r endpoint) (t.run w caller ps r endpoint) := by
  cases endpoint with
  | logout => exact h.logout
  | listAccessible => exact h.listAccessible hv
  | createSecret =>
    exact .check fun m _ => .check fun payload _ => .check fun superKey _ =>
      .check fun creatorKey _ =>
        (matches_ofLedger (h.ledger.createSecret hw _ _)).bind fun _ _ hl => h.acknowledge hl _
  | fetchSecret => exact h.fetchSecret hv
  | deleteSecret =>
    exact (matches_ofLedger (h.ledger.deleteSecret _)).bind fun _ _ hl => h.acknowledge hl _
  | assignToGroup =>
    exact .check fun m _ => .check fun key _ =>
      (matches_ofLedger (h.ledger.assignToGroup hw _ _ _ _)).bind fun _ _ hl => h.acknowledge hl _
  | revokeFromGroup =>
    exact (matches_ofLedger (h.ledger.revokeFromGroup _ _)).bind fun _ _ hl => h.acknowledge hl.2 _
  | assignToPrincipal =>
    exact .check fun m _ => .check fun key _ =>
      (matches_ofLedger (h.ledger.grant hw _ _ _ _)).bind fun _ _ hl => h.acknowledge hl _
  | revokeFromPrincipal =>
    exact (matches_ofLedger (h.ledger.revoke _ _)).bind fun _ _ hl => h.acknowledge hl.2 _
  | listSecrets =>
    show Matches _ (ofLedger s.ledger.listSecrets >>= _) (ofLedger t.ledger.listSecrets >>= _)
    rw [h.ledger.listSecrets_eq]
    exact .check fun _ _ => h.answer _
  | listGroups => exact h.listGroups
  | createGroup =>
    show Matches _ (s.createGroup w r) (t.createGroup w r)
    rw [Service.createGroup, Service.createGroup]
    split
    · exact .error _
    · exact .check fun m _ => .check fun publicKey _ => .check fun sealedPrivateKey _ =>
        (matches_ofLedger (h.ledger.createGroup hw _ _ _ _)).bind fun _ _ hl => h.acknowledge hl _
  | getGroup => exact h.getGroup hv
  | deleteGroup =>
    exact (matches_ofLedger (h.ledger.deleteGroup _)).bind fun _ _ hl => h.acknowledge hl _
  | register =>
    refine .check fun m _ => .check fun _ _ => ?_
    split
    · exact .error _
    · exact .check fun publicKey _ => .check fun passwordHash _ =>
        (matches_ofLedger (h.ledger.registerPrincipal hw _)).bind fun _ _ hl => h.acknowledge hl _
  | getUser => exact h.getUser
  | deleteUser =>
    show Matches _ (s.deleteUser caller ps) (t.deleteUser caller ps)
    rw [Service.deleteUser, Service.deleteUser]
    split
    · exact .error _
    · exact (matches_ofLedger (h.ledger.deletePrincipal _)).bind fun _ _ hl => h.acknowledge hl _
  | reassign =>
    refine .check fun m _ => ?_
    split
    · exact .error _
    · exact .check fun sealedGroupKey _ =>
        (matches_ofLedger (h.ledger.reassignPrincipal _ _ _)).bind fun _ _ hl => h.acknowledge hl _

end AlikeFor

/-! ### The way of a request -/

theorem alikeAfter_rotateKey {id : UInt64} {x y : Reply × Service} (h : AlikeAfter v x y) :
    AlikeAfter v (rotateKey w id x) (rotateKey w id y) := by
  obtain ⟨reply, s⟩ := x
  obtain ⟨reply', t⟩ := y
  obtain ⟨rfl, h⟩ := h
  have hsessions : s.sessions = t.sessions := h.sessions
  simp only [rotateKey, ← hsessions]
  split
  · exact ⟨rfl, h.ledger, rfl⟩
  · exact ⟨rfl, h⟩

/-- A request that opens a session. -/
def IsLogin (r : Request) : Prop :=
  r.method = "POST" ∧ ∃ raw, Http.findRoute? r.target = some (.auth, raw)

theorem authRequired_or (method pattern : String) :
    (Policy.of method pattern).authRequired = true ∨ method = "POST" ∧ pattern = "/v1/auth" := by
  unfold Policy.of
  split
  · exact .inr ⟨rfl, rfl⟩
  all_goals exact .inl rfl

theorem eq_auth_of_pattern_eq :
    ∀ route ∈ Route.all, route.pattern = "/v1/auth" → route = .auth := by
  decide

/-- Whatever is not a login needs a session. -/
theorem authRequired_of_not_isLogin {route : Route} {raw : List (String × Bytes)}
    (hlogin : ¬IsLogin r) (hroute : Http.findRoute? r.target = some (route, raw)) :
    (Policy.of r.method route.pattern).authRequired = true := by
  refine (authRequired_or r.method route.pattern).resolve_right fun ⟨hmethod, hpattern⟩ => hlogin ?_
  obtain rfl := eq_auth_of_pattern_eq route route.mem_all hpattern
  exact ⟨hmethod, raw, hroute⟩

namespace AlikeFor

theorem serveCaller (h : s.AlikeFor v t) (hw : w.time.IsValid)
    (hv : (s.ledger.audience caller.identity).Within v) (action : Option Action) :
    AlikeAfter v (s.serveCaller w caller ps r action) (t.serveCaller w caller ps r action) := by
  cases action with
  | none => exact ⟨rfl, h⟩
  | some action =>
    cases action with
    | login => exact ⟨rfl, h⟩
    | forAll endpoint => exact ⟨rfl, h⟩
    | forCaller endpoint =>
      have hrun : Matches (AlikeAfter v) (s.run w caller ps r endpoint)
          (t.run w caller ps r endpoint) := h.run hw hv endpoint
      simp only [Service.serveCaller]
      generalize s.run w caller ps r endpoint = x, t.run w caller ps r endpoint = y at hrun
      cases hrun with
      | ok hxy => exact ⟨congrArg Reply.messages hxy.1, hxy.2⟩
      | error reply => exact ⟨rfl, h⟩

theorem permit_eq (h : s.AlikeFor v t) {i : Identity} (hv : (s.ledger.audience i).Within v)
    (policy : Policy) (target : Option String) :
    Access.permit policy s.ledger i target = Access.permit policy t.ledger i target := by
  have hreads : ∀ rule name, AclRule.permits rule s.ledger i name =
      AclRule.permits rule t.ledger i name := by
    intro rule name
    cases rule
    exact (h.ledger.mono hv).canRead_eq name
  have hobeys : ∀ rule, Access.obeys rule s.ledger i target =
      Access.obeys rule t.ledger i target := by
    intro rule
    cases target with
    | none => rfl
    | some name => simp only [Access.obeys, hreads]
  simp only [Access.permit, hobeys]

theorem authorize (h : s.AlikeFor v t) (hw : w.time.IsValid)
    (hv : s.SentWithin v w r)
    (policy : Policy) (action : Option Action) :
    AlikeAfter v (s.authorize w policy ps r action) (t.authorize w policy ps r action) := by
  rw [Service.authorize, Service.authorize, ← h.sessions]
  cases hauthenticate : Access.authenticate s.sessions w.now r with
  | mk result sessions =>
    -- the sessions are equal, so one caller comes out of both services
    have hnow : AlikeFor v { s with sessions } { t with sessions } := ⟨h.ledger, rfl⟩
    cases result with
    | error e => exact ⟨rfl, hnow⟩
    | ok caller =>
      obtain ⟨session, hsession, hidentity⟩ := of_authenticate_eq_ok hauthenticate
      have hcaller : (s.ledger.audience caller.identity).Within v := hidentity ▸ hv session hsession
      refine alikeAfter_rotateKey ?_
      simp only [← h.permit_eq hcaller]
      split
      · exact ⟨rfl, hnow⟩
      · exact hnow.serveCaller hw hcaller action

theorem serveGuarded (h : s.AlikeFor v t) (hw : w.time.IsValid)
    (hv : s.SentWithin v w r)
    {route : Route} (raw : List (String × Bytes))
    (hauth : (Policy.of r.method route.pattern).authRequired = true) :
    AlikeAfter v (s.serveGuarded w route raw r) (t.serveGuarded w route raw r) := by
  rw [Service.serveGuarded, Service.serveGuarded]
  split
  · exact ⟨rfl, h⟩
  · simp only [hauth, if_true]
    exact h.authorize hw hv _ _

theorem serveOpen_eq (h : s.AlikeFor v t) (action : Option Action) :
    s.serveOpen w action = t.serveOpen w action := by
  have hhealth : s.checkHealth w = t.checkHealth w := by
    rw [checkHealth, checkHealth, Ledger.isInitialized, Ledger.isInitialized,
      h.ledger.groups.has_eq, h.sessions]
  simp only [serveOpen, hhealth]

theorem serveRoute (h : s.AlikeFor v t) (hw : w.time.IsValid)
    (hv : s.SentWithin v w r)
    {route : Route} (raw : List (String × Bytes))
    (hauth : (Policy.of r.method route.pattern).authRequired = true) :
    AlikeAfter v (s.serveRoute w route raw r) (t.serveRoute w route raw r) := by
  have hserved : AlikeAfter v
      (if route.isGuarded then s.serveGuarded w route raw r
        else (s.serveOpen w (route.action? r.method), s))
      (if route.isGuarded then t.serveGuarded w route raw r
        else (t.serveOpen w (route.action? r.method), t)) := by
    split
    · exact h.serveGuarded hw hv raw hauth
    · exact ⟨h.serveOpen_eq _, h⟩
  rw [Service.serveRoute, Service.serveRoute]
  simp only
  split
  · exact hserved
  · refine ⟨?_, hserved.2⟩
    simp only [hserved.1]

/-- **A request gets the same reply from both services**, and they are alike again. -/
theorem handle (h : s.AlikeFor v t) (hw : w.time.IsValid)
    (hv : s.SentWithin v w r)
    (hlogin : ¬IsLogin r) : AlikeAfter v (s.handle w r) (t.handle w r) := by
  have hserved : AlikeAfter v (s.serve w r) (t.serve w r) := by
    rw [Service.serve, Service.serve]
    cases hroute : Http.findRoute? r.target with
    | none => exact ⟨rfl, h⟩
    | some x => exact h.serveRoute hw hv x.2 (authRequired_of_not_isLogin hlogin hroute)
  rw [Service.handle, Service.handle]
  split
  · exact ⟨rfl, h⟩
  · refine ⟨?_, hserved.2⟩
    simp only [hserved.1]

end AlikeFor

/-! ### Conversations -/

/-- Handles requests one after another, each in surroundings of its own. -/
def handleAll : Service → List (Surroundings × Request) → List Reply × Service
  | s, [] => ([], s)
  | s, x :: xs =>
    let (reply, s) := s.handle x.1 x.2
    let (replies, s) := s.handleAll xs
    (reply :: replies, s)

/-- A conversation of an audience: nobody logs in, and whoever sends a request is within the
audience by then. -/
def ConversationOf (v : Audience) : Service → List (Surroundings × Request) → Prop
  | _, [] => True
  | s, x :: xs => x.1.time.IsValid ∧ ¬IsLogin x.2 ∧ s.SentWithin v x.1 x.2 ∧
    ConversationOf v (s.handle x.1 x.2).2 xs

/-- **A conversation tells an audience nothing that is not meant for it**: two services that it
cannot tell apart give the same replies to all of its requests. -/
theorem AlikeFor.handleAll {xs : List (Surroundings × Request)} (h : s.AlikeFor v t)
    (hxs : s.ConversationOf v xs) : AlikeAfter v (s.handleAll xs) (t.handleAll xs) := by
  induction xs generalizing s t with
  | nil => exact ⟨rfl, h⟩
  | cons x xs ih =>
    obtain ⟨hw, hlogin, hv, hxs⟩ := hxs
    obtain ⟨hreply, hafter⟩ := h.handle hw hv hlogin
    obtain ⟨hreplies, hend⟩ := ih hafter hxs
    exact ⟨congrArg₂ List.cons hreply hreplies, hend⟩

/-! ### Callers -/

/-- **No payload and no key reaches a caller whom it is not meant for.**  Two services that differ
only in what is not meant for the caller, in the ledger as it is, give the same reply to every
request but a login, and they still differ in nothing else. -/
theorem reply_eq_of_alikeFor {session : Session} (hw : w.time.IsValid)
    (hsession : s.AuthenticatedBy w r session) (hlogin : ¬IsLogin r)
    (h : s.AlikeFor (s.ledger.audience session.identity) t) :
    (s.handle w r).1 = (t.handle w r).1 ∧
      (s.handle w r).2.AlikeFor (s.ledger.audience session.identity) (t.handle w r).2 :=
  h.handle hw (fun session' hsession' => by
    rw [hsession.unique hsession']
    exact .refl _) hlogin

/-- A service with a secret that the client of the example cannot read. -/
def sampleVault (b : UInt8) : Service :=
  { sampleService with
    ledger := (Strongroom.run Ledger.execute sampleService.ledger
      [.createSecret leapDay ⟨"root", "super", true, true⟩ ⟨"vault", [b], [b], none, none⟩]).2 }

theorem reply_eq_of_alikeFor_sampleVault :
    let s := sampleVault 1
    let t := sampleVault 2
    let v := s.ledger.audience ⟨"ann", "default", false, false⟩
    s.ledger.secrets ≠ t.ledger.secrets ∧ s.AlikeFor v t ∧
      (s.handle sampleSurroundings sampleGrant).1 = (t.handle sampleSurroundings sampleGrant).1 ∧
      (s.handle sampleSurroundings sampleGrant).2.AlikeFor v
        (t.handle sampleSurroundings sampleGrant).2 := by
  intro s t v
  have hsession : s.AuthenticatedBy sampleSurroundings sampleGrant
      ⟨⟨"ann", "default", false, false⟩, some (Octets.zero 32), none, 0⟩ :=
    authenticatedBy_sampleGrant
  have halike : s.AlikeFor v t := ⟨by decide +kernel, rfl⟩
  have hlogin : ¬IsLogin sampleGrant := fun h => absurd h.1 (by decide)
  exact ⟨by decide +kernel, halike, reply_eq_of_alikeFor leapDay.2 hsession hlogin halike⟩

end Service

end Strongroom
