import Strongroom.Proofs.Json.Messages
import Strongroom.Proofs.Ledger.Accessible
import Strongroom.Proofs.Service.Answers
import Strongroom.Proofs.Service.Fields

/-!
# Ciphertext is delivered as it was posted

What clients post is kept in bytes and handed out in text again.  On the way in a text is read from
JSON and decoded, and on the way out it is encoded and written.  Nothing is lost, for a text that
can be decoded is the only one that decodes to its bytes (`Base64.encode_of_decode?`), and what is
written in JSON is read back (`Message.Key.readBody_body`).  In between the bytes lie in the rows of
the secret and of the wrap, which stay as they are until the grant is ended
(`Ledger.Intact.wrap?_run`).

So each wrap for a principal gives it one message, in every reply, from the moment it is made until
its grant is ended (`Delivers`); and this holds of the wrap for the creator of a secret and of those
that are granted later (`secrets_are_delivered_unaltered`).
-/

namespace Strongroom

open Http (Parameters Request Route)

namespace Service

/-! ### Fields of messages -/

theorem getD_optionalText (value : String) : (optionalText value).getD "" = value := by
  rw [optionalText]
  split
  · next hempty => exact (String.isEmpty_iff.1 hempty).symm
  · rfl

/-! ### Replies -/

/-- A reply brings a message for each wrap that a principal can open, of one secret or of all, and
for no wrap two.  The message for the wrap under the key is this one. -/
structure Brings (l : Ledger) (p : Principal) (secret : Option String) (key : Bytes)
    (m : Message.Key) (reply : Http.Reply) : Prop where
  status : reply.status = 200
  messages : ∃ xs : List (Bytes × Message.Key),
    Message.readBody Message.Key.layout.read reply.body = .ok (xs.map (·.2)) ∧
    (xs.map (·.1)).Nodup ∧ (∀ k, k ∈ xs.map (·.1) ↔ ∃ wrap, l.CanOpen p secret k wrap) ∧
    (key, m) ∈ xs

section

variable {w : Surroundings} {s : Service} {r : Request} {session : Session} {ps : Parameters}
variable {p : Principal} {key : Bytes} {wrap : Wrap}

/-- What the ledger finds for a principal, written one behind the other, brings it all. -/
theorem brings_of_accessible {l : Ledger} {name : String} {secret : Option String}
    {reply : Http.Reply} {found : List AccessibleSecret} (hl : l.Intact)
    (hp : l.getPrincipal name = .ok p) (hopen : l.CanOpen p secret key wrap)
    (hthere : ∀ n ∈ secret, Ledger.has l.secrets n = true)
    (hfound : l.accessible name secret = .ok found) (hstatus : reply.status = 200)
    (hbody : reply.body = Message.body (found.map (·.toMessage.toJson))) :
    Brings l p secret key (l.through wrap).toMessage reply := by
  obtain ⟨xs, haccessible, hnodup, hmem⟩ := hl.exists_accessible hp hthere
  obtain rfl : found = xs.map fun x => l.through x.2 := by
    rw [hfound] at haccessible
    exact Except.ok.inj haccessible
  have hkeys : (xs.map fun x => (x.1, (l.through x.2).toMessage)).map (·.1) = xs.map (·.1) := by
    rw [List.map_map]
    rfl
  refine ⟨hstatus, xs.map fun x => (x.1, (l.through x.2).toMessage), ?_, ?_, fun k => ?_, ?_⟩
  · have hwritten : (xs.map fun x => l.through x.2).map (·.toMessage.toJson) =
        ((xs.map fun x => (x.1, (l.through x.2).toMessage)).map (·.2)).map (·.toJson) := by
      simp only [List.map_map, Function.comp_def]
    rw [hbody, hwritten]
    exact Message.Key.readBody_body _
  · rw [hkeys]
    exact hnodup
  · rw [hkeys, List.mem_map]
    constructor
    · rintro ⟨x, hx, rfl⟩
      exact ⟨x.2, (hmem x).1 hx⟩
    · rintro ⟨wrap', hopen'⟩
      exact ⟨(k, wrap'), (hmem _).2 hopen', rfl⟩
  · exact List.mem_map.2 ⟨(key, wrap), (hmem _).2 hopen, rfl⟩

/-- **A secret that is asked for by name** comes with all wraps that the principal can open. -/
theorem Asks.brings_secret (h : s.Asks w r session "GET" .key ps) (hl : s.ledger.Intact)
    (hp : s.ledger.getPrincipal session.identity.name = .ok p) {secret : String}
    (hname : ps.lookup "name" = some secret) (hopen : s.ledger.CanOpen p (some secret) key wrap) :
    Brings s.ledger p (some secret) key (s.ledger.through wrap).toMessage (s.handle w r).1 := by
  have hsecret : wrap.secret = secret := by simpa using hopen.2.1
  have hthere : ∀ n ∈ some secret, Ledger.has s.ledger.secrets n = true := by
    intro n hn
    cases hn
    exact hsecret ▸ (hl.fits_of_wrap? hopen.1).secret
  obtain ⟨xs, haccessible, -, -⟩ := hl.exists_accessible hp hthere
  have hpermit : Access.permit (Policy.of "GET" Route.key.pattern) s.ledger session.identity
      (ps.lookup "name") = .ok () := by
    show Access.obeys .secretReadable s.ledger session.identity (ps.lookup "name") = .ok ()
    rw [hname, Access.obeys, AclRule.permits, hl.canRead_eq_true hp hopen]
  have hrun : ∀ id, (s.admitted w r).run w ⟨id, session.identity⟩ ps r .fetchSecret =
      .ok ((xs.map fun x => s.ledger.through x.2).map (·.toMessage.toJson), s.admitted w r) := by
    intro id
    show (s.admitted w r).fetchSecret ⟨id, session.identity⟩ ps = _
    simp only [Service.fetchSecret, Parameters.get, hname, Option.getD_some, ledger_admitted,
      Ledger.fetchSecret, haccessible]
    rfl
  obtain ⟨hstatus, hbody⟩ := h.answer rfl (by decide) (by decide) hpermit hrun
  exact brings_of_accessible hl hp hopen hthere haccessible hstatus hbody

/-- **A principal that asks for everything** gets all wraps that it can open. -/
theorem Asks.brings_all (h : s.Asks w r session "GET" .keys ps) (hl : s.ledger.Intact)
    (hp : s.ledger.getPrincipal session.identity.name = .ok p)
    (hopen : s.ledger.CanOpen p none key wrap) :
    Brings s.ledger p none key (s.ledger.through wrap).toMessage (s.handle w r).1 := by
  have hthere : ∀ n ∈ (none : Option String), Ledger.has s.ledger.secrets n = true := by
    intro n hn
    cases hn
  obtain ⟨xs, haccessible, -, -⟩ := hl.exists_accessible hp hthere
  have hrun : ∀ id, (s.admitted w r).run w ⟨id, session.identity⟩ ps r .listAccessible =
      .ok ((xs.map fun x => s.ledger.through x.2).map (·.toMessage.toJson), s.admitted w r) := by
    intro id
    show (s.admitted w r).listAccessible ⟨id, session.identity⟩ = _
    simp only [Service.listAccessible, ledger_admitted, Ledger.fetchAccessible, haccessible]
    rfl
  obtain ⟨hstatus, hbody⟩ := h.answer rfl (by decide) (by decide) rfl hrun
  exact brings_of_accessible hl hp hopen hthere haccessible hstatus hbody

end

/-! ### Wraps that last -/

/-- From here on, until the grant of the secret to the principal is ended or the numbers of wraps
are used up, whatever the principal asks for brings it the message for the wrap under the key. -/
def Delivers (l : Ledger) (made : Nat) (name secret : String) (key : Bytes) (m : Message.Key) :
    Prop :=
  ∀ (cs : List Command) (w : Surroundings) (s : Service) (r : Request) (session : Session)
    (ps : Parameters),
    (Strongroom.run Ledger.execute l cs).2 = s.ledger →
    made + wrapsMade (Strongroom.run Ledger.execute l cs).1 < 2 ^ 64 - 1 →
    (∀ e ∈ (Strongroom.run Ledger.execute l cs).1, ¬e.Ends secret (.principal name)) →
    session.identity.name = name →
    ∃ p, s.ledger.getPrincipal name = .ok p ∧
      (s.Asks w r session "GET" .key ps → ps.lookup "name" = some secret →
        Brings s.ledger p (some secret) key m (s.handle w r).1) ∧
      (s.Asks w r session "GET" .keys ps → Brings s.ledger p none key m (s.handle w r).1)

section

variable {l l' : Ledger} {plain : PlainLedger} {count : Nat} {name : String} {wrap : Wrap}

/-- A wrap that is there for a principal that is there. -/
theorem delivers_of_wrap? (h : l.Intact) (hrep : count < 2 ^ 64 → ∃ plain, Represents l plain count)
    (hthere : Ledger.has l.principals name = true) {key : Bytes} (hwrap : l.wrap? key = some wrap)
    (hrecipient : wrap.recipient = .principal name) :
    Delivers l count name wrap.secret key (l.through wrap).toMessage := by
  intro cs w s r session ps hrun hcount hstays hname
  obtain ⟨plain, hrep⟩ := hrep (by omega)
  have hlast : s.ledger.Intact := hrun ▸ Ledger.intact_run h cs
  -- what would take the secret or the principal away would end the grant
  have hsecret : ∀ e ∈ (Strongroom.run Ledger.execute l cs).1, e.Succeeds →
      e.command ≠ .deleteSecret wrap.secret := by
    intro e he hok heq
    refine hstays e he ⟨hok, ?_⟩
    rw [heq]
    rfl
  have hprincipal : ∀ e ∈ (Strongroom.run Ledger.execute l cs).1, e.Succeeds →
      e.command ≠ .deletePrincipal name := by
    intro e he hok heq
    refine hstays e he ⟨hok, ?_⟩
    rw [heq]
    rfl
  rw [h.has_principals] at hthere
  obtain ⟨p, hp⟩ := Option.isSome_iff_exists.1 hthere
  obtain ⟨group, sealedGroupKey, hp'⟩ := h.principal?_run hp hprincipal
  have hsame := h.through_run (h.fits_of_wrap? hwrap).secret hsecret
  have hwrap' : (Strongroom.run Ledger.execute l cs).2.wrap? key = some wrap :=
    h.wrap?_run hrep hcount hwrap (by rw [hrecipient]; exact hstays)
  rw [hrun] at hp' hsame hwrap'
  have hfound := hlast.getPrincipal_eq_ok_iff.2 hp'
  have hpname : p.name = name := h.name_of_principal? hp
  have hopens : Principal.opens { p with group, sealedGroupKey } wrap.recipient = true := by
    refine Principal.opens_iff.2 (.inl ?_)
    rw [hrecipient, ← hpname]
  refine ⟨_, hfound, fun hasks hlookup => ?_, fun hasks => ?_⟩
  · rw [← hsame]
    exact hasks.brings_secret hlast (hname ▸ hfound) hlookup ⟨hwrap', by simp, hopens⟩
  · rw [← hsame]
    exact hasks.brings_all hlast (hname ▸ hfound) ⟨hwrap', by simp, hopens⟩

/-- The message for a wrap has the payload of the secret as it is stored. -/
theorem toMessage_through {stored : Secret} (hstored : l.secret? wrap.secret = some stored) :
    (l.through wrap).toMessage =
      { name := wrap.secret, secret := Base64.encode stored.payload
        key := Base64.encode wrap.sealedKey, path := wrap.path.getD "" } := by
  rw [AccessibleSecret.toMessage, Ledger.through, hstored]
  rfl

/-- **A command that makes a wrap for a principal** puts it under a new key, and the message for the
wrap is delivered from then on. -/
theorem delivers_of_newWraps {c : Command} {a : Answer} {stored : Secret} (h : l.Intact)
    (hrep : Represents l plain count) (hcount : count + 1 < 2 ^ 64)
    (hok : l.execute c = .ok (a, l')) (hnew : wrap ∈ c.newWraps)
    (hrecipient : wrap.recipient = .principal name)
    (hthere : Ledger.has l'.principals name = true)
    (hstored : l'.secret? wrap.secret = some stored) :
    ∃ key, l.wraps.get? key = none ∧ l'.wrap? key = some wrap ∧
      Delivers l' (count + c.wraps) name wrap.secret key
        { name := wrap.secret, secret := Base64.encode stored.payload
          key := Base64.encode wrap.sealedKey, path := wrap.path.getD "" } := by
  obtain ⟨n, hbefore, hafter⟩ := h.exists_row_of_mem_newWraps (hrep.nextFree hcount) hok hnew
  have hwrap : l'.wrap? (Ledger.wrapKey wrap.secret n) = some wrap := by
    rw [Ledger.wrap?, hafter, Option.bind_some,
      Wrap.decode_toJson (Command.isValid_of_mem_newWraps hnew)]
    rfl
  rw [← toMessage_through hstored]
  exact ⟨_, hbefore, hwrap, delivers_of_wrap? (h.execute hok) (hrep.of_execute_eq_ok hok) hthere
    hwrap hrecipient⟩

/-- A secret that is created with a key for the creator makes two wraps. -/
theorem wraps_createSecret {now : Moment} {caller : Identity} {new : NewSecret} {sealedKey : Bytes}
    (hgiven : Ledger.given new.creatorKey = some sealedKey) :
    (Command.createSecret now caller new).wraps = 2 := by
  rw [Command.wraps, hgiven]
  rfl

/-- The wrap that the creator of a secret gets. -/
theorem delivers_of_createSecret {now : Moment} {caller : Identity} {new : NewSecret}
    {sealedKey : Bytes} {a : Answer} (h : l.Intact) (hrep : Represents l plain count)
    (hcount : count + 1 < 2 ^ 64) (hok : l.execute (.createSecret now caller new) = .ok (a, l'))
    (hgiven : Ledger.given new.creatorKey = some sealedKey)
    (hthere : Ledger.has l.principals caller.name = true) :
    ∃ key wrap, l.wraps.get? key = none ∧ l'.wrap? key = some wrap ∧
      wrap.recipient = .principal caller.name ∧
      Delivers l' (count + 2) caller.name new.name key
        { name := new.name, secret := Base64.encode new.payload
          key := Base64.encode sealedKey, path := new.path.getD "" } := by
  have hnew : (⟨new.name, .principal caller.name, sealedKey, new.path, now.1⟩ : Wrap) ∈
      (Command.createSecret now caller new).newWraps := by
    simp [Command.newWraps, hgiven]
  have hstays : Ledger.has l'.principals caller.name = true :=
    h.has_principals_execute hok hthere (by intro heq; cases heq)
  obtain ⟨key, hfresh, hwrap, hdelivers⟩ := delivers_of_newWraps h hrep hcount hok hnew rfl
    hstays (h.secret?_of_createSecret hok)
  rw [wraps_createSecret hgiven] at hdelivers
  exact ⟨key, _, hfresh, hwrap, rfl, hdelivers⟩

/-- The wrap that a principal gets of a secret that is granted to it. -/
theorem delivers_of_assignToPrincipal {now : Moment} {stored : Secret} {secret : String}
    {sealedKey : Bytes} {path : Option String} {a : Answer} (h : l.Intact)
    (hrep : Represents l plain count) (hcount : count + 1 < 2 ^ 64)
    (hok : l.execute (.assignToPrincipal now secret name sealedKey path) = .ok (a, l'))
    (hstored : l.secret? secret = some stored) :
    ∃ key wrap, l.wraps.get? key = none ∧ l'.wrap? key = some wrap ∧
      wrap.recipient = .principal name ∧
      Delivers l' (count + 1) name secret key
        { name := secret, secret := Base64.encode stored.payload
          key := Base64.encode sealedKey, path := path.getD "" } := by
  obtain ⟨hchecked, -⟩ := Ledger.of_grant_eq_ok (of_changed_eq_ok hok)
  have hstays : Ledger.has l'.principals name = true :=
    h.has_principals_execute hok (of_require_eq_ok hchecked) (by intro heq; cases heq)
  obtain ⟨key, hfresh, hwrap, hdelivers⟩ := delivers_of_newWraps h hrep hcount hok
    (List.mem_singleton_self _) rfl hstays
    (h.secret?_execute_of_ne hok hstored (by intro heq; cases heq))
  exact ⟨key, _, hfresh, hwrap, rfl, hdelivers⟩

end

/-! ### Posting -/

section

variable {w : Surroundings} {s : Service} {r : Request} {session : Session} {ps : Parameters}
variable {m : Message.Key}

/-- What a reply of 200 to the creation of a secret says of the ledger. -/
theorem Asks.createSecret_execute (h : s.Asks w r session "POST" .keys ps) (hw : w.time.IsValid)
    (hm : messageOf r Message.Key.layout = .ok m) (huser : m.userKey ≠ "")
    (hstatus : (s.handle w r).1.status = 200) :
    ∃ (new : NewSecret) (key : Bytes), new.name = m.name ∧ Base64.encode new.payload = m.secret ∧
      Ledger.given new.creatorKey = some key ∧ Base64.encode key = m.userKey ∧
      new.path.getD "" = m.path ∧
      s.ledger.execute (.createSecret ⟨w.time, hw⟩ session.identity new) =
        .ok (.done, (s.handle w r).2.ledger) := by
  obtain ⟨id, messages, s', hrun, hledger⟩ :=
    h.of_status_eq_ok (show Route.keys.action? "POST" = some (.forCaller .createSecret) from rfl)
      (by decide) hstatus
  obtain ⟨m', hm', hrun⟩ := of_bind_eq_ok hrun
  rw [hm] at hm'
  cases hm'
  obtain ⟨payload, hpayload, hrun⟩ := of_bind_eq_ok hrun
  obtain ⟨superKey, -, hrun⟩ := of_bind_eq_ok hrun
  obtain ⟨creatorKey, hcreator, hrun⟩ := of_bind_eq_ok hrun
  obtain ⟨l, hl, hrun⟩ := of_bind_eq_ok hrun
  cases hrun
  obtain ⟨key, rfl, hnonempty, hkey⟩ := exists_of_optionalBytes huser hcreator
  refine ⟨⟨m.name, payload, superKey, some key, optionalText m.path⟩, key, rfl,
    (of_requiredBytes_eq_ok hpayload).2, ?_, hkey, getD_optionalText m.path, ?_⟩
  · simp [Ledger.given, hnonempty]
  · rw [hledger]
    exact execute_of_changed rfl hl

/-- What a reply of 200 to a grant to a principal says of the ledger. -/
theorem Asks.assignToPrincipal_execute (h : s.Asks w r session "PUT" .keyUser ps)
    (hw : w.time.IsValid) (hm : messageOf r Message.Key.layout = .ok m) {secret name : String}
    (hsecret : ps.lookup "name" = some secret) (hname : ps.lookup "user" = some name)
    (hstatus : (s.handle w r).1.status = 200) :
    ∃ (key : Bytes) (path : Option String), Base64.encode key = m.key ∧ path.getD "" = m.path ∧
      s.ledger.execute (.assignToPrincipal ⟨w.time, hw⟩ secret name key path) =
        .ok (.done, (s.handle w r).2.ledger) := by
  obtain ⟨id, messages, s', hrun, hledger⟩ :=
    h.of_status_eq_ok
      (show Route.keyUser.action? "PUT" = some (.forCaller .assignToPrincipal) from rfl)
      (by decide) hstatus
  obtain ⟨m', hm', hrun⟩ := of_bind_eq_ok hrun
  rw [hm] at hm'
  cases hm'
  obtain ⟨key, hkey, hrun⟩ := of_bind_eq_ok hrun
  obtain ⟨l, hl, hrun⟩ := of_bind_eq_ok hrun
  cases hrun
  refine ⟨key, optionalText m.path, (of_requiredBytes_eq_ok hkey).2, getD_optionalText m.path, ?_⟩
  simp only [Parameters.get, hsecret, hname, Option.getD_some, ledger_admitted] at hl
  rw [hledger]
  exact execute_of_changed rfl hl

end

/-- **Ciphertext is delivered as it was posted, text for text.**  The ledger is that of any run with
fewer than `2 ^ 64 - 1` wraps made, and a session of a registered principal creates a secret.  Until
its grant of the secret is ended, whatever the principal asks for brings it one message for the new
wrap, with the texts that were posted.  The same holds of a principal that the secret is granted to
later, by whomever, with the key and the path of the grant. -/
theorem secrets_are_delivered_unaltered {cs : List Command} {es : List Event} {w : Surroundings}
    {s : Service} {r : Request} {session : Session} {ps : Parameters} {m : Message.Key}
    (hrun : Strongroom.run Ledger.execute .empty cs = (es, s.ledger))
    (hmade : wrapsMade es < 2 ^ 64 - 1) (hw : w.time.IsValid)
    (hthere : Ledger.has s.ledger.principals session.identity.name = true)
    (hasks : s.Asks w r session "POST" .keys ps)
    (hm : messageOf r Message.Key.layout = .ok m) (huser : m.userKey ≠ "")
    (hstatus : (s.handle w r).1.status = 200) :
    let l := (s.handle w r).2.ledger
    (∃ key wrap, s.ledger.wraps.get? key = none ∧ l.wrap? key = some wrap ∧
      wrap.recipient = .principal session.identity.name ∧
      Delivers l (wrapsMade es + 2) session.identity.name m.name key
        { name := m.name, secret := m.secret, key := m.userKey, path := m.path }) ∧
    ∀ (cs₁ : List Command) (w₁ : Surroundings) (s₁ : Service) (r₁ : Request) (session₁ : Session)
      (ps₁ : Parameters) (m₁ : Message.Key) (name : String),
      (Strongroom.run Ledger.execute l cs₁).2 = s₁.ledger →
      wrapsMade es + 2 + wrapsMade (Strongroom.run Ledger.execute l cs₁).1 < 2 ^ 64 - 1 →
      (∀ e ∈ (Strongroom.run Ledger.execute l cs₁).1, e.Succeeds →
        e.command ≠ .deleteSecret m.name) →
      w₁.time.IsValid → s₁.Asks w₁ r₁ session₁ "PUT" .keyUser ps₁ →
      ps₁.lookup "name" = some m.name → ps₁.lookup "user" = some name →
      messageOf r₁ Message.Key.layout = .ok m₁ → (s₁.handle w₁ r₁).1.status = 200 →
      ∃ key wrap, s₁.ledger.wraps.get? key = none ∧
        (s₁.handle w₁ r₁).2.ledger.wrap? key = some wrap ∧ wrap.recipient = .principal name ∧
        Delivers (s₁.handle w₁ r₁).2.ledger
          (wrapsMade es + 2 + wrapsMade (Strongroom.run Ledger.execute l cs₁).1 + 1) name m.name
          key { name := m.name, secret := m.secret, key := m₁.key, path := m₁.path } := by
  intro l
  have hintact : s.ledger.Intact := by
    have hreached := Ledger.intact_run .empty cs
    rwa [hrun] at hreached
  obtain ⟨-, hrep⟩ := Represents.of_run hrun rfl hmade
  obtain ⟨new, key, hname, hpayload, hgiven, hkey, hpath, hok⟩ :=
    hasks.createSecret_execute hw hm huser hstatus
  refine ⟨?_, ?_⟩
  · have hdelivers := delivers_of_createSecret hintact hrep (by omega) hok hgiven hthere
    rwa [hname, hpayload, hkey, hpath] at hdelivers
  · intro cs₁ w₁ s₁ r₁ session₁ ps₁ m₁ name hrun₁ hmade₁ hkept hw₁ hasks₁ hsecret hname₁ hm₁
      hstatus₁
    obtain ⟨key₁, path₁, hkey₁, hpath₁, hok₁⟩ :=
      hasks₁.assignToPrincipal_execute hw₁ hm₁ hsecret hname₁ hstatus₁
    have hcreated : l.Intact := hintact.execute hok
    have hintact₁ : s₁.ledger.Intact := hrun₁ ▸ Ledger.intact_run hcreated cs₁
    -- the secret is still there as it was posted
    have hstored := hcreated.secret?_run (hname ▸ hintact.secret?_of_createSecret hok) hkept
    rw [hrun₁] at hstored
    have htwo := @wraps_createSecret ⟨w.time, hw⟩ session.identity new key hgiven
    obtain ⟨plain, hnext⟩ := hrep.of_execute_eq_ok hok (by omega)
    replace hnext : Represents l plain (wrapsMade es + 2) := htwo ▸ hnext
    have hrep₁ := (hnext.run cs₁ (by omega)).2
    rw [hrun₁] at hrep₁
    have hdelivers := delivers_of_assignToPrincipal hintact₁ hrep₁ (by omega) hok₁ hstored
    rwa [hpayload, hkey₁, hpath₁] at hdelivers

/-- A service in which a client is logged in and that has no secrets. -/
def sampleDesk : Service :=
  ⟨(Strongroom.run Ledger.execute .empty (sampleClosed.take 2)).2,
    ⟨Table.empty.insert 7 ⟨⟨"ann", "default", false, false⟩, some (Octets.zero 32), none, 0⟩, {}⟩⟩

/-- The client creates a secret. -/
def samplePost : Request :=
  sampleSigned "7" "POST" "/v1/keys" <| "\x7b\"name\":\"db\",\"secret\":\"AQ==\"," ++
    "\"key\":\"Ag==\",\"userKey\":\"Aw==\",\"path\":\"p\"\x7d"

theorem secrets_are_delivered_unaltered_samplePost :
    (sampleDesk.handle samplePlain samplePost).1.status = 200 ∧
      ∃ key, Delivers (sampleDesk.handle samplePlain samplePost).2.ledger 2 "ann" "db" key
        { name := "db", secret := "AQ==", key := "Aw==", path := "p" } := by
  have hmade : wrapsMade (Strongroom.run Ledger.execute .empty (sampleClosed.take 2)).1 = 0 := by
    decide +kernel
  have hasks : sampleDesk.Asks samplePlain samplePost
      ⟨⟨"ann", "default", false, false⟩, some (Octets.zero 32), none, 0⟩ "POST" .keys [] :=
    ⟨rfl, ⟨[], by decide +kernel, rfl⟩, 7, (RequestMac.compute (List.replicate 32 0)
      samplePost.target.context samplePost.body).bytes, by decide +kernel⟩
  have hm : messageOf samplePost Message.Key.layout = .ok
      { name := "db", secret := "AQ==", key := "Ag==", userKey := "Aw==", path := "p" } := by
    decide +kernel
  have hstatus : (sampleDesk.handle samplePlain samplePost).1.status = 200 := by decide +kernel
  obtain ⟨key, -, -, -, -, hdelivers⟩ := (secrets_are_delivered_unaltered rfl (by omega) leapDay.2
    (by decide +kernel) hasks hm (show "Aw==" ≠ "" by decide) hstatus).1
  rw [hmade] at hdelivers
  exact ⟨hstatus, key, hdelivers⟩

end Service

end Strongroom
