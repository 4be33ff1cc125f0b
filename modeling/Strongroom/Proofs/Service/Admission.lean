import Strongroom.Proofs.Service.Newcomers
import Strongroom.Proofs.Service.Rotation

/-!
# Who is let in

A login succeeds exactly if there is a principal of the name and the password fits its stored hash
(`Service.Admits`).  Then one session is added, under an id that was free, for the principal as it
is now; otherwise the reply is always the same and nothing changes (`login_succeeds_iff_admits`).

Whoever has been registered with a password is let in with it.  A stored hash is the salt followed
by the key that is derived from the password and the salt, and the check derives the key once more;
for that the derived key must have the length that is cut off from the hash, and nothing else about
the derivation matters (`Password.schemeBy`).  And no operation touches the hash of a principal that
stays (`Ledger.Intact.principal?_run`).
-/

namespace Strongroom

open Http (Reply Request Route)

/-! ### Stored hashes -/

theorem Blake2b.length_hash {n : Nat} (h : n ≤ 64) (message : Bytes) :
    (hash n message).length = n := by
  rw [hash, List.length_take, List.length_flatMap]
  simp
  omega

namespace Password

/-- The keys of the service have the length that a stored hash has room for. -/
theorem length_derive (password salt : Bytes) : (derive password salt).length = derivedLength := by
  rw [derive, Argon2.hash, Argon2.hashLong, Argon2.chain, if_pos (by decide)]
  exact Blake2b.length_hash (by decide) _

/-- A password fits the hash that has been made of it. -/
theorem verify_hash {derive : Bytes → Bytes → Bytes}
    (hlength : ∀ password salt, (derive password salt).length = derivedLength) {password : Bytes}
    {salt : Octets 16} {stored : Bytes} (h : (schemeBy derive).hash password salt = .ok stored) :
    (schemeBy derive).verify password stored = .ok true := by
  simp only [schemeBy] at h ⊢
  split at h
  · cases h
  · cases h
    have hsalt : salt.bytes.length = saltLength := salt.length_eq
    rw [if_neg]
    · rw [List.take_append_of_le_length (by omega), List.take_of_length_le (by omega),
        List.drop_append_of_le_length (by omega), List.drop_of_length_le (by omega)]
      simp
    · rw [List.length_append, hsalt, hlength]
      decide

end Password

/-! ### Ids of sessions -/

namespace Sessions

/-- The drawn number and those behind it are different as long as they do not come round. -/
theorem nodup_candidates (draw : UInt64) {n : Nat} (hn : n ≤ 2 ^ 64) :
    ((List.range n).map fun i => draw + UInt64.ofNat i).Nodup := by
  refine List.Nodup.map_on (fun i hi j hj heq => ?_) List.nodup_range
  rw [List.mem_range] at hi hj
  have hsame : UInt64.ofNat i = UInt64.ofNat j := by
    have hcancel := congrArg (fun x => x - draw) heq
    simpa [UInt64.add_comm draw] using hcancel
  have hnat := congrArg UInt64.toNat hsame
  rwa [UInt64.toNat_ofNat', UInt64.toNat_ofNat', Nat.mod_eq_of_lt (by omega),
    Nat.mod_eq_of_lt (by omega)] at hnat

/-- **A free id is found if there is one.**  Either all numbers are tried, or more than there are
sessions and zero together. -/
theorem freshId_spec {s : Sessions} (hfree : ∃ id, id ≠ 0 ∧ s.table.get? id = none)
    (draw : UInt64) : s.freshId draw ≠ 0 ∧ s.table.get? (s.freshId draw) = none := by
  let candidates := (List.range (s.table.size + 2)).map fun i => draw + UInt64.ofNat i
  have hgood : ∃ id ∈ candidates, id ≠ 0 ∧ s.table.get? id = none := by
    by_cases hsize : s.table.size + 2 ≤ 2 ^ 64
    · by_contra hnone
      -- all candidates are zero or ids of sessions, which are too few
      have hsub : candidates ⊆ 0 :: s.table.rows.map (·.1) := by
        intro id hid
        by_cases hzero : id = 0
        · simp [hzero]
        · cases hget : s.table.get? id with
          | none => exact absurd ⟨id, hid, hzero, hget⟩ hnone
          | some session =>
            exact List.mem_cons_of_mem _ (List.mem_map.2 ⟨_, Table.get?_eq_some_iff.1 hget, rfl⟩)
      have hle := ((nodup_candidates draw hsize).subperm hsub).length_le
      have hrows : s.table.rows.length = s.table.size := rfl
      simp [hrows] at hle
    · obtain ⟨id, hzero, hget⟩ := hfree
      refine ⟨id, List.mem_map.2 ⟨(id - draw).toNat, ?_, ?_⟩, hzero, hget⟩
      · have hlt := (id - draw).toNat_lt
        rw [List.mem_range]
        omega
      · rw [UInt64.ofNat_toNat, UInt64.add_comm, UInt64.sub_add_cancel]
  obtain ⟨id, hid, hzero, hget⟩ := hgood
  have hfound : (candidates.find? fun id => id ≠ 0 && !s.table.contains id).isSome = true := by
    rw [List.find?_isSome]
    exact ⟨id, hid, by simp [Table.contains, hzero, hget]⟩
  obtain ⟨found, hfind⟩ := Option.isSome_iff_exists.1 hfound
  have hfresh : s.freshId draw = found := by
    show (candidates.find? _).getD draw = found
    rw [hfind]
    rfl
  have hpasses := List.find?_some hfind
  rw [hfresh]
  simpa [Table.contains] using hpasses

end Sessions

/-! ### Credentials -/

/-- What a login as a principal is checked against. -/
def Principal.credentials (p : Principal) : Credentials :=
  ⟨p.name, p.group, p.kind.isAdmin, p.passwordHash⟩

namespace Ledger

variable {l : Ledger}

theorem Intact.lookup_eq (h : l.Intact) (name : String) :
    l.lookup name = .ok ((l.principal? name).map (·.credentials)) := by
  rw [lookup]
  cases hp : l.principal? name with
  | none =>
    have habsent : l.getPrincipal name = .error (.notFound (.principal name)) := by
      have hget := has_eq_false_iff.1 (h.principal?_eq_none_iff.1 hp)
      rw [getPrincipal, row, row?, hget]
      rfl
    rw [habsent]
    rfl
  | some p =>
    rw [h.getPrincipal_eq_ok_iff.2 hp]
    rfl

end Ledger

namespace Service

variable {w : Surroundings} {s : Service} {r : Request} {raw : List (String × Bytes)}
variable {m : Message.Auth}

/-! ### The way of a login -/

/-- A request asks to be logged in under a name and with a password, and the credentials are looked
up in time. -/
structure LogsIn (w : Surroundings) (s : Service) (r : Request) (m : Message.Auth) : Prop where
  asks : IsLogin r
  message : messageOf r Message.Auth.layout = .ok m
  name : m.name ≠ ""
  password : m.password ≠ ""
  inTime : w.lookupTime ≤ s.sessions.config.lookupTimeout

/-- There is a principal of the name, and the password fits its hash. -/
def Admits (w : Surroundings) (s : Service) (m : Message.Auth) : Prop :=
  ∃ p, s.ledger.getPrincipal m.name = .ok p ∧
    w.passwords.verify (utf8 m.password) p.passwordHash = .ok true

/-- The path of a login has no parameters. -/
theorem raw_of_findRoute?_auth (h : Http.findRoute? r.target = some (.auth, raw)) : raw = [] := by
  rw [Http.findRoute?] at h
  obtain ⟨path, -, h⟩ := Option.bind_eq_some_iff.1 h
  obtain ⟨route, -, hroute⟩ := List.exists_of_findSome?_eq_some h
  obtain ⟨filled, hfill, heq⟩ := Option.map_eq_some_iff.1 hroute
  obtain ⟨rfl, rfl⟩ := Prod.mk.inj heq
  match path, hfill with
  | [], hfill => cases hfill
  | [_], hfill =>
    simp only [Route.segments, Http.fill?] at hfill
    split at hfill
    · cases hfill
    · cases hfill
  | first :: second :: rest, hfill =>
    simp only [Route.segments, Http.fill?] at hfill
    split at hfill
    · split at hfill
      · cases rest with
        | nil => exact (Option.some.inj hfill).symm
        | cons _ _ => cases hfill
      · cases hfill
    · cases hfill

theorem handle_login (h : IsLogin r) (w : Surroundings) (s : Service) :
    s.handle w r =
      ({ (s.login w r).1 with requestId := some (requestId w r) }, (s.login w r).2) := by
  obtain ⟨hmethod, raw, hpath⟩ := h
  obtain rfl := raw_of_findRoute?_auth hpath
  have haction : (Route.auth.action? r.method).isSome = true := by
    rw [hmethod]
    decide
  have hpolicy : (Policy.of r.method Route.auth.pattern).authRequired = false := by
    rw [hmethod]
    rfl
  have hguarded : Route.auth.isGuarded = true := rfl
  rw [handle, if_neg (by rw [hmethod]; decide), serve, hpath]
  simp only [serveRoute, hguarded, haction, if_true, serveGuarded, Http.readParameters, hpolicy]
  rw [if_neg (by rw [hmethod]; decide)]
  rfl

namespace LogsIn

/-- What a login comes down to. -/
theorem login_eq (h : s.LogsIn w r m) (hintact : s.ledger.Intact) :
    s.login w r = match s.sessions.authenticate w.passwords.verify w.now
        (.answered ((s.ledger.principal? m.name).map (·.credentials))) (utf8 m.password)
        w.sessionId w.sessionKey with
      | (.error e, sessions) => ((Http.Failure.ofSession e).reply, { s with sessions })
      | (.ok new, sessions) => (welcome new, { s with sessions }) := by
  have hempty : (m.name.isEmpty || m.password.isEmpty) = false := by
    simp [h.name, h.password]
  have hlookup : s.lookup w m.name =
      .answered ((s.ledger.principal? m.name).map (·.credentials)) := by
    rw [lookup, Lookup.within, if_neg (Nat.not_lt.2 h.inTime), credentialsOf, hintact.lookup_eq]
  rw [Service.login, h.message]
  simp only [hempty, hlookup]
  rfl

/-- **A login that is admitted opens a session.** -/
theorem handle_eq_of_admits (h : s.LogsIn w r m) (hintact : s.ledger.Intact) {p : Principal}
    (hp : s.ledger.getPrincipal m.name = .ok p)
    (hverify : w.passwords.verify (utf8 m.password) p.passwordHash = .ok true) :
    ∃ key : SessionKey,
      let new : NewSession := ⟨s.sessions.freshId w.sessionId, key, p.credentials.identity⟩
      s.handle w r = ({ welcome new with requestId := some (requestId w r) },
        s.putSession new.id ⟨p.credentials.identity, some key, none, w.now⟩) := by
  refine ⟨(Session.opened p.credentials.identity w.now).freshKey w.sessionKey, ?_⟩
  have hfound := hintact.getPrincipal_eq_ok_iff.1 hp
  have hcheck : w.passwords.verify (utf8 m.password) p.credentials.passwordHash = .ok true :=
    hverify
  rw [handle_login h.asks, h.login_eq hintact, hfound]
  simp only [Sessions.authenticate, Option.map_some, Option.getD_some, hcheck]
  rfl

/-- **A login that is not admitted** gets a reply that is the same for all, and changes nothing. -/
theorem handle_eq_of_not_admits (h : s.LogsIn w r m) (hintact : s.ledger.Intact)
    (hnot : ¬s.Admits w m) :
    s.handle w r = ({ (Http.Failure.ofSession .authenticationFailed).reply with
      requestId := some (requestId w r) }, s) := by
  have hrefused : s.sessions.authenticate w.passwords.verify w.now
      (.answered ((s.ledger.principal? m.name).map (·.credentials))) (utf8 m.password)
      w.sessionId w.sessionKey = (.error .authenticationFailed, s.sessions) := by
    cases hp : s.ledger.principal? m.name with
    | none => rfl
    | some p =>
      have hcheck : w.passwords.verify (utf8 m.password) p.credentials.passwordHash ≠ .ok true :=
        fun hverify => hnot ⟨p, hintact.getPrincipal_eq_ok_iff.2 hp, hverify⟩
      simp only [Sessions.authenticate, Option.map_some, Option.getD_some]
      split
      · next hok => exact absurd hok hcheck
      · rfl
  rw [handle_login h.asks, h.login_eq hintact, hrefused]

end LogsIn

/-! ### Registered passwords -/

/-- A request registers a principal with a password. -/
structure Registers (w : Surroundings) (s : Service) (r : Request) (m : Message.User) : Prop where
  time : w.time.IsValid
  method : r.method = "POST"
  path : ∃ raw, Http.findRoute? r.target = some (.users, raw)
  message : messageOf r Message.User.layout = .ok m
  status : (s.handle w r).1.status = 200

/-- **Whoever was registered with a password is let in with it**, whatever else has happened since.
-/
theorem Registers.admits {w₀ : Surroundings} {s₀ : Service} {r₀ : Request} {m₀ : Message.User}
    (h : s₀.Registers w₀ r₀ m₀) (hintact : s₀.ledger.Intact) {cs : List Command}
    (hledger : (Strongroom.run Ledger.execute (s₀.handle w₀ r₀).2.ledger cs).2 = s.ledger)
    (hstays : ∀ e ∈ (Strongroom.run Ledger.execute (s₀.handle w₀ r₀).2.ledger cs).1,
      e.Succeeds → e.command ≠ .deletePrincipal m₀.name)
    (hname : m₀.name = m.name) (hpassword : m₀.password = m.password)
    {derive : Bytes → Bytes → Bytes}
    (hlength : ∀ password salt, (derive password salt).length = Password.derivedLength)
    (hw₀ : w₀.passwords = Password.schemeBy derive) (hw : w.passwords = Password.schemeBy derive) :
    s.Admits w m := by
  obtain ⟨raw, hpath⟩ := h.path
  obtain ⟨new, hnew, hhash, hok⟩ := of_register_status h.method hpath h.message h.status
  have hregister : s₀.ledger.registerPrincipal (⟨w₀.time, h.time⟩ : Moment).1 new =
      .ok (s₀.handle w₀ r₀).2.ledger := hok
  obtain ⟨hafter, -, -, hregistered⟩ := hintact.of_registerPrincipal hregister
  rw [hnew] at hregistered
  obtain ⟨group, sealedGroupKey, hp⟩ := hafter.principal?_run hregistered hstays
  have hnow : s.ledger.Intact := hledger ▸ Ledger.intact_run hafter cs
  rw [hledger, hname] at hp
  refine ⟨_, hnow.getPrincipal_eq_ok_iff.2 hp, ?_⟩
  rw [hw₀, hpassword] at hhash
  rw [hw]
  exact Password.verify_hash hlength hhash

/-! ### Logins -/

theorem filter_headers_sessionId (reply : Reply) :
    (reply.headers.filter fun header => header.1 = "session-id") =
      reply.sessionId.toList.map fun id => ("session-id", utf8 (toString id.toNat)) := by
  simp [Reply.headers, List.filter_append, List.filter_map, Function.comp_def]

/-- **A login succeeds for the right credentials and for no others, and those who are refused cannot
be told apart.**  The ledger is any without corrupt rows, the sessions are any that leave an id
free, and the check of passwords is any function.  Whoever was registered with a password and not
deleted since has the right credentials; for this the hash must be made by a derivation of keys of
the right length, as `Password.scheme` makes it (`Password.length_derive`).  A login that succeeds
adds one session, under an id that is not zero and was free, whose identity is that of the principal
as it is now; the reply has its id and its live key.  One that is refused changes nothing, and the
reply is the same but for the id of the request. -/
theorem login_succeeds_iff_admits (hintact : s.ledger.Intact) (h : s.LogsIn w r m)
    (hfree : ∃ id, id ≠ 0 ∧ s.sessions.table.get? id = none) :
    ((s.handle w r).1.status = 200 ↔ s.Admits w m) ∧
    (∀ (w₀ : Surroundings) (s₀ : Service) (r₀ : Request) (m₀ : Message.User) (cs : List Command)
      (derive : Bytes → Bytes → Bytes),
      (∀ password salt, (derive password salt).length = Password.derivedLength) →
      w₀.passwords = Password.schemeBy derive → w.passwords = Password.schemeBy derive →
      s₀.ledger.Intact → s₀.Registers w₀ r₀ m₀ →
      m₀.name = m.name → m₀.password = m.password →
      (Strongroom.run Ledger.execute (s₀.handle w₀ r₀).2.ledger cs).2 = s.ledger →
      (∀ e ∈ (Strongroom.run Ledger.execute (s₀.handle w₀ r₀).2.ledger cs).1,
        e.Succeeds → e.command ≠ .deletePrincipal m₀.name) →
      (s.handle w r).1.status = 200) ∧
    (s.Admits w m → ∃ (p : Principal) (id : UInt64) (key : SessionKey),
      s.ledger.getPrincipal m.name = .ok p ∧ id ≠ 0 ∧ s.sessions.table.get? id = none ∧
      (s.handle w r).2 = s.putSession id
        ⟨⟨m.name, p.group, p.kind.isAdmin, p.group = superGroup⟩, some key, none, w.now⟩ ∧
      ((s.handle w r).1.headers.filter fun header => header.1 = "session-id") =
        [("session-id", utf8 (toString id.toNat))] ∧
      ((s.handle w r).1.headers.filter fun header => header.1 = "x-auth-key") =
        [("x-auth-key", utf8 (Base64.encode key.bytes))]) ∧
    (¬s.Admits w m → s.handle w r = ({ (Http.Failure.ofSession .authenticationFailed).reply with
      requestId := some (requestId w r) }, s)) := by
  have hstatus : (s.handle w r).1.status = 200 ↔ s.Admits w m := by
    constructor
    · intro hstatus
      by_contra hnot
      rw [h.handle_eq_of_not_admits hintact hnot] at hstatus
      cases hstatus
    · rintro ⟨p, hp, hverify⟩
      obtain ⟨key, heq⟩ := h.handle_eq_of_admits hintact hp hverify
      rw [heq]
      rfl
  refine ⟨hstatus, fun w₀ s₀ r₀ m₀ cs derive hlength hw₀ hw hintact₀ hregisters hname hpassword
    hledger hstays => hstatus.2 (hregisters.admits hintact₀ hledger hstays hname hpassword hlength
      hw₀ hw), ?_, h.handle_eq_of_not_admits hintact⟩
  rintro ⟨p, hp, hverify⟩
  obtain ⟨key, heq⟩ := h.handle_eq_of_admits hintact hp hverify
  obtain ⟨hzero, hnew⟩ := Sessions.freshId_spec hfree w.sessionId
  have hpname : p.name = m.name :=
    hintact.name_of_principal? (hintact.getPrincipal_eq_ok_iff.1 hp)
  refine ⟨p, s.sessions.freshId w.sessionId, key, hp, hzero, hnew, ?_, ?_, ?_⟩
  · rw [heq, ← hpname]
    rfl
  · rw [filter_headers_sessionId, heq]
    rfl
  · rw [Reply.filter_headers_sessionKey, heq]
    rfl

/-- Whoever has been registered in the example logs in. -/
def sampleWelcome : Request :=
  ⟨"POST", ⟨utf8 "/v1/auth", none⟩, [("content-type", utf8 "application/json")],
    utf8 "\x7b\"name\":\"ann\",\"password\":\"new\"\x7d"⟩

theorem login_succeeds_iff_admits_sampleWelcome :
    let s : Service := ⟨(sampleOffice.handle sampleSurroundings sampleReturn).2.ledger, .empty {}⟩
    sampleSurroundings.passwords = Password.scheme ∧
      s.LogsIn sampleSurroundings sampleWelcome { name := "ann", password := "new" } ∧
      (s.handle sampleSurroundings sampleWelcome).1.status = 200 := by
  intro s
  have hlogin : s.LogsIn sampleSurroundings sampleWelcome { name := "ann", password := "new" } :=
    ⟨⟨rfl, [], by decide +kernel⟩, by decide +kernel, by decide, by decide, by decide⟩
  have hstart : sampleOffice.ledger.Intact := Ledger.intact_run .empty sampleStaff
  have hregisters : sampleOffice.Registers sampleSurroundings sampleReturn
      { name := "ann", password := "new", key := Base64.encode (List.replicate 32 9) } :=
    ⟨leapDay.2, rfl, ⟨[], by decide +kernel⟩, by decide +kernel, by decide +kernel⟩
  have hrun : ServiceTrace sampleOffice _ (sampleOffice.handle sampleSurroundings sampleReturn).2 :=
    .request .start leapDay.2 sampleReturn
  have hledger : (sampleOffice.handle sampleSurroundings sampleReturn).2.ledger = s.ledger := by
    dsimp only [s]
  have hsince : (Strongroom.run Ledger.execute
      (sampleOffice.handle sampleSurroundings sampleReturn).2.ledger []).2 = s.ledger := by
    rw [run_nil]
  have hadmitted := (login_succeeds_iff_admits (hledger ▸ hrun.intact hstart) hlogin
    ⟨1, by decide, rfl⟩).2.1 sampleSurroundings sampleOffice sampleReturn _ [] Password.derive
    Password.length_derive rfl rfl hstart hregisters rfl rfl hsince
  exact ⟨rfl, hlogin, hadmitted fun _ he => nomatch he⟩

end Service

end Strongroom
