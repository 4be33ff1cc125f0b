import Strongroom.Proofs.Ledger.Accessible
import Strongroom.Proofs.Service.Answers

/-!
# What a newcomer can open

A principal that is deleted takes its wraps with it, and a wrap for a principal is only granted if
the principal is there.  So a name that is registered again would start with nothing, were it not
for one gap: a session outlives its principal, and the secret that is created through it gets a wrap
for the name in the session, whether or not there is such a principal (`Command.Orphans`).  The wrap
then waits for whoever is registered under the name next (`orphan_waits_for_newcomer`).

This is the only way.  Along every run of the service, each wrap for a principal is for one that is
there, or it was orphaned by a request and nobody has been registered under the name since
(`ServiceTrace.addressed`).  So a newcomer can open what was orphaned under its name and nothing
else (`newcomer_opens_only_orphans`).
-/

namespace Strongroom

open Http (Parameters Request Route)

/-! ### One command -/

/-- A command makes a wrap of a secret for a principal that is not there. -/
def Command.Orphans (c : Command) (l : Ledger) (name secret : String) : Prop :=
  match c with
  | .createSecret _ caller new =>
    caller.name = name ∧ new.name = secret ∧ Ledger.has l.principals name = false
  | _ => False

namespace Ledger

variable {l l' : Ledger} {c : Command} {a : Answer}

/-- Every wrap for a principal is for one that is there, or it is accounted for. -/
def Addressed (l : Ledger) (orphaned : String → String → Prop) : Prop :=
  ∀ row ∈ l.wraps.rows, ∀ w, decode Wrap.layout row.2 = .ok w → ∀ name,
    w.recipient = .principal name → has l.principals name = true ∨ orphaned name w.secret

/-- **A wrap loses its principal only with it, and gets none that is not there but by creating a
secret.** -/
theorem Intact.addressed_execute (h : l.Intact) {orphaned : String → String → Prop}
    (haddressed : l.Addressed orphaned) (hok : l.execute c = .ok (a, l')) :
    l'.Addressed fun name secret =>
      c.Orphans l name secret ∨ orphaned name secret ∧ has l.principals name = false := by
  intro row hrow w hw name hrecipient
  by_cases hthere : has l.principals name = true
  · by_cases hdelete : c = .deletePrincipal name
    · -- the principal has gone, and this wrap would have gone with it
      rcases h.of_mem_wraps hok hrow hw with ⟨-, hends⟩ | hnew
      · rw [hdelete] at hends
        exact absurd hrecipient hends
      · rw [hdelete] at hnew
        cases hnew
    · exact .inl (h.has_principals_execute hok hthere hdelete)
  · have habsent : has l.principals name = false := by simpa using hthere
    rcases h.of_mem_wraps hok hrow hw with ⟨hrow, -⟩ | hnew
    · rcases haddressed row hrow w hw name hrecipient with hfound | horphaned
      · exact absurd hfound hthere
      · exact .inr (.inr ⟨horphaned, habsent⟩)
    · cases c with
      | createSecret now caller new =>
        rcases List.mem_cons.1 hnew with rfl | hnew
        · cases hrecipient
        · obtain ⟨key, -, rfl⟩ := List.mem_map.1 hnew
          cases hrecipient
          exact .inr (.inl ⟨rfl, rfl, habsent⟩)
      | assignToGroup now secret group sealedKey path =>
        obtain rfl := List.mem_singleton.1 hnew
        cases hrecipient
      | assignToPrincipal now secret principal sealedKey path =>
        obtain rfl := List.mem_singleton.1 hnew
        cases hrecipient
        obtain ⟨hchecked, -⟩ := of_grant_eq_ok (of_changed_eq_ok hok)
        exact absurd (of_require_eq_ok hchecked) hthere
      | _ => cases hnew

end Ledger

/-! ### Runs of the service -/

/-- A request that was handled, with the service as it was before. -/
structure Exchange where
  /-- What the request found around the service. -/
  surroundings : Surroundings
  request : Request
  /-- The service before it. -/
  before : Service

namespace Exchange

/-- The service after the request. -/
def after (x : Exchange) : Service := (x.before.handle x.surroundings x.request).2

/-- The request met a principal of this name. -/
def Finds (x : Exchange) (name : String) : Prop :=
  Ledger.has x.before.ledger.principals name = true

/-- A session of a principal that is not there any more has created a secret. -/
structure Orphans (x : Exchange) (name secret : String) : Prop where
  absent : Ledger.has x.before.ledger.principals name = false
  sender : ∃ session, x.before.AuthenticatedBy x.surroundings x.request session ∧
    session.identity.name = name
  created : Ledger.has x.before.ledger.secrets secret = false ∧
    Ledger.has x.after.ledger.secrets secret = true

/-- A request whose command makes a wrap for a principal that is not there orphans the secret. -/
theorem Orphans.of_command {x : Exchange} (h : x.before.ledger.Intact) {session : Session}
    (hsession : x.before.AuthenticatedBy x.surroundings x.request session) {c : Command}
    (hpermitted : c.Permitted session.identity x.before.ledger) {a : Answer}
    (hok : x.before.ledger.execute c = .ok (a, x.after.ledger)) {name secret : String}
    (horphans : c.Orphans x.before.ledger name secret) : x.Orphans name secret := by
  cases hpermitted with
  | createSecret now new =>
    obtain ⟨hcaller, rfl, habsent⟩ := horphans
    obtain ⟨hfree, -⟩ := Ledger.of_createSecret_eq_ok (of_changed_eq_ok hok)
    refine ⟨habsent, ⟨session, hsession, hcaller⟩, hfree, ?_⟩
    rw [(h.execute hok).secrets.has_eq_isSome]
    exact Option.isSome_iff_exists.2 ⟨_, h.secret?_of_createSecret hok⟩
  | _ => exact horphans.elim

end Exchange

/-- A run of a service: it handles requests, whoever sends them, and drops sessions that have idled
out. -/
inductive ServiceTrace (start : Service) : List Exchange → Service → Prop where
  | start : ServiceTrace start [] start
  | request {xs : List Exchange} {s : Service} (prior : ServiceTrace start xs s)
      {w : Surroundings} (hw : w.time.IsValid) (r : Request) :
      ServiceTrace start (xs ++ [⟨w, r, s⟩]) (s.handle w r).2
  | sweep {xs : List Exchange} {s : Service} (prior : ServiceTrace start xs s) (now : Nat) :
      ServiceTrace start xs { s with sessions := (s.sessions.sweep now).2 }

/-- A secret was orphaned under a name, and nobody has been registered under the name since. -/
def Orphaned (xs : List Exchange) (name secret : String) : Prop :=
  Standing (fun x => x.Orphans name secret) (fun x => x.Finds name) xs

namespace ServiceTrace

variable {start s : Service} {xs : List Exchange}

theorem intact (h : ServiceTrace start xs s) (hstart : start.ledger.Intact) : s.ledger.Intact := by
  induction h with
  | start => exact hstart
  | @request xs s prior w hw r ih =>
    rcases s.ledger_handle hw r with hsame | ⟨session, c, a, -, -, hok⟩
    · rw [hsame]
      exact ih
    · exact ih.execute hok
  | sweep prior now ih => exact ih

/-- **Whom the wraps are for**, along every run of a service that has no wraps in the beginning. -/
theorem addressed (h : ServiceTrace start xs s) (hstart : start.ledger.Intact)
    (hnone : start.ledger.wraps.rows = []) : s.ledger.Addressed (Orphaned xs) := by
  induction h with
  | start =>
    intro row hrow
    rw [hnone] at hrow
    cases hrow
  | @request xs s prior w hw r ih =>
    have hintact : s.ledger.Intact := prior.intact hstart
    intro row hrow wrap hwrap name hrecipient
    rw [Orphaned, standing_concat]
    rcases s.ledger_handle hw r with hsame | ⟨session, c, a, hsession, hpermitted, hok⟩
    · rw [hsame] at hrow ⊢
      rcases ih row hrow wrap hwrap name hrecipient with hthere | horphaned
      · exact .inl hthere
      · by_cases hfound : Ledger.has s.ledger.principals name = true
        · exact .inl hfound
        · exact .inr (.inr ⟨horphaned, hfound⟩)
    · rcases hintact.addressed_execute ih hok row hrow wrap hwrap name hrecipient with
        hthere | horphans | ⟨horphaned, habsent⟩
      · exact .inl hthere
      · exact .inr (.inl (.of_command (x := ⟨w, r, s⟩) hintact hsession hpermitted hok horphans))
      · refine .inr (.inr ⟨horphaned, fun hfound => ?_⟩)
        rw [Exchange.Finds, habsent] at hfound
        cases hfound
  | sweep prior now ih => exact ih

end ServiceTrace

namespace Service

variable {start s : Service} {xs : List Exchange} {w : Surroundings} {r : Request}
variable {raw : List (String × Bytes)} {m : Message.User}

/-- **A newcomer can open what was orphaned under its name and nothing else.**  The service starts
with no secrets, and its run is any; the surroundings of the registration are any that show a time.
Right after the registration every wrap for the newcomer is of a secret that was created through a
session of an earlier principal of the name, when that one had gone and nobody had come after it. -/
theorem newcomer_opens_only_orphans (hstart : start.ledger.Intact)
    (hempty : start.ledger.secrets.rows = []) (hrun : ServiceTrace start xs s)
    (hw : w.time.IsValid) (hmethod : r.method = "POST")
    (hpath : Http.findRoute? r.target = some (.users, raw))
    (hm : messageOf r Message.User.layout = .ok m) (hstatus : (s.handle w r).1.status = 200) :
    let l := (s.handle w r).2.ledger
    (∃ ws, l.scanWraps none = .ok ws ∧ ∀ x ∈ ws, x.2.recipient = .principal m.name →
      Orphaned xs m.name x.2.secret) ∧
    (∀ secret, ¬Orphaned xs m.name secret → l.canRead m.name secret = .ok false) ∧
    ((∀ secret, ¬Orphaned xs m.name secret) → l.fetchAccessible m.name = .ok []) := by
  intro l
  have hintact : s.ledger.Intact := hrun.intact hstart
  have hnone : start.ledger.wraps.rows = [] := by
    refine List.eq_nil_iff_forall_not_mem.2 fun row hrow => ?_
    obtain ⟨wrap, -, hfit⟩ := hstart.wraps row hrow
    have hthere := hfit.secret
    rw [Ledger.has, Table.contains, Table.get?, hempty] at hthere
    cases hthere
  have haddressed : s.ledger.Addressed (Orphaned xs) := hrun.addressed hstart hnone
  obtain ⟨new, hname, -, hok⟩ := of_register_status hmethod hpath hm hstatus
  have hregister : s.ledger.registerPrincipal (⟨w.time, hw⟩ : Moment).1 new = .ok l := hok
  obtain ⟨hafter, hwraps, hfree, hregistered⟩ := hintact.of_registerPrincipal hregister
  rw [hname] at hfree hregistered
  -- the registration makes no wrap, and before it there was nobody of the name
  have howned : ∀ key wrap, l.wrap? key = some wrap → wrap.recipient = .principal m.name →
      Orphaned xs m.name wrap.secret := by
    intro key wrap hwrap hrecipient
    obtain ⟨bytes, hrow, hdecode⟩ := Ledger.wrap?_eq_some_iff.1 hwrap
    rw [hwraps] at hrow
    rcases haddressed _ hrow wrap hdecode m.name hrecipient with hthere | horphaned
    · rw [hfree] at hthere
      cases hthere
    · exact horphaned
  have hnew : l.getPrincipal m.name = .ok (new.registered ⟨w.time, hw⟩) :=
    hafter.getPrincipal_eq_ok_iff.2 hregistered
  have hopened : ∀ secret key wrap, l.CanOpen (new.registered ⟨w.time, hw⟩) secret key wrap →
      Orphaned xs m.name wrap.secret := by
    rintro secret key wrap ⟨hwrap, -, hopens⟩
    refine howned key wrap hwrap ?_
    rcases Principal.opens_iff.1 hopens with heq | ⟨-, hgroup⟩
    · rw [heq, ← hname]
      rfl
    · exact absurd rfl hgroup
  refine ⟨?_, fun secret hnot => ?_, fun hnot => ?_⟩
  · obtain ⟨ws, hws⟩ := Ledger.exists_scanWraps hafter.wraps none
    exact ⟨ws, hws, fun x hx => howned x.1 x.2 ((hafter.mem_scanWraps hws).1 hx).1⟩
  · refine hafter.canRead_eq_false hnew fun key wrap hopen => hnot ?_
    have hsecret : wrap.secret = secret := by simpa using hopen.2.1
    exact hsecret ▸ hopened _ key wrap hopen
  · refine hafter.accessible_eq_nil hnew ?_ fun key wrap hopen =>
      hnot wrap.secret (hopened _ key wrap hopen)
    intro secret hsecret
    cases hsecret

/-! ### A name that comes back -/

/-- An administrator, and a client that is deleted again. -/
def sampleStaff : List Command :=
  [.bootstrap leapDay ⟨List.replicate 32 1, [1],
      some ⟨⟨"root", .admin, List.replicate 32 2, utf8 "pw"⟩, [2]⟩⟩,
    .registerPrincipal leapDay ⟨"ann", .client, List.replicate 32 3, utf8 "pw"⟩,
    .deletePrincipal "ann"]

/-- The service of the example, where both had logged in before the client was deleted. -/
def sampleOffice : Service :=
  ⟨(Strongroom.run Ledger.execute .empty sampleStaff).2,
    ⟨(Table.empty.insert 7
      ⟨⟨"ann", "default", false, false⟩, some (Octets.zero 32), none, 0⟩).insert 8
      ⟨⟨"root", "super", true, true⟩, some (Octets.zero 32), none, 0⟩, {}⟩⟩

/-- The client, which is not there any more, creates a secret. -/
def sampleLegacy : Request :=
  sampleSigned "7" "POST" "/v1/keys"
    "\x7b\"name\":\"db\",\"secret\":\"AQ==\",\"key\":\"AQ==\",\"userKey\":\"AQ==\"\x7d"

/-- The administrator registers somebody else under the name of the client. -/
def sampleReturn : Request :=
  sampleSigned "8" "POST" "/v1/users" ("\x7b\"name\":\"ann\",\"password\":\"new\",\"key\":\"" ++
    Base64.encode (List.replicate 32 9) ++ "\"\x7d")

/-- **An orphan waits for the newcomer.**  The service is bootstrapped and has no secrets.  The
client creates a secret when it has been deleted, and whoever is registered under its name next can
read the secret. -/
theorem orphan_waits_for_newcomer :
    let orphaned := (sampleOffice.handle samplePlain sampleLegacy).2
    let registered := orphaned.handle samplePlain sampleReturn
    sampleOffice.ledger.isInitialized = true ∧ sampleOffice.ledger.secrets.rows = [] ∧
      registered.1.status = 200 ∧ registered.2.ledger.canRead "ann" "db" = .ok true := by
  decide +kernel

theorem newcomer_opens_only_orphans_sampleReturn :
    (sampleOffice.handle samplePlain sampleReturn).1.status = 200 ∧
      (sampleOffice.handle samplePlain sampleReturn).2.ledger.fetchAccessible "ann" = .ok [] := by
  have hstatus : (sampleOffice.handle samplePlain sampleReturn).1.status = 200 := by
    decide +kernel
  have hm : messageOf sampleReturn Message.User.layout =
      .ok { name := "ann", password := "new", key := Base64.encode (List.replicate 32 9) } := by
    decide +kernel
  have hrun : ServiceTrace sampleOffice [] sampleOffice := .start
  have hpath : Http.findRoute? sampleReturn.target = some (.users, []) := by decide +kernel
  have hopens := newcomer_opens_only_orphans (Ledger.intact_run .empty sampleStaff)
    (by decide +kernel) hrun leapDay.2 rfl hpath hm hstatus
  exact ⟨hstatus, hopens.2.2 fun _ => not_standing_nil⟩

end Service

end Strongroom
