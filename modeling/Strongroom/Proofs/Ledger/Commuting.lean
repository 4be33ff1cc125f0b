import Strongroom.Proofs.Ledger.Refinement

/-!
# Operations on different secrets

All secrets share one table of wraps and one counter, so of two operations the later one gets the
greater numbers, and the tables show which was the later.  The answers do not.  On the plain ledger
an operation that names a secret sees the principals, the groups and the entry of that secret, and
it puts another entry in its place (`PlainLedger.attempt_eq_only`),

    l  ↦  l with the entry that `c` makes of the secret's alone,

so operations on two secrets change two entries of one map and can change them in either order
(`PlainLedger.attempt_comm`).  The ledgers that the two orders lead to have different numbers, but
they represent the same plain ledger, and ledgers that do so answer alike from then on
(`Represents.run_eq_run`).

The moment of an operation on a secret shows in no answer, so the two orders may be run at different
times.
-/

namespace Strongroom

/-! ### Operations on a secret -/

/-- The secret that a command names, if it is one that creates, grants, revokes or deletes. -/
def Command.secret? : Command → Option String
  | .createSecret _ _ new => some new.name
  | .assignToGroup _ secret _ _ _ => some secret
  | .assignToPrincipal _ secret _ _ _ => some secret
  | .revokeFromGroup secret _ => some secret
  | .revokeFromPrincipal secret _ => some secret
  | .deleteSecret name => some name
  | _ => none

/-- A command at another moment. -/
def Command.retimed (now : Moment) : Command → Command
  | .bootstrap _ setup => .bootstrap now setup
  | .registerPrincipal _ new => .registerPrincipal now new
  | .createGroup _ name kind publicKey sealedPrivateKey =>
    .createGroup now name kind publicKey sealedPrivateKey
  | .createSecret _ caller new => .createSecret now caller new
  | .assignToGroup _ secret group sealedKey path => .assignToGroup now secret group sealedKey path
  | .assignToPrincipal _ secret principal sealedKey path =>
    .assignToPrincipal now secret principal sealedKey path
  | c => c

theorem Command.wraps_retimed (c : Command) (now : Moment) : (c.retimed now).wraps = c.wraps := by
  cases c <;> rfl

/-! ### On the plain ledger -/

namespace PlainLedger

/-- A ledger that has no secret but the one under a name. -/
def only (l : PlainLedger) (s : String) : PlainLedger :=
  { l with secrets := NameMap.empty.put s (l.secrets.find s) }

/-- A ledger with the entry that a secret has in another one. -/
def patch (l : PlainLedger) (s : String) (l' : PlainLedger) : PlainLedger :=
  { l with secrets := l.secrets.put s (l'.secrets.find s) }

variable (l : PlainLedger) (s : String)

theorem find_only : (l.only s).secrets.find s = l.secrets.find s :=
  NameMap.find_put_self _ _ _

theorem has_only : (l.only s).secrets.has s = l.secrets.has s := by
  rw [NameMap.has, find_only, NameMap.has]

theorem get_only (subject : Subject) :
    (l.only s).secrets.get s subject = l.secrets.get s subject := by
  rw [NameMap.get, find_only, NameMap.get]

theorem patch_only : l.patch s (l.only s) = l := by
  rw [patch, find_only, NameMap.put_find]

/-- Another secret's entry does not matter. -/
theorem only_patch {t : String} (h : s ≠ t) (l' : PlainLedger) :
    (l.patch t l').only s = l.only s := by
  rw [only, patch, NameMap.find_put_of_ne _ h]
  rfl

theorem patch_comm {t : String} (h : s ≠ t) (l₁ l₂ : PlainLedger) :
    (l.patch s l₁).patch t l₂ = (l.patch t l₂).patch s l₁ := by
  simp only [patch, NameMap.put_comm l.secrets h]

/-- The outcome of an operation on a ledger is the one where the secret is alone, put in place. -/
abbrev Patches (l : PlainLedger) (s : String) : PlainLedger → PlainLedger → Prop :=
  fun l₁ l₂ => l₁ = l.patch s l₂

theorem createSecret_only (caller : Identity) (new : NewSecret) :
    Matches (l.Patches new.name) (l.createSecret caller new)
      ((l.only new.name).createSecret caller new) := by
  rw [createSecret, createSecret, has_only]
  refine .check fun _ _ => .check fun _ _ => .check fun _ _ => .check fun _ _ => .check fun _ _ =>
    .check fun _ _ => .ok ?_
  rw [Patches, patch, NameMap.find_set_self]
  rfl

theorem grant_only (r : Recipient) (sealedKey : Bytes) (path : Option String) :
    Matches (l.Patches s) (l.grant s r sealedKey path) ((l.only s).grant s r sealedKey path) := by
  rw [grant, grant, get_only]
  refine .check fun _ _ => .check fun _ _ => .check fun _ _ => .ok ?_
  rw [Patches, patch, NameMap.find_set_self]
  rfl

theorem revoke_only (r : Recipient) :
    Matches (fun a b => a.1 = b.1 ∧ l.Patches s a.2 b.2) (l.revoke s r)
      ((l.only s).revoke s r) := by
  rw [revoke, revoke, get_only]
  refine .check fun _ _ => .check fun _ _ => .check fun _ _ => .ok ⟨rfl, ?_⟩
  rw [Patches, patch, NameMap.find_set_self]
  rfl

theorem deleteSecret_only :
    Matches (l.Patches s) (l.deleteSecret s) ((l.only s).deleteSecret s) := by
  rw [deleteSecret, deleteSecret, has_only]
  refine .check fun _ _ => .check fun _ _ => .ok ?_
  rw [Patches, patch, NameMap.find_erase, if_pos rfl]
  rfl

variable {s}

/-- **An operation on a secret sees the entry of that secret only, and changes nothing else.** -/
theorem execute_only {c : Command} (hc : c.secret? = some s) :
    Matches (fun a b => a.1 = b.1 ∧ l.Patches s a.2 b.2) (l.execute c) ((l.only s).execute c) := by
  cases c with
  | createSecret now caller new =>
    obtain rfl := Option.some.inj hc
    exact (l.createSecret_only caller new).map fun _ _ hab => ⟨rfl, hab⟩
  | assignToGroup now secret group sealedKey path =>
    obtain rfl := Option.some.inj hc
    exact (Matches.check fun _ _ => l.grant_only secret (.group group) sealedKey path).map
      fun _ _ hab => ⟨rfl, hab⟩
  | assignToPrincipal now secret principal sealedKey path =>
    obtain rfl := Option.some.inj hc
    exact (l.grant_only secret (.principal principal) sealedKey path).map fun _ _ hab => ⟨rfl, hab⟩
  | revokeFromGroup secret group =>
    obtain rfl := Option.some.inj hc
    exact (Matches.check fun _ _ => l.revoke_only secret (.group group)).map fun _ _ hab =>
      ⟨congrArg Answer.removed hab.1, hab.2⟩
  | revokeFromPrincipal secret principal =>
    obtain rfl := Option.some.inj hc
    exact (l.revoke_only secret (.principal principal)).map fun _ _ hab =>
      ⟨congrArg Answer.removed hab.1, hab.2⟩
  | deleteSecret name =>
    obtain rfl := Option.some.inj hc
    exact (l.deleteSecret_only name).map fun _ _ hab => ⟨rfl, hab⟩
  | _ => cases hc

/-- One step on a secret is the step where the secret is alone, put in place. -/
theorem attempt_eq_only {c : Command} (hc : c.secret? = some s) :
    attempt execute l c =
      ((attempt execute (l.only s) c).1, l.patch s (attempt execute (l.only s) c).2) := by
  have hmatch := l.execute_only hc
  unfold Strongroom.attempt
  generalize l.execute c = x, (l.only s).execute c = y at hmatch
  cases hmatch with
  | @ok a b hab => exact Prod.ext (congrArg Except.ok hab.1) hab.2
  | error e => exact Prod.ext rfl (l.patch_only s).symm

/-- **Operations on two secrets give the same replies and lead to the same plain ledger in both
orders.** -/
theorem attempt_comm {c d : Command} {t : String} (hc : c.secret? = some s)
    (hd : d.secret? = some t) (hst : s ≠ t) :
    (attempt execute (attempt execute l d).2 c).1 = (attempt execute l c).1 ∧
      (attempt execute (attempt execute l c).2 d).1 = (attempt execute l d).1 ∧
      (attempt execute (attempt execute l d).2 c).2 =
        (attempt execute (attempt execute l c).2 d).2 := by
  let x := attempt execute (l.only s) c
  let y := attempt execute (l.only t) d
  have hx : attempt execute l c = (x.1, l.patch s x.2) := l.attempt_eq_only hc
  have hy : attempt execute l d = (y.1, l.patch t y.2) := l.attempt_eq_only hd
  have hyx : attempt execute (l.patch t y.2) c = (x.1, (l.patch t y.2).patch s x.2) := by
    rw [attempt_eq_only _ hc, only_patch _ _ hst]
  have hxy : attempt execute (l.patch s x.2) d = (y.1, (l.patch s x.2).patch t y.2) := by
    rw [attempt_eq_only _ hd, only_patch _ _ hst.symm]
  rw [hx, hy, hxy, hyx]
  exact ⟨rfl, rfl, (l.patch_comm s hst _ _).symm⟩

/-- The moment of an operation on a secret shows neither in its reply nor in the plain ledger. -/
theorem attempt_retimed {c : Command} (hc : c.secret? = some s) (now : Moment) :
    attempt execute l (c.retimed now) = attempt execute l c := by
  cases c with
  | bootstrap | registerPrincipal | createGroup => cases hc
  | _ => rfl

end PlainLedger

/-! ### On the ledger -/

namespace Represents

variable {l l' : Ledger} {p : PlainLedger} {count : Nat}

/-- **Ledgers that represent the same plain ledger answer alike**, whatever numbers their wraps
have. -/
theorem run_eq_run (h : Represents l p count) (h' : Represents l' p count) (cs : List Command)
    (hcount : count + wrapsMade (Strongroom.run Ledger.execute l cs).1 < 2 ^ 64) :
    (Strongroom.run Ledger.execute l cs).1 = (Strongroom.run Ledger.execute l' cs).1 := by
  induction cs generalizing l l' p count with
  | nil => rfl
  | cons c cs ih =>
    rw [run_cons] at hcount
    rw [run_cons, run_cons]
    simp only [wrapsMade_cons] at hcount
    obtain ⟨hreply, hstep⟩ := h.attempt c
    obtain ⟨hreply', hstep'⟩ := h'.attempt c
    have hsame := hreply.trans hreply'.symm
    rw [← hsame] at hstep'
    show _ :: _ = _ :: _
    rw [← hsame, ih (hstep (by omega)) (hstep' (by omega)) (by omega)]

/-- The wraps of an event do not depend on the moment of its command. -/
theorem wraps_retimed (c : Command) (now : Moment) (r : Except Ledger.Error Answer) :
    Event.wraps ⟨c.retimed now, r⟩ = Event.wraps ⟨c, r⟩ := by
  cases r with
  | ok a => exact c.wraps_retimed now
  | error e => rfl

/-- **Operations on two secrets in both orders**: each gives the same reply in both, and the two
ledgers represent one plain ledger. -/
theorem run_comm (h : Represents l p count) {a b : Command} {s t : String}
    (ha : a.secret? = some s) (hb : b.secret? = some t) (hst : s ≠ t) (u v : Moment)
    (hcount : count + wrapsMade (Strongroom.run Ledger.execute l [a, b]).1 < 2 ^ 64) :
    let ab := Strongroom.run Ledger.execute l [a, b]
    let ba := Strongroom.run Ledger.execute l [b.retimed u, a.retimed v]
    (∃ ra rb, ab.1 = [⟨a, ra⟩, ⟨b, rb⟩] ∧ ba.1 = [⟨b.retimed u, rb⟩, ⟨a.retimed v, ra⟩]) ∧
      ∃ q, Represents ab.2 q (count + wrapsMade ab.1) ∧
        Represents ba.2 q (count + wrapsMade ab.1) := by
  obtain ⟨hbAfter, haAfter, hsame⟩ := p.attempt_comm hb ha hst.symm
  simp only [run_cons, run_nil, wrapsMade_cons, wrapsMade, Nat.add_zero] at hcount ⊢
  -- one order
  obtain ⟨hreplyA, hrepA⟩ := h.attempt a
  obtain ⟨hreplyAB, hrepAB⟩ := (hrepA (by omega)).attempt b
  rw [hbAfter] at hreplyAB
  rw [hreplyAB, hreplyA] at hcount hrepAB
  -- the other order
  obtain ⟨hreplyB, hrepB⟩ := h.attempt (b.retimed u)
  rw [p.attempt_retimed hb] at hreplyB hrepB
  rw [hreplyB, wraps_retimed] at hrepB
  obtain ⟨hreplyBA, hrepBA⟩ := (hrepB (by omega)).attempt (a.retimed v)
  rw [PlainLedger.attempt_retimed _ ha, haAfter] at hreplyBA
  rw [PlainLedger.attempt_retimed _ ha, hreplyBA, wraps_retimed, ← hsame] at hrepBA
  rw [hreplyA, hreplyAB, hreplyB, hreplyBA]
  have hab := hrepAB (by omega)
  have hba := hrepBA (by omega)
  rw [Nat.add_assoc] at hab hba
  rw [Nat.add_comm (Event.wraps ⟨b, _⟩)] at hba
  exact ⟨⟨_, _, rfl, rfl⟩, _, hab, hba⟩

end Represents

/-- **Operations on different secrets commute.**  In every ledger that a run can reach, two
operations that each create, grant, revoke or delete a secret, and not the same one, give each the
same reply in both orders, whenever they are run; and from then on every sequence of commands gets
the same replies behind either order. -/
theorem operations_on_different_secrets_commute {cs cs' : List Command} {a b : Command}
    {s t : String} (ha : a.secret? = some s) (hb : b.secret? = some t) (hst : s ≠ t)
    (u v : Moment)
    (hmade : wrapsMade (run Ledger.execute .empty (cs ++ a :: b :: cs')).1 < 2 ^ 64 - 1) :
    let l := (run Ledger.execute .empty cs).2
    let ab := run Ledger.execute l [a, b]
    let ba := run Ledger.execute l [b.retimed u, a.retimed v]
    (∃ ra rb, ab.1 = [⟨a, ra⟩, ⟨b, rb⟩] ∧ ba.1 = [⟨b.retimed u, rb⟩, ⟨a.retimed v, ra⟩]) ∧
      (run Ledger.execute ab.2 cs').1 = (run Ledger.execute ba.2 cs').1 := by
  have happ : a :: b :: cs' = [a, b] ++ cs' := rfl
  rw [happ, run_append, run_append, wrapsMade_append, wrapsMade_append] at hmade
  obtain ⟨-, hrep⟩ := Represents.empty.run cs (by omega)
  rw [Nat.zero_add] at hrep
  obtain ⟨hreplies, q, hab, hba⟩ := hrep.run_comm ha hb hst u v (by omega)
  exact ⟨hreplies, hab.run_eq_run hba cs' (by omega)⟩

/-- A ledger with one secret, granted to its creator. -/
def sampleStart : List Command :=
  [.bootstrap leapDay ⟨List.replicate 32 1, [1], none⟩,
    .registerPrincipal leapDay ⟨"ann", .client, List.replicate 32 2, [2]⟩,
    .createSecret leapDay ⟨"ann", "default", false, false⟩ ⟨"db", [3], [4], some [5], none⟩]

/-- One more grant of that secret. -/
def sampleAssignment : Command := .assignToPrincipal leapDay "db" "ann" [6] none

/-- Another secret. -/
def sampleCreation : Command :=
  .createSecret leapDay ⟨"ann", "default", false, false⟩ ⟨"mail", [7], [8], some [9], none⟩

/-- The two orders give the wraps different numbers, and the replies do not show it. -/
theorem operations_on_different_secrets_commute_sampleStart :
    let l := (run Ledger.execute .empty sampleStart).2
    let ab := run Ledger.execute l [sampleAssignment, sampleCreation]
    let ba := run Ledger.execute l [sampleCreation, sampleAssignment]
    sampleAssignment.secret? = some "db" ∧ sampleCreation.secret? = some "mail" ∧
      wrapsMade (run Ledger.execute .empty
        (sampleStart ++ sampleAssignment :: sampleCreation :: [.fetchAccessible "ann"])).1 = 5 ∧
      ab.2.wraps.rows.map (·.1) ≠ ba.2.wraps.rows.map (·.1) ∧
      (run Ledger.execute ab.2 [.fetchAccessible "ann"]).1 =
        (run Ledger.execute ba.2 [.fetchAccessible "ann"]).1 := by
  have hmade : wrapsMade (run Ledger.execute .empty
      (sampleStart ++ sampleAssignment :: sampleCreation :: [.fetchAccessible "ann"])).1 = 5 := by
    decide +kernel
  refine ⟨rfl, rfl, hmade, by decide +kernel, ?_⟩
  exact (operations_on_different_secrets_commute rfl rfl (by decide) leapDay leapDay
    (by omega)).2

end Strongroom
