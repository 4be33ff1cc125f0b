import Strongroom.Proofs.Ledger.Effects
import Strongroom.Proofs.Service.Requests

/-!
# What a request can change

How far a request can change the ledger depends on who has sent it.  Without a live session it
changes nothing.  A sender without privileges can add a secret of its own, or a wrap for a principal
to a secret that it can read, and can remove and alter nothing.  Who is no superuser cannot touch
groups or who is in them, and who is no administrator cannot remove a principal, a secret or a wrap
other than those of a group that goes with them.

Each bound is a case analysis over the operations that are permitted to the sender
(`Command.Permitted`), with the effect of each operation on the rows of the tables.
-/

namespace Strongroom

namespace Represents

variable {l l' : Ledger} {p : PlainLedger} {count : Nat}

/-! ### Bounds by privilege -/

/-- **Who is no superuser cannot touch groups or who is in them.** -/
theorem keepsGroups (h : Represents l p count) {i : Identity} (hi : i.superuser = false)
    {c : Command} (hc : c.Permitted i l) {a : Answer} (hok : l.execute c = .ok (a, l')) :
    l.KeepsGroups l' := by
  cases hc with
  | createSecret now new =>
    obtain ⟨-, -, hl⟩ := Ledger.of_createSecret_eq_ok (of_changed_eq_ok hok)
    split at hl
    · subst hl
      exact h.keepsGroups_of_eq rfl rfl
    · subst hl
      exact h.keepsGroups_of_eq rfl rfl
  | assignToPrincipal now secret principal sealedKey path hreads =>
    obtain ⟨-, rfl⟩ := Ledger.of_grant_eq_ok (of_changed_eq_ok hok)
    exact h.keepsGroups_of_eq rfl rfl
  | assignToGroup now secret group sealedKey path hadmin =>
    obtain ⟨-, -, hok⟩ := of_bind_eq_ok (of_changed_eq_ok hok)
    obtain ⟨-, rfl⟩ := Ledger.of_grant_eq_ok hok
    exact h.keepsGroups_of_eq rfl rfl
  | revokeFromGroup secret group hadmin =>
    obtain ⟨n, hok⟩ := of_counted_eq_ok hok
    obtain ⟨-, -, hok⟩ := of_bind_eq_ok hok
    obtain ⟨t, rfl⟩ := Ledger.of_revoke_eq_ok hok
    exact h.keepsGroups_of_eq rfl rfl
  | revokeFromPrincipal secret principal hadmin =>
    obtain ⟨n, hok⟩ := of_counted_eq_ok hok
    obtain ⟨t, rfl⟩ := Ledger.of_revoke_eq_ok hok
    exact h.keepsGroups_of_eq rfl rfl
  | deleteSecret name hadmin =>
    obtain ⟨-, -, hok⟩ := of_bind_eq_ok (of_changed_eq_ok hok)
    obtain ⟨-, -, hok⟩ := of_bind_eq_ok hok
    obtain ⟨⟨n, l₁⟩, hremove, hok⟩ := of_bind_eq_ok hok
    obtain rfl := Except.ok.inj hok
    obtain ⟨t, rfl⟩ := Ledger.of_removeWraps_eq_ok hremove
    exact h.keepsGroups_of_eq rfl rfl
  | registerPrincipal now new hadmin => exact h.keepsGroups_registerPrincipal (of_changed_eq_ok hok)
  | deletePrincipal name hadmin => exact h.keepsGroups_deletePrincipal (of_changed_eq_ok hok)
  | createGroup now name kind publicKey sealedPrivateKey hsuper =>
    rw [hi] at hsuper
    cases hsuper
  | deleteGroup name hsuper =>
    rw [hi] at hsuper
    cases hsuper
  | reassignPrincipal principal group sealedGroupKey hsuper =>
    rw [hi] at hsuper
    cases hsuper

/-- **Who is no administrator removes no principal, no secret and no wrap but those of a group that
goes with them.** -/
theorem keepsEntries (h : Represents l p count) (hcount : count + 1 < 2 ^ 64) {i : Identity}
    (hi : i.admin = false) {c : Command} (hc : c.Permitted i l) {a : Answer}
    (hok : l.execute c = .ok (a, l')) : l.KeepsEntries l' := by
  have hadmin : ¬i.admin = true := by
    rw [hi]
    decide
  cases hc with
  | createSecret now new => exact h.keepsEntries_createSecret (of_changed_eq_ok hok)
  | assignToPrincipal now secret principal sealedKey path hreads =>
    obtain ⟨-, _, _, hprincipals, -, hsecrets, -, -, hgains⟩ :=
      h.gainsWrap hcount (of_changed_eq_ok hok)
    exact keepsEntries_of_subset (by simp [hprincipals]) (by simp [hsecrets]) hgains.subset
  | createGroup now name kind publicKey sealedPrivateKey hsuper =>
    obtain ⟨-, -, hok⟩ := of_bind_eq_ok (of_changed_eq_ok hok)
    obtain ⟨-, -, hok⟩ := of_bind_eq_ok hok
    obtain ⟨-, -, hok⟩ := of_bind_eq_ok hok
    obtain ⟨-, -, hok⟩ := of_bind_eq_ok hok
    obtain rfl := Except.ok.inj hok
    exact keepsEntries_of_subset (fun _ hk => hk) (fun _ hk => hk) (List.Subset.refl _)
  | deleteGroup name hsuper => exact h.keepsEntries_deleteGroup (of_changed_eq_ok hok)
  | reassignPrincipal principal group sealedGroupKey hsuper =>
    obtain ⟨-, -, hok⟩ := of_bind_eq_ok (of_changed_eq_ok hok)
    obtain ⟨-, -, hok⟩ := of_bind_eq_ok hok
    obtain ⟨q, -, hok⟩ := of_bind_eq_ok hok
    obtain rfl := Except.ok.inj hok
    refine keepsEntries_of_subset (fun k hk => ?_) (fun _ hk => hk) (List.Subset.refl _)
    rw [Ledger.has_insert, hk, Bool.or_true]
  | assignToGroup now secret group sealedKey path h => exact absurd h hadmin
  | revokeFromGroup secret group h => exact absurd h hadmin
  | revokeFromPrincipal secret principal h => exact absurd h hadmin
  | deleteSecret name h => exact absurd h hadmin
  | registerPrincipal now new h => exact absurd h hadmin
  | deletePrincipal name h => exact absurd h hadmin

/-- A sender without privileges adds a secret of its own, or a wrap of a secret that it can read. -/
theorem gains (h : Represents l p count) (hcount : count + 1 < 2 ^ 64) {i : Identity}
    (hadmin : i.admin = false) (hsuper : i.superuser = false) {c : Command} (hc : c.Permitted i l)
    {a : Answer} (hok : l.execute c = .ok (a, l')) :
    l.GainsSecret l' i.name ∨ ∃ secret principal, l.canRead i.name secret = .ok true ∧
      Ledger.has l.principals principal = true ∧ l.GainsWrap l' secret (.principal principal) := by
  have hnot : ¬i.admin = true ∧ ¬i.superuser = true := by
    rw [hadmin, hsuper]
    decide
  cases hc with
  | createSecret now new => exact .inl (h.gainsSecret hsuper (of_changed_eq_ok hok))
  | assignToPrincipal now secret principal sealedKey path hreads =>
    obtain ⟨hthere, hgains⟩ := h.gainsWrap hcount (of_changed_eq_ok hok)
    exact .inr ⟨secret, principal, hreads, hthere, hgains⟩
  | assignToGroup now secret group sealedKey path h => exact absurd h hnot.1
  | revokeFromGroup secret group h => exact absurd h hnot.1
  | revokeFromPrincipal secret principal h => exact absurd h hnot.1
  | deleteSecret name h => exact absurd h hnot.1
  | registerPrincipal now new h => exact absurd h hnot.1
  | deletePrincipal name h => exact absurd h hnot.1
  | createGroup now name kind publicKey sealedPrivateKey h => exact absurd h hnot.2
  | deleteGroup name h => exact absurd h hnot.2
  | reassignPrincipal principal group sealedGroupKey h => exact absurd h hnot.2

end Represents

namespace Service

variable {w : Surroundings} {s : Service} {r : Http.Request}

/-! ### Requests -/

/-- At most one session authenticates a request. -/
theorem AuthenticatedBy.unique {session session' : Session} (h : s.AuthenticatedBy w r session)
    (h' : s.AuthenticatedBy w r session') : session = session' := by
  obtain ⟨id, code, hshown, hsession, -⟩ := h
  obtain ⟨id', code', hshown', hsession', -⟩ := h'
  rw [hshown] at hshown'
  cases hshown'
  rw [hsession] at hsession'
  exact Option.some.inj hsession'

/-- The ledger that a request leaves behind is again one that a run leads to, and at most two wraps
have been made for the request. -/
theorem exists_run_handle (hw : w.time.IsValid) {cs : List Command} {es : List Event}
    (hrun : Strongroom.run Ledger.execute .empty cs = (es, s.ledger)) (r : Http.Request) :
    ∃ cs' es', Strongroom.run Ledger.execute .empty cs' = (es', (s.handle w r).2.ledger) ∧
      wrapsMade es' ≤ wrapsMade es + 2 := by
  rcases s.ledger_handle hw r with hsame | ⟨session, c, a, -, -, hok⟩
  · exact ⟨cs, es, by rw [hrun, hsame], by omega⟩
  · refine ⟨cs ++ [c], es ++ [⟨c, .ok a⟩], ?_, ?_⟩
    · rw [run_concat, hrun, attempt_of_ok hok]
    · have hwraps : wrapsMade [⟨c, .ok a⟩] = c.wraps := rfl
      have hle := c.wraps_le
      rw [wrapsMade_append, hwraps]
      omega

/-- **What a request changes is bounded by the authority of its sender.**  The ledger is any that a
run of operations leads to, with fewer than `2 ^ 64 - 1` wraps made; the sessions, the request and
what it finds around it are arbitrary. -/
theorem changes_within_authority {cs : List Command} {es : List Event}
    (hrun : Strongroom.run Ledger.execute .empty cs = (es, s.ledger))
    (hmade : wrapsMade es < 2 ^ 64 - 1) (hw : w.time.IsValid) (r : Http.Request) :
    let l' := (s.handle w r).2.ledger
    ((∀ session, ¬s.AuthenticatedBy w r session) → l' = s.ledger) ∧
      ∀ session, s.AuthenticatedBy w r session →
        (session.identity.admin = false → session.identity.superuser = false →
          l' = s.ledger ∨ s.ledger.GainsSecret l' session.identity.name ∨
            ∃ secret principal, s.ledger.canRead session.identity.name secret = .ok true ∧
              Ledger.has s.ledger.principals principal = true ∧
              s.ledger.GainsWrap l' secret (.principal principal)) ∧
        (session.identity.superuser = false → s.ledger.KeepsGroups l') ∧
        (session.identity.admin = false → s.ledger.KeepsEntries l') := by
  have hrep := (Represents.of_run hrun rfl hmade).2
  have hcount : wrapsMade es + 1 < 2 ^ 64 := by omega
  intro l'
  rcases s.ledger_handle hw r with hsame | ⟨session, c, a, hsession, hc, hok⟩
  · replace hsame : l' = s.ledger := hsame
    rw [hsame]
    refine ⟨fun _ => rfl, fun session _ => ⟨fun _ _ => .inl rfl, fun _ => ?_, fun _ => ?_⟩⟩
    · exact hrep.keepsGroups_of_eq rfl rfl
    · exact Represents.keepsEntries_of_subset (fun _ hk => hk) (fun _ hk => hk)
        (List.Subset.refl _)
  · refine ⟨fun hnone => absurd hsession (hnone session), fun session' hsession' => ?_⟩
    obtain rfl := hsession.unique hsession'
    exact ⟨fun hadmin hsuper => .inr (hrep.gains hcount hadmin hsuper hc hok),
      fun hsuper => hrep.keepsGroups hsuper hc hok,
      fun hadmin => hrep.keepsEntries hcount hadmin hc hok⟩

/-- A service in which a client is logged in that can read a secret. -/
def sampleService : Service :=
  ⟨(Strongroom.run Ledger.execute .empty (sampleRun.take 3)).2,
    ⟨Table.empty.insert 7 ⟨⟨"ann", "default", false, false⟩, some (Octets.zero 32), none, 0⟩, {}⟩⟩

/-- What the request of the example finds around the service. -/
def sampleSurroundings : Surroundings :=
  ⟨1, leapDay.1, none, 0, Password.scheme, 0, Octets.zero 32, Octets.zero 16, []⟩

/-- A request in which the client grants the secret to itself once more. -/
def sampleGrant : Http.Request :=
  let target : Http.Target := ⟨utf8 "/v1/keys/db/users/ann", none⟩
  let body := utf8 "\x7b\"key\":\"AQ==\"\x7d"
  let code := RequestMac.compute (List.replicate 32 0) target.context body
  ⟨"PUT", target, [("content-type", utf8 "application/json"), ("session-id", utf8 "7"),
    ("x-auth-mac", utf8 (Base64.encode code.bytes))], body⟩

theorem authenticatedBy_sampleGrant : sampleService.AuthenticatedBy sampleSurroundings sampleGrant
    ⟨⟨"ann", "default", false, false⟩, some (Octets.zero 32), none, 0⟩ :=
  ⟨7, (RequestMac.compute (List.replicate 32 0) sampleGrant.target.context sampleGrant.body).bytes,
    by decide +kernel⟩

theorem changes_within_authority_sampleGrant :
    let l := sampleService.ledger
    let l' := (sampleService.handle sampleSurroundings sampleGrant).2.ledger
    (∃ session, sampleService.AuthenticatedBy sampleSurroundings sampleGrant session ∧
      session.identity.name = "ann") ∧
      (l' = l ∨ l.GainsSecret l' "ann" ∨ ∃ secret principal, l.canRead "ann" secret = .ok true ∧
        Ledger.has l.principals principal = true ∧
        l.GainsWrap l' secret (.principal principal)) ∧
      l.KeepsGroups l' ∧ l.KeepsEntries l' := by
  have hsession := authenticatedBy_sampleGrant
  have hmade : wrapsMade (Strongroom.run Ledger.execute .empty (sampleRun.take 3)).1 = 2 := by
    decide +kernel
  have hbounds := (changes_within_authority (s := sampleService) rfl (by omega) leapDay.2
    sampleGrant).2 _ hsession
  exact ⟨⟨_, hsession, rfl⟩, hbounds.1 rfl rfl, hbounds.2.1 rfl, hbounds.2.2 rfl⟩

end Service

end Strongroom
