import Strongroom.Proofs.Ledger.WrapRows

/-!
# Rows are written once

No command puts another row in the place of a secret's, a group's or a wrap's: what stands under a
key before and after is one row (`Table.Agrees`).  For groups and secrets that holds whatever the
commands are, since a row is added only under a free name.  A wrap is added under the next number,
so there the number must be free.  Principals are written again, but all that a command changes is
where a principal belongs, and only for the principals that it moves (`Command.Moves`).
-/

namespace Strongroom

/-! ### Tables that agree -/

/-- What stands under a key in both of two tables is the same row. -/
def Table.Agrees (t t' : Table Bytes Bytes) : Prop :=
  ∀ key row row', t.get? key = some row → t'.get? key = some row' → row' = row

namespace Table.Agrees

variable {t t' : Table Bytes Bytes}

/-- A table that only gains rows. -/
theorem of_subset (h : t.rows ⊆ t'.rows) : t.Agrees t' := by
  intro key row row' hrow hrow'
  have hkept : t'.get? key = some row := get?_eq_some_iff.2 (h (get?_eq_some_iff.1 hrow))
  exact Option.some.inj (hrow'.symm.trans hkept)

/-- A table that only loses rows. -/
theorem of_superset (h : t'.rows ⊆ t.rows) : t.Agrees t' :=
  fun key row row' hrow hrow' => (of_subset h key row' row hrow' hrow).symm

theorem refl (t : Table Bytes Bytes) : t.Agrees t := of_subset (List.Subset.refl _)

theorem erase (t : Table Bytes Bytes) (key : Bytes) : t.Agrees (t.erase key) :=
  of_superset (List.filter_subset_self _)

end Table.Agrees

/-! ### Principals that are moved -/

/-- A command puts a principal into another group. -/
def Command.Moves (c : Command) (p : Principal) : Prop :=
  match c with
  | .reassignPrincipal principal _ _ => principal = p.name
  | .deleteGroup group => group = p.group
  | _ => False

/-- Whoever is not moved stays as it is. -/
theorem Command.eq_of_principalAfter {c : Command} {p p' : Principal}
    (h : c.principalAfter p.name (some p) = some p') (hstays : ¬c.Moves p) : p' = p := by
  cases c with
  | bootstrap now setup =>
    simp only [principalAfter] at h
    split at h
    · exact (Option.some.inj h).symm
    · split at h <;> exact (Option.some.inj h).symm
  | registerPrincipal now new =>
    rw [principalAfter] at h
    split at h <;> exact (Option.some.inj h).symm
  | deleteGroup group =>
    have hgroup : p.group ≠ group := fun heq => hstays heq.symm
    rw [principalAfter, Option.map_some, if_neg hgroup] at h
    exact (Option.some.inj h).symm
  | reassignPrincipal principal group sealedGroupKey =>
    have hname : principal ≠ p.name := hstays
    rw [principalAfter, if_neg hname] at h
    exact (Option.some.inj h).symm
  | deletePrincipal principal =>
    rw [principalAfter] at h
    split at h
    · cases h
    · exact (Option.some.inj h).symm
  | _ => exact (Option.some.inj h).symm

namespace Ledger

variable {l l' : Ledger} {c : Command} {a : Answer}

theorem rows_subset_addRow (t : Table Bytes Bytes) (name : String) (row : Bytes) :
    t.rows ⊆ (addRow t name row).rows := by
  rw [addRow]
  split
  · exact List.Subset.refl _
  · next hfree =>
    have hnone := has_eq_false_iff.1 (Bool.eq_false_of_not_eq_true hfree)
    exact Table.Gains.subset ⟨hnone, rfl⟩

/-! ### Rows before and after a command -/

theorem agrees_groupsAfter (c : Command) (t : Table Bytes Bytes) :
    t.Agrees (c.groupsAfter t) := by
  cases c with
  | bootstrap now setup =>
    exact .of_subset (List.Subset.trans (rows_subset_addRow _ _ _) (rows_subset_addRow _ _ _))
  | createGroup now name kind publicKey sealedPrivateKey =>
    exact .of_subset (rows_subset_addRow _ _ _)
  | deleteGroup name => exact .erase _ _
  | _ => exact .refl t

theorem agrees_secretsAfter (c : Command) (t : Table Bytes Bytes) :
    t.Agrees (c.secretsAfter t) := by
  cases c with
  | createSecret now caller new => exact .of_subset (rows_subset_addRow _ _ _)
  | deleteSecret name => exact .erase _ _
  | _ => exact .refl t

/-- Wraps are only taken away or only added. -/
theorem Intact.agrees_wraps (h : l.Intact) (hfree : l.NextFree) (hok : l.execute c = .ok (a, l')) :
    l.wraps.Agrees l'.wraps := by
  by_cases hnone : c.newWraps = []
  · exact .of_superset (h.wraps_subset_of_removes hok hnone)
  · exact .of_subset (h.gains_newWraps hfree hok hnone).1

/-- Where a principal belongs may have changed if a condition holds, and nothing else has. -/
structure SameUnless (moved : Prop) (p p' : Principal) : Prop where
  name : p'.name = p.name
  kind : p'.kind = p.kind
  publicKey : p'.publicKey = p.publicKey
  passwordHash : p'.passwordHash = p.passwordHash
  createdAt : p'.createdAt = p.createdAt
  group : p'.group ≠ p.group ∨ p'.sealedGroupKey ≠ p.sealedGroupKey → moved

/-- A principal and the one under its name after a command. -/
theorem Intact.sameUnless_moves (h : l.Intact) (hok : l.execute c = .ok (a, l')) {name : String}
    {p p' : Principal} (hp : l.principal? name = some p) (hp' : l'.principal? name = some p') :
    SameUnless (c.Moves p) p p' := by
  have hafter := (h.recordsAfter hok).principals p.name
  rw [h.name_of_principal? hp, hp, hp'] at hafter
  have hdelete : c ≠ .deletePrincipal name := by
    rintro rfl
    rw [Command.principalAfter, if_pos rfl] at hafter
    cases hafter
  obtain ⟨group, sealedGroupKey, hsame⟩ := h.principal?_execute_of_ne hok hp hdelete
  rw [hp'] at hsame
  obtain rfl := Option.some.inj hsame
  refine ⟨rfl, rfl, rfl, rfl, rfl, fun hdiffers => ?_⟩
  by_contra hstays
  rw [← h.name_of_principal? hp] at hafter
  rw [Command.eq_of_principalAfter hafter.symm hstays] at hdiffers
  exact hdiffers.elim (absurd rfl) (absurd rfl)

/-- What stands under a key in both of two ledgers is the same, up to where the principals belong
that satisfy a condition. -/
structure KeepsRows (moved : Principal → Prop) (l l' : Ledger) : Prop where
  secrets : l.secrets.Agrees l'.secrets
  groups : l.groups.Agrees l'.groups
  wraps : l.wraps.Agrees l'.wraps
  principals : ∀ key row row', l.principals.get? key = some row →
    l'.principals.get? key = some row' →
    ∃ p p', decode Principal.layout row = .ok p ∧ decode Principal.layout row' = .ok p' ∧
      SameUnless (moved p) p p'

theorem KeepsRows.imp {moved moved' : Principal → Prop} (h : KeepsRows moved l l')
    (himp : ∀ p, moved p → moved' p) : KeepsRows moved' l l' := by
  refine ⟨h.secrets, h.groups, h.wraps, fun key row row' hrow hrow' => ?_⟩
  obtain ⟨p, p', hp, hp', hsame⟩ := h.principals key row row' hrow hrow'
  exact ⟨p, p', hp, hp', { hsame with group := fun hdiffers => himp p (hsame.group hdiffers) }⟩

theorem Intact.keepsRows_refl (h : l.Intact) (moved : Principal → Prop) :
    KeepsRows moved l l := by
  refine ⟨.refl _, .refl _, .refl _, fun key row row' hrow hrow' => ?_⟩
  obtain rfl := Option.some.inj (hrow.symm.trans hrow')
  obtain ⟨p, hp, -⟩ := h.principals _ (Table.get?_eq_some_iff.1 hrow)
  exact ⟨p, p, hp, hp, rfl, rfl, rfl, rfl, rfl, fun hdiffers =>
    hdiffers.elim (absurd rfl) (absurd rfl)⟩

/-- **A command replaces no row**, other than those of the principals that it moves. -/
theorem Intact.keepsRows (h : l.Intact) (hfree : l.NextFree) (hok : l.execute c = .ok (a, l')) :
    KeepsRows c.Moves l l' := by
  have hafter := h.recordsAfter hok
  refine ⟨?_, ?_, h.agrees_wraps hfree hok, fun key row row' hrow hrow' => ?_⟩
  · rw [hafter.secrets]
    exact agrees_secretsAfter c l.secrets
  · rw [hafter.groups]
    exact agrees_groupsAfter c l.groups
  · obtain ⟨p, hp, rfl⟩ := h.principals _ (Table.get?_eq_some_iff.1 hrow)
    obtain ⟨p', hp', -⟩ := (h.execute hok).principals _ (Table.get?_eq_some_iff.1 hrow')
    exact ⟨p, p', hp, hp', h.sameUnless_moves hok (record?_eq_some_iff.2 ⟨row, hrow, hp⟩)
      (record?_eq_some_iff.2 ⟨row', hrow', hp'⟩)⟩

end Ledger

/-- **Stored rows are immutable apart from group membership.**  In every ledger that a run can
reach, with fewer than `2 ^ 64 - 1` wraps made, whatever the command is and whether it succeeds or
not: the row of a secret, a group or a wrap that is there before and after is the same row, and what
the row of a principal says is the same but for the group and its sealed key, which differ only if
the command is a reassignment of the principal or the deletion of its group and has succeeded. -/
theorem stored_rows_are_immutable {cs : List Command} {es : List Event} {l : Ledger}
    (hrun : run Ledger.execute .empty cs = (es, l)) (hmade : wrapsMade es < 2 ^ 64 - 1)
    (c : Command) :
    let after := attempt Ledger.execute l c
    Ledger.KeepsRows (fun p => Event.Succeeds ⟨c, after.1⟩ ∧ c.Moves p) l after.2 := by
  have hintact : l.Intact := by
    have := Ledger.intact_run .empty cs
    rwa [hrun] at this
  obtain ⟨-, hrep⟩ := Represents.of_run hrun rfl hmade
  cases hc : l.execute c with
  | error e =>
    rw [attempt_of_error hc]
    exact hintact.keepsRows_refl _
  | ok x =>
    rw [attempt_of_ok hc]
    have hkeeps := hintact.keepsRows (hrep.nextFree (by omega)) hc
    exact hkeeps.imp fun p hmoves => ⟨⟨x.1, rfl⟩, hmoves⟩

/-- Here the command is such a reassignment, and the group does differ. -/
theorem stored_rows_are_immutable_sampleRun :
    let l := (run Ledger.execute .empty sampleRun).2
    let move := Command.reassignPrincipal "ann" superGroup (some [7])
    let after := attempt Ledger.execute l move
    wrapsMade (run Ledger.execute .empty sampleRun).1 = 3 ∧
      (l.principal? "ann").map (·.group) ≠ (after.2.principal? "ann").map (·.group) ∧
      Ledger.KeepsRows (fun p => Event.Succeeds ⟨move, after.1⟩ ∧ move.Moves p) l after.2 := by
  have hmade : wrapsMade (run Ledger.execute .empty sampleRun).1 = 3 := by decide +kernel
  exact ⟨hmade, by decide +kernel, stored_rows_are_immutable rfl (by omega) _⟩

end Strongroom
