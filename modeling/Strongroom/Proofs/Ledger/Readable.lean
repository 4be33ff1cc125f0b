import Strongroom.Proofs.History
import Strongroom.Proofs.Ledger.Refinement

/-!
# Readability is the unrevoked history

Whether a principal can read a secret is a question about the present tables.  It is also a question
about the past: was the secret granted to the principal or to its group, and has nothing since then
taken the grant away?  The two answers are the same.

On the plain ledger the grants of a secret to a recipient change with a command only as the command
says, by granting (`Command.Grants`) or by ending (`Command.Ends`),

    holds after  ↔  granted by the command ∨ (held before ∧ not ended by it),

and that is how an unrevoked grant in the history changes when an event is added to it
(`standing_concat`).  So the two agree along every run, and by the refinement the same holds of the
ledger.
-/

namespace Strongroom

/-! ### Histories -/

/-- The grants that a command makes when it succeeds. -/
def Command.Grants (c : Command) (secret : String) (r : Recipient) : Prop :=
  match c with
  | .createSecret _ caller new =>
    new.name = secret ∧ (r = .group superGroup ∨
      (∃ key, new.creatorKey = some key ∧ key ≠ []) ∧ r = .principal caller.name)
  | .assignToGroup _ s group _ _ => s = secret ∧ r = .group group
  | .assignToPrincipal _ s principal _ _ => s = secret ∧ r = .principal principal
  | _ => False

/-- The grants that a command ends when it succeeds. -/
def Command.Ends (c : Command) (secret : String) (r : Recipient) : Prop :=
  match c with
  | .deleteSecret s => s = secret
  | .revokeFromGroup s group => s = secret ∧ r = .group group
  | .revokeFromPrincipal s principal => s = secret ∧ r = .principal principal
  | .deleteGroup name => r = .group name
  | .deletePrincipal name => r = .principal name
  | _ => False

namespace Event

/-- The command has succeeded. -/
def Succeeds (e : Event) : Prop := ∃ a, e.reply = .ok a

/-- The event is a successful grant of a secret to a recipient. -/
def Grants (e : Event) (secret : String) (r : Recipient) : Prop :=
  e.Succeeds ∧ e.command.Grants secret r

/-- The event ends all grants of a secret to a recipient. -/
def Ends (e : Event) (secret : String) (r : Recipient) : Prop :=
  e.Succeeds ∧ e.command.Ends secret r

end Event

/-- A history has a grant of a secret to a recipient that nothing behind it has ended. -/
def Unrevoked (es : List Event) (secret : String) (r : Recipient) : Prop :=
  Standing (fun e => e.Grants secret r) (fun e => e.Ends secret r) es

/-! ### What a command does to the grants -/

namespace PlainLedger

variable {l l' : PlainLedger} {s : String} {r : Recipient}

/-- There is a grant of a secret to a recipient. -/
def Holds (l : PlainLedger) (secret : String) (r : Recipient) : Prop :=
  ∃ g ∈ l.grants secret, g.recipient = r

theorem holds_of_secrets_eq (h : l'.secrets = l.secrets) : l'.Holds s r ↔ l.Holds s r := by
  rw [Holds, Holds, grants, grants, h]

theorem holds_drop {principals : NameMap Principal} {groups : NameMap Group} {r' : Recipient} :
    (⟨principals, groups, l.secrets.map (·.drop r')⟩ : PlainLedger).Holds s r ↔
      l.Holds s r ∧ r ≠ r' := by
  rw [Holds, grants_drop]
  constructor
  · rintro ⟨g, hg, rfl⟩
    rw [List.mem_filter, decide_eq_true_eq] at hg
    exact ⟨⟨g, hg.1, rfl⟩, hg.2⟩
  · rintro ⟨⟨g, hg, rfl⟩, hne⟩
    exact ⟨g, List.mem_filter.2 ⟨hg, by simpa using hne⟩, rfl⟩

/-- The creation of a secret that succeeds: its name was not in use, there is a key for the creator
unless it is a superuser, and the first grant is the one to the supergroup. -/
theorem of_createSecret_eq_ok {caller : Identity} {new : NewSecret}
    (h : l.createSecret caller new = .ok l') :
    l.secrets.find new.name = none ∧
      (caller.superuser || (Ledger.given new.creatorKey).isSome) = true ∧
      l' = { l with secrets := l.secrets.set new.name ⟨new.payload, caller.name,
        ⟨.group superGroup, new.superKey, new.path⟩ :: (Ledger.given new.creatorKey).toList.map
          fun key => ⟨.principal caller.name, key, new.path⟩⟩ } := by
  rw [createSecret] at h
  obtain ⟨-, -, h⟩ := of_bind_eq_ok h
  obtain ⟨-, -, h⟩ := of_bind_eq_ok h
  obtain ⟨-, -, h⟩ := of_bind_eq_ok h
  obtain ⟨-, -, h⟩ := of_bind_eq_ok h
  obtain ⟨_, hcreator, h⟩ := of_bind_eq_ok h
  obtain ⟨_, hnew, h⟩ := of_bind_eq_ok h
  exact ⟨by simpa [NameMap.has] using of_require_eq_ok hnew, of_require_eq_ok hcreator,
    (Except.ok.inj h).symm⟩

theorem holds_createSecret (now : Moment) {caller : Identity} {new : NewSecret}
    (h : l.createSecret caller new = .ok l') :
    l'.Holds s r ↔ (Command.createSecret now caller new).Grants s r ∨ l.Holds s r := by
  obtain ⟨hnew, -, rfl⟩ := of_createSecret_eq_ok h
  have hold : l.grants new.name = [] := grants_of_find_eq_none hnew
  rw [Holds, grants_set, Command.Grants]
  by_cases hs : s = new.name
  · subst hs
    rw [if_pos rfl, Holds, hold]
    cases hkey : new.creatorKey with
    | none =>
      have hgiven : Ledger.given none = none := rfl
      simp [hgiven, eq_comm]
    | some key =>
      cases key with
      | nil =>
        have hgiven : Ledger.given (some []) = none := rfl
        simp [hgiven, eq_comm]
      | cons b bs =>
        have hgiven : Ledger.given (some (b :: bs)) = some (b :: bs) := rfl
        simp [hgiven, eq_comm]
  · rw [if_neg hs]
    simp [Ne.symm hs, Holds]

theorem holds_grant {r' : Recipient} {secret : String} {sealedKey : Bytes} {path : Option String}
    (h : l.grant secret r' sealedKey path = .ok l') :
    l'.Holds s r ↔ (secret = s ∧ r = r') ∨ l.Holds s r := by
  rw [grant] at h
  obtain ⟨-, -, h⟩ := of_bind_eq_ok h
  obtain ⟨e, he, h⟩ := of_bind_eq_ok h
  obtain ⟨-, -, h⟩ := of_bind_eq_ok h
  obtain rfl := Except.ok.inj h
  rw [Holds, grants_set]
  by_cases hs : s = secret
  · subst hs
    rw [if_pos rfl, Holds, grants_of_find_eq_some (NameMap.find_of_get he), PlainSecret.add]
    simp only [List.mem_append, List.mem_singleton, or_and_right, exists_or, exists_eq_left,
      true_and]
    rw [or_comm, eq_comm]
  · rw [if_neg hs]
    simp [Ne.symm hs, Holds]

theorem holds_revoke {r' : Recipient} {secret : String} {n : Nat}
    (h : l.revoke secret r' = .ok (n, l')) :
    l'.Holds s r ↔ l.Holds s r ∧ ¬ (secret = s ∧ r = r') := by
  rw [revoke] at h
  obtain ⟨-, -, h⟩ := of_bind_eq_ok h
  obtain ⟨e, he, h⟩ := of_bind_eq_ok h
  obtain ⟨-, -, h⟩ := of_bind_eq_ok h
  obtain ⟨-, rfl⟩ := Prod.mk.inj (Except.ok.inj h)
  rw [Holds, grants_set]
  by_cases hs : s = secret
  · subst hs
    rw [if_pos rfl, Holds, grants_of_find_eq_some (NameMap.find_of_get he), PlainSecret.drop]
    simp only [true_and, List.mem_filter, decide_eq_true_eq]
    constructor
    · rintro ⟨g, ⟨hg, hne⟩, rfl⟩
      exact ⟨⟨g, hg, rfl⟩, hne⟩
    · rintro ⟨⟨g, hg, rfl⟩, hne⟩
      exact ⟨g, ⟨hg, hne⟩, rfl⟩
  · rw [if_neg hs]
    simp [Ne.symm hs, Holds]

theorem secrets_of_bootstrap {now : Timestamp} {setup : Bootstrap}
    (h : l.bootstrap now setup = .ok l') : l'.secrets = l.secrets := by
  obtain ⟨publicKey, sealedPrivateKey, admin⟩ := setup
  rw [bootstrap] at h
  obtain ⟨-, -, h⟩ := of_bind_eq_ok h
  obtain ⟨-, -, h⟩ := of_bind_eq_ok h
  cases admin with
  | none =>
    obtain rfl := Except.ok.inj h
    rfl
  | some admin =>
    obtain ⟨-, -, h⟩ := of_bind_eq_ok h
    obtain ⟨-, -, h⟩ := of_bind_eq_ok h
    obtain rfl := Except.ok.inj h
    rfl

theorem secrets_of_registerPrincipal {now : Timestamp} {new : NewPrincipal}
    (h : l.registerPrincipal now new = .ok l') : l'.secrets = l.secrets := by
  rw [registerPrincipal] at h
  obtain ⟨-, -, h⟩ := of_bind_eq_ok h
  obtain ⟨-, -, h⟩ := of_bind_eq_ok h
  obtain ⟨-, -, h⟩ := of_bind_eq_ok h
  obtain ⟨-, -, h⟩ := of_bind_eq_ok h
  obtain rfl := Except.ok.inj h
  rfl

theorem secrets_of_createGroup {now : Timestamp} {name : String} {kind : Role}
    {publicKey sealedPrivateKey : Bytes}
    (h : l.createGroup now name kind publicKey sealedPrivateKey = .ok l') :
    l'.secrets = l.secrets := by
  rw [createGroup] at h
  obtain ⟨-, -, h⟩ := of_bind_eq_ok h
  obtain ⟨-, -, h⟩ := of_bind_eq_ok h
  obtain ⟨-, -, h⟩ := of_bind_eq_ok h
  obtain ⟨-, -, h⟩ := of_bind_eq_ok h
  obtain rfl := Except.ok.inj h
  rfl

theorem secrets_of_reassignPrincipal {principal group : String} {sealedGroupKey : Option Bytes}
    (h : l.reassignPrincipal principal group sealedGroupKey = .ok l') :
    l'.secrets = l.secrets := by
  rw [reassignPrincipal] at h
  obtain ⟨-, -, h⟩ := of_bind_eq_ok h
  obtain ⟨-, -, h⟩ := of_bind_eq_ok h
  obtain ⟨p, -, h⟩ := of_bind_eq_ok h
  obtain rfl := Except.ok.inj h
  rfl

/-- **A command changes the grants as it says.** -/
theorem holds_execute {c : Command} {a : Answer} (h : l.execute c = .ok (a, l')) :
    l'.Holds s r ↔ c.Grants s r ∨ l.Holds s r ∧ ¬ c.Ends s r := by
  cases c with
  | createSecret now caller new =>
    rw [holds_createSecret now (of_changed_eq_ok h)]
    simp [Command.Ends]
  | assignToGroup now secret group sealedKey path =>
    have hgrant := of_changed_eq_ok h
    rw [assignToGroup] at hgrant
    obtain ⟨-, -, hgrant⟩ := of_bind_eq_ok hgrant
    rw [holds_grant hgrant]
    simp [Command.Grants, Command.Ends]
  | assignToPrincipal now secret principal sealedKey path =>
    rw [holds_grant (of_changed_eq_ok h)]
    simp [Command.Grants, Command.Ends]
  | revokeFromGroup secret group =>
    obtain ⟨n, hrevoke⟩ := of_counted_eq_ok h
    rw [revokeFromGroup] at hrevoke
    obtain ⟨-, -, hrevoke⟩ := of_bind_eq_ok hrevoke
    rw [holds_revoke hrevoke]
    simp [Command.Grants, Command.Ends]
  | revokeFromPrincipal secret principal =>
    obtain ⟨n, hrevoke⟩ := of_counted_eq_ok h
    rw [holds_revoke hrevoke]
    simp [Command.Grants, Command.Ends]
  | deleteSecret name =>
    have hdelete := of_changed_eq_ok h
    rw [deleteSecret] at hdelete
    obtain ⟨-, -, hdelete⟩ := of_bind_eq_ok hdelete
    obtain ⟨-, -, hdelete⟩ := of_bind_eq_ok hdelete
    obtain rfl := Except.ok.inj hdelete
    rw [Holds, grants_erase, Holds]
    by_cases hs : s = name
    · simp [hs, Command.Grants, Command.Ends]
    · simp [hs, Ne.symm hs, Command.Grants, Command.Ends]
  | deleteGroup name =>
    have hdelete := of_changed_eq_ok h
    rw [deleteGroup] at hdelete
    obtain ⟨-, -, hdelete⟩ := of_bind_eq_ok hdelete
    obtain ⟨-, -, hdelete⟩ := of_bind_eq_ok hdelete
    obtain rfl := Except.ok.inj hdelete
    rw [holds_drop]
    simp [Command.Grants, Command.Ends]
  | deletePrincipal name =>
    have hdelete := of_changed_eq_ok h
    rw [deletePrincipal] at hdelete
    obtain ⟨-, -, hdelete⟩ := of_bind_eq_ok hdelete
    obtain rfl := Except.ok.inj hdelete
    rw [holds_drop]
    simp [Command.Grants, Command.Ends]
  | bootstrap now setup =>
    rw [holds_of_secrets_eq (secrets_of_bootstrap (of_changed_eq_ok h))]
    simp [Command.Grants, Command.Ends]
  | registerPrincipal now new =>
    rw [holds_of_secrets_eq (secrets_of_registerPrincipal (of_changed_eq_ok h))]
    simp [Command.Grants, Command.Ends]
  | createGroup now name kind publicKey sealedPrivateKey =>
    rw [holds_of_secrets_eq (secrets_of_createGroup (of_changed_eq_ok h))]
    simp [Command.Grants, Command.Ends]
  | reassignPrincipal principal group sealedGroupKey =>
    rw [holds_of_secrets_eq (secrets_of_reassignPrincipal (of_changed_eq_ok h))]
    simp [Command.Grants, Command.Ends]
  | _ =>
    obtain rfl := of_shown_eq_ok h
    simp [Command.Grants, Command.Ends]

/-! ### Along a run -/

theorem holds_attempt (l : PlainLedger) (c : Command) (s : String) (r : Recipient) :
    (attempt execute l c).2.Holds s r ↔
      Event.Grants ⟨c, (attempt execute l c).1⟩ s r ∨
        l.Holds s r ∧ ¬ Event.Ends ⟨c, (attempt execute l c).1⟩ s r := by
  cases h : l.execute c with
  | ok x =>
    obtain ⟨a, l'⟩ := x
    rw [attempt_of_ok h]
    have hsucceeds : ∃ b, (Except.ok a : Except Ledger.Error Answer) = .ok b := ⟨a, rfl⟩
    simp only [Event.Grants, Event.Ends, Event.Succeeds, hsucceeds, true_and]
    exact holds_execute h
  | error e =>
    rw [attempt_of_error h]
    simp [Event.Grants, Event.Ends, Event.Succeeds]

/-- **The grants of the plain ledger are the unrevoked ones.** -/
theorem holds_iff_unrevoked (cs : List Command) (s : String) (r : Recipient) :
    (run execute .empty cs).2.Holds s r ↔ Unrevoked (run execute .empty cs).1 s r := by
  -- the induction adds commands at the end, where a history grows
  induction cs using List.reverseRecOn with
  | nil =>
    refine iff_of_false ?_ not_standing_nil
    rintro ⟨g, hg, -⟩
    simp [run_nil, grants, empty] at hg
  | append_singleton cs c ih =>
    rw [run_concat, holds_attempt, ih, Unrevoked, Unrevoked, standing_concat]

theorem canRead_iff (l : PlainLedger) (name secret : String) :
    l.canRead name secret = true ↔ ∃ p, l.principals.find name = some p ∧
      ∃ r, p.opens r = true ∧ l.Holds secret r := by
  rw [canRead]
  cases l.principals.find name with
  | none => simp
  | some p =>
    simp only [List.any_eq_true, Option.some.injEq, exists_eq_left', Holds]
    constructor
    · rintro ⟨g, hg, hopens⟩
      exact ⟨g.recipient, hopens, g, hg, rfl⟩
    · rintro ⟨_, hopens, g, hg, rfl⟩
      exact ⟨g, hg, hopens⟩

theorem has_of_holds (h : l.Holds s r) : l.secrets.has s = true := by
  obtain ⟨g, hg, -⟩ := h
  cases hfind : l.secrets.find s with
  | none => simp [grants_of_find_eq_none hfind] at hg
  | some e => rw [NameMap.has, hfind, Option.isSome_some]

end PlainLedger

theorem Principal.opens_iff {p : Principal} {r : Recipient} :
    p.opens r = true ↔ r = .principal p.name ∨ r = .group p.group ∧ p.group ≠ defaultGroup := by
  rw [Principal.opens, Bool.or_eq_true, Bool.and_eq_true, decide_eq_true_eq, decide_eq_true_eq,
    decide_eq_true_eq, and_comm (a := p.group ≠ defaultGroup)]

/-- **Readability is exactly the unrevoked grant history.**  After every run from the empty ledger,
with fewer than `2 ^ 64 - 1` wraps made, a principal can read a secret if and only if both are there
and the secret was granted, to the principal or to the group that it is in now unless that is the
default group, and nothing since has ended that grant. -/
theorem canRead_iff_unrevoked {cs : List Command} {es : List Event} {l : Ledger}
    (hrun : run Ledger.execute .empty cs = (es, l)) (hmade : wrapsMade es < 2 ^ 64 - 1)
    (name secret : String) :
    ∃ b, l.canRead name secret = .ok b ∧ (b = true ↔
      Ledger.has l.secrets secret = true ∧ ∃ p, l.getPrincipal name = .ok p ∧
        ∃ r, (r = .principal name ∨ r = .group p.group ∧ p.group ≠ defaultGroup) ∧
          Unrevoked es secret r) := by
  have hplain := PlainLedger.holds_iff_unrevoked cs secret
  generalize hboth : run PlainLedger.execute .empty cs = both at hplain
  obtain ⟨es', p⟩ := both
  obtain ⟨rfl, hrep⟩ := Represents.of_run hrun hboth hmade
  refine ⟨_, hrep.canRead_eq name secret, ?_⟩
  rw [PlainLedger.canRead_iff, hrep.secrets.has_eq, hrep.getPrincipal_eq, NameMap.get]
  cases hfind : p.principals.find name with
  | none => simp
  | some q =>
    obtain ⟨-, -, -, -, -, hname, -⟩ := hrep.principals.present name q hfind
    simp only [Option.some.injEq, Except.ok.injEq, exists_eq_left', Principal.opens_iff, hname,
      ← hplain]
    constructor
    · rintro ⟨r, hopens, hholds⟩
      exact ⟨PlainLedger.has_of_holds hholds, r, hopens, hholds⟩
    · rintro ⟨-, r, hopens, hholds⟩
      exact ⟨r, hopens, hholds⟩

theorem canRead_iff_unrevoked_sampleRun :
    wrapsMade (run Ledger.execute .empty sampleRun).1 = 3 ∧
      ∃ b, (run Ledger.execute .empty sampleRun).2.canRead "ann" "db" = .ok b ∧ (b = true ↔
        Ledger.has (run Ledger.execute .empty sampleRun).2.secrets "db" = true ∧
          ∃ p, (run Ledger.execute .empty sampleRun).2.getPrincipal "ann" = .ok p ∧
            ∃ r, (r = .principal "ann" ∨ r = .group p.group ∧ p.group ≠ defaultGroup) ∧
              Unrevoked (run Ledger.execute .empty sampleRun).1 "db" r) := by
  have hmade : wrapsMade (run Ledger.execute .empty sampleRun).1 = 3 := by decide +kernel
  exact ⟨hmade, canRead_iff_unrevoked rfl (by omega) "ann" "db"⟩

end Strongroom
