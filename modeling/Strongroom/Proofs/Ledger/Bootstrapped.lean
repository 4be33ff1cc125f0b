import Strongroom.Proofs.Ledger.Immutable
import Strongroom.Proofs.Ledger.Membership

/-!
# Bootstrap

A bootstrap may meet any ledger: an empty one, one that has been in use before its first bootstrap,
one that has been bootstrapped by somebody else.  It looks at three names, and under each of them it
adds a row or leaves the row that is there (`Ledger.bootstrapped`).  No stored row is read, so
whether it succeeds depends on the setup alone,

    l.bootstrap now setup = .ok l'  ↔  setup.IsUsable ∧ l' = l.bootstrapped now setup.

Once the three rows are there, a bootstrap has nothing left to do (`Ledger.Provides`).  The groups
are built in and can never go, and the administrator goes only if it is deleted, so this lasts along
every run without such a deletion.
-/

namespace Strongroom

open Ledger (has addRow)

/-! ### Setups -/

/-- What a bootstrap asks of its setup. -/
structure Bootstrap.IsUsable (setup : Bootstrap) : Prop where
  publicKey : setup.superPublicKey.length = 32
  privateKey : setup.superSealedPrivateKey ≠ []
  admin : ∀ admin ∈ setup.admin, Ledger.checkName "principal" admin.principal.name = .ok () ∧
    admin.principal.publicKey.length = 32

/-- The default group, as a bootstrap adds it. -/
def Bootstrap.default (now : Moment) : Group :=
  ⟨defaultGroup, .client, [], [], true, now.1⟩

/-- The supergroup, as a bootstrap adds it. -/
def Bootstrap.super (setup : Bootstrap) (now : Moment) : Group :=
  ⟨superGroup, .admin, setup.superPublicKey, setup.superSealedPrivateKey, true, now.1⟩

/-- A ledger with the rows of a setup added under the names that were free. -/
def Ledger.bootstrapped (l : Ledger) (now : Moment) (setup : Bootstrap) : Ledger :=
  { l with
    groups := addRow (addRow l.groups defaultGroup (Bootstrap.default now).toJson) superGroup
      (setup.super now).toJson
    principals :=
      match setup.admin with
      | none => l.principals
      | some admin => addRow l.principals admin.principal.name (admin.installed now).toJson }

namespace Ledger

variable {l l' : Ledger} {now : Moment} {setup : Bootstrap} {t : Table Bytes Bytes}

theorem require_eq_ok {condition : Bool} {e : Error} (h : condition = true) :
    require condition e = .ok () := by
  rw [require, if_pos h]

theorem checkPublicKey_eq_ok {what : String} {key : Bytes} (h : key.length = 32) :
    checkPublicKey what key = .ok () :=
  require_eq_ok (decide_eq_true h)

theorem addAdmin_eq_ok_iff {admin : BootstrapAdmin} :
    l.addAdmin now.1 admin = .ok l' ↔
      (checkName "principal" admin.principal.name = .ok () ∧
        admin.principal.publicKey.length = 32) ∧
      l' = { l with
        principals := addRow l.principals admin.principal.name (admin.installed now).toJson } := by
  constructor
  · intro h
    have hl' := of_addAdmin_eq_ok h
    rw [addAdmin] at h
    obtain ⟨⟨⟩, hname, h⟩ := of_bind_eq_ok h
    obtain ⟨_, hlength, -⟩ := of_bind_eq_ok h
    exact ⟨⟨hname, of_decide_eq_true (of_require_eq_ok hlength)⟩, hl'⟩
  · rintro ⟨⟨hname, hlength⟩, rfl⟩
    rw [addAdmin, hname, checkPublicKey_eq_ok hlength]
    rfl

/-- **When a bootstrap succeeds, and what it leaves behind.** -/
theorem bootstrap_eq_ok_iff :
    l.bootstrap now.1 setup = .ok l' ↔ setup.IsUsable ∧ l' = l.bootstrapped now setup := by
  constructor
  · intro h
    obtain ⟨hpublic, hprivate, hadmin⟩ := of_bootstrap_eq_ok h
    cases hsetup : setup.admin with
    | none =>
      simp only [hsetup] at hadmin
      refine ⟨⟨hpublic, hprivate, by simp [hsetup]⟩, ?_⟩
      rw [hadmin, bootstrapped, hsetup]
      rfl
    | some admin =>
      simp only [hsetup] at hadmin
      obtain ⟨haccepted, rfl⟩ := addAdmin_eq_ok_iff.1 hadmin
      refine ⟨⟨hpublic, hprivate, ?_⟩, ?_⟩
      · intro other hother
        rw [hsetup] at hother
        obtain rfl := Option.some.inj hother
        exact haccepted
      · rw [bootstrapped, hsetup]
        rfl
  · rintro ⟨husable, rfl⟩
    have hkey : (!setup.superSealedPrivateKey.isEmpty) = true := by
      simpa using husable.privateKey
    rw [bootstrap, checkPublicKey_eq_ok husable.publicKey, require_eq_ok hkey, bootstrapped]
    cases hsetup : setup.admin with
    | none => rfl
    | some admin =>
      exact addAdmin_eq_ok_iff.2 ⟨husable.admin admin hsetup, rfl⟩

/-! ### Rows -/

theorem mem_addRow {name : String} {bytes : Bytes} {row : Bytes × Bytes}
    (h : row ∈ (addRow t name bytes).rows) : row ∈ t.rows ∨ row = (utf8 name, bytes) := by
  rw [addRow] at h
  split at h
  · exact .inl h
  · rcases Table.mem_rows_insert.1 h with hnew | ⟨hold, -⟩
    · exact .inr hnew
    · exact .inl hold

theorem size_addRow_le (t : Table Bytes Bytes) (name : String) (bytes : Bytes) :
    (addRow t name bytes).size ≤ t.size + 1 := by
  rw [addRow]
  split
  · exact Nat.le_succ _
  · next hfree =>
    have hnone := has_eq_false_iff.1 (Bool.eq_false_of_not_eq_true hfree)
    obtain ⟨before, after, hold, hnew, -⟩ := Table.rows_insert_of_get?_eq_none hnone bytes
    rw [Table.size, Table.size, hold, hnew, List.length_append, List.length_append,
      List.length_cons]
    omega

theorem addRow_of_has {name : String} (h : has t name = true) (bytes : Bytes) :
    addRow t name bytes = t := by
  rw [addRow, if_pos h]

/-- Another ledger has all the rows of this one, and beside them no more than the three rows of a
setup: the two built-in groups, and the administrator, which is in the supergroup and an
administrator by kind. -/
structure GainsSetup (now : Moment) (setup : Bootstrap) (l l' : Ledger) : Prop where
  groups : l.groups.rows ⊆ l'.groups.rows
  newGroups : ∀ row ∈ l'.groups.rows, row ∈ l.groups.rows ∨
    row = (utf8 defaultGroup, (Bootstrap.default now).toJson) ∨
    row = (utf8 superGroup, (setup.super now).toJson)
  principals : l.principals.rows ⊆ l'.principals.rows
  newPrincipals : ∀ row ∈ l'.principals.rows, row ∈ l.principals.rows ∨
    ∃ admin ∈ setup.admin, row.1 = utf8 admin.principal.name ∧
      decode Principal.layout row.2 = .ok (admin.installed now) ∧
      (admin.installed now).kind = .admin ∧ (admin.installed now).group = superGroup
  secrets : l'.secrets = l.secrets
  wraps : l'.wraps = l.wraps
  counters : l'.counters = l.counters
  size : l'.groups.size + l'.principals.size ≤ l.groups.size + l.principals.size + 3

theorem gainsSetup_bootstrapped (l : Ledger) (now : Moment) (setup : Bootstrap) :
    GainsSetup now setup l (l.bootstrapped now setup) := by
  have hgroups := size_addRow_le l.groups defaultGroup (Bootstrap.default now).toJson
  have hboth := size_addRow_le (addRow l.groups defaultGroup (Bootstrap.default now).toJson)
    superGroup (setup.super now).toJson
  refine ⟨List.Subset.trans (rows_subset_addRow _ _ _) (rows_subset_addRow _ _ _), ?_, ?_, ?_, rfl,
    rfl, rfl, ?_⟩
  · intro row hrow
    rcases mem_addRow hrow with hrow | hsuper
    · rcases mem_addRow hrow with hold | hdefault
      · exact .inl hold
      · exact .inr (.inl hdefault)
    · exact .inr (.inr hsuper)
  · cases hsetup : setup.admin with
    | none =>
      simp only [bootstrapped, hsetup]
      exact List.Subset.refl _
    | some admin =>
      simp only [bootstrapped, hsetup]
      exact rows_subset_addRow _ _ _
  · intro row hrow
    cases hsetup : setup.admin with
    | none =>
      simp only [bootstrapped, hsetup] at hrow
      exact .inl hrow
    | some admin =>
      simp only [bootstrapped, hsetup] at hrow
      rcases mem_addRow hrow with hold | rfl
      · exact .inl hold
      · exact .inr ⟨admin, rfl, rfl, Principal.decode_toJson now.2, rfl, rfl⟩
  · cases hsetup : setup.admin with
    | none =>
      simp only [bootstrapped, hsetup]
      omega
    | some admin =>
      simp only [bootstrapped, hsetup]
      have hadmin := size_addRow_le l.principals admin.principal.name (admin.installed now).toJson
      omega

/-! ### What a bootstrap provides -/

/-- Everything that a setup would add is there, or something else in its place. -/
structure Provides (setup : Bootstrap) (l : Ledger) : Prop where
  default : has l.groups defaultGroup = true
  super : has l.groups superGroup = true
  admin : ∀ admin ∈ setup.admin, has l.principals admin.principal.name = true

theorem provides_bootstrapped (l : Ledger) (now : Moment) (setup : Bootstrap) :
    Provides setup (l.bootstrapped now setup) := by
  refine ⟨has_addRow_of_has (has_addRow_self _ _ _), has_addRow_self _ _ _, ?_⟩
  intro admin hadmin
  simp only [bootstrapped, Option.mem_def.1 hadmin]
  exact has_addRow_self _ _ _

/-- **A ledger that has everything stays as it is.** -/
theorem Provides.bootstrapped_eq (h : Provides setup l) (now : Moment) :
    l.bootstrapped now setup = l := by
  rw [bootstrapped, addRow_of_has h.default, addRow_of_has h.super]
  cases hsetup : setup.admin with
  | none => rfl
  | some admin =>
    simp only [addRow_of_has (h.admin admin hsetup)]

theorem Provides.execute {c : Command} {a : Answer} (h : Provides setup l) (hl : l.Intact)
    (hok : l.execute c = .ok (a, l'))
    (hstays : ∀ admin ∈ setup.admin, c ≠ .deletePrincipal admin.principal.name) :
    Provides setup l' := by
  have hbuiltin : ∀ {name : String}, isReserved name = true → has l.groups name = true →
      has l'.groups name = true := by
    intro name hreserved hthere
    rw [has, Table.contains, get?_groups_execute hl hok hreserved hthere]
    exact hthere
  refine ⟨hbuiltin rfl h.default, hbuiltin rfl h.super, ?_⟩
  intro admin hadmin
  exact hl.has_principals_execute hok (h.admin admin hadmin) (hstays admin hadmin)

theorem Provides.run {cs : List Command} (h : Provides setup l) (hl : l.Intact)
    (hstays : ∀ admin ∈ setup.admin, ∀ e ∈ (Strongroom.run Ledger.execute l cs).1, e.Succeeds →
      e.command ≠ .deletePrincipal admin.principal.name) :
    Provides setup (Strongroom.run Ledger.execute l cs).2 := by
  refine hl.run_keeps (fun c => ∃ admin ∈ setup.admin,
    c = .deletePrincipal admin.principal.name) ?_ h ?_
  · intro l l' c a hl h hok hnone
    exact h.execute hl hok fun admin hadmin hdelete => hnone ⟨admin, hadmin, hdelete⟩
  · rintro e he hsucceeds ⟨admin, hadmin, hdelete⟩
    exact hstays admin hadmin e he hsucceeds hdelete

/-- The keys of the supergroup are those of the first bootstrap, whatever is done afterwards and
whatever is asked for in a later one. -/
theorem get?_super_of_bootstrap_later (hl : l.Intact) (hthere : has l.groups superGroup = true)
    (cs : List Command) (hok : (run execute l cs).2.bootstrap now.1 setup = .ok l') :
    l'.groups.get? (utf8 superGroup) = l.groups.get? (utf8 superGroup) := by
  have hlater : (run execute l cs).2.execute (.bootstrap now setup) = .ok (.done, l') := by
    show changed ((run execute l cs).2.bootstrap now.1 setup) = _
    rw [hok]
    rfl
  have hrun := get?_groups_run hl rfl hthere cs
  have hstill : has (run execute l cs).2.groups superGroup = true := by
    rw [has, Table.contains, hrun]
    exact hthere
  rw [get?_groups_execute (intact_run hl cs) hlater rfl hstill, hrun]

end Ledger

/-- **A bootstrap only adds what is missing.**  On every ledger that a run can reach it succeeds
exactly if its setup is usable.  If it does, the built-in groups and the administrator are there,
every row of every table is still there, and what has come to them are at most three rows, all of
the setup.  After that and any further run, no bootstrap whatever replaces the keys of the
supergroup, and one with the same setup succeeds and changes nothing, unless the administrator has
been deleted in between. -/
theorem bootstrap_adds_what_is_missing (cs : List Command) (now : Moment) (setup : Bootstrap) :
    let l := (run Ledger.execute .empty cs).2
    ((∃ l', l.bootstrap now.1 setup = .ok l') ↔ setup.IsUsable) ∧
      ∀ l', l.bootstrap now.1 setup = .ok l' →
        l.GainsSetup now setup l' ∧ Ledger.Provides setup l' ∧
        ∀ cs' : List Command,
          let later := (run Ledger.execute l' cs').2
          (∀ (now' : Moment) (setup' : Bootstrap) (l'' : Ledger),
            later.bootstrap now'.1 setup' = .ok l'' →
            l''.groups.get? (utf8 superGroup) = l'.groups.get? (utf8 superGroup)) ∧
          ((∀ admin ∈ setup.admin, ∀ e ∈ (run Ledger.execute l' cs').1, e.Succeeds →
            e.command ≠ .deletePrincipal admin.principal.name) →
            ∀ now' : Moment, later.bootstrap now'.1 setup = .ok later) := by
  intro l
  have hl : l.Intact := Ledger.intact_run .empty cs
  refine ⟨⟨?_, ?_⟩, ?_⟩
  · rintro ⟨l', hok⟩
    exact (Ledger.bootstrap_eq_ok_iff.1 hok).1
  · intro husable
    exact ⟨_, Ledger.bootstrap_eq_ok_iff.2 ⟨husable, rfl⟩⟩
  · intro l' hok
    have hl' : l'.Intact := hl.bootstrap hok
    obtain ⟨husable, rfl⟩ := Ledger.bootstrap_eq_ok_iff.1 hok
    have hprovides := Ledger.provides_bootstrapped l now setup
    refine ⟨Ledger.gainsSetup_bootstrapped l now setup, hprovides, fun cs' => ⟨?_, ?_⟩⟩
    · intro now' setup' l'' hlater
      exact Ledger.get?_super_of_bootstrap_later hl' hprovides.super cs' hlater
    · intro hstays now'
      have hstill := hprovides.run hl' hstays
      exact Ledger.bootstrap_eq_ok_iff.2 ⟨husable, (hstill.bootstrapped_eq now').symm⟩

/-- A setup whose administrator is a client by its own account. -/
def sampleSetup : Bootstrap :=
  ⟨List.replicate 32 1, [1], some ⟨⟨"root", .client, List.replicate 32 2, [2]⟩, [7]⟩⟩

/-- Here the ledger is in use before its first bootstrap.  Afterwards a principal goes, the deletion
of the supergroup is refused, and somebody asks for other keys in vain. -/
theorem bootstrap_adds_what_is_missing_sampleSetup :
    let early : List Command :=
      [.registerPrincipal leapDay ⟨"ann", .client, List.replicate 32 3, [3]⟩,
        .createGroup leapDay "team" .client (List.replicate 32 4) [4]]
    let between : List Command :=
      [.deletePrincipal "ann", .deleteGroup "super",
        .bootstrap leapDay ⟨List.replicate 32 9, [9], none⟩]
    let l := (run Ledger.execute .empty early).2
    let l' := l.bootstrapped leapDay sampleSetup
    let later := (run Ledger.execute l' between).2
    l.bootstrap leapDay.1 sampleSetup = .ok l' ∧
      l'.groups.size + l'.principals.size = l.groups.size + l.principals.size + 3 ∧
      (l'.principal? "root").map (·.kind) = some .admin ∧ later.principals.size = 1 ∧
      l.GainsSetup leapDay sampleSetup l' ∧
      later.bootstrap leapDay.1 sampleSetup = .ok later := by
  intro early between l l' later
  have husable : sampleSetup.IsUsable := by
    refine ⟨rfl, by decide, ?_⟩
    intro admin hadmin
    obtain rfl := Option.some.inj hadmin
    exact ⟨by decide +kernel, rfl⟩
  have hok : l.bootstrap leapDay.1 sampleSetup = .ok l' :=
    Ledger.bootstrap_eq_ok_iff.2 ⟨husable, rfl⟩
  obtain ⟨-, hall⟩ := bootstrap_adds_what_is_missing early leapDay sampleSetup
  obtain ⟨hgains, -, hlater⟩ := hall l' hok
  have hstays : ∀ admin ∈ sampleSetup.admin, ∀ e ∈ (run Ledger.execute l' between).1, e.Succeeds →
      e.command ≠ .deletePrincipal admin.principal.name := by
    intro admin hadmin e he _
    obtain rfl := Option.some.inj hadmin
    simp only [between, run_cons, run_nil, List.mem_cons, List.not_mem_nil, or_false] at he
    rcases he with rfl | rfl | rfl
    · simp
    · simp
    · simp
  exact ⟨hok, by decide +kernel, by decide +kernel, by decide +kernel, hgains,
    (hlater between).2 hstays leapDay⟩

end Strongroom
