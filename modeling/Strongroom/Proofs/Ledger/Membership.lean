import Strongroom.Proofs.Ledger.Lifetimes

/-!
# Groups and their members

A principal names the group that it is in and holds the group's private key, sealed for itself.  The
two change together: by a reassignment, which brings the key of the new group, and by the deletion
of the group, which leaves neither.  So in every ledger that a run can reach the group of a
principal is there, the key is missing exactly in the default group, and otherwise it is the one of
the last reassignment or, without any, of the bootstrap (`member_run`).

The groups themselves are simpler: a row is written once (`groupFits_run`), and the rows of the
built-in groups stay for ever (`get?_groups_run`).
-/

namespace Strongroom

namespace Ledger

variable {l l' : Ledger} {c : Command} {a : Answer}

/-! ### Groups -/

/-- A group stands under its name and is built in exactly if the name is reserved; the key pair of
any other group is complete. -/
structure GroupFits (key : Bytes) (g : Group) : Prop where
  key : key = utf8 g.name
  builtin : g.builtin = isReserved g.name
  pair : isReserved g.name = false →
    g.publicKey.length = publicKeyLength ∧ g.sealedPrivateKey ≠ []

theorem of_createGroup_checks {now : Timestamp} {name : String} {kind : Role}
    {publicKey sealedPrivateKey : Bytes}
    (h : l.createGroup now name kind publicKey sealedPrivateKey = .ok l') :
    publicKey.length = publicKeyLength ∧ sealedPrivateKey ≠ [] := by
  rw [createGroup] at h
  obtain ⟨-, -, h⟩ := of_bind_eq_ok h
  obtain ⟨_, hlength, h⟩ := of_bind_eq_ok h
  obtain ⟨_, hkey, -⟩ := of_bind_eq_ok h
  exact ⟨of_decide_eq_true (of_require_eq_ok hlength), by simpa using of_require_eq_ok hkey⟩

theorem groupFits_execute (hgroups : SoundRows Group.layout GroupFits l.groups) (h : l.Intact)
    (hok : l.execute c = .ok (a, l')) : SoundRows Group.layout GroupFits l'.groups := by
  rw [(h.recordsAfter hok).groups]
  cases c with
  | bootstrap now setup =>
    let default : Group := ⟨defaultGroup, .client, [], [], true, now.1⟩
    let super : Group :=
      ⟨superGroup, .admin, setup.superPublicKey, setup.superSealedPrivateKey, true, now.1⟩
    have hdefault : GroupFits (utf8 defaultGroup) default :=
      ⟨rfl, rfl, fun hfree =>
        absurd (show isReserved defaultGroup = false from hfree) (by decide)⟩
    have hsuper : GroupFits (utf8 superGroup) super :=
      ⟨rfl, rfl, fun hfree =>
        absurd (show isReserved superGroup = false from hfree) (by decide)⟩
    exact (hgroups.addRow (Group.decode_toJson now.2) hdefault).addRow
      (Group.decode_toJson now.2) hsuper
  | createGroup now name kind publicKey sealedPrivateKey =>
    have hcreate := of_changed_eq_ok hok
    obtain ⟨hfree, -, -⟩ := of_createGroup_eq_ok hcreate
    have hpair := of_createGroup_checks hcreate
    let group : Group := ⟨name, kind, publicKey, sealedPrivateKey, false, now.1⟩
    have hfits : GroupFits (utf8 name) group := ⟨rfl, hfree.symm, fun _ => hpair⟩
    exact hgroups.addRow (Group.decode_toJson now.2) hfits
  | deleteGroup name => exact hgroups.erase _
  | _ => exact hgroups

/-- **What every group is like.** -/
theorem groupFits_run (cs : List Command) :
    SoundRows Group.layout GroupFits (run execute .empty cs).2.groups :=
  Intact.empty.run_keeps (P := fun l => SoundRows Group.layout GroupFits l.groups) (fun _ => False)
    (fun h hgroups hok _ => groupFits_execute hgroups h hok) .empty fun _ _ _ => id

/-! ### Built-in groups -/

theorem get?_addRow_of_has {t : Table Bytes Bytes} {k : String} (h : has t k = true) (n : String)
    (row : Bytes) : (addRow t n row).get? (utf8 k) = t.get? (utf8 k) := by
  rw [addRow]
  split
  · rfl
  · next hfree =>
    rw [Table.get?_insert, if_neg]
    intro heq
    rw [utf8_inj.1 heq] at h
    exact hfree h

/-- The row of a built-in group that is there stays as it is. -/
theorem get?_groups_execute (h : l.Intact) (hok : l.execute c = .ok (a, l')) {name : String}
    (hreserved : isReserved name = true) (hthere : has l.groups name = true) :
    l'.groups.get? (utf8 name) = l.groups.get? (utf8 name) := by
  rw [(h.recordsAfter hok).groups]
  cases c with
  | bootstrap now setup =>
    simp only [Command.groupsAfter]
    rw [get?_addRow_of_has (has_addRow_of_has hthere), get?_addRow_of_has hthere]
  | createGroup now group kind publicKey sealedPrivateKey => exact get?_addRow_of_has hthere _ _
  | deleteGroup group =>
    obtain ⟨hfree, -⟩ := of_deleteGroup_eq_ok (of_changed_eq_ok hok)
    rw [Command.groupsAfter, Table.get?_erase, if_neg]
    intro heq
    rw [utf8_inj.1 heq, hfree] at hreserved
    cases hreserved
  | _ => rfl

/-- **The rows of the built-in groups never change.** -/
theorem get?_groups_run (h : l.Intact) {name : String} (hreserved : isReserved name = true)
    (hthere : has l.groups name = true) (cs : List Command) :
    (run execute l cs).2.groups.get? (utf8 name) = l.groups.get? (utf8 name) := by
  obtain ⟨row, hrow⟩ := Option.isSome_iff_exists.1 hthere
  rw [hrow]
  refine h.run_keeps (P := fun l => l.groups.get? (utf8 name) = some row) (fun _ => False) ?_ hrow
    fun _ _ _ => id
  intro l l' c a h hrow hok _
  have hthere : has l.groups name = true := by
    rw [has, Table.contains, hrow]
    rfl
  rw [get?_groups_execute h hok hreserved hthere, hrow]

/-- A bootstrap that succeeds leaves both built-in groups behind. -/
theorem has_groups_of_bootstrap (h : l.Intact) {now : Moment} {setup : Bootstrap}
    (hok : l.execute (.bootstrap now setup) = .ok (a, l')) {name : String}
    (hreserved : isReserved name = true) : has l'.groups name = true := by
  rw [(h.recordsAfter hok).groups]
  simp only [isReserved, Bool.or_eq_true, decide_eq_true_eq] at hreserved
  rcases hreserved with rfl | rfl
  · exact has_addRow_of_has (has_addRow_self _ _ _)
  · exact has_addRow_self _ _ _

end Ledger

/-! ### Members -/

/-- A command gives a principal the sealed key of the group that it is in from then on. -/
def Command.Places (c : Command) (l : Ledger) (name group : String) (key : Bytes) : Prop :=
  match c with
  | .reassignPrincipal principal g sealedGroupKey =>
    principal = name ∧ g = group ∧ sealedGroupKey = some key
  | .bootstrap _ setup => Ledger.has l.principals name = false ∧ group = superGroup ∧
    ∃ admin, setup.admin = some admin ∧ admin.principal.name = name ∧ admin.sealedGroupKey = key
  | _ => False

/-- A command takes a principal out of the group that it is in, or replaces its key. -/
def Command.Displaces (c : Command) (name : String) : Prop :=
  match c with
  | .reassignPrincipal principal _ _ => principal = name
  | .deletePrincipal principal => principal = name
  | _ => False

namespace Ledger

/-- In a run of commands from the empty ledger, the last one that gave a principal a group gave it
this group and this key, and the principal has not been deleted since. -/
def LastPlaced (cs : List Command) (name group : String) (key : Bytes) : Prop :=
  ∃ before c after, cs = before ++ c :: after ∧
    ∃ a l', (run execute .empty before).2.execute c = .ok (a, l') ∧
      c.Places (run execute .empty before).2 name group key ∧
      ∀ e ∈ (run execute l' after).1, e.Succeeds → ¬e.command.Displaces name

section

variable {cs : List Command} {c : Command} {name group : String} {key : Bytes}

theorem LastPlaced.of_places {a : Answer} {l' : Ledger}
    (hok : (run execute .empty cs).2.execute c = .ok (a, l'))
    (h : c.Places (run execute .empty cs).2 name group key) :
    LastPlaced (cs ++ [c]) name group key :=
  ⟨cs, c, [], rfl, a, l', hok, h, fun _ he => nomatch he⟩

theorem LastPlaced.concat (h : LastPlaced cs name group key)
    (hc : ∀ a l', (run execute .empty cs).2.execute c = .ok (a, l') → ¬c.Displaces name) :
    LastPlaced (cs ++ [c]) name group key := by
  obtain ⟨before, d, after, rfl, a, l', hok, hplaces, hafter⟩ := h
  refine ⟨before, d, after ++ [c], by simp, a, l', hok, hplaces, fun e he => ?_⟩
  have hreached : (run execute .empty (before ++ d :: after)).2 = (run execute l' after).2 := by
    rw [run_append, run_cons, attempt_of_ok hok]
  rw [run_concat] at he
  rcases List.mem_append.1 he with he | he
  · exact hafter e he
  · obtain rfl := List.mem_singleton.1 he
    rintro ⟨b, hb⟩
    rw [hreached] at hc
    cases hd : (run execute l' after).2.execute c with
    | error e =>
      rw [attempt_of_error hd] at hb
      cases hb
    | ok x => exact hc x.1 x.2 hd

end

/-- How a principal stands with its group after a run. -/
structure Member (cs : List Command) (name : String) (p : Principal) : Prop where
  group : p.group = defaultGroup ∨ has (run execute .empty cs).2.groups p.group = true
  keyless : p.sealedGroupKey = none ↔ p.group = defaultGroup
  placed : p.group ≠ defaultGroup →
    ∃ key, p.sealedGroupKey = some key ∧ key ≠ [] ∧ LastPlaced cs name p.group key

section

variable {cs : List Command} {c : Command} {name : String} {p : Principal} {key : Bytes}
variable {a : Answer} {l' : Ledger}

/-- A principal in the default group without a key. -/
theorem Member.of_default (hgroup : p.group = defaultGroup) (hkey : p.sealedGroupKey = none) :
    Member cs name p :=
  ⟨.inl hgroup, iff_of_true hkey hgroup, fun hne => absurd hgroup hne⟩

/-- A principal that a command has just given another group. -/
theorem Member.of_places (hok : (run execute .empty cs).2.execute c = .ok (a, l'))
    (hgroup : has l'.groups p.group = true) (hne : p.group ≠ defaultGroup)
    (hkey : p.sealedGroupKey = some key) (hnonempty : key ≠ [])
    (hplaces : c.Places (run execute .empty cs).2 name p.group key) :
    Member (cs ++ [c]) name p := by
  refine ⟨.inr ?_, iff_of_false ?_ hne, fun _ => ⟨key, hkey, hnonempty, .of_places hok hplaces⟩⟩
  · rw [run_concat, attempt_of_ok hok]
    exact hgroup
  · rw [hkey]
    exact Option.some_ne_none key

/-- A command that leaves a principal and its group alone. -/
theorem Member.concat (h : Member cs name p)
    (hok : (run execute .empty cs).2.execute c = .ok (a, l'))
    (hgroup : has (run execute .empty cs).2.groups p.group = true →
      has l'.groups p.group = true)
    (hc : ¬c.Displaces name) : Member (cs ++ [c]) name p := by
  refine ⟨h.group.imp_right fun hthere => ?_, h.keyless, fun hne => ?_⟩
  · rw [run_concat, attempt_of_ok hok]
    exact hgroup hthere
  · obtain ⟨key, hkey, hnonempty, hplaced⟩ := h.placed hne
    exact ⟨key, hkey, hnonempty, hplaced.concat fun _ _ _ => hc⟩

theorem Member.concat_of_error (h : Member cs name p) {e : Error}
    (hfails : (run execute .empty cs).2.execute c = .error e) : Member (cs ++ [c]) name p := by
  have hsame : (run execute .empty (cs ++ [c])).2 = (run execute .empty cs).2 := by
    rw [run_concat, attempt_of_error hfails]
  refine ⟨hsame ▸ h.group, h.keyless, fun hne => ?_⟩
  obtain ⟨key, hkey, hnonempty, hplaced⟩ := h.placed hne
  refine ⟨key, hkey, hnonempty, hplaced.concat fun a l' hok => ?_⟩
  rw [hfails] at hok
  cases hok

/-- **One command keeps members and groups together.** -/
theorem member_execute (h : ∀ q, (run execute .empty cs).2.principal? name = some q →
      Member cs name q)
    (hadmin : ∀ now setup admin, c = .bootstrap now setup → setup.admin = some admin →
      admin.sealedGroupKey ≠ [])
    (hok : (run execute .empty cs).2.execute c = .ok (a, l')) (hp : l'.principal? name = some p) :
    Member (cs ++ [c]) name p := by
  have hintact : (run execute .empty cs).2.Intact := intact_run .empty cs
  have hafter := hintact.recordsAfter hok
  have hgroups := hafter.groups
  rw [hafter.principals] at hp
  cases c with
  | bootstrap now setup =>
    have hmono : ∀ group, has (run execute .empty cs).2.groups group = true →
        has l'.groups group = true := by
      intro group hthere
      rw [hgroups]
      exact has_addRow_of_has (has_addRow_of_has hthere)
    have hold : ∀ q, (run execute .empty cs).2.principal? name = some q →
        Member (cs ++ [.bootstrap now setup]) name q := fun q hq =>
      (h q hq).concat hok (hmono _) id
    simp only [Command.principalAfter] at hp
    split at hp
    · exact hold p hp
    · next admin hsetup =>
      split at hp
      · next hname =>
        cases hq : (run execute .empty cs).2.principal? name with
        | some q =>
          rw [hq] at hp
          cases hp
          exact hold p hq
        | none =>
          rw [hq] at hp
          cases hp
          have hnonempty := hadmin now setup admin rfl hsetup
          have hgiven : given (some admin.sealedGroupKey) = some admin.sealedGroupKey := by
            simp [given, hnonempty]
          have hsuper : has l'.groups superGroup = true :=
            has_groups_of_bootstrap hintact hok rfl
          exact .of_places hok hsuper (show superGroup ≠ defaultGroup by decide) hgiven hnonempty
            ⟨hintact.principal?_eq_none_iff.1 hq, rfl, admin, hsetup, hname, rfl⟩
      · exact hold p hp
  | registerPrincipal now new =>
    rw [Command.principalAfter] at hp
    have hold : ∀ q, (run execute .empty cs).2.principal? name = some q →
        Member (cs ++ [.registerPrincipal now new]) name q := fun q hq =>
      (h q hq).concat hok (by rw [hgroups]; exact id) id
    split at hp
    · cases hq : (run execute .empty cs).2.principal? name with
      | some q =>
        rw [hq] at hp
        cases hp
        exact hold p hq
      | none =>
        rw [hq] at hp
        cases hp
        exact .of_default rfl rfl
    · exact hold p hp
  | createGroup now group kind publicKey sealedPrivateKey =>
    refine (h p hp).concat hok (fun hthere => ?_) id
    rw [hgroups]
    exact has_addRow_of_has hthere
  | deleteGroup group =>
    obtain ⟨q, hq, heq⟩ := Option.map_eq_some_iff.1 hp
    by_cases hgroup : q.group = group
    · rw [if_pos hgroup] at heq
      rw [← heq]
      exact .of_default rfl rfl
    · rw [if_neg hgroup] at heq
      obtain rfl := heq
      refine (h q hq).concat hok (fun hthere => ?_) id
      rw [hgroups, Command.groupsAfter, has_erase, hthere]
      simp [hgroup]
  | reassignPrincipal principal group sealedGroupKey =>
    obtain ⟨hkey, hthere, -⟩ := of_reassignPrincipal_eq_ok (of_changed_eq_ok hok)
    rw [Command.principalAfter] at hp
    by_cases hname : principal = name
    · rw [if_pos hname] at hp
      obtain ⟨q, -, rfl⟩ := Option.map_eq_some_iff.1 hp
      by_cases hdefault : group = defaultGroup
      · exact .of_default hdefault (if_pos hdefault)
      · obtain ⟨key, hgiven⟩ := Option.isSome_iff_exists.1 (hkey.resolve_left hdefault)
        obtain ⟨hsome, hnonempty⟩ := Option.filter_eq_some_iff.1 hgiven
        have hmoved : (if group = defaultGroup then none else given sealedGroupKey) = some key := by
          rw [if_neg hdefault, hgiven]
        exact .of_places hok (by rw [hgroups]; exact hthere) hdefault hmoved
          (by simpa using hnonempty) ⟨hname, rfl, hsome⟩
    · rw [if_neg hname] at hp
      exact (h p hp).concat hok (by rw [hgroups]; exact id) hname
  | deletePrincipal principal =>
    rw [Command.principalAfter] at hp
    by_cases hname : principal = name
    · rw [if_pos hname] at hp
      cases hp
    · rw [if_neg hname] at hp
      exact (h p hp).concat hok (by rw [hgroups]; exact id) hname
  | _ => exact (h p hp).concat hok (by rw [hgroups]; exact id) id

/-- **Members and groups belong together in every ledger that a run can reach.** -/
theorem member_run (hadmin : ∀ now setup admin, .bootstrap now setup ∈ cs →
      setup.admin = some admin → admin.sealedGroupKey ≠ [])
    (hp : (run execute .empty cs).2.principal? name = some p) : Member cs name p := by
  -- the history of the keys grows at its end
  induction cs using List.reverseRecOn generalizing p with
  | nil => cases hp
  | append_singleton cs c ih =>
    have ih' : ∀ q, (run execute .empty cs).2.principal? name = some q → Member cs name q :=
      fun q => ih fun now setup admin hmem => hadmin now setup admin (by simp [hmem])
    cases hc : (run execute .empty cs).2.execute c with
    | error e =>
      rw [run_concat, attempt_of_error hc] at hp
      exact (ih' p hp).concat_of_error hc
    | ok x =>
      rw [run_concat, attempt_of_ok hc] at hp
      exact member_execute ih' (fun now setup admin heq => hadmin now setup admin (by simp [heq]))
        hc hp

end

end Ledger

end Strongroom
