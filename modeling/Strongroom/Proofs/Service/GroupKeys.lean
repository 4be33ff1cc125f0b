import Strongroom.Proofs.Ledger.Membership
import Strongroom.Proofs.Service.Answers

/-!
# Group keys

A group's private key exists in many copies: one that is sealed for the supergroup, in the row of
the group, and one that is sealed for each member, in the row of the member.  Which of them a caller
gets depends on two rows that are looked up apart.  Since members and groups belong together
(`Ledger.member_run`), a member always gets its own copy, and never the one of the supergroup
(`Asks.groupKey_answer`).
-/

namespace Strongroom

open Http (Parameters Request Route)
open Ledger (GroupFits Member SoundRows)

namespace Ledger

variable {l : Ledger}

/-- A group that is there can be looked up. -/
theorem exists_getGroup (h : SoundRows Group.layout GroupFits l.groups) {name : String}
    (hthere : has l.groups name = true) : ∃ g, l.getGroup name = .ok g ∧ g.name = name := by
  rw [h.has_eq_isSome] at hthere
  obtain ⟨g, hg⟩ := Option.isSome_iff_exists.1 hthere
  exact ⟨g, h.row_eq hg _, (utf8_inj.1 (h.fits_of_record? hg).key).symm⟩

end Ledger

namespace Service

variable {w : Surroundings} {s : Service} {r : Request} {session : Session}
variable {ps : Parameters}

/-- **A member that asks for its group gets its own copy of the key.** -/
theorem Asks.groupKey_answer (h : s.Asks w r session "GET" .group ps) {p : Principal} {g : Group}
    (hp : s.ledger.getPrincipal session.identity.name = .ok p)
    (hg : s.ledger.getGroup (ps.get "name") = .ok g) (hmember : p.group = g.name) {key : Bytes}
    (hkey : p.sealedGroupKey = some key) :
    (s.handle w r).1.status = 200 ∧ (s.handle w r).1.body = Message.body [Message.Key.toJson
      { name := g.name, groupPub := Base64.encode g.publicKey,
        groupPriv := Base64.encode key }] := by
  have haction : Route.group.action? "GET" = some (.forCaller .getGroup) := rfl
  refine h.answer haction (by decide) (by decide) rfl fun id => ?_
  have hown : groupKeyFor g p session.identity.superuser = Base64.encode key := by
    rw [groupKeyFor, if_pos hmember, hkey]
    rfl
  show (s.admitted w r).getGroup ⟨id, session.identity⟩ ps = _
  simp only [getGroup, ledger_admitted, hg, hp]
  show Service.answer _ [Message.Key.toJson { g.toPublicMessage with
    groupPriv := groupKeyFor g p session.identity.superuser }] = _
  rw [hown]
  rfl

/-- **Members, groups and keys belong together**, after any run of commands in which the first
administrator brings a key.  The group of a principal is there; the principal has no key exactly in
the default group, and otherwise the one of its last reassignment or of the bootstrap (`Member`).
The built-in groups are there as soon as a bootstrap has succeeded, and their rows stay as they are;
the other groups are not built in and have complete key pairs (`GroupFits`).  So a caller that is
now in another group than the default one, and asks for this group, gets its own copy of the key. -/
theorem group_keys_follow_members {cs : List Command}
    (hadmin : ∀ now setup admin, .bootstrap now setup ∈ cs → setup.admin = some admin →
      admin.sealedGroupKey ≠ []) :
    let l := (Strongroom.run Ledger.execute .empty cs).2
    (∀ name p, l.getPrincipal name = .ok p → Member cs name p) ∧
    SoundRows Group.layout GroupFits l.groups ∧
    (∀ before now setup after a l', cs = before ++ .bootstrap now setup :: after →
      (Strongroom.run Ledger.execute .empty before).2.execute (.bootstrap now setup) = .ok (a, l') →
      ∀ name, isReserved name = true →
        (∃ g, l'.getGroup name = .ok g ∧ g.builtin = true) ∧
        l.groups.get? (utf8 name) = l'.groups.get? (utf8 name)) ∧
    ∀ (w : Surroundings) (s : Service) (r : Request) (session : Session)
      (ps : Parameters) (p : Principal),
      s.ledger = l → s.Asks w r session "GET" .group ps →
      l.getPrincipal session.identity.name = .ok p → p.group ≠ defaultGroup →
      ps.get "name" = p.group →
      ∃ key g, p.sealedGroupKey = some key ∧ l.getGroup p.group = .ok g ∧
        (s.handle w r).1.status = 200 ∧ (s.handle w r).1.body = Message.body [Message.Key.toJson
          { name := p.group, groupPub := Base64.encode g.publicKey,
            groupPriv := Base64.encode key }] := by
  intro l
  have hintact : l.Intact := Ledger.intact_run .empty cs
  have hgroups : SoundRows Group.layout GroupFits l.groups := Ledger.groupFits_run cs
  have hmembers : ∀ name p, l.getPrincipal name = .ok p → Member cs name p := fun name p hp =>
    Ledger.member_run hadmin (hintact.getPrincipal_eq_ok_iff.1 hp)
  refine ⟨hmembers, hgroups, ?_, ?_⟩
  · intro before now setup after a l' hcs hok name hreserved
    have hbefore : (Strongroom.run Ledger.execute .empty before).2.Intact :=
      Ledger.intact_run .empty before
    have hfits : SoundRows Group.layout GroupFits l'.groups :=
      Ledger.groupFits_execute (Ledger.groupFits_run before) hbefore hok
    have hthere : Ledger.has l'.groups name = true :=
      Ledger.has_groups_of_bootstrap hbefore hok hreserved
    have hreached : l = (Strongroom.run Ledger.execute l' after).2 := by
      show (Strongroom.run Ledger.execute .empty cs).2 = _
      rw [hcs, run_append, run_cons, attempt_of_ok hok]
    obtain ⟨g, hg, hname⟩ := Ledger.exists_getGroup hfits hthere
    refine ⟨⟨g, hg, ?_⟩, ?_⟩
    · rw [(hfits.of_row_eq_ok hg).builtin, hname, hreserved]
    · rw [hreached]
      exact Ledger.get?_groups_run (hbefore.execute hok) hreserved hthere after
  · intro w s r session ps p hs hasks hp hother hname
    have hmember := hmembers _ p hp
    obtain ⟨key, hkey, -, -⟩ := hmember.placed hother
    obtain ⟨g, hg, hgname⟩ := Ledger.exists_getGroup hgroups (hmember.group.resolve_left hother)
    have hanswer := hasks.groupKey_answer (hs ▸ hp) (hs ▸ hname ▸ hg) hgname.symm hkey
    rw [hgname] at hanswer
    exact ⟨key, g, hkey, hg, hanswer⟩

/-- A group with a member. -/
def sampleTeam : List Command :=
  [.bootstrap leapDay ⟨List.replicate 32 1, [1],
      some ⟨⟨"root", .admin, List.replicate 32 2, utf8 "pw"⟩, [2]⟩⟩,
    .createGroup leapDay "ops" .client (List.replicate 32 3) [3],
    .registerPrincipal leapDay ⟨"ann", .client, List.replicate 32 4, utf8 "pw"⟩,
    .reassignPrincipal "ann" "ops" (some [5])]

/-- The service of the example, where the member has logged in before it was one. -/
def sampleTeamroom : Service :=
  ⟨(Strongroom.run Ledger.execute .empty sampleTeam).2,
    ⟨Table.empty.insert 7 ⟨⟨"ann", "default", false, false⟩, some (Octets.zero 32), none, 0⟩, {}⟩⟩

theorem group_keys_follow_members_sampleTeam :
    (∀ now setup admin, .bootstrap now setup ∈ sampleTeam → setup.admin = some admin →
      admin.sealedGroupKey ≠ []) ∧
    let answered := sampleTeamroom.handle samplePlain (sampleSigned "7" "GET" "/v1/groups/ops" "")
    answered.1.status = 200 ∧ answered.1.body = Message.body [Message.Key.toJson
      { name := "ops", groupPub := Base64.encode (List.replicate 32 3),
        groupPriv := Base64.encode [5] }] := by
  have hadmin : ∀ now setup admin, .bootstrap now setup ∈ sampleTeam → setup.admin = some admin →
      admin.sealedGroupKey ≠ [] := by
    intro now setup admin hmem hsetup
    simp only [sampleTeam, List.mem_cons, Command.bootstrap.injEq, reduceCtorEq, or_false,
      List.not_mem_nil] at hmem
    obtain ⟨-, rfl⟩ := hmem
    cases hsetup
    decide
  have hasks : sampleTeamroom.Asks samplePlain (sampleSigned "7" "GET" "/v1/groups/ops" "")
      ⟨⟨"ann", "default", false, false⟩, some (Octets.zero 32), none, 0⟩ "GET" .group
      [("name", "ops")] :=
    ⟨rfl, ⟨[("name", utf8 "ops")], by decide +kernel, by decide +kernel⟩, 7,
      (RequestMac.compute (List.replicate 32 0)
        (sampleSigned "7" "GET" "/v1/groups/ops" "").target.context []).bytes, by decide +kernel⟩
  have hmember : (Strongroom.run Ledger.execute .empty sampleTeam).2.getPrincipal "ann" =
      .ok ⟨"ann", .client, List.replicate 32 4, "ops", some [5], utf8 "pw", leapDay.1⟩ := by
    decide +kernel
  have hgroup : (Strongroom.run Ledger.execute .empty sampleTeam).2.getGroup "ops" =
      .ok ⟨"ops", .client, List.replicate 32 3, [3], false, leapDay.1⟩ := by
    decide +kernel
  obtain ⟨key, g, hkey, hg, hanswer⟩ := (group_keys_follow_members hadmin).2.2.2 samplePlain
    sampleTeamroom _ _ _ _ rfl hasks hmember (show "ops" ≠ defaultGroup by decide) rfl
  cases hkey
  rw [hgroup] at hg
  cases hg
  exact ⟨hadmin, hanswer⟩

end Service

end Strongroom
