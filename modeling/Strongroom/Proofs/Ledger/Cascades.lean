import Strongroom.Proofs.Ledger.Removal

/-!
# What a deletion takes with it

To delete a group, a principal or a secret is to take its row away and the wraps that name it.  All
that anyone sees of wraps are filters on one scan, so what is seen behind a deletion is again a
filter on what was seen before it:

    opened behind  =  opened before, as far as it passes a test     (`Intact.fetched_of_removes`),
    the list behind  =  the list before without one recipient       (`Intact.listed_of_removes`).

The members of a group that goes are the only ones who see less through another door than a wrap
that is gone: they are no longer in the group.  A group and a principal may have one name, and then
the deletion of the one leaves the other alone.
-/

namespace Strongroom

/-- The summary of a secret without one recipient. -/
def SecretSummary.without (r : Recipient) (s : SecretSummary) : SecretSummary :=
  { s with recipients := s.recipients.filter fun r' => r' ≠ r }

namespace Ledger

variable {l l' : Ledger} {c : Command} {a : Answer} {name : String} {p p' : Principal}
variable {ws : List (Bytes × Wrap)} {keep : Wrap → Bool} {secrets : List Secret}

/-! ### What is seen behind a removal -/

/-- What a principal gets behind a removal is what it got before, as far as it passes a test, if the
test goes by the wraps that are left and that the principal can still open. -/
theorem Intact.fetched_of_removes (h : l.Intact) (hok : l.execute c = .ok (a, l'))
    (hnone : c.newWraps = []) (hkeep : ∀ w, keep w = true ↔ ¬ c.Ends w.secret w.recipient)
    (hp : l.getPrincipal name = .ok p) (hp' : l'.getPrincipal name = .ok p')
    (test : AccessibleSecret → Bool)
    (hopens : ∀ w, (p'.opens w.recipient && keep w) = (p.opens w.recipient && test (l.through w)))
    (hsame : ∀ w, keep w = true → l'.through w = l.through w) :
    ∃ found, l.fetchAccessible name = .ok found ∧
      l'.fetchAccessible name = .ok (found.filter test) := by
  obtain ⟨ws, hws⟩ := exists_scanWraps h.wraps none
  have hws' := h.scanWraps_of_removes hok hnone hkeep hws
  refine ⟨_, h.fetchAccessible_eq_ok hp hws, ?_⟩
  rw [(h.execute hok).fetchAccessible_eq_ok hp' hws']
  refine congrArg _ ?_
  have hleft : (ws.filter fun x => keep x.2).filter (fun x => p'.opens x.2.recipient) =
      (ws.filter fun x => p.opens x.2.recipient).filter fun x => test (l.through x.2) := by
    rw [List.filter_filter, List.filter_filter]
    refine List.filter_congr fun x _ => ?_
    rw [hopens, Bool.and_comm]
  calc l'.opened p' (ws.filter fun x => keep x.2)
      = ((ws.filter fun x => keep x.2).filter fun x => p'.opens x.2.recipient).map
          fun x => l.through x.2 := List.map_congr_left fun x hx =>
            hsame x.2 (List.mem_filter.1 (List.mem_of_mem_filter hx)).2
    _ = (l.opened p ws).filter test := by
      rw [hleft, opened, List.filter_map]
      rfl

/-! ### What is seen without one recipient -/

section

variable {r : Recipient} (hends : ∀ s r', c.Ends s r' ↔ r' = r) (hsecrets : l'.secrets = l.secrets)

include hends in
theorem keep_iff_of_ends (w : Wrap) :
    decide (w.recipient ≠ r) = true ↔ ¬ c.Ends w.secret w.recipient := by
  rw [hends, decide_eq_true_eq]

include hsecrets in
theorem through_of_secrets_eq (w : Wrap) : l'.through w = l.through w := by
  rw [through, through, secret?, secret?, hsecrets]

include hends hsecrets

/-- Whoever could not open the wraps for the recipient gets what it got before. -/
theorem Intact.fetchAccessible_of_removes (h : l.Intact) (hok : l.execute c = .ok (a, l'))
    (hnone : c.newWraps = []) (hp : l.getPrincipal name = .ok p)
    (hp' : l'.getPrincipal name = .ok p) (hopens : p.opens r = false) :
    l'.fetchAccessible name = l.fetchAccessible name := by
  have hboth : ∀ w : Wrap,
      (p.opens w.recipient && decide (w.recipient ≠ r)) = (p.opens w.recipient && true) := by
    intro w
    by_cases hw : w.recipient = r
    · rw [hw, hopens]
      rfl
    · rw [decide_eq_true hw]
  obtain ⟨found, hfound, hfound'⟩ := h.fetched_of_removes hok hnone (keep_iff_of_ends hends) hp hp'
    (fun _ => true) hboth fun w _ => through_of_secrets_eq hsecrets w
  rw [hfound, hfound', List.filter_true]

/-- The list is as it was, without the recipient. -/
theorem Intact.listed_of_removes (h : l.Intact) (hok : l.execute c = .ok (a, l'))
    (hnone : c.newWraps = []) :
    ∃ list, l.listSecrets = .ok list ∧ l'.listSecrets = .ok (list.map (·.without r)) := by
  obtain ⟨ws, hws⟩ := exists_scanWraps h.wraps none
  obtain ⟨secrets, hall⟩ := h.secrets.exists_all
  have hws' := h.scanWraps_of_removes hok hnone (keep_iff_of_ends hends) hws
  refine ⟨_, h.listSecrets_eq_ok hws hall, ?_⟩
  rw [(h.execute hok).listSecrets_eq_ok hws' (hsecrets ▸ hall), List.map_map]
  refine congrArg _ (List.map_congr_left fun s _ => ?_)
  rw [Function.comp_apply, summary, summary, SecretSummary.without, List.filter_map,
    List.filter_filter, List.filter_filter]
  refine congrArg _ (congrArg _ (List.filter_congr fun x _ => ?_))
  exact Bool.and_comm _ _

end

/-! ### Groups and principals -/

theorem get?_foldl_moved {ps : List Principal} {t : Table Bytes Bytes}
    (hothers : ∀ q ∈ ps, q.name ≠ name) :
    (ps.foldl (fun table q => table.insert (utf8 q.name) (inDefaultGroup q).toJson) t).get?
      (utf8 name) = t.get? (utf8 name) := by
  induction ps generalizing t with
  | nil => rfl
  | cons q qs ih =>
    rw [List.foldl_cons, ih fun q' hq' => hothers q' (List.mem_cons_of_mem _ hq'),
      Table.get?_insert, if_neg fun heq => hothers q List.mem_cons_self (utf8_inj.1 heq).symm]

theorem Intact.principal?_of_mem (h : l.Intact) {ps : List Principal}
    (hall : all Principal.layout l.principals = .ok ps) (hp : p ∈ ps) :
    l.principal? p.name = some p := by
  obtain ⟨row, hrow, hdecode⟩ := (mem_of_all_eq_ok hall).1 hp
  obtain ⟨q, hq, hkey⟩ := h.principals row hrow
  obtain rfl : p = q := Except.ok.inj (hdecode.symm.trans hq)
  exact record?_eq_some_iff.2 ⟨row.2, Table.get?_eq_some_iff.2 (hkey ▸ hrow), hdecode⟩

/-- The row of a principal that is not in a group stays when the group goes. -/
theorem Intact.get?_of_deleteGroup (h : l.Intact) {group : String}
    (hok : l.deleteGroup group = .ok l') (hp : l.principal? name = some p)
    (hgroup : p.group ≠ group) :
    l'.principals.get? (utf8 name) = l.principals.get? (utf8 name) := by
  obtain ⟨-, n, t, ps, -, hall, rfl⟩ := of_deleteGroup_eq_ok hok
  refine get?_foldl_moved fun q hq hname => hgroup ?_
  obtain ⟨hq, hmember⟩ := List.mem_filter.1 hq
  have hsame := h.principal?_of_mem hall hq
  rw [hname, hp] at hsame
  rw [Option.some.inj hsame]
  exact of_decide_eq_true hmember

/-- A group is gone, with its wraps and from its members. -/
structure GroupGone (group : String) (l l' : Ledger) : Prop where
  members : ∀ name p, l.getPrincipal name = .ok p → p.group = group →
    l'.getPrincipal name = .ok { p with group := defaultGroup, sealedGroupKey := none } ∧
      ∃ found, l.fetchAccessible name = .ok found ∧
        l'.fetchAccessible name = .ok (found.filter fun x => x.via = .principal name)
  others : ∀ name p, l.getPrincipal name = .ok p → p.group ≠ group →
    l'.principals.get? (utf8 name) = l.principals.get? (utf8 name) ∧
      l'.fetchAccessible name = l.fetchAccessible name
  listed : ∃ list, l.listSecrets = .ok list ∧
    l'.listSecrets = .ok (list.map (·.without (.group group)))

theorem Intact.groupGone (h : l.Intact) {group : String}
    (hok : l.execute (.deleteGroup group) = .ok (a, l')) : GroupGone group l l' := by
  have hafter := h.recordsAfter hok
  have h' := h.execute hok
  have hends : ∀ s r, (Command.deleteGroup group).Ends s r ↔ r = .group group :=
    fun s r => Iff.rfl
  refine ⟨fun name p hp hmember => ?_, fun name p hp hgroup => ?_,
    h.listed_of_removes hends hafter.secrets hok rfl⟩
  · have hname : p.name = name := h.name_of_principal? (h.getPrincipal_eq_ok_iff.1 hp)
    have hp' : l'.getPrincipal name = .ok (inDefaultGroup p) := by
      rw [h'.getPrincipal_eq_ok_iff, hafter.principals, h.getPrincipal_eq_ok_iff.1 hp,
        Command.principalAfter, Option.map_some, if_pos hmember]
    have hdirect : ∀ w : Wrap, (inDefaultGroup p).opens w.recipient = true ↔
        w.recipient = .principal name := by
      intro w
      rw [Principal.opens_iff, ← hname]
      exact or_iff_left fun hdefault => hdefault.2 rfl
    refine ⟨hp', h.fetched_of_removes hok rfl (keep_iff_of_ends hends) hp hp' _ (fun w => ?_)
      fun w _ => through_of_secrets_eq hafter.secrets w⟩
    rw [Bool.eq_iff_iff, Bool.and_eq_true, Bool.and_eq_true, hdirect, decide_eq_true_eq,
      decide_eq_true_eq]
    show _ ↔ _ ∧ w.recipient = .principal name
    constructor
    · rintro ⟨hown, -⟩
      exact ⟨Principal.opens_iff.2 (.inl (hname ▸ hown)), hown⟩
    · rintro ⟨-, hown⟩
      refine ⟨hown, ?_⟩
      intro heq
      rw [hown] at heq
      cases heq
  · have hp' : l'.getPrincipal name = .ok p := by
      rw [h'.getPrincipal_eq_ok_iff, hafter.principals, h.getPrincipal_eq_ok_iff.1 hp,
        Command.principalAfter, Option.map_some, if_neg hgroup]
    have hopens : p.opens (.group group) = false := by
      rw [Bool.eq_false_iff, ne_eq, Principal.opens_iff]
      rintro (hown | ⟨hown, -⟩)
      · cases hown
      · exact hgroup (Recipient.group.inj hown).symm
    exact ⟨h.get?_of_deleteGroup (of_changed_eq_ok hok) (h.getPrincipal_eq_ok_iff.1 hp) hgroup,
      h.fetchAccessible_of_removes hends hafter.secrets hok rfl hp hp' hopens⟩

/-- A principal is gone, with its wraps. -/
structure PrincipalGone (principal : String) (l l' : Ledger) : Prop where
  others : ∀ name p, l.getPrincipal name = .ok p → name ≠ principal →
    l'.principals.get? (utf8 name) = l.principals.get? (utf8 name) ∧
      l'.fetchAccessible name = l.fetchAccessible name
  listed : ∃ list, l.listSecrets = .ok list ∧
    l'.listSecrets = .ok (list.map (·.without (.principal principal)))

theorem Intact.principalGone (h : l.Intact) {principal : String}
    (hok : l.execute (.deletePrincipal principal) = .ok (a, l')) :
    PrincipalGone principal l l' := by
  have hafter := h.recordsAfter hok
  have hends : ∀ s r, (Command.deletePrincipal principal).Ends s r ↔ r = .principal principal :=
    fun s r => Iff.rfl
  refine ⟨fun name p hp hother => ?_, h.listed_of_removes hends hafter.secrets hok rfl⟩
  have hname : p.name = name := h.name_of_principal? (h.getPrincipal_eq_ok_iff.1 hp)
  have hp' : l'.getPrincipal name = .ok p := by
    rw [(h.execute hok).getPrincipal_eq_ok_iff, hafter.principals, h.getPrincipal_eq_ok_iff.1 hp,
      Command.principalAfter, if_neg hother.symm]
  have hopens : p.opens (.principal principal) = false := by
    rw [Bool.eq_false_iff, ne_eq, Principal.opens_iff]
    rintro (hown | ⟨hown, -⟩)
    · exact hother (hname.symm.trans (Recipient.principal.inj hown).symm)
    · cases hown
  refine ⟨?_, h.fetchAccessible_of_removes hends hafter.secrets hok rfl hp hp' hopens⟩
  obtain ⟨n, hremove⟩ := of_deletePrincipal_eq_ok (of_changed_eq_ok hok)
  obtain ⟨t, rfl⟩ := of_removeWraps_eq_ok hremove
  exact (Table.get?_erase _ _ _).trans (if_neg fun heq => hother (utf8_inj.1 heq))

/-! ### Secrets -/

/-- Reading the members that pass a test is reading all and keeping the results that pass it. -/
theorem mapM_filter {ε α β : Type} {f : α → Except ε β} {xs : List α} {ys : List β}
    {before : α → Bool} {after : β → Bool} (h : xs.mapM f = .ok ys)
    (hsame : ∀ x ∈ xs, ∀ y, f x = .ok y → before x = after y) :
    (xs.filter before).mapM f = .ok (ys.filter after) := by
  induction xs generalizing ys with
  | nil =>
    cases h
    rfl
  | cons x xs ih =>
    rw [List.mapM_cons] at h
    obtain ⟨z, hz, h⟩ := of_bind_eq_ok h
    obtain ⟨zs, hzs, h⟩ := of_bind_eq_ok h
    cases h
    have hrest := ih hzs fun y hy => hsame y (List.mem_cons_of_mem _ hy)
    rw [List.filter_cons, List.filter_cons, hsame x List.mem_cons_self z hz]
    split
    · rw [List.mapM_cons, hz, hrest]
      rfl
    · exact hrest

/-- The secrets that are read behind the deletion of one. -/
theorem Intact.all_erase_secret (h : l.Intact)
    (hall : all Secret.layout l.secrets = .ok secrets) (name : String) :
    all Secret.layout (l.secrets.erase (utf8 name)) =
      .ok (secrets.filter fun s => s.name ≠ name) := by
  refine mapM_filter hall fun row hrow s hs => ?_
  obtain ⟨s', hs', hfit⟩ := h.secrets row hrow
  obtain rfl : s = s' := Except.ok.inj (hs.symm.trans hs')
  refine decide_eq_decide.2 (not_congr ?_)
  rw [hfit.key]
  exact utf8_inj

theorem wrap?_addWrap {w : Wrap} (hvalid : w.createdAt.IsValid) (key : Bytes) :
    (l.addWrap w).wrap? key =
      if key = wrapKey w.secret (l.lastWrap + 1) then some w else l.wrap? key := by
  rw [wrap?, wrap?, addWrap, Table.get?_insert]
  split
  · rw [Option.bind_some, Wrap.decode_toJson hvalid]
    rfl
  · rfl

/-- Some wraps are those of a secret, with their keys. -/
def HasWraps (l : Ledger) (secret : String) (xs : List (Bytes × Wrap)) : Prop :=
  xs.Nodup ∧ ∀ x, x ∈ xs ↔ l.wrap? x.1 = some x.2 ∧ x.2.secret = secret

theorem HasWraps.addWrap {w : Wrap} {xs : List (Bytes × Wrap)} (h : HasWraps l w.secret xs)
    (hvalid : w.createdAt.IsValid) (hfree : l.wrap? (wrapKey w.secret (l.lastWrap + 1)) = none) :
    HasWraps (l.addWrap w) w.secret ((wrapKey w.secret (l.lastWrap + 1), w) :: xs) := by
  have hnew : ∀ v, (wrapKey w.secret (l.lastWrap + 1), v) ∉ xs := by
    intro v hv
    have hthere := ((h.2 _).1 hv).1
    rw [hfree] at hthere
    cases hthere
  refine ⟨List.nodup_cons.2 ⟨hnew w, h.1⟩, fun x => ?_⟩
  obtain ⟨key, v⟩ := x
  rw [List.mem_cons, wrap?_addWrap hvalid]
  by_cases hkey : key = wrapKey w.secret (l.lastWrap + 1)
  · subst hkey
    rw [or_iff_left (hnew v), if_pos rfl, Prod.mk.injEq, Option.some.injEq]
    constructor
    · rintro ⟨-, rfl⟩
      exact ⟨rfl, rfl⟩
    · rintro ⟨rfl, -⟩
      exact ⟨rfl, rfl⟩
  · rw [if_neg hkey, or_iff_right fun heq => hkey (congrArg Prod.fst heq)]
    exact h.2 _

theorem HasWraps.exists_scanWraps {secret : String} {xs : List (Bytes × Wrap)}
    (h : HasWraps l secret xs) (hintact : l.Intact) :
    ∃ ws, l.scanWraps (some secret) = .ok ws ∧ (ws.map (·.2)).Perm (xs.map (·.2)) := by
  obtain ⟨ws, hws⟩ := Ledger.exists_scanWraps hintact.wraps (some secret)
  refine ⟨ws, hws, List.Perm.map _ ?_⟩
  refine (List.perm_ext_iff_of_nodup (nodup_keys_of_scanWraps hws).of_map h.1).2 fun x => ?_
  rw [hintact.mem_scanWraps hws, h.2, Option.all_some, decide_eq_true_eq]

/-- **A secret starts with the wraps that it is created with**, and with no others. -/
theorem Intact.scanWraps_of_createSecret (h : l.Intact) {now : Moment} {caller : Identity}
    {new : NewSecret} (hok : l.execute (.createSecret now caller new) = .ok (a, l')) :
    ∃ ws, l'.scanWraps (some new.name) = .ok ws ∧
      (ws.map (·.2)).Perm (Command.createSecret now caller new).newWraps := by
  have h' := h.execute hok
  obtain ⟨hfree, -, hl⟩ := of_createSecret_eq_ok (of_changed_eq_ok hok)
  have hunused : ∀ n, l.wrap? (wrapKey new.name n) = none := by
    intro n
    rw [wrap?, h.get?_wrapKey hfree]
    rfl
  have hstart : HasWraps l new.name [] := by
    refine ⟨.nil, fun x => iff_of_false List.not_mem_nil ?_⟩
    rintro ⟨hx, heq⟩
    have hthere := (h.fits_of_wrap? hx).secret
    rw [heq, hfree] at hthere
    cases hthere
  let stored : Ledger := { l with
    secrets := l.secrets.insert (utf8 new.name)
      (Secret.toJson ⟨new.name, new.payload, caller.name, now.1⟩) }
  let forSuper : Wrap := ⟨new.name, .group superGroup, new.superKey, new.path, now.1⟩
  have hsuper : HasWraps (stored.addWrap forSuper) new.name _ :=
    HasWraps.addWrap (l := stored) (w := forSuper) hstart now.2 (hunused _)
  cases hkey : given new.creatorKey with
  | none =>
    simp only [hkey] at hl
    subst hl
    have hnew : (Command.createSecret now caller new).newWraps = [forSuper] := by
      simp only [Command.newWraps, hkey]
      rfl
    rw [hnew]
    exact hsuper.exists_scanWraps h'
  | some key =>
    simp only [hkey] at hl
    subst hl
    let forCreator : Wrap := ⟨new.name, .principal caller.name, key, new.path, now.1⟩
    have hsecond : (stored.addWrap forSuper).wrap?
        (wrapKey new.name ((stored.addWrap forSuper).lastWrap + 1)) = none := by
      rw [wrap?_addWrap now.2, lastWrap_addWrap, if_neg]
      · exact hunused _
      · -- the second number is not the first one
        intro heq
        have hnumber := (wrapKey_inj heq).2
        simp at hnumber
    have hcreator : HasWraps ((stored.addWrap forSuper).addWrap forCreator) new.name _ :=
      hsuper.addWrap (w := forCreator) now.2 hsecond
    have hnew : (Command.createSecret now caller new).newWraps = [forSuper, forCreator] := by
      simp only [Command.newWraps, hkey]
      rfl
    rw [hnew]
    obtain ⟨ws, hws, hperm⟩ := hcreator.exists_scanWraps h'
    exact ⟨ws, hws, hperm.trans (List.Perm.swap _ _ _)⟩

/-- A secret is created if its name is accepted and free and nothing is missing. -/
theorem exists_createSecret {now : Moment} {caller : Identity} {new : NewSecret}
    (hname : checkName "secret" new.name = .ok ()) (hreserved : isReserved new.name = false)
    (hfree : has l.secrets new.name = false) (hpayload : new.payload ≠ [])
    (hsuper : new.superKey ≠ [])
    (hcreator : caller.superuser = true ∨ (given new.creatorKey).isSome = true) :
    ∃ l', l.execute (.createSecret now caller new) = .ok (.done, l') := by
  have hpayload : new.payload.isEmpty = false := by simpa using hpayload
  have hsuper : new.superKey.isEmpty = false := by simpa using hsuper
  have hcreator : (caller.superuser || (given new.creatorKey).isSome) = true := by
    rwa [Bool.or_eq_true]
  obtain ⟨l', hl'⟩ : ∃ l', l.createSecret now.1 caller new = .ok l' := by
    rw [createSecret, hname, hreserved, hpayload, hsuper, hfree]
    simp only [require, Bool.not_false, if_true, hcreator, bind, Except.bind]
    cases given new.creatorKey with
    | none => exact ⟨_, rfl⟩
    | some key => exact ⟨_, rfl⟩
  refine ⟨l', ?_⟩
  show changed (l.createSecret now.1 caller new) = _
  rw [hl']
  rfl

/-- A secret is gone, with its wraps; one of the same name starts anew. -/
structure SecretGone (secret : String) (l l' : Ledger) : Prop where
  fetched : ∀ name p, l.getPrincipal name = .ok p → ∃ found, l.fetchAccessible name = .ok found ∧
    l'.fetchAccessible name = .ok (found.filter fun x => x.name ≠ secret)
  listed : ∃ list, l.listSecrets = .ok list ∧
    l'.listSecrets = .ok (list.filter fun s => s.name ≠ secret)
  unwrapped : ∃ ws, l'.scanWraps none = .ok ws ∧ ∀ x ∈ ws, x.2.secret ≠ secret
  recreated : ∀ (now : Moment) (caller : Identity) (new : NewSecret), new.name = secret →
    new.payload ≠ [] → new.superKey ≠ [] →
    (caller.superuser = true ∨ (given new.creatorKey).isSome = true) →
    ∃ l'', l'.execute (.createSecret now caller new) = .ok (.done, l'')
  anew : ∀ cs now caller new a l'', new.name = secret →
    (run Ledger.execute l' cs).2.execute (.createSecret now caller new) = .ok (a, l'') →
    ∃ ws, l''.scanWraps (some secret) = .ok ws ∧
      (ws.map (·.2)).Perm (Command.createSecret now caller new).newWraps

theorem Intact.secretGone (h : l.Intact) {secret : String}
    (hok : l.execute (.deleteSecret secret) = .ok (a, l')) : SecretGone secret l l' := by
  have hafter := h.recordsAfter hok
  have h' := h.execute hok
  have hkeep : ∀ w : Wrap, decide (w.secret ≠ secret) = true ↔
      ¬ (Command.deleteSecret secret).Ends w.secret w.recipient := by
    intro w
    rw [decide_eq_true_eq, Command.Ends, ne_comm]
  obtain ⟨ws, hws⟩ := exists_scanWraps h.wraps none
  have hws' := h.scanWraps_of_removes hok rfl hkeep hws
  refine ⟨fun name p hp => ?_, ?_, ⟨_, hws', fun x hx => ?_⟩, ?_, ?_⟩
  · have hp' : l'.getPrincipal name = .ok p := by
      rw [h'.getPrincipal_eq_ok_iff, hafter.principals, h.getPrincipal_eq_ok_iff.1 hp]
      rfl
    refine h.fetched_of_removes hok rfl hkeep hp hp' _ (fun w => rfl) fun w hw => ?_
    have hother : secret ≠ w.secret := Ne.symm (of_decide_eq_true hw)
    rw [through, through, secret?, secret?, hafter.secrets, Command.secretsAfter, record?_erase,
      if_neg hother]
  · obtain ⟨secrets, hall⟩ := h.secrets.exists_all
    have hall' : all Secret.layout l'.secrets = .ok (secrets.filter fun s => s.name ≠ secret) := by
      rw [hafter.secrets]
      exact h.all_erase_secret hall secret
    refine ⟨_, h.listSecrets_eq_ok hws hall, ?_⟩
    rw [h'.listSecrets_eq_ok hws' hall', List.filter_map]
    refine congrArg _ (List.map_congr_left fun s hs => ?_)
    have hname : s.name ≠ secret := of_decide_eq_true (List.mem_filter.1 hs).2
    rw [summary, summary, List.filter_filter]
    refine congrArg _ (congrArg _ (List.filter_congr fun x _ => ?_))
    by_cases hx : x.2.secret = s.name
    · simp [hx, hname]
    · simp [hx]
  · exact of_decide_eq_true (List.mem_filter.1 hx).2
  · rintro now caller new rfl hpayload hsuper hcreator
    have hdelete := of_changed_eq_ok hok
    rw [Ledger.deleteSecret] at hdelete
    obtain ⟨-, -, hdelete⟩ := of_bind_eq_ok hdelete
    obtain ⟨_, hthere, -⟩ := of_bind_eq_ok hdelete
    obtain ⟨hname, hreserved⟩ := h.accepted_of_has (of_require_eq_ok hthere)
    refine exists_createSecret hname hreserved ?_ hpayload hsuper hcreator
    rw [hafter.secrets, Command.secretsAfter, has_erase]
    simp
  · rintro cs now caller new a l'' rfl hcreate
    exact (intact_run h' cs).scanWraps_of_createSecret hcreate

end Ledger

open Ledger in
/-- **Deletions cascade exactly.**  In every ledger that a run can reach: when a group is deleted,
its members are in the default group without a group key and keep what is wrapped for themselves,
and nobody else loses anything; when a principal is deleted, nobody else loses anything; and in both
cases the list of secrets loses this one recipient.  When a secret is deleted, everybody loses just
what it gave them, the list loses just its entry, and no wrap of it is left; it can be created anew,
and then it has the wraps of the new creation only. -/
theorem deletions_cascade (cs : List Command) :
    let l := (run Ledger.execute .empty cs).2
    (∀ group a l', l.execute (.deleteGroup group) = .ok (a, l') → GroupGone group l l') ∧
      (∀ principal a l', l.execute (.deletePrincipal principal) = .ok (a, l') →
        PrincipalGone principal l l') ∧
      ∀ secret a l', l.execute (.deleteSecret secret) = .ok (a, l') → SecretGone secret l l' := by
  intro l
  have h : l.Intact := intact_run .empty cs
  exact ⟨fun _ _ _ hok => h.groupGone hok, fun _ _ _ hok => h.principalGone hok,
    fun _ _ _ hok => h.secretGone hok⟩

/-- A principal has two wraps of a secret, and its group has one more. -/
def sampleTeamwork : List Command :=
  sampleRun.take 4 ++
    [.createGroup leapDay "team" .client (List.replicate 32 3) [7],
      .reassignPrincipal "ann" "team" (some [8]), .assignToGroup leapDay "db" "team" [9] none]

theorem Ledger.exists_of_isOk {l : Ledger} {c : Command} (h : (l.execute c).isOk = true) :
    ∃ a, l.execute c = .ok (a, (attempt Ledger.execute l c).2) := by
  cases hc : l.execute c with
  | ok x => exact ⟨x.1, by rw [attempt_of_ok hc]⟩
  | error e =>
    rw [hc] at h
    cases h

open Ledger in
theorem deletions_cascade_sampleTeamwork :
    let l := (run Ledger.execute .empty sampleTeamwork).2
    let after := fun c => (attempt Ledger.execute l c).2
    (l.fetchAccessible "ann").map List.length = .ok 3 ∧
      ((after (.deleteGroup "team")).fetchAccessible "ann").map List.length = .ok 2 ∧
      GroupGone "team" l (after (.deleteGroup "team")) ∧
      PrincipalGone "ann" l (after (.deletePrincipal "ann")) ∧
      SecretGone "db" l (after (.deleteSecret "db")) := by
  intro l after
  have hbefore : (l.fetchAccessible "ann").map List.length = .ok 3 ∧
      ((after (.deleteGroup "team")).fetchAccessible "ann").map List.length = .ok 2 := by
    decide +kernel
  have hok : (l.execute (.deleteGroup "team")).isOk = true ∧
      (l.execute (.deletePrincipal "ann")).isOk = true ∧
      (l.execute (.deleteSecret "db")).isOk = true := by
    decide +kernel
  obtain ⟨hgroup, hprincipal, hsecret⟩ := deletions_cascade sampleTeamwork
  obtain ⟨a, hteam⟩ := exists_of_isOk hok.1
  obtain ⟨b, hann⟩ := exists_of_isOk hok.2.1
  obtain ⟨c, hdb⟩ := exists_of_isOk hok.2.2
  exact ⟨hbefore.1, hbefore.2, hgroup _ _ _ hteam, hprincipal _ _ _ hann, hsecret _ _ _ hdb⟩

end Strongroom
