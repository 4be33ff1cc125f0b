import Strongroom.Proofs.Ledger.Alike
import Strongroom.Proofs.Ledger.Readable

/-!
# Operations do not tell alike ledgers apart

On two ledgers that are alike for an audience every operation has the same outcome (`Matches`): the
same error, or results that show the same, and ledgers that are alike again.  For the operations
that write this is so whatever the audience is, because no condition of theirs looks at what clients
have sealed.  What an identity gets of the secrets (`AlikeFor.accessible_eq`) is another matter, for
it gets payloads and sealed keys.  Here the audience has to be the identity itself in the present
ledger: a wrap that it can open is meant for it, and the secret of such a wrap is one that it can
read (`AlikeFor.reads_of_opens`), so all that it gets is equal in both ledgers.
-/

namespace Strongroom

/-! ### What is shown -/

namespace Audience

variable {v : Audience}

theorem of_showPrincipal_eq {p q : Principal} (h : v.showPrincipal p = v.showPrincipal q) :
    p.name = q.name ∧ p.kind = q.kind ∧ p.publicKey = q.publicKey ∧ p.group = q.group ∧
      (p.name = v.name → p.sealedGroupKey = q.sealedGroupKey) ∧ p.createdAt = q.createdAt := by
  obtain ⟨name, kind, publicKey, group, sealedGroupKey, passwordHash, createdAt⟩ := p
  obtain ⟨name', kind', publicKey', group', sealedGroupKey', passwordHash', createdAt'⟩ := q
  simp only [showPrincipal, Principal.mk.injEq] at h
  obtain ⟨rfl, rfl, rfl, rfl, hkey, -, rfl⟩ := h
  refine ⟨rfl, rfl, rfl, rfl, fun (hname : name = v.name) => ?_, rfl⟩
  rwa [if_pos hname, if_pos hname] at hkey

/-- Moving two principals that show the same. -/
theorem showPrincipal_moved {p q : Principal} (h : v.showPrincipal p = v.showPrincipal q)
    (group : String) (sealedGroupKey : Option Bytes) :
    v.showPrincipal { p with group, sealedGroupKey } =
      v.showPrincipal { q with group, sealedGroupKey } := by
  obtain ⟨hname, hkind, hkey, -, -, hcreated⟩ := of_showPrincipal_eq h
  simp only [showPrincipal, hname, hkind, hkey, hcreated]

theorem of_showGroup_eq {g f : Group} (h : v.showGroup g = v.showGroup f) :
    g.name = f.name ∧ g.kind = f.kind ∧ g.publicKey = f.publicKey ∧
      (v.superuser = true → g.sealedPrivateKey = f.sealedPrivateKey) ∧ g.builtin = f.builtin ∧
      g.createdAt = f.createdAt := by
  obtain ⟨name, kind, publicKey, sealedPrivateKey, builtin, createdAt⟩ := g
  obtain ⟨name', kind', publicKey', sealedPrivateKey', builtin', createdAt'⟩ := f
  simp only [showGroup, Group.mk.injEq] at h
  obtain ⟨rfl, rfl, rfl, hkey, rfl, rfl⟩ := h
  refine ⟨rfl, rfl, rfl, fun hsuper => ?_, rfl, rfl⟩
  rwa [if_pos hsuper, if_pos hsuper] at hkey

theorem of_showSecret_eq {s t : Secret} (h : v.showSecret s = v.showSecret t) :
    s.name = t.name ∧ s.createdBy = t.createdBy ∧ s.createdAt = t.createdAt ∧
      (v.reads s.name = true → s = t) := by
  obtain ⟨name, payload, createdBy, createdAt⟩ := s
  obtain ⟨name', payload', createdBy', createdAt'⟩ := t
  simp only [showSecret, Secret.mk.injEq] at h
  obtain ⟨rfl, hpayload, rfl, rfl⟩ := h
  refine ⟨rfl, rfl, rfl, fun (hreads : v.reads name = true) => ?_⟩
  rw [if_pos hreads, if_pos hreads] at hpayload
  rw [hpayload]

theorem showWrap_kept (w : Wrap) : (v.showWrap w).secret = w.secret ∧
    (v.showWrap w).recipient = w.recipient ∧ (v.showWrap w).createdAt = w.createdAt := by
  rw [showWrap]
  split
  · exact ⟨rfl, rfl, rfl⟩
  · exact ⟨rfl, rfl, rfl⟩

theorem of_showWrap_eq {a b : Wrap} (h : v.showWrap a = v.showWrap b) :
    a.secret = b.secret ∧ a.recipient = b.recipient ∧ a.createdAt = b.createdAt ∧
      (v.receives a.recipient = true → a = b) := by
  obtain ⟨hsecret, hrecipient, hcreated⟩ := showWrap_kept (v := v) a
  obtain ⟨hsecret', hrecipient', hcreated'⟩ := showWrap_kept (v := v) b
  rw [h] at hsecret hrecipient hcreated
  refine ⟨hsecret.symm.trans hsecret', hrecipient.symm.trans hrecipient',
    hcreated.symm.trans hcreated', fun hreceives => ?_⟩
  have hreceives' : v.receives b.recipient = true := by
    rwa [← hrecipient', hrecipient]
  rwa [showWrap, if_pos hreceives, showWrap, if_pos hreceives'] at h

/-! ### Audiences within others -/

namespace Within

variable {u : Audience}

theorem refl (v : Audience) : v.Within v :=
  ⟨rfl, id, fun _ => id, fun _ => id⟩

theorem showPrincipal_eq (hu : u.Within v) {p q : Principal}
    (h : v.showPrincipal p = v.showPrincipal q) : u.showPrincipal p = u.showPrincipal q := by
  obtain ⟨hname, hkind, hkey, hgroup, hsealed, hcreated⟩ := of_showPrincipal_eq h
  simp only [showPrincipal, ← hname, hkind, hkey, hgroup, hcreated]
  by_cases hp : p.name = u.name
  · rw [if_pos hp, if_pos hp, hsealed (hp.trans hu.name)]
  · rw [if_neg hp, if_neg hp]

theorem showGroup_eq (hu : u.Within v) {g f : Group} (h : v.showGroup g = v.showGroup f) :
    u.showGroup g = u.showGroup f := by
  obtain ⟨hname, hkind, hkey, hsealed, hbuiltin, hcreated⟩ := of_showGroup_eq h
  simp only [showGroup, hname, hkind, hkey, hbuiltin, hcreated]
  by_cases hsuper : u.superuser = true
  · rw [if_pos hsuper, if_pos hsuper, hsealed (hu.superuser hsuper)]
  · rw [if_neg hsuper, if_neg hsuper]

theorem showSecret_eq (hu : u.Within v) {s t : Secret} (h : v.showSecret s = v.showSecret t) :
    u.showSecret s = u.showSecret t := by
  obtain ⟨hname, hcreator, hcreated, hreads⟩ := of_showSecret_eq h
  simp only [showSecret, ← hname, hcreator, hcreated]
  by_cases hs : u.reads s.name = true
  · rw [if_pos hs, if_pos hs, hreads (hu.reads _ hs)]
  · rw [if_neg hs, if_neg hs]

theorem showWrap_eq (hu : u.Within v) {a b : Wrap} (h : v.showWrap a = v.showWrap b) :
    u.showWrap a = u.showWrap b := by
  obtain ⟨hsecret, hrecipient, hcreated, hreceives⟩ := of_showWrap_eq h
  rw [showWrap, showWrap, ← hrecipient]
  by_cases ha : u.receives a.recipient = true
  · rw [if_pos ha, if_pos ha, hreceives (hu.receives _ ha)]
  · rw [if_neg ha, if_neg ha, hsecret, hcreated]

end Within

end Audience

/-- Filtering two lists, pair by pair, where what passes the test is equal. -/
theorem filter_eq_of_forall₂ {α : Type} {R : α → α → Prop} {p q : α → Bool} {xs ys : List α}
    (h : List.Forall₂ R xs ys) (hpq : ∀ x y, R x y → p x = q y)
    (heq : ∀ x y, R x y → p x = true → x = y) : xs.filter p = ys.filter q := by
  induction h with
  | nil => rfl
  | @cons x y xs ys hxy _ ih =>
    rw [List.filter_cons, List.filter_cons, ← hpq x y hxy, ih]
    by_cases hp : p x = true
    · rw [if_pos hp, if_pos hp, heq x y hxy hp]
    · rw [if_neg hp, if_neg hp]

namespace Ledger.AlikeFor

variable {v : Audience} {l l' : Ledger}

/-! ### Reading -/

/-- Who sees less cannot tell more ledgers apart. -/
theorem mono (h : l.AlikeFor v l') {u : Audience} (hu : u.Within v) : l.AlikeFor u l' where
  principals := h.principals.mono rfl rfl fun _ _ => hu.showPrincipal_eq
  groups := h.groups.mono rfl rfl fun _ _ => hu.showGroup_eq
  secrets := h.secrets.mono rfl rfl fun _ _ => hu.showSecret_eq
  wraps := h.wraps.mono rfl rfl fun _ _ => hu.showWrap_eq
  counters := h.counters

theorem lastWrap_eq (h : l.AlikeFor v l') : l.lastWrap = l'.lastWrap := by
  rw [lastWrap, lastWrap, h.counters]

theorem checkRecipient_eq (h : l.AlikeFor v l') (r : Recipient) :
    l.checkRecipient r = l'.checkRecipient r := by
  cases r with
  | principal name => simp only [checkRecipient, h.principals.has_eq]
  | group name => simp only [checkRecipient, h.groups.has_eq]

/-- The scans for wraps find the same wraps, as far as they are shown. -/
theorem scanWraps (h : l.AlikeFor v l') (secret : Option String) :
    ∃ ws ws', l.scanWraps secret = .ok ws ∧ l'.scanWraps secret = .ok ws' ∧
      List.Forall₂ (fun x y => x.1 = y.1 ∧ v.wraps.Same x.1 x.2 y.2) ws ws' := by
  have hrows : List.Forall₂ v.wraps.SameRow (l.wrapRows secret) (l'.wrapRows secret) := by
    cases secret with
    | none => exact h.wraps
    | some s => exact List.rel_filter (fun x y hxy => by simp only [hxy.1]) h.wraps
  obtain ⟨as, bs, has, hbs, hall⟩ := forall₂_mapM
    (S := fun x y => x.1 = y.1 ∧ v.wraps.Same x.1 x.2 y.2)
    (f := fun x => (decode Wrap.layout x.2).map (x.1, ·))
    (g := fun x => (decode Wrap.layout x.2).map (x.1, ·)) hrows
    fun x y ⟨hkey, a, b, ha, hb, hsame⟩ =>
      ⟨(x.1, a), (y.1, b), congrArg (·.map (x.1, ·)) ha, congrArg (·.map (y.1, ·)) hb, hkey, hsame⟩
  refine ⟨as.filter fun x => secret.all (x.2.secret = ·),
    bs.filter fun x => secret.all (x.2.secret = ·), ?_, ?_, ?_⟩
  · show ((l.wrapRows secret).mapM _ >>= _) = _
    rw [has]
    rfl
  · show ((l'.wrapRows secret).mapM _ >>= _) = _
    rw [hbs]
    rfl
  · refine List.rel_filter (fun x y hxy => ?_) hall
    simp only [(Audience.of_showWrap_eq hxy.2.shows).1]

theorem listSecrets_eq (h : l.AlikeFor v l') : l.listSecrets = l'.listSecrets := by
  obtain ⟨as, bs, has, hbs, hall⟩ := h.secrets.all
  rw [listSecrets, listSecrets]
  show (all v.secrets.layout l.secrets >>= _) = (all v.secrets.layout l'.secrets >>= _)
  rw [has, hbs]
  refine mapM_eq_of_forall₂ hall fun a b hsame => ?_
  obtain ⟨_, hab, -⟩ := hsame
  obtain ⟨hname, hcreator, -, -⟩ := Audience.of_showSecret_eq hab.shows
  obtain ⟨ws, ws', hws, hws', hwraps⟩ := h.scanWraps (some a.name)
  have hrecipients : ws.map (·.2.recipient) = ws'.map (·.2.recipient) :=
    map_eq_of_forall₂ hwraps fun x y hxy => (Audience.of_showWrap_eq hxy.2.shows).2.1
  rw [← hname, ← hcreator, hws, hws']
  simp only [bind, Except.bind, hrecipients]

/-! ### What an identity gets -/

/-- What an identity can open is meant for it. -/
theorem receives_of_opens {i : Identity} {p : Principal} {r : Recipient}
    (hp : l.getPrincipal i.name = .ok p) (hname : p.name = i.name) (hopens : p.opens r = true) :
    (l.audience i).receives r = true := by
  rw [Principal.opens_iff] at hopens
  rcases hopens with rfl | ⟨rfl, hgroup⟩
  · simp [Audience.receives, audience, hname]
  · simp [Audience.receives, audience, hp, hgroup]

/-- What a principal can open, once it has been read, the secret is there, and the wraps have been
found. -/
theorem accessible_of_scanWraps {name : String} {secret : Option String} {p : Principal}
    {ws : List (Bytes × Wrap)} (hp : l.getPrincipal name = .ok p)
    (hthere : ∀ n, secret = some n → has l.secrets n = true) (hws : l.scanWraps secret = .ok ws) :
    l.accessible name secret = ((ws.filter fun x => p.opens x.2.recipient).mapM fun x =>
      l.accessThrough x.2).map (·.filterMap id) := by
  have hmap : ∀ x : Except Error (List (Option AccessibleSecret)),
      (x >>= fun found => .ok (found.filterMap id)) = x.map (·.filterMap id) := by
    intro x
    cases x with
    | ok found => rfl
    | error e => rfl
  rw [getPrincipal] at hp
  rw [accessible, hp]
  cases secret with
  | none =>
    show (l.scanWraps none >>= _) = _
    rw [hws]
    exact hmap _
  | some n =>
    show (require (has l.secrets n) _ >>= fun _ => l.scanWraps (some n) >>= _) = _
    rw [hthere n rfl, hws]
    exact hmap _

/-- An identity that can open a wrap of a secret can read the secret. -/
theorem reads_of_opens (h : l.AlikeFor v l') {name : String} {p : Principal}
    {secret : Option String} {ws : List (Bytes × Wrap)} {x : Bytes × Wrap}
    (hp : l.getPrincipal name = .ok p) (hws : l.scanWraps secret = .ok ws) (hx : x ∈ ws)
    (hopens : p.opens x.2.recipient = true) (hthere : has l.secrets x.2.secret = true) :
    l.canRead name x.2.secret = .ok true := by
  -- the scan for the secret finds the wrap as well
  obtain ⟨ws', hws'⟩ := exists_scanWraps h.wraps.sound (some x.2.secret)
  have hx' : x ∈ ws' := by
    obtain ⟨⟨row, hrow, hkey, hw⟩, -⟩ := (mem_scanWraps_iff hws).1 hx
    have hstands : x.2.standsAt x.1 := fits_of_mem_scanWraps h.wraps.sound hws hx
    exact (mem_scanWraps_iff hws').2 ⟨⟨row, mem_wrapRows (wrapRows_subset _ _ hrow)
      (hkey ▸ hstands) (by simp), hkey, hw⟩, by simp⟩
  have hthrough : ∀ y ∈ ws'.filter (fun y => p.opens y.2.recipient),
      ∃ a, l.accessThrough y.2 = .ok (some a) := by
    intro y hy
    have hsecret : y.2.secret = x.2.secret := by
      simpa using ((mem_scanWraps_iff hws').1 (List.mem_of_mem_filter hy)).2
    exact exists_accessThrough h.secrets.sound (hsecret ▸ hthere)
  obtain ⟨found, hfound⟩ := exists_mapM_eq_ok fun y hy =>
    (hthrough y hy).imp' some fun _ ha => ha
  have hopened : x ∈ ws'.filter fun y => p.opens y.2.recipient :=
    List.mem_filter.2 ⟨hx', hopens⟩
  obtain ⟨a, ha⟩ := hthrough x hopened
  have hmem : a ∈ found.filterMap id :=
    List.mem_filterMap.2 ⟨some a, (mem_of_mapM_eq_ok hfound).2 ⟨x, hopened, ha⟩, rfl⟩
  have hnone : (found.filterMap id).isEmpty = false :=
    List.isEmpty_eq_false_iff.2 (List.ne_nil_of_mem hmem)
  rw [canRead, fetchSecret, accessible_of_scanWraps hp (fun n hn => by cases hn; exact hthere) hws',
    hfound]
  show Except.ok (!(found.filterMap id).isEmpty) = _
  rw [hnone]
  rfl

/-- A wrap of a secret that the audience can read, if it is there, leads to the same in both
ledgers. -/
theorem accessThrough_eq (h : l.AlikeFor v l') {w : Wrap}
    (hreads : has l.secrets w.secret = true → v.reads w.secret = true) :
    l.accessThrough w = l'.accessThrough w := by
  rw [accessThrough, accessThrough]
  refine (h.secrets.row? w.secret).bind_eq fun found found' hfound hsame => ?_
  cases hsame with
  | none => rfl
  | @some s s' hsame =>
    obtain ⟨-, -, -, heq⟩ := Audience.of_showSecret_eq hsame.1.shows
    have hname : w.secret = s.name := utf8_inj.1 hsame.1.stands
    rw [heq (hname ▸ hreads (has_of_row?_eq_ok hfound))]

/-- **What an identity gets of the secrets is the same in both ledgers.** -/
theorem accessible_eq {i : Identity} (h : l.AlikeFor (l.audience i) l') (secret : Option String) :
    l.accessible i.name secret = l'.accessible i.name secret := by
  rw [accessible, accessible]
  refine (h.principals.row i.name (.principal i.name)).bind_eq fun p p' hp hsame => ?_
  obtain ⟨hname, -, -, hgroup, -, -⟩ := Audience.of_showPrincipal_eq hsame.1.shows
  have hcaller : p.name = i.name := (utf8_inj.1 hsame.1.stands).symm
  obtain ⟨ws, ws', hws, hws', hall⟩ := h.scanWraps secret
  -- both principals open the same wraps, and what they open is meant for the identity
  have hopened : (ws.filter fun x => p.opens x.2.recipient) =
      ws'.filter fun x => p'.opens x.2.recipient := by
    refine filter_eq_of_forall₂ hall (fun x y hxy => ?_) fun x y hxy hopens => ?_
    · obtain ⟨-, hrecipient, -, -⟩ := Audience.of_showWrap_eq hxy.2.shows
      simp only [Principal.opens, hname, hgroup, hrecipient]
    · obtain ⟨-, -, -, heq⟩ := Audience.of_showWrap_eq hxy.2.shows
      exact Prod.ext hxy.1 (heq (receives_of_opens hp hcaller hopens))
  -- behind a wrap that is opened there is no secret, or one that the identity can read
  have hthrough : ((ws.filter fun x => p.opens x.2.recipient).mapM fun x => l.accessThrough x.2) =
      (ws'.filter fun x => p'.opens x.2.recipient).mapM fun x => l'.accessThrough x.2 := by
    rw [← hopened]
    refine mapM_eq_of_forall₂ (List.forall₂_same.2 fun x hx => ?_) fun _ _ heq => heq
    obtain ⟨hx, hopens⟩ := List.mem_filter.1 hx
    exact h.accessThrough_eq fun hthere =>
      decide_eq_true (h.reads_of_opens hp hws hx hopens hthere)
  have hfound : (l.scanWraps secret >>= fun ws =>
      ((ws.filter fun x => p.opens x.2.recipient).mapM fun x => l.accessThrough x.2) >>=
        fun found => Except.ok (found.filterMap id)) =
      (l'.scanWraps secret >>= fun ws =>
      ((ws.filter fun x => p'.opens x.2.recipient).mapM fun x => l'.accessThrough x.2) >>=
        fun found => Except.ok (found.filterMap id)) := by
    rw [hws, hws']
    exact congrArg (· >>= fun found => Except.ok (found.filterMap id)) hthrough
  cases secret with
  | none => exact hfound
  | some n =>
    show (require (has l.secrets n) _ >>= fun _ => _) =
      (require (has l'.secrets n) _ >>= fun _ => _)
    rw [h.secrets.has_eq]
    exact congrArg (_ >>= fun _ => ·) hfound

theorem canRead_eq {i : Identity} (h : l.AlikeFor (l.audience i) l') (secret : String) :
    l.canRead i.name secret = l'.canRead i.name secret := by
  rw [canRead, canRead, fetchSecret, fetchSecret, h.accessible_eq]

/-! ### Writing -/

/-- The same number of removed wraps, and ledgers that are alike. -/
abbrev SameCount (v : Audience) (x y : Nat × Ledger) : Prop :=
  x.1 = y.1 ∧ x.2.AlikeFor v y.2

theorem addWrap (h : l.AlikeFor v l') {w : Wrap} (hvalid : w.createdAt.IsValid) :
    (l.addWrap w).AlikeFor v (l'.addWrap w) where
  principals := h.principals
  groups := h.groups
  secrets := h.secrets
  wraps := by
    simp only [Ledger.addWrap, ← h.lastWrap_eq]
    exact h.wraps.insert (RowView.sameRow_self (Wrap.decode_toJson hvalid) (w.standsAt_wrapKey _))
  counters := by
    simp only [Ledger.addWrap, ← h.lastWrap_eq, h.counters]

/-- Removing wraps by a test that looks at nothing that is sealed. -/
theorem removeWraps (h : l.AlikeFor v l') (secret : Option String) {remove : Wrap → Bool}
    (hremove : ∀ a b : Wrap, a.secret = b.secret → a.recipient = b.recipient →
      remove a = remove b) :
    Matches (SameCount v) (l.removeWraps secret remove) (l'.removeWraps secret remove) := by
  obtain ⟨ws, ws', hws, hws', hall⟩ := h.scanWraps secret
  have hkeys : (ws.filter fun x => remove x.2).map (·.1) =
      (ws'.filter fun x => remove x.2).map (·.1) := by
    refine map_eq_of_forall₂ (List.rel_filter (fun x y hxy => ?_) hall) fun _ _ hxy => hxy.1
    obtain ⟨hsecret, hrecipient, -, -⟩ := Audience.of_showWrap_eq hxy.2.shows
    simp only [hremove _ _ hsecret hrecipient]
  rw [Ledger.removeWraps, Ledger.removeWraps, hws, hws']
  refine .ok ⟨congrArg List.length hkeys, ?_⟩
  show AlikeFor v { l with wraps := l.wraps.eraseAll _ } { l' with wraps := l'.wraps.eraseAll _ }
  rw [hkeys]
  exact { h with wraps := h.wraps.eraseAll _ }

theorem registerPrincipal (h : l.AlikeFor v l') {now : Timestamp} (hnow : now.IsValid)
    (new : NewPrincipal) :
    Matches (AlikeFor v) (l.registerPrincipal now new) (l'.registerPrincipal now new) := by
  rw [Ledger.registerPrincipal, Ledger.registerPrincipal, h.principals.has_eq]
  refine .check fun _ _ => .check fun _ _ => .check fun _ _ => .check fun _ _ => .ok ?_
  exact { h with
    principals := h.principals.insert (RowView.sameRow_self (Principal.decode_toJson hnow) rfl) }

theorem createGroup (h : l.AlikeFor v l') {now : Timestamp} (hnow : now.IsValid) (name : String)
    (kind : Role) (publicKey sealedPrivateKey : Bytes) :
    Matches (AlikeFor v) (l.createGroup now name kind publicKey sealedPrivateKey)
      (l'.createGroup now name kind publicKey sealedPrivateKey) := by
  rw [Ledger.createGroup, Ledger.createGroup, h.groups.has_eq]
  refine .check fun _ _ => .check fun _ _ => .check fun _ _ => .check fun _ _ => .ok ?_
  exact { h with
    groups := h.groups.insert (RowView.sameRow_self (Group.decode_toJson hnow) rfl) }

theorem createSecret (h : l.AlikeFor v l') {now : Timestamp} (hnow : now.IsValid)
    (caller : Identity) (new : NewSecret) :
    Matches (AlikeFor v) (l.createSecret now caller new) (l'.createSecret now caller new) := by
  rw [Ledger.createSecret, Ledger.createSecret, h.secrets.has_eq]
  refine .check fun _ _ => .check fun _ _ => .check fun _ _ => .check fun _ _ => .check fun _ _ =>
    .check fun _ _ => ?_
  let secret : Secret := ⟨new.name, new.payload, caller.name, now⟩
  have hadded : AlikeFor v
      { l with secrets := l.secrets.insert (utf8 new.name) secret.toJson }
      { l' with secrets := l'.secrets.insert (utf8 new.name) secret.toJson } :=
    { h with secrets := h.secrets.insert (RowView.sameRow_self (Secret.decode_toJson hnow) rfl) }
  have hwrapped := hadded.addWrap (w := ⟨new.name, .group superGroup, new.superKey, new.path, now⟩)
    hnow
  split
  · exact .ok hwrapped
  · exact .ok (hwrapped.addWrap hnow)

theorem grant (h : l.AlikeFor v l') {now : Timestamp} (hnow : now.IsValid) (secret : String)
    (recipient : Recipient) (sealedKey : Bytes) (path : Option String) :
    Matches (AlikeFor v) (l.grant now secret recipient sealedKey path)
      (l'.grant now secret recipient sealedKey path) := by
  rw [Ledger.grant, Ledger.grant, h.secrets.has_eq, h.checkRecipient_eq]
  exact .check fun _ _ => .check fun _ _ => .check fun _ _ => .ok (h.addWrap hnow)

theorem assignToGroup (h : l.AlikeFor v l') {now : Timestamp} (hnow : now.IsValid)
    (secret group : String) (sealedKey : Bytes) (path : Option String) :
    Matches (AlikeFor v) (l.assignToGroup now secret group sealedKey path)
      (l'.assignToGroup now secret group sealedKey path) :=
  .check fun _ _ => h.grant hnow secret (.group group) sealedKey path

theorem revoke (h : l.AlikeFor v l') (secret : String) (recipient : Recipient) :
    Matches (SameCount v) (l.revoke secret recipient) (l'.revoke secret recipient) := by
  rw [Ledger.revoke, Ledger.revoke, h.secrets.has_eq]
  refine .check fun _ _ => .check fun _ _ => ?_
  refine (h.removeWraps (some secret) fun a b hsecret hrecipient => ?_).bind fun x y hxy => ?_
  · simp only [hsecret, hrecipient]
  · obtain ⟨n, m⟩ := x
    obtain ⟨n', m'⟩ := y
    obtain ⟨rfl, hm⟩ := hxy
    exact .check fun _ _ => .ok ⟨rfl, hm⟩

theorem revokeFromGroup (h : l.AlikeFor v l') (secret group : String) :
    Matches (SameCount v) (l.revokeFromGroup secret group) (l'.revokeFromGroup secret group) :=
  .check fun _ _ => h.revoke secret (.group group)

theorem deleteSecret (h : l.AlikeFor v l') (name : String) :
    Matches (AlikeFor v) (l.deleteSecret name) (l'.deleteSecret name) := by
  rw [Ledger.deleteSecret, Ledger.deleteSecret, h.secrets.has_eq]
  refine .check fun _ _ => .check fun _ _ => ?_
  refine (h.removeWraps (some name) fun _ _ _ _ => rfl).bind fun x y hxy => .ok ?_
  exact { hxy.2 with secrets := hxy.2.secrets.erase _ }

theorem deletePrincipal (h : l.AlikeFor v l') (name : String) :
    Matches (AlikeFor v) (l.deletePrincipal name) (l'.deletePrincipal name) := by
  rw [Ledger.deletePrincipal, Ledger.deletePrincipal, h.principals.has_eq]
  refine .check fun _ _ => ?_
  have herased : AlikeFor v { l with principals := l.principals.erase (utf8 name) }
      { l' with principals := l'.principals.erase (utf8 name) } :=
    { h with principals := h.principals.erase _ }
  refine (herased.removeWraps none fun a b _ hrecipient => ?_).bind fun x y hxy => .ok hxy.2
  simp only [hrecipient]

/-- A row that is written with a principal who has moved, in both ledgers. -/
theorem sameRow_moved {key : Bytes} {p q : Principal} (h : v.principals.SameRead key p q)
    (group : String) (sealedGroupKey : Option Bytes) :
    v.principals.SameRow
      (key, { p with group, sealedGroupKey : Principal }.toJson)
      (key, { q with group, sealedGroupKey : Principal }.toJson) := by
  obtain ⟨hsame, ⟨row, hp⟩, row', hq⟩ := h
  have hvalid : p.createdAt.IsValid := Principal.isValid_of_decode hp
  have hvalid' : q.createdAt.IsValid := Principal.isValid_of_decode hq
  exact RowView.sameRow_of_same (Principal.decode_toJson hvalid) (Principal.decode_toJson hvalid')
    ⟨hsame.stands, hsame.stands', Audience.showPrincipal_moved hsame.shows _ _⟩

theorem reassignPrincipal (h : l.AlikeFor v l') (principal group : String)
    (sealedGroupKey : Option Bytes) :
    Matches (AlikeFor v) (l.reassignPrincipal principal group sealedGroupKey)
      (l'.reassignPrincipal principal group sealedGroupKey) := by
  rw [Ledger.reassignPrincipal, Ledger.reassignPrincipal, h.groups.has_eq]
  refine .check fun _ _ => .check fun _ _ => ?_
  refine (h.principals.row principal (.principal principal)).bind fun p q hsame => .ok ?_
  exact { h with principals := h.principals.insert (sameRow_moved hsame _ _) }

/-- Writing the rows of members again, in both tables, with the members back in the default
group. -/
theorem moveMembers {ps qs : List Principal} {t t' : Table Bytes Bytes}
    (hall : List.Forall₂ (fun p q => ∃ key, v.principals.SameRead key p q) ps qs)
    (h : v.principals.Alike t t') :
    v.principals.Alike
      (ps.foldl (fun table p => table.insert (utf8 p.name) (inDefaultGroup p).toJson) t)
      (qs.foldl (fun table p => table.insert (utf8 p.name) (inDefaultGroup p).toJson) t') := by
  induction hall generalizing t t' with
  | nil => exact h
  | @cons p q ps qs hpq _ ih =>
    obtain ⟨key, hsame⟩ := hpq
    obtain rfl : key = utf8 p.name := hsame.1.stands
    have hname : utf8 p.name = utf8 q.name := hsame.1.stands'
    refine ih ?_
    simp only [← hname]
    exact h.insert (sameRow_moved hsame defaultGroup none)

theorem deleteGroup (h : l.AlikeFor v l') (name : String) :
    Matches (AlikeFor v) (l.deleteGroup name) (l'.deleteGroup name) := by
  rw [Ledger.deleteGroup, Ledger.deleteGroup, h.groups.has_eq]
  refine .check fun _ _ => .check fun _ _ => ?_
  have herased : AlikeFor v { l with groups := l.groups.erase (utf8 name) }
      { l' with groups := l'.groups.erase (utf8 name) } :=
    { h with groups := h.groups.erase _ }
  refine (herased.removeWraps none fun a b _ hrecipient => ?_).bind fun x y hxy => ?_
  · simp only [hrecipient]
  · obtain ⟨ps, qs, hps, hqs, hall⟩ := hxy.2.principals.all
    have hmembers := List.rel_filter (p := fun p : Principal => p.group = name)
      (q := fun p : Principal => p.group = name) (fun p q hpq => by
        obtain ⟨_, hsame, -⟩ := hpq
        simp only [(Audience.of_showPrincipal_eq hsame.shows).2.2.2.1]) hall
    change all Principal.layout x.2.principals = .ok ps at hps
    change all Principal.layout y.2.principals = .ok qs at hqs
    simp only [hps, hqs]
    exact .ok { hxy.2 with principals := moveMembers hmembers hxy.2.principals }

end Ledger.AlikeFor

end Strongroom
