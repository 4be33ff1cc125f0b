import Strongroom.Proofs.Ledger.Command
import Strongroom.Proofs.Ledger.Represents

/-!
# The ledger answers as the plain ledger does

Every operation, run on a ledger and on the plain ledger that it represents, has one outcome
(`Matches`): both fail with the same error and change nothing, or both succeed with the same answer
and in states of which one represents the other.  The one proviso is that the counter of wraps does
not come round to zero.  By induction a whole run gives the same replies on both sides
(`run_eq_run_plain`).
-/

namespace Strongroom

/-! ### Outcomes -/

/-- Two outcomes match: both succeed, with related results, or both fail with the same error. -/
inductive Matches {ε α β : Type} (R : α → β → Prop) : Except ε α → Except ε β → Prop where
  | ok {a : α} {b : β} (h : R a b) : Matches R (.ok a) (.ok b)
  | error (e : ε) : Matches R (.error e) (.error e)

namespace Matches

variable {ε α β γ δ : Type} {R : α → β → Prop} {S : γ → δ → Prop}

theorem of_eq {x y : Except ε α} (h : x = y) : Matches (· = ·) x y := by
  subst h
  cases x with
  | ok a => exact .ok rfl
  | error e => exact .error e

/-- Both sides make the same check and go on only if it is passed. -/
theorem check {x : Except ε α} {f : α → Except ε γ} {g : α → Except ε δ}
    (hfg : ∀ a, x = .ok a → Matches S (f a) (g a)) : Matches S (x >>= f) (x >>= g) := by
  cases x with
  | ok a => exact hfg a rfl
  | error e => exact .error e

theorem bind_eq {x : Except ε α} {y : Except ε β} {f : α → Except ε γ} {g : β → Except ε γ}
    (h : Matches R x y) (hfg : ∀ a b, x = .ok a → R a b → f a = g b) : (x >>= f) = (y >>= g) := by
  cases h with
  | ok h => exact hfg _ _ rfl h
  | error e => rfl

/-- Both sides go on with related results. -/
theorem bind {x : Except ε α} {y : Except ε β} {f : α → Except ε γ} {g : β → Except ε δ}
    (h : Matches R x y) (hfg : ∀ a b, R a b → Matches S (f a) (g b)) :
    Matches S (x >>= f) (y >>= g) := by
  cases h with
  | ok h => exact hfg _ _ h
  | error e => exact .error e

theorem map {x : Except ε α} {y : Except ε β} {f : α → γ} {g : β → δ}
    (h : Matches R x y) (hfg : ∀ a b, R a b → S (f a) (g b)) : Matches S (x.map f) (y.map g) := by
  cases h with
  | ok h => exact .ok (hfg _ _ h)
  | error e => exact .error e

end Matches

/-! ### Checks -/

theorem isNameChar_of_checkName {what name : String} {u : Unit}
    (h : Ledger.checkName what name = .ok u) : name.toList.all Ledger.isNameChar = true := by
  rw [Ledger.checkName, Ledger.require, Ledger.require] at h
  split at h
  · split at h
    · next hname =>
      rw [Bool.and_eq_true] at hname
      exact hname.2
    · cases h
  · cases h

theorem of_require_eq_ok {c : Bool} {e : Ledger.Error} {u : Unit}
    (h : Ledger.require c e = .ok u) : c = true := by
  rw [Ledger.require] at h
  split at h
  · next hc => exact hc
  · cases h

namespace Represents

variable {l : Ledger} {p : PlainLedger} {count : Nat}

/-! ### Writing -/

/-- **A wrap of a secret that is there is one more grant of it**, as long as the counter does not
come round. -/
theorem addWrap (h : Represents l p count) {w : Wrap} (hw : w.createdAt.IsValid) {e : PlainSecret}
    (he : p.secrets.find w.secret = some e) (hcount : count + 1 < 2 ^ 64) :
    Represents (l.addWrap w) { p with secrets := p.secrets.set w.secret (e.add w.grant) }
      (count + 1) := by
  have hnumber := h.toNat_nextWrap hcount
  obtain ⟨xs, hxs, hgrants⟩ := h.wraps
  obtain ⟨before, after, rfl, hadd, hafter⟩ := hxs.add hnumber hw
  refine { h with
    secrets := h.secrets.update he fun b hb => hb
    named := fun s hs => h.named_set (h.named_of_find he) _ hs
    counter := ?_
    wraps := ⟨_, hadd, fun s => ?_⟩ }
  · rw [Ledger.lastWrap, Ledger.addWrap, Table.get?_insert, if_pos rfl]
    exact hnumber
  · rw [grantsOf_insert hafter, hgrants, PlainLedger.grants_set]
    by_cases hs : s = w.secret
    · rw [if_pos hs, if_pos hs, hs, PlainLedger.grants_of_find_eq_some he]
      rfl
    · rw [if_neg hs, if_neg hs]

/-- Removing the wraps of a recipient drops the grants to it from all secrets. -/
theorem removeRecipient (h : Represents l p count) (r : Recipient) :
    ∃ n t, l.removeWraps none (fun wrap => wrap.recipient = r) = .ok (n, { l with wraps := t }) ∧
      Represents { l with wraps := t } { p with secrets := p.secrets.map (·.drop r) } count := by
  obtain ⟨xs, hxs, hgrants⟩ := h.wraps
  obtain ⟨t, ht, hholds⟩ := hxs.removeWraps none fun wrap => wrap.recipient = r
  refine ⟨_, t, ht, { h with
    secrets := h.secrets.map fun n b a hb => hb
    named := fun s hs => h.named s (by rwa [PlainLedger.has_map] at hs)
    wraps := ⟨_, hholds, fun s => ?_⟩ }⟩
  rw [PlainLedger.grants_drop, ← hgrants]
  refine grantsOf_filter fun x _ _ => ?_
  simp only [Option.all_none, Bool.and_true, decide_not]
  rfl

theorem registerPrincipal (h : Represents l p count) (now : Moment) (new : NewPrincipal) :
    Matches (Represents · · count) (l.registerPrincipal now.1 new)
      (p.registerPrincipal now.1 new) := by
  rw [Ledger.registerPrincipal, PlainLedger.registerPrincipal, h.principals.has_eq]
  refine .check fun _ _ => .check fun _ _ => .check fun _ _ => .check fun _ _ => .ok ?_
  exact { h with
    principals := h.principals.insert (Principal.decode_toJson now.2) ⟨rfl, rfl, now.2⟩ }

theorem createGroup (h : Represents l p count) (now : Moment) (name : String) (kind : Role)
    (publicKey sealedPrivateKey : Bytes) :
    Matches (Represents · · count) (l.createGroup now.1 name kind publicKey sealedPrivateKey)
      (p.createGroup now.1 name kind publicKey sealedPrivateKey) := by
  rw [Ledger.createGroup, PlainLedger.createGroup, h.groups.has_eq]
  refine .check fun _ _ => .check fun _ _ => .check fun _ _ => .check fun _ _ => .ok ?_
  exact { h with groups := h.groups.insert (Group.decode_toJson now.2) ⟨rfl, rfl, now.2⟩ }

theorem bootstrap (h : Represents l p count) (now : Moment) (setup : Bootstrap) :
    Matches (Represents · · count) (l.bootstrap now.1 setup) (p.bootstrap now.1 setup) := by
  obtain ⟨publicKey, sealedPrivateKey, admin⟩ := setup
  rw [Ledger.bootstrap, PlainLedger.bootstrap]
  refine .check fun _ _ => .check fun _ _ => ?_
  have hdefault := h.groups.addRow
    (Group.decode_toJson (g := ⟨defaultGroup, .client, [], [], true, now.1⟩) now.2)
    ⟨rfl, rfl, now.2⟩
  have hsuper := hdefault.addRow
    (Group.decode_toJson (g := ⟨superGroup, .admin, publicKey, sealedPrivateKey, true, now.1⟩)
      now.2)
    ⟨rfl, rfl, now.2⟩
  cases admin with
  | none => exact .ok { h with groups := hsuper }
  | some admin =>
    refine .check fun _ _ => .check fun _ _ => .ok ?_
    exact { h with
      groups := hsuper
      principals := h.principals.addRow (Principal.decode_toJson now.2) ⟨rfl, rfl, now.2⟩ }

theorem reassignPrincipal (h : Represents l p count) (principal group : String)
    (sealedGroupKey : Option Bytes) :
    Matches (Represents · · count) (l.reassignPrincipal principal group sealedGroupKey)
      (p.reassignPrincipal principal group sealedGroupKey) := by
  rw [Ledger.reassignPrincipal, PlainLedger.reassignPrincipal, h.groups.has_eq,
    h.principals.row_eq fun _ _ _ hs => hs.1]
  refine .check fun _ _ => .check fun _ _ => .check fun q hq => .ok ?_
  obtain ⟨-, -, -, -, -, hname, hvalid⟩ :=
    h.principals.present principal q (NameMap.find_of_get hq)
  exact { h with
    principals := h.principals.insert (Principal.decode_toJson hvalid) ⟨rfl, hname, hvalid⟩ }

theorem deletePrincipal (h : Represents l p count) (name : String) :
    Matches (Represents · · count) (l.deletePrincipal name) (p.deletePrincipal name) := by
  rw [Ledger.deletePrincipal, PlainLedger.deletePrincipal, h.principals.has_eq]
  refine .check fun _ _ => ?_
  have herased : Represents { l with principals := l.principals.erase (utf8 name) }
      { p with principals := p.principals.erase name } count :=
    { h with principals := h.principals.erase name }
  obtain ⟨n, t, ht, hrep⟩ := herased.removeRecipient (.principal name)
  simp only [ht, bind, Except.bind]
  exact .ok hrep

theorem member_iff (h : Represents l p count) {name : String} {q : Principal} :
    q ∈ (p.principals.list.map (·.2)).filter (fun q => q.group = name) ↔
      p.principals.find q.name = some q ∧ q.group = name := by
  rw [List.mem_filter, List.mem_map, decide_eq_true_eq]
  refine and_congr_left fun _ => ⟨?_, fun hq => ⟨(q.name, q), NameMap.mem_list.2 hq, rfl⟩⟩
  rintro ⟨⟨n, _⟩, hn, rfl⟩
  have hfind := NameMap.mem_list.1 hn
  obtain ⟨-, -, -, -, -, hname, -⟩ := h.principals.present n _ hfind
  rw [hname]
  exact hfind

/-- Writing the rows of a group's members again moves them to the default group. -/
theorem moveMembers (h : Represents l p count) (name : String) :
    Keeps Principal.layout Principal.Shows
      (((p.principals.list.map (·.2)).filter fun q => q.group = name).foldl
        (fun table q => table.insert (utf8 q.name) (Ledger.inDefaultGroup q).toJson) l.principals)
      (p.principals.map fun q => if q.group = name then Ledger.inDefaultGroup q else q) := by
  have hwritten : ∀ (qs : List Principal) (t : Table Bytes Bytes) (m : NameMap Principal),
      (∀ q ∈ qs, q.createdAt.IsValid) → Keeps Principal.layout Principal.Shows t m →
      Keeps Principal.layout Principal.Shows
        (qs.foldl (fun table q => table.insert (utf8 q.name) (Ledger.inDefaultGroup q).toJson) t)
        (qs.foldl (fun m q => m.set q.name (Ledger.inDefaultGroup q)) m) := by
    intro qs
    induction qs with
    | nil => exact fun t m _ hkeeps => hkeeps
    | cons q qs ih =>
      intro t m hvalid hkeeps
      have hq : (Ledger.inDefaultGroup q).createdAt.IsValid := hvalid q (by simp)
      exact ih _ _ (fun q' hq' => hvalid q' (by simp [hq']))
        (hkeeps.insert (Principal.decode_toJson hq) ⟨rfl, rfl, hq⟩)
  refine (hwritten _ _ _ (fun q hq => ?_) h.principals).congr fun n => ?_
  · obtain ⟨hfind, -⟩ := h.member_iff.1 hq
    obtain ⟨-, -, -, -, -, -, hvalid⟩ := h.principals.present _ q hfind
    exact hvalid
  · rw [NameMap.find_map, NameMap.find_foldl_set (g := (p.principals.find n).map
      Ledger.inDefaultGroup) fun q hq hn => by
        rw [← hn, (h.member_iff.1 hq).1]
        rfl]
    split
    · next hany =>
      obtain ⟨q, hq, hn⟩ := List.any_eq_true.1 hany
      obtain ⟨hfind, hgroup⟩ := h.member_iff.1 hq
      rw [decide_eq_true_eq] at hn
      rw [← hn, hfind, Option.map_some, Option.map_some, if_pos hgroup]
    · next hnone =>
      cases hfind : p.principals.find n with
      | none => rfl
      | some q =>
        rw [Option.map_some, if_neg fun hgroup => hnone ?_]
        obtain ⟨-, -, -, -, -, hname, -⟩ := h.principals.present n q hfind
        exact List.any_eq_true.2 ⟨q, h.member_iff.2 ⟨hname ▸ hfind, hgroup⟩, by simpa using hname⟩

theorem deleteGroup (h : Represents l p count) (name : String) :
    Matches (Represents · · count) (l.deleteGroup name) (p.deleteGroup name) := by
  rw [Ledger.deleteGroup, PlainLedger.deleteGroup, h.groups.has_eq]
  refine .check fun _ _ => .check fun _ _ => ?_
  have herased : Represents { l with groups := l.groups.erase (utf8 name) }
      { p with groups := p.groups.erase name } count :=
    { h with groups := h.groups.erase name }
  obtain ⟨n, t, ht, hrep⟩ := herased.removeRecipient (.group name)
  simp only [ht, bind, Except.bind, h.principals.all_eq_list fun _ _ _ hs => hs.1]
  exact .ok { hrep with principals := h.moveMembers name }

/-! ### Secrets and grants -/

/-- A new secret, before its first grant. -/
theorem insertSecret (h : Represents l p count) {s : Secret} (hvalid : s.createdAt.IsValid)
    (hname : s.name.toList.all Ledger.isNameChar = true) (hnew : p.secrets.has s.name = false) :
    Represents { l with secrets := l.secrets.insert (utf8 s.name) s.toJson }
      { p with secrets := p.secrets.set s.name ⟨s.payload, s.createdBy, []⟩ } count := by
  obtain ⟨xs, hxs, hgrants⟩ := h.wraps
  refine { h with
    secrets := h.secrets.insert (Secret.decode_toJson hvalid) ⟨rfl, rfl, rfl⟩
    named := fun t ht => h.named_set hname _ ht
    wraps := ⟨xs, hxs, fun t => ?_⟩ }
  rw [PlainLedger.grants_set, hgrants]
  by_cases ht : t = s.name
  · rw [if_pos ht, ht, PlainLedger.grants_of_find_eq_none]
    simpa [NameMap.has] using hnew
  · rw [if_neg ht]

theorem createSecret (h : Represents l p count) (now : Moment) (caller : Identity)
    (new : NewSecret) :
    Matches (fun l p => count + (Command.createSecret now caller new).wraps < 2 ^ 64 →
        Represents l p (count + (Command.createSecret now caller new).wraps))
      (l.createSecret now.1 caller new) (p.createSecret caller new) := by
  rw [Ledger.createSecret, PlainLedger.createSecret, h.secrets.has_eq]
  refine .check fun _ hname => .check fun _ _ => .check fun _ _ => .check fun _ _ =>
    .check fun _ _ => .check fun _ hnew => ?_
  have hstored := h.insertSecret (s := ⟨new.name, new.payload, caller.name, now.1⟩) now.2
    (isNameChar_of_checkName hname) (by simpa using of_require_eq_ok hnew)
  have hfirst := fun hcount => hstored.addWrap
    (w := ⟨new.name, .group superGroup, new.superKey, new.path, now.1⟩) now.2
    (NameMap.find_set_self _ _ _) hcount
  cases hkey : Ledger.given new.creatorKey with
  | none =>
    have hone : (Command.createSecret now caller new).wraps = 1 := by
      rw [Command.wraps, hkey]
      rfl
    rw [hone]
    refine .ok fun hcount => ?_
    have hrep := hfirst hcount
    rw [NameMap.set_set] at hrep
    exact hrep
  | some key =>
    have htwo : (Command.createSecret now caller new).wraps = 2 := by
      rw [Command.wraps, hkey]
      rfl
    rw [htwo]
    refine .ok fun hcount => ?_
    have hrep := (hfirst (by omega)).addWrap
      (w := ⟨new.name, .principal caller.name, key, new.path, now.1⟩) now.2
      (NameMap.find_set_self _ _ _) (by omega)
    rw [NameMap.set_set, NameMap.set_set] at hrep
    exact hrep

theorem grant (h : Represents l p count) (now : Moment) (secret : String) (recipient : Recipient)
    (sealedKey : Bytes) (path : Option String) :
    Matches (fun l p => count + 1 < 2 ^ 64 → Represents l p (count + 1))
      (l.grant now.1 secret recipient sealedKey path)
      (p.grant secret recipient sealedKey path) := by
  rw [Ledger.grant, PlainLedger.grant, h.secrets.has_eq, h.hasRecipient_eq, NameMap.has,
    NameMap.get]
  refine .check fun _ _ => ?_
  cases he : p.secrets.find secret with
  | none => exact .error _
  | some e =>
    refine .check fun _ _ => .ok fun hcount => ?_
    exact h.addWrap (w := ⟨secret, recipient, sealedKey, path, now.1⟩) now.2 he hcount

theorem revoke (h : Represents l p count) (secret : String) (recipient : Recipient) :
    Matches (fun a b => a.1 = b.1 ∧ Represents a.2 b.2 count) (l.revoke secret recipient)
      (p.revoke secret recipient) := by
  rw [Ledger.revoke, PlainLedger.revoke, h.secrets.has_eq, NameMap.has, NameMap.get]
  refine .check fun _ _ => ?_
  obtain ⟨xs, hxs, hgrants⟩ := h.wraps
  obtain ⟨t, ht, hholds⟩ := hxs.removeWraps (some secret) fun wrap =>
    wrap.secret = secret && wrap.recipient = recipient
  cases he : p.secrets.find secret with
  | none => exact .error _
  | some e =>
    have hcount : (xs.countP fun x => (decide (x.wrap.secret = secret) &&
        decide (x.wrap.recipient = recipient)) && (some secret).all (x.wrap.secret = ·)) =
        e.grants.countP fun g => g.recipient = recipient := by
      rw [← PlainLedger.grants_of_find_eq_some he, ← hgrants, grantsOf, List.countP_map,
        List.countP_filter]
      refine List.countP_congr fun x _ => ?_
      simp [Wrap.grant, and_comm]
    simp only [ht, bind, Except.bind, hcount]
    refine .check fun _ _ => .ok ⟨rfl, ?_⟩
    refine { h with
      secrets := h.secrets.update he fun b hb => hb
      named := fun s hs => h.named_set (h.named_of_find he) _ hs
      wraps := ⟨_, hholds, fun s => ?_⟩ }
    rw [PlainLedger.grants_set]
    by_cases hs : s = secret
    · subst hs
      rw [if_pos rfl, PlainSecret.drop, ← PlainLedger.grants_of_find_eq_some he, ← hgrants]
      refine grantsOf_filter fun x _ hx => ?_
      simp only [hx, decide_true, Bool.true_and, Option.all_some, Bool.and_true, decide_not]
      rfl
    · rw [if_neg hs, ← hgrants, grantsOf_filter (k := fun _ => true) fun x _ hx => ?_,
        List.filter_true]
      simp [hx, hs]

theorem deleteSecret (h : Represents l p count) (name : String) :
    Matches (Represents · · count) (l.deleteSecret name) (p.deleteSecret name) := by
  rw [Ledger.deleteSecret, PlainLedger.deleteSecret, h.secrets.has_eq]
  refine .check fun _ _ => .check fun _ _ => ?_
  obtain ⟨xs, hxs, hgrants⟩ := h.wraps
  obtain ⟨t, ht, hholds⟩ := hxs.removeWraps (some name) fun _ => true
  simp only [ht, bind, Except.bind]
  refine .ok { h with
    secrets := h.secrets.erase name
    named := fun s hs => ?_
    wraps := ⟨_, hholds, fun s => ?_⟩ }
  · rw [NameMap.has, NameMap.find_erase] at hs
    by_cases hsn : s = name
    · rw [if_pos hsn] at hs
      cases hs
    · rw [if_neg hsn] at hs
      exact h.named s hs
  · rw [PlainLedger.grants_erase, ← hgrants]
    by_cases hs : s = name
    · rw [if_pos hs, grantsOf_filter (k := fun _ => false) fun x _ hx => ?_,
        List.filter_false]
      simp [hx, hs]
    · rw [if_neg hs, grantsOf_filter (k := fun _ => true) fun x _ hx => ?_,
        List.filter_true]
      simp [hx, hs]

/-! ### Runs -/

theorem shown {α : Type} (h : Represents l p count) (answer : α → Answer)
    {r r' : Except Ledger.Error α} (heq : r = r') (bound : Prop) :
    Matches (fun a b => a.1 = b.1 ∧ (bound → Represents a.2 b.2 count)) (shown l answer r)
      (shown p answer r') :=
  (Matches.of_eq heq).map fun _ _ hab => ⟨congrArg answer hab, fun _ => h⟩

/-- **Every command has one outcome on both sides.** -/
theorem execute (h : Represents l p count) (c : Command) :
    Matches (fun a b => a.1 = b.1 ∧
        (count + c.wraps < 2 ^ 64 → Represents a.2 b.2 (count + c.wraps)))
      (l.execute c) (p.execute c) := by
  cases c with
  | bootstrap now setup => exact (h.bootstrap now setup).map fun _ _ hab => ⟨rfl, fun _ => hab⟩
  | registerPrincipal now new =>
    exact (h.registerPrincipal now new).map fun _ _ hab => ⟨rfl, fun _ => hab⟩
  | createGroup now name kind publicKey sealedPrivateKey =>
    exact (h.createGroup now name kind publicKey sealedPrivateKey).map fun _ _ hab =>
      ⟨rfl, fun _ => hab⟩
  | deleteGroup name => exact (h.deleteGroup name).map fun _ _ hab => ⟨rfl, fun _ => hab⟩
  | createSecret now caller new =>
    exact (h.createSecret now caller new).map fun _ _ hab => ⟨rfl, hab⟩
  | assignToGroup now secret group sealedKey path =>
    exact (Matches.check fun _ _ => h.grant now secret (.group group) sealedKey path).map
      fun _ _ hab => ⟨rfl, hab⟩
  | assignToPrincipal now secret principal sealedKey path =>
    exact (h.grant now secret (.principal principal) sealedKey path).map fun _ _ hab => ⟨rfl, hab⟩
  | revokeFromGroup secret group =>
    exact (Matches.check fun _ _ => h.revoke secret (.group group)).map fun _ _ hab =>
      ⟨congrArg Answer.removed hab.1, fun _ => hab.2⟩
  | revokeFromPrincipal secret principal =>
    exact (h.revoke secret (.principal principal)).map fun _ _ hab =>
      ⟨congrArg Answer.removed hab.1, fun _ => hab.2⟩
  | deleteSecret name => exact (h.deleteSecret name).map fun _ _ hab => ⟨rfl, fun _ => hab⟩
  | reassignPrincipal principal group sealedGroupKey =>
    exact (h.reassignPrincipal principal group sealedGroupKey).map fun _ _ hab =>
      ⟨rfl, fun _ => hab⟩
  | deletePrincipal name => exact (h.deletePrincipal name).map fun _ _ hab => ⟨rfl, fun _ => hab⟩
  | isInitialized => exact h.shown .flag (congrArg Except.ok (h.groups.has_eq superGroup)) _
  | getPrincipal name => exact h.shown .principal (h.getPrincipal_eq name) _
  | lookup name => exact h.shown .credentials (h.lookup_eq name) _
  | getGroup name => exact h.shown .group (h.getGroup_eq name) _
  | listGroups => exact h.shown .groups h.listGroups_eq _
  | fetchAccessible principal => exact h.shown .accessible (h.fetchAccessible_eq principal) _
  | fetchSecret principal secret =>
    exact h.shown .accessible (h.fetchSecret_eq principal secret) _
  | canRead principal secret => exact h.shown .flag (h.canRead_eq principal secret) _
  | listSecrets => exact h.shown .secrets h.listSecrets_eq _

/-- One step of a run: the replies are the same, and the states are related again. -/
theorem attempt (h : Represents l p count) (c : Command) :
    (attempt Ledger.execute l c).1 = (attempt PlainLedger.execute p c).1 ∧
      (count + Event.wraps ⟨c, (attempt Ledger.execute l c).1⟩ < 2 ^ 64 →
        Represents (attempt Ledger.execute l c).2 (attempt PlainLedger.execute p c).2
          (count + Event.wraps ⟨c, (attempt Ledger.execute l c).1⟩)) := by
  have hmatch := h.execute c
  unfold Strongroom.attempt
  generalize l.execute c = x, p.execute c = y at hmatch
  cases hmatch with
  | @ok a b hab =>
    obtain ⟨hanswer, hrep⟩ := hab
    exact ⟨congrArg Except.ok hanswer, hrep⟩
  | error e => exact ⟨rfl, fun _ => h⟩

/-- **A whole run gives the same replies on both sides**, and its last states are related. -/
theorem run (h : Represents l p count) (cs : List Command)
    (hcount : count + wrapsMade (run Ledger.execute l cs).1 < 2 ^ 64) :
    (run Ledger.execute l cs).1 = (run PlainLedger.execute p cs).1 ∧
      Represents (run Ledger.execute l cs).2 (run PlainLedger.execute p cs).2
        (count + wrapsMade (run Ledger.execute l cs).1) := by
  induction cs generalizing l p count with
  | nil => exact ⟨rfl, h⟩
  | cons c cs ih =>
    rw [run_cons] at hcount
    rw [run_cons, run_cons]
    simp only [wrapsMade_cons] at hcount ⊢
    obtain ⟨hreply, hstep⟩ := h.attempt c
    obtain ⟨hreplies, hrest⟩ := ih (hstep (by omega)) (by omega)
    rw [← hreply, hreplies]
    rw [hreplies] at hrest
    exact ⟨rfl, by rwa [← Nat.add_assoc]⟩

/-- A run from the empty ledger and the same run of the plain ledger. -/
theorem of_run {cs : List Command} {es es' : List Event} {l : Ledger} {p : PlainLedger}
    (hrun : Strongroom.run Ledger.execute .empty cs = (es, l))
    (hplain : Strongroom.run PlainLedger.execute .empty cs = (es', p))
    (hmade : wrapsMade es < 2 ^ 64 - 1) : es = es' ∧ Represents l p (wrapsMade es) := by
  have hbound : 0 + wrapsMade (Strongroom.run Ledger.execute .empty cs).1 < 2 ^ 64 := by
    rw [hrun]
    show 0 + wrapsMade es < 2 ^ 64
    omega
  have hboth := Represents.empty.run cs hbound
  rw [hrun, hplain, Nat.zero_add] at hboth
  exact hboth

end Represents

/-- **The ledger refines the plain ledger.**  In every run from the empty ledger, with fewer than
`2 ^ 64 - 1` wraps made, each operation gives the value or the error that it gives on the plain
ledger.  Afterwards the secrets are listed in the byte order of their names, with their grants as
these were made, and so is what a principal can open. -/
theorem replies_eq_plain_replies {cs : List Command} {es es' : List Event} {l : Ledger}
    {p : PlainLedger} (hrun : run Ledger.execute .empty cs = (es, l))
    (hplain : run PlainLedger.execute .empty cs = (es', p)) (hmade : wrapsMade es < 2 ^ 64 - 1) :
    es = es' ∧
      (∃ summaries, l.listSecrets = .ok summaries ∧
        summaries.Pairwise (fun s t => utf8 s.name < utf8 t.name) ∧
        ∀ s ∈ summaries, s.recipients = (p.grants s.name).map (·.recipient)) ∧
      ∀ name found, l.fetchAccessible name = .ok found →
        found.Pairwise (fun s t => utf8 s.name ≤ utf8 t.name) ∧
        ∃ q, p.principals.find name = some q ∧ ∀ secret,
          (found.filter fun s => s.name = secret).map (fun s => ⟨s.via, s.sealedKey, s.path⟩) =
            (p.grants secret).filter fun g => q.opens g.recipient := by
  obtain ⟨heq, hrep⟩ := Represents.of_run hrun hplain hmade
  refine ⟨heq, ⟨_, hrep.listSecrets_eq, PlainLedger.pairwise_listSecrets p,
    fun s hs => PlainLedger.recipients_of_mem_listSecrets hs⟩, fun name found hfound => ?_⟩
  rw [hrep.fetchAccessible_eq] at hfound
  exact PlainLedger.of_fetchAccessible hfound

/-- A moment for examples. -/
def leapDay : Moment := ⟨⟨2024, 2, 29, 12, 0, 0, 0⟩, by decide⟩

/-- A run in which a secret is granted three times, twice to one principal, and revoked from it. -/
def sampleRun : List Command :=
  [.bootstrap leapDay ⟨List.replicate 32 1, [1], none⟩,
    .registerPrincipal leapDay ⟨"ann", .client, List.replicate 32 2, [2]⟩,
    .createSecret leapDay ⟨"ann", "default", false, false⟩ ⟨"db", [3], [4], some [5], none⟩,
    .assignToPrincipal leapDay "db" "ann" [6] none,
    .revokeFromPrincipal "db" "ann",
    .listSecrets]

theorem replies_eq_plain_replies_sampleRun :
    wrapsMade (run Ledger.execute .empty sampleRun).1 = 3 ∧
      (run Ledger.execute .empty sampleRun).1 = (run PlainLedger.execute .empty sampleRun).1 := by
  have hmade : wrapsMade (run Ledger.execute .empty sampleRun).1 = 3 := by decide +kernel
  exact ⟨hmade, (replies_eq_plain_replies rfl rfl (by omega)).1⟩

end Strongroom
