import Strongroom.Proofs.Ledger.NamedRows
import Strongroom.Proofs.Ledger.Wraps

/-!
# What the tables of the ledger stand for

A ledger represents a plain ledger (`Represents`) if its tables of principals, groups and secrets
keep the three maps and its table of wraps holds, for each secret, the grants in their order.  The
relation also counts the wraps that were ever made, since the counter must not come round to a
number in use.  A ledger that represents a plain one has no corrupt row, and everything that can be
read from it is what the plain ledger says,

    l.fetchAccessible name = p.fetchAccessible name, l.listSecrets = .ok p.listSecrets, …
-/

namespace Strongroom

/-! ### The relation -/

/-- The row of a principal shows the principal. -/
def Principal.Shows (n : String) (row p : Principal) : Prop :=
  row = p ∧ p.name = n ∧ p.createdAt.IsValid

/-- The row of a group shows the group. -/
def Group.Shows (n : String) (row g : Group) : Prop :=
  row = g ∧ g.name = n ∧ g.createdAt.IsValid

/-- The row of a secret shows its payload and its creator; the grants are not in it. -/
def Secret.Shows (n : String) (row : Secret) (s : PlainSecret) : Prop :=
  row.name = n ∧ row.payload = s.payload ∧ row.createdBy = s.createdBy

/-- The tables of a ledger represent a plain ledger, after some number of wraps was made. -/
structure Represents (l : Ledger) (p : PlainLedger) (count : Nat) : Prop where
  principals : Keeps Principal.layout Principal.Shows l.principals p.principals
  groups : Keeps Group.layout Group.Shows l.groups p.groups
  secrets : Keeps Secret.layout Secret.Shows l.secrets p.secrets
  named : ∀ s, p.secrets.has s = true → s.toList.all Ledger.isNameChar = true
  counter : l.lastWrap.toNat = count
  wraps : ∃ xs, HoldsWraps l.wraps count xs ∧ ∀ s, grantsOf xs s = p.grants s

namespace PlainLedger

variable {l : PlainLedger}

theorem grants_of_find_eq_some {s : String} {e : PlainSecret} (h : l.secrets.find s = some e) :
    l.grants s = e.grants := by
  rw [grants, h]
  rfl

theorem grants_of_find_eq_none {s : String} (h : l.secrets.find s = none) : l.grants s = [] := by
  rw [grants, h]
  rfl

theorem grants_set (l : PlainLedger) (s t : String) (e : PlainSecret) :
    ({ l with secrets := l.secrets.set s e } : PlainLedger).grants t =
      if t = s then e.grants else l.grants t := by
  rw [grants, NameMap.find_set]
  by_cases ht : t = s
  · rw [if_pos ht, if_pos ht]
    rfl
  · rw [if_neg ht, if_neg ht]
    rfl

theorem grants_erase (l : PlainLedger) (s t : String) :
    ({ l with secrets := l.secrets.erase s } : PlainLedger).grants t =
      if t = s then [] else l.grants t := by
  rw [grants, NameMap.find_erase]
  by_cases ht : t = s
  · rw [if_pos ht, if_pos ht]
    rfl
  · rw [if_neg ht, if_neg ht]
    rfl

theorem grants_drop (l : PlainLedger) (principals : NameMap Principal) (groups : NameMap Group)
    (r : Recipient) (t : String) :
    (⟨principals, groups, l.secrets.map (·.drop r)⟩ : PlainLedger).grants t =
      (l.grants t).filter fun g => g.recipient ≠ r := by
  rw [grants, grants, NameMap.find_map]
  cases l.secrets.find t with
  | none => rfl
  | some e => rfl

/-- What a principal gets of a secret through a wrap. -/
def entry (l : PlainLedger) (w : Wrap) : AccessibleSecret :=
  ⟨w.secret, ((l.secrets.find w.secret).map (·.payload)).getD [], w.sealedKey, w.path, w.recipient⟩

theorem has_map (m : NameMap PlainSecret) (f : PlainSecret → PlainSecret) (s : String) :
    (m.map f).has s = m.has s := by
  rw [NameMap.has, NameMap.find_map, Option.isSome_map]
  rfl

end PlainLedger

namespace Represents

variable {l : Ledger} {p : PlainLedger} {count : Nat}

theorem empty : Represents .empty .empty 0 where
  principals := .empty
  groups := .empty
  secrets := .empty
  named s hs := by simp [PlainLedger.empty, NameMap.has] at hs
  counter := rfl
  wraps := ⟨[], .empty, fun _ => rfl⟩

theorem hasRecipient_eq (h : Represents l p count) (r : Recipient) :
    l.checkRecipient r = Ledger.require (p.hasRecipient r) (.notFound r.subject) := by
  cases r with
  | principal name =>
    rw [Ledger.checkRecipient, h.principals.has_eq]
    rfl
  | group name =>
    rw [Ledger.checkRecipient, h.groups.has_eq]
    rfl

/-- Another secret under a good name leaves all names good. -/
theorem named_set (h : Represents l p count) {name : String}
    (hname : name.toList.all Ledger.isNameChar = true) (e : PlainSecret) {s : String}
    (hs : (p.secrets.set name e).has s = true) : s.toList.all Ledger.isNameChar = true := by
  rw [NameMap.has_set, Bool.or_eq_true, decide_eq_true_eq] at hs
  rcases hs with rfl | hs
  · exact hname
  · exact h.named s hs

theorem named_of_find (h : Represents l p count) {name : String} {e : PlainSecret}
    (he : p.secrets.find name = some e) : name.toList.all Ledger.isNameChar = true := by
  refine h.named name ?_
  rw [NameMap.has, he]
  rfl

/-- The number of the next wrap, as long as the counter does not come round. -/
theorem toNat_nextWrap (h : Represents l p count) (hcount : count + 1 < 2 ^ 64) :
    (l.lastWrap + 1).toNat = count + 1 := by
  rw [UInt64.toNat_add, h.counter]
  exact Nat.mod_eq_of_lt hcount

/-- A wrap is of a secret that is there. -/
theorem find_of_mem {xs : List NumberedWrap} (hgrants : ∀ s, grantsOf xs s = p.grants s)
    {x : NumberedWrap} (hx : x ∈ xs) : ∃ e, p.secrets.find x.wrap.secret = some e := by
  cases hfind : p.secrets.find x.wrap.secret with
  | some e => exact ⟨e, rfl⟩
  | none =>
    have hmem : x.wrap.grant ∈ grantsOf xs x.wrap.secret :=
      List.mem_map_of_mem (List.mem_filter.2 ⟨hx, by simp⟩)
    rw [hgrants, PlainLedger.grants_of_find_eq_none hfind] at hmem
    simp at hmem

/-! ### Reading -/

theorem getPrincipal_eq (h : Represents l p count) (name : String) :
    l.getPrincipal name = p.principals.get name (.principal name) :=
  h.principals.row_eq (fun _ _ _ hs => hs.1) name _

theorem getGroup_eq (h : Represents l p count) (name : String) :
    l.getGroup name = p.groups.get name (.group name) :=
  h.groups.row_eq (fun _ _ _ hs => hs.1) name _

theorem listGroups_eq (h : Represents l p count) :
    l.listGroups = .ok (p.groups.list.map (·.2)) :=
  h.groups.all_eq_list fun _ _ _ hs => hs.1

theorem lookup_eq (h : Represents l p count) (name : String) :
    l.lookup name = .ok (p.lookup name) := by
  rw [Ledger.lookup, h.getPrincipal_eq, PlainLedger.lookup, NameMap.get]
  cases p.principals.find name with
  | none => rfl
  | some q => rfl

theorem accessThrough_eq (h : Represents l p count) {w : Wrap}
    (hw : ∃ e, p.secrets.find w.secret = some e) : l.accessThrough w = .ok (some (p.entry w)) := by
  obtain ⟨e, he⟩ := hw
  obtain ⟨b, hb, hname, hpayload, -⟩ := h.secrets.row?_eq_some he
  rw [Ledger.accessThrough, hb, PlainLedger.entry, he]
  show Except.ok (some (AccessibleSecret.mk b.name b.payload _ _ _)) = _
  rw [hname, hpayload]
  rfl

/-- The wraps of one secret that a principal can open give its access to the secret. -/
theorem map_entry {xs : List NumberedWrap} {n : String} {e : PlainSecret}
    (hgrants : grantsOf xs n = e.grants) (he : p.secrets.find n = some e) (q : Principal) :
    ((xs.filter fun x => x.wrap.secret = n).filter fun x => q.opens x.wrap.recipient).map
      (fun x => p.entry x.wrap) = e.access n q := by
  rw [PlainSecret.access, ← hgrants, grantsOf, List.filter_map, List.map_map]
  refine List.map_congr_left fun x hx => ?_
  have hn : x.wrap.secret = n := by
    simpa using (List.mem_filter.1 (List.mem_filter.1 hx).1).2
  subst hn
  rw [PlainLedger.entry, he]
  rfl

/-- Reading through the wraps that a principal can open never fails. -/
theorem accessible_eq (h : Represents l p count) {xs : List NumberedWrap}
    (hxs : HoldsWraps l.wraps count xs) (hgrants : ∀ s, grantsOf xs s = p.grants s)
    (principal : String) (secret : Option String) :
    l.accessible principal secret = (do
      let q ← p.principals.get principal (.principal principal)
      match secret with
      | some name => Ledger.require (p.secrets.has name) (.notFound (.secret name))
      | none => .ok ()
      .ok (((xs.filter fun x => secret.all (x.wrap.secret = ·)).filter fun x =>
        q.opens x.wrap.recipient).map fun x => p.entry x.wrap)) := by
  have hfound : ∀ q : Principal, (((xs.filter fun x => secret.all (x.wrap.secret = ·)).map
      fun x => (x.key, x.wrap)).filter fun x => q.opens x.2.recipient).mapM
        (fun x => l.accessThrough x.2) =
      .ok (((xs.filter fun x => secret.all (x.wrap.secret = ·)).filter fun x =>
        q.opens x.wrap.recipient).map fun x => some (p.entry x.wrap)) := by
    intro q
    rw [List.filter_map, List.mapM_map]
    refine mapM_eq_ok fun x hx => h.accessThrough_eq (find_of_mem hgrants ?_)
    exact List.mem_of_mem_filter (List.mem_of_mem_filter hx)
  rw [Ledger.accessible, h.principals.row_eq fun _ _ _ hs => hs.1]
  refine bind_congr fun q => ?_
  have hscan := hxs.scanWraps secret
  cases secret with
  | none =>
    simp only [hscan, bind, Except.bind, hfound q]
    simp
  | some name =>
    simp only [h.secrets.has_eq, hscan, bind, Except.bind, hfound q]
    simp

theorem fetchSecret_eq (h : Represents l p count) (principal secret : String) :
    l.fetchSecret principal secret = p.fetchSecret principal secret := by
  obtain ⟨xs, hxs, hgrants⟩ := h.wraps
  rw [Ledger.fetchSecret, h.accessible_eq hxs hgrants, PlainLedger.fetchSecret]
  refine bind_congr fun q => ?_
  cases he : p.secrets.find secret with
  | none =>
    simp only [NameMap.has, NameMap.get, he]
    rfl
  | some e =>
    simp only [NameMap.has, NameMap.get, he]
    show Except.ok _ = Except.ok _
    rw [← map_entry (hgrants secret ▸ PlainLedger.grants_of_find_eq_some he) he q]
    simp only [Option.all_some]

theorem fetchAccessible_eq (h : Represents l p count) (principal : String) :
    l.fetchAccessible principal = p.fetchAccessible principal := by
  obtain ⟨xs, hxs, hgrants⟩ := h.wraps
  rw [Ledger.fetchAccessible, h.accessible_eq hxs hgrants, PlainLedger.fetchAccessible]
  refine bind_congr fun q => ?_
  have hall : ∀ x ∈ xs, x.wrap.secret ∈ p.secrets.list.map (·.1) := by
    intro x hx
    obtain ⟨e, he⟩ := find_of_mem hgrants hx
    exact List.mem_map.2 ⟨(_, e), NameMap.mem_list.2 he, rfl⟩
  have hzero : ∀ n ∈ p.secrets.list.map (·.1), (0 : UInt8) ∉ utf8 n := by
    intro n hn
    obtain ⟨⟨_, e⟩, he, rfl⟩ := List.mem_map.1 hn
    exact zero_notMem_utf8 (h.named_of_find (NameMap.mem_list.1 he))
  have hsplit := hxs.eq_flatMap (List.pairwise_map.2 p.secrets.pairwise_list) hzero hall
  show Except.ok _ = Except.ok _
  simp only [Option.all_none, List.filter_true]
  conv => lhs; rw [hsplit]
  rw [List.flatMap_map, List.filter_flatMap, List.map_flatMap]
  refine congrArg _ (List.flatMap_congr fun x hx => ?_)
  have he : p.secrets.find x.1 = some x.2 := NameMap.mem_list.1 hx
  exact map_entry (hgrants x.1 ▸ PlainLedger.grants_of_find_eq_some he) he q

theorem canRead_eq (h : Represents l p count) (principal secret : String) :
    l.canRead principal secret = .ok (p.canRead principal secret) := by
  rw [Ledger.canRead, h.fetchSecret_eq, PlainLedger.fetchSecret, PlainLedger.canRead, NameMap.get]
  cases p.principals.find principal with
  | none => rfl
  | some q =>
    rw [NameMap.get]
    cases he : p.secrets.find secret with
    | none =>
      rw [PlainLedger.grants_of_find_eq_none he]
      rfl
    | some e =>
      rw [PlainLedger.grants_of_find_eq_some he]
      show Except.ok (!(e.access secret q).isEmpty) = _
      rw [PlainSecret.access, List.isEmpty_map]
      refine congrArg _ (Bool.eq_iff_iff.2 ?_)
      simp

theorem listSecrets_eq (h : Represents l p count) : l.listSecrets = .ok p.listSecrets := by
  obtain ⟨xs, hxs, hgrants⟩ := h.wraps
  obtain ⟨bs, hbs, hall⟩ := h.secrets.all_eq
  rw [Ledger.listSecrets, hbs, PlainLedger.listSecrets]
  have hfind : ∀ x ∈ p.secrets.list, p.secrets.find x.1 = some x.2 :=
    fun x hx => NameMap.mem_list.1 hx
  show bs.mapM _ = _
  clear hbs
  generalize p.secrets.list = ys at hall hfind
  induction hall with
  | nil => rfl
  | @cons b x bs ys hx _ ih =>
    rw [List.mapM_cons, ih fun y hy => hfind y (by simp [hy]), hxs.scanWraps]
    have hgrantsx := (hgrants x.1).trans
      (PlainLedger.grants_of_find_eq_some (hfind x (by simp)))
    show Except.ok (SecretSummary.mk b.name b.createdBy _ :: _) =
      Except.ok (SecretSummary.mk x.1 x.2.createdBy (x.2.grants.map (·.recipient)) :: _)
    rw [hx.1, hx.2.2, ← hgrantsx, grantsOf]
    simp only [Option.all_some, List.map_map]
    rfl

end Represents

end Strongroom
