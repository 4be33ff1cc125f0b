import Strongroom.Ledger.Basic
import Strongroom.Proofs.Ledger.Plain
import Strongroom.Proofs.Ledger.Row
import Strongroom.Proofs.Ledger.WrapKey

/-!
# The table of wraps

The one table of wraps stands for the grants of all secrets together.  Its rows are a list of
numbered wraps (`HoldsWraps`), and cutting that list down to one secret leaves the grants of that
secret in the order in which they were made (`grantsOf`).  Two things keep that so.  A new wrap has
a number above all others, so that its row comes last among those of its secret (`HoldsWraps.add`);
this is where the counter must not have wrapped around.  And the key of a row determines the wrap,
so that removing keys removes just the wraps that were asked for (`HoldsWraps.removeWraps`).  Since
keys start with names, the whole list is also the lists of the single secrets one after another, in
the byte order of the names,

    xs  =  n₁'s wraps ++ n₂'s wraps ++ ⋯        (`HoldsWraps.eq_flatMap`).
-/

namespace Strongroom

/-- Applying a step that never fails to all members of a list. -/
theorem mapM_eq_ok {ε α β : Type} {f : α → Except ε β} {g : α → β} {xs : List α}
    (h : ∀ x ∈ xs, f x = .ok (g x)) : xs.mapM f = .ok (xs.map g) := by
  induction xs with
  | nil => rfl
  | cons x xs ih =>
    rw [List.mapM_cons, h x (by simp), ih fun y hy => h y (by simp [hy])]
    rfl

/-- What a wrap grants. -/
def Wrap.grant (w : Wrap) : Grant := ⟨w.recipient, w.sealedKey, w.path⟩

/-- A wrap and the number under which it stands. -/
structure NumberedWrap where
  number : UInt64
  wrap : Wrap

namespace NumberedWrap

/-- The key of a numbered wrap. -/
def key (x : NumberedWrap) : Bytes := Ledger.wrapKey x.wrap.secret x.number

/-- The row of a numbered wrap. -/
def row (x : NumberedWrap) : Bytes × Bytes := (x.key, x.wrap.toJson)

theorem eq_of_key_eq {x y : NumberedWrap} (h : x.key = y.key) :
    x.wrap.secret = y.wrap.secret ∧ x.number = y.number :=
  Ledger.wrapKey_inj h

end NumberedWrap

/-- The grants of one secret in a list of wraps. -/
def grantsOf (xs : List NumberedWrap) (secret : String) : List Grant :=
  (xs.filter fun x => x.wrap.secret = secret).map (·.wrap.grant)

theorem grantsOf_append (xs ys : List NumberedWrap) (s : String) :
    grantsOf (xs ++ ys) s = grantsOf xs s ++ grantsOf ys s := by
  rw [grantsOf, List.filter_append, List.map_append]
  rfl

theorem grantsOf_cons (x : NumberedWrap) (xs : List NumberedWrap) (s : String) :
    grantsOf (x :: xs) s =
      if x.wrap.secret = s then x.wrap.grant :: grantsOf xs s else grantsOf xs s := by
  by_cases hs : x.wrap.secret = s
  · simp [grantsOf, hs]
  · simp [grantsOf, hs]

/-- A test on the wraps of a secret that looks only at what they grant is a test on its grants. -/
theorem grantsOf_filter {xs : List NumberedWrap} {keep : NumberedWrap → Bool}
    {k : Grant → Bool} {s : String}
    (h : ∀ x ∈ xs, x.wrap.secret = s → keep x = k x.wrap.grant) :
    grantsOf (xs.filter keep) s = (grantsOf xs s).filter k := by
  rw [grantsOf, grantsOf, List.filter_map, List.filter_filter, List.filter_filter]
  refine congrArg _ (List.filter_congr fun x hx => ?_)
  by_cases hs : x.wrap.secret = s
  · simp [hs, h x hx hs]
  · simp [hs]

/-- The grants of a secret after a wrap has come last among those of its secret. -/
theorem grantsOf_insert {before after : List NumberedWrap} {x : NumberedWrap}
    (h : ∀ y ∈ after, y.wrap.secret ≠ x.wrap.secret) (s : String) :
    grantsOf (before ++ x :: after) s =
      if s = x.wrap.secret then grantsOf (before ++ after) s ++ [x.wrap.grant]
      else grantsOf (before ++ after) s := by
  rw [grantsOf_append, grantsOf_append, grantsOf_cons]
  by_cases hs : s = x.wrap.secret
  · have hafter : grantsOf after s = [] := by
      rw [grantsOf, List.map_eq_nil_iff, List.filter_eq_nil_iff]
      intro y hy
      simpa [hs] using h y hy
    rw [if_pos hs, if_pos hs.symm, hafter, List.append_nil]
  · rw [if_neg hs, if_neg (Ne.symm hs)]

/-- **What stands under keys of wraps is that of the single secrets one after another**, in the byte
order of the secrets' names.  The names must not have a zero byte, for that is what separates a name
from the number behind it. -/
theorem eq_flatMap_of_wrapKey {α : Type} {xs : List (Bytes × α)} (secret : Bytes × α → String)
    (hordered : xs.Pairwise fun x y => x.1 < y.1)
    (hkey : ∀ x ∈ xs, ∃ n, x.1 = Ledger.wrapKey (secret x) n) {names : List String}
    (hsorted : names.Pairwise fun m n => utf8 m < utf8 n)
    (hzero : ∀ n ∈ names, (0 : UInt8) ∉ utf8 n) (hall : ∀ x ∈ xs, secret x ∈ names) :
    xs = names.flatMap fun n => xs.filter fun x => secret x = n := by
  refine Table.eq_of_mem_iff hordered ?_ fun x => ?_
  · rw [List.pairwise_flatMap]
    refine ⟨fun n _ => hordered.filter _, hsorted.imp_of_mem fun {m n} _ hn hlt x hx y hy => ?_⟩
    obtain ⟨hx, hm⟩ := List.mem_filter.1 hx
    obtain ⟨hy, hn'⟩ := List.mem_filter.1 hy
    obtain ⟨i, hi⟩ := hkey x hx
    obtain ⟨j, hj⟩ := hkey y hy
    rw [hi, hj, of_decide_eq_true hm, of_decide_eq_true hn']
    exact Ledger.wrapKey_lt_of_utf8_lt (hzero n hn) hlt i j
  · simp only [List.mem_flatMap, List.mem_filter, decide_eq_true_eq]
    exact ⟨fun hx => ⟨_, hall x hx, hx, rfl⟩, fun ⟨_, _, hx, _⟩ => hx⟩

/-- A table of wraps holds a list of numbered wraps, with numbers up to a bound. -/
structure HoldsWraps (t : Table Bytes Bytes) (count : Nat) (xs : List NumberedWrap) : Prop where
  rows : t.rows = xs.map NumberedWrap.row
  valid : ∀ x ∈ xs, x.wrap.createdAt.IsValid
  numbers : ∀ x ∈ xs, x.number.toNat ≤ count

namespace HoldsWraps

variable {t : Table Bytes Bytes} {count : Nat} {xs : List NumberedWrap}

theorem empty : HoldsWraps .empty 0 [] := by
  refine ⟨rfl, fun x hx => ?_, fun x hx => ?_⟩
  · simp at hx
  · simp at hx

theorem pairwise (h : HoldsWraps t count xs) : xs.Pairwise fun x y => x.key < y.key := by
  have := t.ordered
  rwa [h.rows, List.pairwise_map] at this

theorem decode (h : HoldsWraps t count xs) {x : NumberedWrap} (hx : x ∈ xs) :
    Ledger.decode Wrap.layout x.wrap.toJson = .ok x.wrap :=
  Wrap.decode_toJson (h.valid x hx)

/-- Rows with one key are one wrap. -/
theorem eq_of_key_eq (h : HoldsWraps t count xs) {x y : NumberedWrap} (hx : x ∈ xs) (hy : y ∈ xs)
    (hkey : x.key = y.key) : x = y := by
  have hmem : ∀ z ∈ xs, z.row ∈ t.rows := fun z hz => h.rows ▸ List.mem_map_of_mem hz
  have hrow := Table.eq_of_key_eq t.ordered (hmem x hx) (hmem y hy) hkey
  have hwrap := h.decode hx
  rw [show x.wrap.toJson = y.wrap.toJson from congrArg Prod.snd hrow, h.decode hy] at hwrap
  have hnumber := (NumberedWrap.eq_of_key_eq hkey).2
  cases x
  cases y
  cases hnumber
  cases Except.ok.inj hwrap
  rfl

/-- Scanning for a secret, or for all, finds its wraps with their keys. -/
theorem scanWraps {l : Ledger} (h : HoldsWraps l.wraps count xs) (secret : Option String) :
    l.scanWraps secret =
      .ok ((xs.filter fun x => secret.all (x.wrap.secret = ·)).map fun x => (x.key, x.wrap)) := by
  have hread : ∀ ys : List NumberedWrap, ys ⊆ xs →
      ((ys.map NumberedWrap.row).mapM fun r =>
        (Ledger.decode Wrap.layout r.2).map (r.1, ·)) = .ok (ys.map fun x => (x.key, x.wrap)) := by
    intro ys hys
    rw [List.mapM_map]
    refine mapM_eq_ok fun x hx => ?_
    show (Ledger.decode Wrap.layout x.wrap.toJson).map (x.key, ·) = _
    rw [h.decode (hys hx)]
    rfl
  cases secret with
  | none =>
    rw [Ledger.scanWraps, Ledger.wrapRows, h.rows, hread xs (List.Subset.refl xs)]
    simp [bind, Except.bind]
  | some s =>
    rw [Ledger.scanWraps, Ledger.wrapRows, h.rows, List.filter_map,
      hread _ fun x hx => List.mem_of_mem_filter hx]
    simp only [bind, Except.bind, List.filter_map, List.filter_filter, Except.ok.injEq]
    -- the wraps of the secret lie within the range, so the range does not show in the result
    refine congrArg _ (List.filter_congr fun x _ => ?_)
    by_cases hs : x.wrap.secret = s
    · subst hs
      simp [NumberedWrap.row, NumberedWrap.key, Ledger.wrapsStart_le_wrapKey,
        Ledger.wrapKey_lt_wrapsEnd]
    · simp [hs]

/-- Removing the rows of some wraps leaves the others. -/
theorem eraseAll (h : HoldsWraps t count xs) (remove : NumberedWrap → Bool) :
    HoldsWraps (t.eraseAll ((xs.filter remove).map NumberedWrap.key)) count
      (xs.filter fun x => !remove x) := by
  refine ⟨?_, fun x hx => h.valid x (List.mem_of_mem_filter hx),
    fun x hx => h.numbers x (List.mem_of_mem_filter hx)⟩
  show t.rows.filter _ = _
  rw [h.rows, List.filter_map]
  refine congrArg _ (List.filter_congr fun x hx => ?_)
  have hkeys : x.key ∈ (xs.filter remove).map NumberedWrap.key ↔ remove x = true := by
    rw [List.mem_map]
    constructor
    · rintro ⟨y, hy, hkey⟩
      obtain ⟨hmem, hremove⟩ := List.mem_filter.1 hy
      exact h.eq_of_key_eq hmem hx hkey ▸ hremove
    · exact fun hremove => ⟨x, List.mem_filter.2 ⟨hx, hremove⟩, rfl⟩
  simp only [Function.comp_apply, NumberedWrap.row, List.contains_eq_mem, hkeys,
    Bool.decide_eq_true]

/-- Removing the wraps that pass a test removes these and counts them. -/
theorem removeWraps {l : Ledger} (h : HoldsWraps l.wraps count xs) (secret : Option String)
    (remove : Wrap → Bool) :
    ∃ t, l.removeWraps secret remove =
        .ok (xs.countP fun x => remove x.wrap && secret.all (x.wrap.secret = ·),
          { l with wraps := t }) ∧
      HoldsWraps t count
        (xs.filter fun x => !(remove x.wrap && secret.all (x.wrap.secret = ·))) := by
  refine ⟨_, ?_, h.eraseAll fun x => remove x.wrap && secret.all (x.wrap.secret = ·)⟩
  rw [Ledger.removeWraps, h.scanWraps]
  simp only [bind, Except.bind, List.filter_map, List.map_map, List.filter_filter, List.length_map,
    List.countP_eq_length_filter]
  rfl

/-- Where no wrap of a secret has a number, there is no row. -/
theorem get?_eq_none (h : HoldsWraps t count xs) {s : String} {n : UInt64}
    (hnew : ∀ x ∈ xs, x.wrap.secret = s → x.number ≠ n) : t.get? (Ledger.wrapKey s n) = none := by
  rw [Table.get?_eq_none_iff, h.rows]
  intro row hrow hkey
  obtain ⟨x, hx, rfl⟩ := List.mem_map.1 hrow
  obtain ⟨hsecret, hnumber⟩ := Ledger.wrapKey_inj hkey
  exact hnew x hx hsecret hnumber

theorem number_lt (h : HoldsWraps t count xs) {n : UInt64} (hn : n.toNat = count + 1)
    {x : NumberedWrap} (hx : x ∈ xs) : x.number < n := by
  rw [UInt64.lt_iff_toNat_lt, hn]
  exact Nat.lt_succ_of_le (h.numbers x hx)

/-- **A new wrap comes last among those of its secret.** -/
theorem add (h : HoldsWraps t count xs) {n : UInt64} (hn : n.toNat = count + 1) {w : Wrap}
    (hw : w.createdAt.IsValid) :
    ∃ before after, xs = before ++ after ∧
      HoldsWraps (t.insert (Ledger.wrapKey w.secret n) w.toJson) (count + 1)
        (before ++ ⟨n, w⟩ :: after) ∧
      ∀ x ∈ after, x.wrap.secret ≠ w.secret := by
  have hget : t.get? (Ledger.wrapKey w.secret n) = none :=
    h.get?_eq_none fun x hx _ hnumber => Std.lt_irrefl (hnumber ▸ h.number_lt hn hx)
  obtain ⟨before, after, hrows, hins, -, hafter⟩ :=
    Table.rows_insert_of_get?_eq_none hget w.toJson
  rw [h.rows] at hrows
  obtain ⟨ys, zs, rfl, rfl, rfl⟩ := List.map_eq_append_iff.1 hrows
  refine ⟨ys, zs, rfl, ⟨?_, ?_, ?_⟩, fun x hx hsecret => ?_⟩
  · rw [hins, List.map_append, List.map_cons]
    rfl
  · intro x hx
    rcases List.mem_append.1 hx with hx | hx
    · exact h.valid x (by simp [hx])
    · rcases List.mem_cons.1 hx with rfl | hx
      · exact hw
      · exact h.valid x (by simp [hx])
  · intro x hx
    rcases List.mem_append.1 hx with hx | hx
    · exact Nat.le_succ_of_le (h.numbers x (by simp [hx]))
    · rcases List.mem_cons.1 hx with rfl | hx
      · exact Nat.le_of_eq hn
      · exact Nat.le_succ_of_le (h.numbers x (by simp [hx]))
  · -- a row behind the new one has a greater key, but under the same name a lower number
    have hlt : Ledger.wrapKey w.secret n < Ledger.wrapKey x.wrap.secret x.number :=
      hafter x.row (List.mem_map_of_mem hx)
    rw [hsecret, Ledger.wrapKey_lt_iff_of_same] at hlt
    exact Std.lt_irrefl (Std.lt_trans hlt (h.number_lt hn (by simp [hx])))

/-- **The wraps of all secrets are those of the single secrets one after another**, in the byte
order of the secrets' names. -/
theorem eq_flatMap (h : HoldsWraps t count xs) {names : List String}
    (hsorted : names.Pairwise fun m n => utf8 m < utf8 n)
    (hzero : ∀ n ∈ names, (0 : UInt8) ∉ utf8 n) (hall : ∀ x ∈ xs, x.wrap.secret ∈ names) :
    xs = names.flatMap fun n => xs.filter fun x => x.wrap.secret = n := by
  let keyed := fun x : NumberedWrap => (x.key, x)
  have hinj : Function.Injective keyed := fun x y hxy => congrArg Prod.snd hxy
  have hordered : (xs.map keyed).Pairwise fun x y => x.1 < y.1 := List.pairwise_map.2 h.pairwise
  have hsplit := eq_flatMap_of_wrapKey (fun x => x.2.wrap.secret) hordered ?_ hsorted hzero ?_
  · refine List.map_injective_iff.2 hinj (hsplit.trans ?_)
    rw [List.map_flatMap]
    simp only [List.filter_map]
    rfl
  · rintro _ hx
    obtain ⟨x, -, rfl⟩ := List.mem_map.1 hx
    exact ⟨x.number, rfl⟩
  · rintro _ hx
    obtain ⟨x, hmem, rfl⟩ := List.mem_map.1 hx
    exact hall x hmem

end HoldsWraps

end Strongroom
