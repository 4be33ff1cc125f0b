import Mathlib.Data.List.Forall2
import Strongroom.Proofs.Ledger.SoundRows

/-!
# Ledgers that somebody cannot tell apart

What the clients have sealed is not meant for everybody.  An audience (`Audience`) is what decides
about it: the name of somebody, whether the session is that of a superuser, the group, and the
secrets that can be read.  Blacking out what is not meant for an audience leaves of every record the
rest (`Audience.showPrincipal` and its like), and two ledgers are alike for an audience if their
rows stand under the same keys and show the same (`Ledger.AlikeFor`).  The rows themselves may be
any that can be read; a sealed key may be there in the one and missing in the other.

The four tables have this in common, so there is one view of rows with the layout, the key and the
blacking out as its parts (`RowView`), and one lemma about it for each way in which the ledger uses
a table.
-/

namespace Strongroom

/-! ### Audiences -/

/-- Somebody whom a reply is for. -/
structure Audience where
  name : String
  /-- Whether the session is that of a superuser. -/
  superuser : Bool
  /-- The group, unless it is the default group. -/
  group : Option String
  /-- The secrets that can be read. -/
  reads : String → Bool

namespace Audience

variable (v : Audience)

/-- Whether wraps for a recipient are meant for an audience. -/
def receives : Recipient → Bool
  | .principal name => name = v.name
  | .group name => v.group = some name

/-- A principal without its password hash, and without its sealed group key unless it is the
audience. -/
def showPrincipal (p : Principal) : Principal :=
  { p with
    passwordHash := []
    sealedGroupKey := if p.name = v.name then p.sealedGroupKey else none }

/-- A group without its sealed private key, unless the audience is a superuser. -/
def showGroup (g : Group) : Group :=
  { g with sealedPrivateKey := if v.superuser then g.sealedPrivateKey else [] }

/-- A secret without its payload, unless the audience can read it. -/
def showSecret (s : Secret) : Secret :=
  { s with payload := if v.reads s.name then s.payload else [] }

/-- A wrap without its sealed key and its path, unless it is meant for the audience. -/
def showWrap (w : Wrap) : Wrap :=
  if v.receives w.recipient then w else { w with sealedKey := [], path := none }

/-- Whatever is meant for one audience is meant for the other. -/
structure Within (u v : Audience) : Prop where
  name : u.name = v.name
  superuser : u.superuser = true → v.superuser = true
  receives : ∀ r, u.receives r = true → v.receives r = true
  reads : ∀ name, u.reads name = true → v.reads name = true

end Audience

/-! ### Views of rows -/

/-- How the rows of a table are looked at: how they are read, under which keys they stand, and what
is shown of them. -/
structure RowView (α : Type) where
  /-- How a row is read. -/
  layout : Json.Layout α
  /-- Whether a record stands under its key. -/
  stands : Bytes → α → Prop
  /-- What is shown of a record. -/
  shows : α → α

namespace RowView

variable {α : Type}

/-- Two records that stand under one key and show the same. -/
structure Same (V : RowView α) (key : Bytes) (a b : α) : Prop where
  stands : V.stands key a
  stands' : V.stands key b
  shows : V.shows a = V.shows b

/-- Two rows of the same records. -/
def SameRow (V : RowView α) (x y : Bytes × Bytes) : Prop :=
  x.1 = y.1 ∧ ∃ a b, Ledger.decode V.layout x.2 = .ok a ∧ Ledger.decode V.layout y.2 = .ok b ∧
    V.Same x.1 a b

/-- Two tables with the same keys and, under each of them, rows of the same records. -/
def Alike (V : RowView α) (t t' : Table Bytes Bytes) : Prop :=
  List.Forall₂ V.SameRow t.rows t'.rows

/-- Two records that show the same and have been read from rows. -/
def SameRead (V : RowView α) (key : Bytes) (a b : α) : Prop :=
  V.Same key a b ∧ (∃ row, Ledger.decode V.layout row = .ok a) ∧
    ∃ row, Ledger.decode V.layout row = .ok b

instance (V : RowView α) [DecidableEq α] [∀ key a, Decidable (V.stands key a)]
    (x y : Bytes × Bytes) : Decidable (V.SameRow x y) :=
  match hx : Ledger.decode V.layout x.2, hy : Ledger.decode V.layout y.2 with
  | .ok a, .ok b =>
    decidable_of_iff (x.1 = y.1 ∧ V.stands x.1 a ∧ V.stands x.1 b ∧ V.shows a = V.shows b)
      ⟨fun h => ⟨h.1, a, b, hx, hy, h.2.1, h.2.2.1, h.2.2.2⟩, fun h => by
        obtain ⟨hkey, a', b', ha, hb, hsame⟩ := h
        cases hx.symm.trans ha
        cases hy.symm.trans hb
        exact ⟨hkey, hsame.stands, hsame.stands', hsame.shows⟩⟩
  | .ok _, .error _ => .isFalse fun ⟨_, _, _, _, hb, _⟩ => nomatch hy.symm.trans hb
  | .error _, _ => .isFalse fun ⟨_, _, _, ha, _⟩ => nomatch hx.symm.trans ha

instance (V : RowView α) [DecidableEq α] [∀ key a, Decidable (V.stands key a)]
    (t t' : Table Bytes Bytes) : Decidable (V.Alike t t') :=
  inferInstanceAs (Decidable (List.Forall₂ V.SameRow t.rows t'.rows))

variable {V U : RowView α} {t t' : Table Bytes Bytes} {x y : Bytes × Bytes}

/-- A row that is written to both tables. -/
theorem sameRow_self {key row : Bytes} {a : α} (ha : Ledger.decode V.layout row = .ok a)
    (hstands : V.stands key a) : V.SameRow (key, row) (key, row) :=
  ⟨rfl, a, a, ha, ha, hstands, hstands, rfl⟩

theorem sameRow_of_same {key row row' : Bytes} {a b : α} (ha : Ledger.decode V.layout row = .ok a)
    (hb : Ledger.decode V.layout row' = .ok b) (h : V.Same key a b) :
    V.SameRow (key, row) (key, row') :=
  ⟨rfl, a, b, ha, hb, h⟩

/-- Who sees less sees no more differences. -/
theorem Alike.mono (h : V.Alike t t') (hlayout : U.layout = V.layout)
    (hstands : U.stands = V.stands)
    (hshows : ∀ a b, V.shows a = V.shows b → U.shows a = U.shows b) : U.Alike t t' := by
  refine h.imp fun x y ⟨hkey, a, b, ha, hb, hsame⟩ => ⟨hkey, a, b, ?_, ?_, ?_, ?_, ?_⟩
  · rw [hlayout, ha]
  · rw [hlayout, hb]
  · rw [hstands]
    exact hsame.stands
  · rw [hstands]
    exact hsame.stands'
  · exact hshows a b hsame.shows

/-- A table that is alike to another has only rows that can be read and stand under their keys. -/
theorem Alike.sound (h : V.Alike t t') : Ledger.SoundRows V.layout V.stands t := by
  intro row hrow
  rw [Alike] at h
  generalize t.rows = rows, t'.rows = rows' at h hrow
  induction h with
  | nil => cases hrow
  | @cons x y rows rows' hxy _ ih =>
    rcases List.mem_cons.1 hrow with rfl | hrow
    · obtain ⟨-, a, b, ha, -, hsame⟩ := hxy
      exact ⟨a, ha, hsame.stands⟩
    · exact ih hrow

/-! ### Looking up -/

theorem Alike.get? (h : V.Alike t t') (key : Bytes) :
    Option.Rel (fun row row' => V.SameRow (key, row) (key, row')) (t.get? key) (t'.get? key) := by
  rw [Table.get?, Table.get?]
  rw [Alike] at h
  generalize t.rows = rows, t'.rows = rows' at h
  induction h with
  | nil => exact .none
  | @cons x y rows rows' hxy _ ih =>
    obtain ⟨k, row⟩ := x
    obtain ⟨k', row'⟩ := y
    obtain rfl : k = k' := hxy.1
    rw [List.find?_cons, List.find?_cons]
    by_cases hk : k = key
    · subst hk
      simpa using Option.Rel.some hxy
    · simpa [hk] using ih

theorem Alike.has_eq (h : V.Alike t t') (name : String) :
    Ledger.has t name = Ledger.has t' name := by
  have hget := h.get? (utf8 name)
  rw [Ledger.has, Ledger.has, Table.contains, Table.contains]
  generalize t.get? (utf8 name) = found, t'.get? (utf8 name) = found' at hget ⊢
  cases hget with
  | none => rfl
  | some _ => rfl

/-- Looking up a name finds nothing in both tables, or records that show the same. -/
theorem Alike.row? (h : V.Alike t t') (name : String) :
    Matches (Option.Rel (V.SameRead (utf8 name))) (Ledger.row? V.layout t name)
      (Ledger.row? V.layout t' name) := by
  have hget := h.get? (utf8 name)
  rw [Ledger.row?, Ledger.row?]
  generalize t.get? (utf8 name) = found, t'.get? (utf8 name) = found' at hget ⊢
  cases hget with
  | none => exact .ok .none
  | some hrow =>
    obtain ⟨-, a, b, ha, hb, hsame⟩ := hrow
    simp only [ha, hb]
    exact .ok (.some ⟨hsame, ⟨_, ha⟩, _, hb⟩)

theorem Alike.row (h : V.Alike t t') (name : String) (subject : Subject) :
    Matches (V.SameRead (utf8 name)) (Ledger.row V.layout t name subject)
      (Ledger.row V.layout t' name subject) := by
  have hrow := h.row? name
  rw [Ledger.row, Ledger.row]
  generalize Ledger.row? V.layout t name = found, Ledger.row? V.layout t' name = found' at hrow ⊢
  cases hrow with
  | error e => exact .error e
  | ok hfound =>
    cases hfound with
    | none => exact .error _
    | some hsame => exact .ok hsame

/-! ### Writing and removing -/

theorem Alike.insert (h : V.Alike t t') {key row row' : Bytes}
    (hrow : V.SameRow (key, row) (key, row')) :
    V.Alike (t.insert key row) (t'.insert key row') := by
  show List.Forall₂ V.SameRow (insertRow key row t.rows) (insertRow key row' t'.rows)
  rw [Alike] at h
  generalize t.rows = rows, t'.rows = rows' at h
  induction h with
  | nil => exact .cons hrow .nil
  | @cons x y rows rows' hxy hrest ih =>
    rw [insertRow, insertRow, ← hxy.1]
    split
    · exact .cons hrow (.cons hxy hrest)
    · split
      · exact .cons hrow hrest
      · exact .cons hxy ih

theorem Alike.filter (h : V.Alike t t') (keep : Bytes → Bool) :
    V.Alike (t.filter fun key _ => keep key) (t'.filter fun key _ => keep key) :=
  List.rel_filter (fun x y hxy => by simp only [hxy.1]) h

theorem Alike.erase (h : V.Alike t t') (key : Bytes) : V.Alike (t.erase key) (t'.erase key) :=
  h.filter _

theorem Alike.eraseAll (h : V.Alike t t') (keys : List Bytes) :
    V.Alike (t.eraseAll keys) (t'.eraseAll keys) :=
  h.filter _

end RowView

/-! ### Reading all rows -/

/-- Reading the members of two lists, pair by pair, where no reading fails. -/
theorem forall₂_mapM {ε α β γ δ : Type} {R : α → β → Prop} {S : γ → δ → Prop} {f : α → Except ε γ}
    {g : β → Except ε δ} {xs : List α} {ys : List β} (h : List.Forall₂ R xs ys)
    (hfg : ∀ x y, R x y → ∃ a b, f x = .ok a ∧ g y = .ok b ∧ S a b) :
    ∃ as bs, xs.mapM f = .ok as ∧ ys.mapM g = .ok bs ∧ List.Forall₂ S as bs := by
  induction h with
  | nil => exact ⟨[], [], rfl, rfl, .nil⟩
  | @cons x y xs ys hxy _ ih =>
    obtain ⟨a, b, ha, hb, hab⟩ := hfg x y hxy
    obtain ⟨as, bs, has, hbs, hall⟩ := ih
    refine ⟨a :: as, b :: bs, ?_, ?_, .cons hab hall⟩
    · rw [List.mapM_cons, ha, has]
      rfl
    · rw [List.mapM_cons, hb, hbs]
      rfl

/-- Doing the same with every pair is doing the same with both lists. -/
theorem mapM_eq_of_forall₂ {ε α β γ : Type} {R : α → β → Prop} {f : α → Except ε γ}
    {g : β → Except ε γ} {xs : List α} {ys : List β} (h : List.Forall₂ R xs ys)
    (hfg : ∀ x y, R x y → f x = g y) : xs.mapM f = ys.mapM g := by
  induction h with
  | nil => rfl
  | @cons x y xs ys hxy _ ih => rw [List.mapM_cons, List.mapM_cons, hfg x y hxy, ih]

theorem map_eq_of_forall₂ {α β γ : Type} {R : α → β → Prop} {f : α → γ} {g : β → γ} {xs : List α}
    {ys : List β} (h : List.Forall₂ R xs ys) (hfg : ∀ x y, R x y → f x = g y) :
    xs.map f = ys.map g := by
  induction h with
  | nil => rfl
  | @cons x y xs ys hxy _ ih => rw [List.map_cons, List.map_cons, hfg x y hxy, ih]

theorem RowView.Alike.all {α : Type} {V : RowView α} {t t' : Table Bytes Bytes}
    (h : V.Alike t t') :
    ∃ as bs, Ledger.all V.layout t = .ok as ∧ Ledger.all V.layout t' = .ok bs ∧
      List.Forall₂ (fun a b => ∃ key, V.SameRead key a b) as bs :=
  forall₂_mapM h fun x y ⟨_, a, b, ha, hb, hsame⟩ =>
    ⟨a, b, ha, hb, x.1, hsame, ⟨x.2, ha⟩, y.2, hb⟩

/-! ### Ledgers -/

namespace Audience

variable (v : Audience)

/-- Principals stand under their names. -/
def principals : RowView Principal :=
  ⟨Principal.layout, fun key p => key = utf8 p.name, v.showPrincipal⟩

/-- Groups stand under their names. -/
def groups : RowView Group :=
  ⟨Group.layout, fun key g => key = utf8 g.name, v.showGroup⟩

/-- Secrets stand under their names. -/
def secrets : RowView Secret :=
  ⟨Secret.layout, fun key s => key = utf8 s.name, v.showSecret⟩

/-- Wraps stand among those of their secrets. -/
def wraps : RowView Wrap :=
  ⟨Wrap.layout, fun key w => w.standsAt key, v.showWrap⟩

instance (key : Bytes) (p : Principal) : Decidable (v.principals.stands key p) :=
  inferInstanceAs (Decidable (key = utf8 p.name))

instance (key : Bytes) (g : Group) : Decidable (v.groups.stands key g) :=
  inferInstanceAs (Decidable (key = utf8 g.name))

instance (key : Bytes) (s : Secret) : Decidable (v.secrets.stands key s) :=
  inferInstanceAs (Decidable (key = utf8 s.name))

instance (key : Bytes) (w : Wrap) : Decidable (v.wraps.stands key w) :=
  inferInstanceAs (Decidable (Ledger.wrapsStart w.secret ≤ key ∧ key < Ledger.wrapsEnd w.secret))

end Audience

/-- **Two ledgers are alike for an audience**: every row of the one is well formed and shows the
same to the audience as the row under the same key of the other, and the counters are equal. -/
structure Ledger.AlikeFor (v : Audience) (l l' : Ledger) : Prop where
  principals : v.principals.Alike l.principals l'.principals
  groups : v.groups.Alike l.groups l'.groups
  secrets : v.secrets.Alike l.secrets l'.secrets
  wraps : v.wraps.Alike l.wraps l'.wraps
  counters : l.counters = l'.counters

instance {κ α : Type} [LT κ] [DecidableEq κ] [DecidableEq α] : DecidableEq (Table κ α) :=
  fun t u => decidable_of_iff (t.rows = u.rows)
    ⟨fun h => by cases t; cases u; cases h; rfl, congrArg Table.rows⟩

instance (v : Audience) (l l' : Ledger) : Decidable (l.AlikeFor v l') :=
  decidable_of_iff (v.principals.Alike l.principals l'.principals ∧
      v.groups.Alike l.groups l'.groups ∧ v.secrets.Alike l.secrets l'.secrets ∧
      v.wraps.Alike l.wraps l'.wraps ∧ l.counters = l'.counters)
    ⟨fun h => ⟨h.1, h.2.1, h.2.2.1, h.2.2.2.1, h.2.2.2.2⟩,
      fun h => ⟨h.principals, h.groups, h.secrets, h.wraps, h.counters⟩⟩

/-- The audience that an identity is, in the present ledger: its group is the one in its row, and it
can read what the ledger says. -/
def Ledger.audience (l : Ledger) (i : Identity) : Audience where
  name := i.name
  superuser := i.superuser
  group := match l.getPrincipal i.name with
    | .ok p => if p.group = defaultGroup then none else some p.group
    | .error _ => none
  reads secret := l.canRead i.name secret = .ok true

end Strongroom
