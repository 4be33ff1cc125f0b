import Strongroom.Proofs.Json.Number

/-!
# Written objects are read back as records

A record is written as the object of its fields, and `Layout.read` takes the members of an object
one by one.  `Fills` says what a list of written members makes of a partial record: each member
names a field that has not been given yet, and its value is readable as that field.  Reading a
written object then gives what filling gives (`Layout.reads_object`), in whatever order the members
stand.

A property of the blank record that no field takes away holds of every record that is read, from
whatever bytes (`Layout.of_read_eq_ok`).
-/

namespace Strongroom.Json

variable {α β : Type}

/-! ### Fields -/

theorem reads_mandatory {name : String} {read : Bytes → Read β} {put : β → α → α} {v : Bytes}
    {b : β} (h : Reads read v b) : Reads (Field.mandatory name read put).read v (put b) := by
  refine ⟨h.starts, fun rest hrest => ?_⟩
  show (read (v ++ rest)).map _ = _
  rw [h.reads rest hrest]
  rfl

theorem reads_optional {name : String} {read : Bytes → Read β} {put : β → α → α} {v : Bytes} {b : β}
    (h : Reads read v b) : Reads (Field.optional name read put).read v (put b) := by
  have hmandatory : Reads (Field.mandatory name read put).read v (put b) := reads_mandatory h
  exact hmandatory

/-- A value that is not `null` is read as a value that is there. -/
theorem reads_some {read : Bytes → Read β} {v : Bytes} {b : β} (h : Reads read v b)
    (hn : v.head? ≠ some (ascii 'n')) : Reads (readOptional read) v (some b) := by
  refine ⟨h.starts, fun rest hrest => ?_⟩
  obtain ⟨c, cs, hv, hblank, -⟩ := h.starts
  have hread := h.reads rest hrest
  have hc : c ≠ ascii 'n' := by
    intro hc
    simp [hv, hc] at hn
  rw [hv, List.cons_append] at hread ⊢
  simp only [readOptional, skipBlanks_cons hblank, if_neg hc, hread]
  rfl

/-- A field whose values, once put into a record, leave it with a property. -/
def Field.Preserves (f : Field α) (P : α → Prop) : Prop :=
  ∀ bs put rest, f.read bs = .ok (put, rest) → ∀ a, P a → P (put a)

theorem preserves_mandatory {P : α → Prop} {name : String} {read : Bytes → Read β}
    {put : β → α → α} (h : ∀ bs b rest, read bs = .ok (b, rest) → ∀ a, P a → P (put b a)) :
    (Field.mandatory name read put).Preserves P := by
  intro bs put' rest hread a ha
  replace hread : (read bs).map (fun x => (put x.1, x.2)) = .ok (put', rest) := hread
  cases hb : read bs with
  | error e =>
    rw [hb] at hread
    cases hread
  | ok x =>
    rw [hb] at hread
    cases hread
    exact h bs x.1 x.2 hb a ha

theorem preserves_optional {P : α → Prop} {name : String} {read : Bytes → Read β}
    {put : β → α → α} (h : ∀ bs b rest, read bs = .ok (b, rest) → ∀ a, P a → P (put b a)) :
    (Field.optional name read put).Preserves P := by
  have hmandatory : (Field.mandatory name read put).Preserves P := preserves_mandatory h
  exact hmandatory

/-! ### Members -/

/-- A written member. -/
def member (m : String × Bytes) : Bytes := text m.1 ++ ascii ':' :: m.2

/-- A written member as a member of an object; there are no blanks in it. -/
def bareMember (m : String × Bytes) : Member where
  before := .none
  name := (utf8 m.1).flatMap escapeByte
  beforeColon := .none
  beforeValue := .none
  value := m.2
  after := .none

theorem object_eq_enclosed (ms : List (String × Bytes)) :
    object ms = enclosed .object .none ((ms.map bareMember).map Member.item) := by
  have hitem : Member.item ∘ bareMember = Item.bare ∘ member := rfl
  rw [List.map_map, hitem, ← List.map_map, enclosed_bare]
  rfl

theorem object_append (ms : List (String × Bytes)) (rest : Bytes) :
    object ms ++ rest = ascii '\x7b' :: (separated (ms.map member) ++ ascii '\x7d' :: rest) := by
  simp only [object, List.cons_append, List.append_assoc]
  rfl

/-- What stands behind the name of a member. -/
def Member.behind (m : Member) (rest : Bytes) : Bytes :=
  m.beforeColon.bytes ++ ascii ':' :: (m.beforeValue.bytes ++ (m.value ++ rest))

theorem Member.content_append (m : Member) (rest : Bytes) :
    m.content ++ rest = ascii '"' :: (m.name ++ ascii '"' :: m.behind rest) := by
  simp [content, quote, behind]

section NextMember

variable (g : Gap) (rest : Bytes)

theorem nextMember_content (m : Member) : nextMember true (g.bytes ++ (m.content ++ rest)) =
    (quoted (m.name ++ ascii '"' :: m.behind rest)).map fun (s, rest) => (some s, rest) := by
  rw [nextMember, skipBlanks_gap, m.content_append, skipBlanks_cons (by decide)]
  rfl

theorem nextMember_comma (g' : Gap) (m : Member) :
    nextMember false (g.bytes ++ ascii ',' :: (g'.bytes ++ (m.content ++ rest))) =
      (quoted (m.name ++ ascii '"' :: m.behind rest)).map fun (s, rest) => (some s, rest) := by
  rw [nextMember, skipBlanks_gap, skipBlanks_cons (by decide)]
  simp only [skipBlanks_gap, m.content_append,
    skipBlanks_cons (show isBlank (ascii '"') = false by decide)]
  rfl

/-- The next member of an object is found behind whatever leads to it. -/
theorem nextMember_remaining (first : Bool) (m : Member) (items : List Item) :
    nextMember first (g.bytes ++ remaining .object first (m.item :: items) rest) =
      (quoted (m.name ++ ascii '"' ::
        m.behind (m.after.bytes ++ remaining .object false items rest))).map
          fun (s, rest) => (some s, rest) := by
  cases first with
  | true =>
    have hfirst := nextMember_content m.before (m.after.bytes ++ remaining .object false items rest) m
    rw [nextMember] at hfirst
    rw [nextMember, remaining_first, skipBlanks_gap]
    exact hfirst
  | false =>
    rw [remaining_more]
    exact nextMember_comma g _ m.before m

theorem nextMember_first (m : String × Bytes) (rest : Bytes) :
    nextMember true (member m ++ rest) = .ok (some m.1, ascii ':' :: (m.2 ++ rest)) := by
  have hnext := nextMember_content .none rest (bareMember m)
  rwa [show (bareMember m).name = (utf8 m.1).flatMap escapeByte from rfl, quoted_written] at hnext

theorem nextMember_more (m : String × Bytes) (rest : Bytes) :
    nextMember false (ascii ',' :: (member m ++ rest)) =
      .ok (some m.1, ascii ':' :: (m.2 ++ rest)) := by
  have hnext := nextMember_comma .none rest .none (bareMember m)
  rwa [show (bareMember m).name = (utf8 m.1).flatMap escapeByte from rfl, quoted_written] at hnext

theorem nextMember_end (first : Bool) :
    nextMember first (g.bytes ++ remaining .object first [] rest) =
      .ok (none, ascii '\x7d' :: rest) := by
  rw [nextMember, remaining_nil, skipBlanks_gap, skipBlanks_cons (by decide)]
  rfl

end NextMember

theorem colon_behind (m : Member) (rest : Bytes) :
    colon (m.behind rest) = .ok (m.beforeValue.bytes ++ (m.value ++ rest)) := by
  rw [colon, Member.behind, skipBlanks_gap, skipBlanks_cons (by decide)]
  rfl

theorem colon_cons (rest : Bytes) : colon (ascii ':' :: rest) = .ok rest := by
  rw [colon, skipBlanks_cons (by decide)]
  rfl

/-- The bytes between two quotes are a text. -/
def Names (raw : Bytes) (name : String) : Prop :=
  ∀ rest, quoted (raw ++ ascii '"' :: rest) = .ok (name, rest)

/-! ### Records -/

/-- Filling a record, of which the fields `seen` have been given, with written members. -/
inductive Fills (layout : Layout α) : α → List String → List (String × Bytes) → α → Prop
  | done {a : α} {seen : List String} : layout.isComplete seen = true → Fills layout a seen [] a
  | field {a a' : α} {seen : List String} {name : String} {v : Bytes} {ms : List (String × Bytes)}
      {f : Field α} {put : α → α} : layout.fields.find? (·.name == name) = some f →
      seen.contains name = false → Reads f.read v put → Fills layout (put a) (name :: seen) ms a' →
      Fills layout a seen ((name, v) :: ms) a'

/-- Filling a record, of which the fields `seen` have been given, with any members of an object. A
member that is no field is ignored. -/
inductive Takes (layout : Layout α) : α → List String → List Member → α → Prop
  | done {a : α} {seen : List String} : layout.isComplete seen = true → Takes layout a seen [] a
  | field {a a' : α} {seen : List String} {name : String} {m : Member} {ms : List Member}
      {f : Field α} {put : α → α} : Names m.name name →
      layout.fields.find? (·.name == name) = some f → seen.contains name = false →
      (∀ rest, Stops rest → f.read (m.beforeValue.bytes ++ (m.value ++ rest)) = .ok (put, rest)) →
      Takes layout (put a) (name :: seen) ms a' → Takes layout a seen (m :: ms) a'
  | unknown {a a' : α} {seen : List String} {name : String} {m : Member} {ms : List Member} :
      Names m.name name → layout.fields.find? (·.name == name) = none →
      (∀ rest, Stops rest →
        skip .ignored (m.beforeValue.bytes ++ (m.value ++ rest)) = .ok rest) →
      Takes layout a seen ms a' → Takes layout a seen (m :: ms) a'

/-- Written members fill a record as they stand. -/
theorem Fills.takes {layout : Layout α} {a a' : α} {seen : List String}
    {ms : List (String × Bytes)} (h : Fills layout a seen ms a') :
    Takes layout a seen (ms.map bareMember) a' := by
  induction h with
  | done hdone => exact .done hdone
  | @field a a' seen name v ms f put hf hseen hv _ ih =>
    exact .field (quoted_written name) hf hseen hv.reads ih

namespace Layout

variable {layout : Layout α}

/-- The rest of an object is read by induction on the members that are left. -/
theorem members_remaining {a a' : α} {seen : List String} {ms : List Member}
    (h : Takes layout a seen ms a') (rest : Bytes) :
    ∀ (bound : Bytes) (first : Bool) (gap : Gap), ms.length < bound.length →
      layout.members bound first (a, seen)
        (gap.bytes ++ remaining .object first (ms.map Member.item) rest) = .ok (a', rest) := by
  induction h with
  | @done a seen hdone =>
    intro bound first gap hbound
    cases bound with
    | nil => simp at hbound
    | cons x bound =>
      rw [List.map_nil, members, nextMember_end]
      show (if layout.isComplete seen = true then _ else _) = _
      rw [if_pos hdone]
      rfl
  | @field a a' seen name m ms f put hname hf hseen hv _ ih =>
    intro bound first gap hbound
    cases bound with
    | nil => simp at hbound
    | cons x bound =>
      have hread := hv _ (stops_gap m.after (stops_remaining .object (ms.map Member.item) rest))
      rw [List.map_cons, members, nextMember_remaining, hname]
      simp only [Except.map, hf, hseen, colon_behind]
      rw [hread]
      exact ih bound false m.after (by simpa using hbound)
  | @unknown a a' seen name m ms hname hf hv _ ih =>
    intro bound first gap hbound
    cases bound with
    | nil => simp at hbound
    | cons x bound =>
      have hskip := hv _ (stops_gap m.after (stops_remaining .object (ms.map Member.item) rest))
      rw [List.map_cons, members, nextMember_remaining, hname]
      simp only [Except.map, hf, colon_behind]
      rw [hskip]
      exact ih bound false m.after (by simpa using hbound)

/-- Blanks in front of a record make no difference. -/
theorem read_gap (g : Gap) (bs : Bytes) : layout.read (g.bytes ++ bs) = layout.read bs := by
  rw [Layout.read, Layout.read, skipBlanks_gap]

/-- **An object is read** as the record that its members fill. -/
theorem reads_enclosed {ms : List Member} {a : α} (h : Takes layout layout.blank [] ms a)
    (inside : Gap) : Reads layout.read (enclosed .object inside (ms.map Member.item)) a := by
  refine ⟨⟨_, _, rfl, by decide, by decide⟩, fun rest _ => ?_⟩
  have hbound : ms.length <
      (inside.bytes ++ remaining .object true (ms.map Member.item) rest).length := by
    have hne : ∀ i ∈ ms.map Member.item, i.content ≠ [] := by
      simp [Member.item, Member.content, quote]
    have hlength := length_lt_remaining .object rest true hne
    rw [List.length_map] at hlength
    rw [List.length_append]
    omega
  rw [enclosed_append, Layout.read, skipBlanks_cons (by decide)]
  exact members_remaining h rest _ true inside hbound

/-- **A written object is read back** as the record that its members fill. -/
theorem reads_object {ms : List (String × Bytes)} {a : α} (h : Fills layout layout.blank [] ms a) :
    Reads layout.read (object ms) a := by
  rw [object_eq_enclosed]
  exact reads_enclosed h.takes .none

/-! ### Every record that is read -/

variable {P : α → Prop}

theorem of_members_eq_ok (h : ∀ f ∈ layout.fields, f.Preserves P) :
    ∀ (bound : Bytes) (first : Bool) (a a' : α) (seen : List String) (bs rest : Bytes), P a →
      layout.members bound first (a, seen) bs = .ok (a', rest) → P a' := by
  intro bound
  induction bound with
  | nil =>
    intro first a a' seen bs rest _ hread
    cases hread
  | cons x bound ih =>
    intro first a a' seen bs rest ha hread
    rw [members] at hread
    split at hread
    · cases hread
    · next rest₁ _ =>
      split at hread
      · cases hend : endObject rest₁ with
        | error e =>
          rw [hend] at hread
          cases hread
        | ok rest₂ =>
          rw [hend] at hread
          cases hread
          exact ha
      · cases hread
    · split at hread
      · -- a member that is no field is skipped
        split at hread
        · cases hread
        · split at hread
          · cases hread
          · exact ih _ _ _ _ _ _ ha hread
      · next f hf =>
        split at hread
        · cases hread
        · split at hread
          · cases hread
          · split at hread
            · cases hread
            · next put rest₂ hput =>
              exact ih _ _ _ _ _ _ (h f (List.mem_of_find?_eq_some hf) _ put _ hput a ha) hread

theorem of_positional_eq_ok {fields : List (Field α)} (h : ∀ f ∈ fields, f.Preserves P) :
    ∀ (first : Bool) (a a' : α) (bs rest : Bytes), P a →
      positional fields first a bs = .ok (a', rest) → P a' := by
  induction fields with
  | nil =>
    intro first a a' bs rest ha hread
    rw [positional] at hread
    cases hend : endList bs with
    | error e =>
      rw [hend] at hread
      cases hread
    | ok rest₁ =>
      rw [hend] at hread
      cases hread
      exact ha
  | cons f fields ih =>
    have ih := ih fun g hg => h g (List.mem_cons_of_mem _ hg)
    intro first a a' bs rest ha hread
    rw [positional] at hread
    split at hread
    · cases hread
    · split at hread
      · cases hread
      · exact ih _ _ _ _ _ ha hread
    · split at hread
      · cases hread
      · next put rest₁ hput => exact ih _ _ _ _ _ (h f (by simp) _ put _ hput a ha) hread

/-- **What holds of the blank record and is kept by every field holds of every record read.** -/
theorem of_read_eq_ok (h : ∀ f ∈ layout.fields, f.Preserves P) (hblank : P layout.blank)
    {bs rest : Bytes} {a : α} (hread : layout.read bs = .ok (a, rest)) : P a := by
  rw [Layout.read] at hread
  split at hread
  · cases hread
  · split at hread
    · exact of_members_eq_ok h _ _ _ _ _ _ _ hblank hread
    · split at hread
      · exact of_positional_eq_ok h _ _ _ _ _ hblank hread
      · cases hread

end Layout

/-- A byte string that is a written value and nothing else. -/
theorem readAll_of_reads {read : Bytes → Read α} {v : Bytes} {a : α} (h : Reads read v a) :
    readAll read v = .ok a := by
  have hread := h.reads [] stops_nil
  rw [List.append_nil] at hread
  rw [readAll, hread]
  rfl

end Strongroom.Json
