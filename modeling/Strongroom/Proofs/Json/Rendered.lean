import Mathlib.Data.List.Nodup
import Strongroom.Proofs.Json.Values

/-!
# Records in any rendering

A record can be written in many ways.  Its fields may stand in any order, empty ones may be left
out, and members that are no fields may stand between them with any values; there may be blanks
wherever the grammar allows them, and texts may be escaped at will (`Renders`, `IsObject`).  All
these byte strings are read as the same record, and an object that gives a field twice is not read
at all (`ReadsAnyRendering`).

A record is looked at as the table of its fields (`Tabulates`).  While an object is read, the table
of the partial record is that of the whole one, with blanks for the fields that have not come yet,

    fields a  =  (fields v).map (masked seen),

and each member keeps this.  What is left blank at the end is what was empty anyhow.
-/

namespace Strongroom.Json

/-! ### Contents of fields -/

/-- What a field of a message holds. -/
inductive Content where
  | text (s : String)
  | flag (b : Bool)
  | texts (ss : List String)

/-- The bytes are a text in quotes, in any spelling. -/
def QuotesText (w : Bytes) (s : String) : Prop := ∃ raw, w = quote raw ∧ Spells s.toList raw

namespace Content

/-- What a field of the same kind holds that has been left out. -/
def blank : Content → Content
  | .text _ => .text ""
  | .flag _ => .flag false
  | .texts _ => .texts []

/-- The bytes are a value with this content, in any spelling. -/
def SpelledBy : Content → Bytes → Prop
  | .text s, w => QuotesText w s
  | .flag b, w => w = bool b
  | .texts ss, w => ∃ inside items, w = enclosed .list inside items ∧
      List.Forall₂ (fun i s => QuotesText (Item.content i) s) items ss

/-- A content as it is written. -/
def written : Content → Bytes
  | .text s => Json.text s
  | .flag b => bool b
  | .texts ss => list (ss.map Json.text)

theorem spelledBy_written (c : Content) : c.SpelledBy c.written := by
  cases c with
  | text s => exact ⟨_, rfl, spells_written s⟩
  | flag b => rfl
  | texts ss =>
    refine ⟨.none, (ss.map Json.text).map .bare, (enclosed_bare .list _).symm, ?_⟩
    rw [List.map_map, List.forall₂_map_left_iff, List.forall₂_same]
    intro s _
    exact ⟨_, rfl, spells_written s⟩

end Content

theorem QuotesText.reads {w : Bytes} {s : String} (h : QuotesText w s) : Reads readText w s := by
  obtain ⟨raw, rfl, hspells⟩ := h
  exact reads_quote hspells

/-! ### Renderings -/

/-- The members of an object, each with the text that its name spells, give the fields of a record:
each field once at most, with its content, and a field that is left out is empty. The members that
are no fields are any values. -/
structure Renders (fields : List (String × Content)) (ms : List (String × Member)) : Prop where
  named : ∀ m ∈ ms, Spells m.1.toList m.2.name
  given : ∀ m ∈ ms, ∀ c, (m.1, c) ∈ fields → c.SpelledBy m.2.value
  unknown : ∀ m ∈ ms, (∀ c, (m.1, c) ∉ fields) → IsValue m.2.value
  once : ∀ field ∈ fields, (ms.map (·.1)).count field.1 ≤ 1
  omitted : ∀ field ∈ fields, field.1 ∉ ms.map (·.1) → field.2 = field.2.blank

/-- Two members of an object have the same name. -/
def Repeats (name : String) (ms : List Member) : Prop :=
  ∃ before m between m' after, ms = before ++ m :: (between ++ m' :: after) ∧
    Spells name.toList m.name ∧ Spells name.toList m'.name

variable {α : Type}

/-- Records are read from all their renderings, of which there are some, and from no object that
repeats a field. -/
structure ReadsAnyRendering (layout : Layout α) (fields : α → List (String × Content)) : Prop where
  exists_rendering : ∀ v : α, ∃ ms bs, Renders (fields v) ms ∧ IsObject (ms.map (·.2)) bs
  reads : ∀ (v : α) (ms : List (String × Member)) (bs : Bytes), Renders (fields v) ms →
    IsObject (ms.map (·.2)) bs → readAll layout.read bs = .ok v
  refuses : ∀ (ms : List Member) (bs : Bytes), (∀ m ∈ ms, IsText m.name) →
    (∀ m ∈ ms, IsValue m.value) → IsObject ms bs →
    ∀ f ∈ layout.fields, Repeats f.name ms → ∃ e, readAll layout.read bs = .error e

/-! ### Records as tables -/

/-- A row of a table is the content of a field: whatever spells the content is read as the field,
and putting it into a record changes this row of its table and no other. -/
def IsRow (layout : Layout α) (fields : α → List (String × Content)) (x : String × Content) :
    Prop :=
  ∃ f put, layout.fields.find? (·.name == x.1) = some f ∧
    (∀ (g : Gap) w, x.2.SpelledBy w → ∀ rest, Stops rest →
      f.read (g.bytes ++ (w ++ rest)) = .ok (put, rest)) ∧
    ∀ a, fields (put a) = (fields a).map fun y => if y.1 = x.1 then x else y

/-- The fields of a layout are read as the contents in a table of the record. -/
structure Tabulates (layout : Layout α) (fields : α → List (String × Content)) : Prop where
  optional : ∀ f ∈ layout.fields, f.required = false
  names : ∀ v, (fields v).map (·.1) = layout.fields.map (·.name)
  nodup : (layout.fields.map (·.name)).Nodup
  ext : ∀ v v', fields v = fields v' → v = v'
  blank : ∀ v, fields layout.blank = (fields v).map fun x => (x.1, x.2.blank)
  rows : ∀ v, ∀ x ∈ fields v, IsRow layout fields x
  ends : ∀ f ∈ layout.fields, EndsValues f.read

/-- A row of a table, left blank unless its field has been given. -/
def masked (seen : List String) (x : String × Content) : String × Content :=
  if x.1 ∈ seen then x else (x.1, x.2.blank)

theorem masked_fst (seen : List String) (x : String × Content) : (masked seen x).1 = x.1 := by
  rw [masked]
  split <;> rfl

namespace Tabulates

variable {layout : Layout α} {fields : α → List (String × Content)}

/-- A name has one row. -/
theorem eq_of_fst_eq (h : Tabulates layout fields) {v : α} {x y : String × Content}
    (hx : x ∈ fields v) (hy : y ∈ fields v) (heq : x.1 = y.1) : x = y := by
  have hnodup := h.nodup
  rw [← h.names v] at hnodup
  exact List.inj_on_of_nodup_map hnodup hx hy heq

theorem find?_eq_none (h : Tabulates layout fields) {v : α} {name : String}
    (hname : ∀ c, (name, c) ∉ fields v) : layout.fields.find? (·.name == name) = none := by
  rw [List.find?_eq_none]
  intro f hf heq
  have hmem : name ∈ (fields v).map (·.1) := by
    rw [h.names, List.mem_map]
    exact ⟨f, hf, by simpa using heq⟩
  obtain ⟨⟨n, c⟩, hc, rfl⟩ := List.mem_map.1 hmem
  exact hname c hc

/-- The fields as they are written are a rendering. -/
theorem renders_written (h : Tabulates layout fields) (v : α) :
    Renders (fields v) ((fields v).map fun x => (x.1, bareMember (x.1, x.2.written))) := by
  have hfst : ((fields v).map fun x => (x.1, bareMember (x.1, x.2.written))).map (·.1) =
      (fields v).map (·.1) := by
    rw [List.map_map]
    rfl
  have hnodup : ((fields v).map (·.1)).Nodup := by
    rw [h.names]
    exact h.nodup
  refine ⟨?_, ?_, ?_, ?_, ?_⟩
  · intro m hm
    obtain ⟨x, -, rfl⟩ := List.mem_map.1 hm
    exact spells_written x.1
  · intro m hm c hc
    obtain ⟨x, hx, rfl⟩ := List.mem_map.1 hm
    obtain rfl := congrArg (·.2) (h.eq_of_fst_eq hx hc rfl)
    exact x.2.spelledBy_written
  · intro m hm hnot
    obtain ⟨x, hx, rfl⟩ := List.mem_map.1 hm
    exact absurd hx (hnot x.2)
  · intro x _
    rw [hfst]
    exact List.nodup_iff_count_le_one.1 hnodup x.1
  · intro x hx hnot
    rw [hfst] at hnot
    exact absurd (List.mem_map_of_mem hx) hnot

/-- The members of a rendering fill the record, by induction on the members that are left. -/
theorem takes (h : Tabulates layout fields) {v : α} {ms : List (String × Member)}
    (hnamed : ∀ m ∈ ms, Spells m.1.toList m.2.name)
    (hgiven : ∀ m ∈ ms, ∀ c, (m.1, c) ∈ fields v → c.SpelledBy m.2.value)
    (hunknown : ∀ m ∈ ms, (∀ c, (m.1, c) ∉ fields v) → IsValue m.2.value) {a : α}
    {seen : List String} (ha : fields a = (fields v).map (masked seen))
    (honce : ∀ x ∈ fields v, (ms.map (·.1) ++ seen).count x.1 ≤ 1)
    (homitted : ∀ x ∈ fields v, x.1 ∉ ms.map (·.1) ++ seen → x.2 = x.2.blank) :
    Takes layout a seen (ms.map (·.2)) v := by
  induction ms generalizing a seen with
  | nil =>
    have hall : (fields v).map (masked seen) = fields v := by
      conv_rhs => rw [← List.map_id (fields v)]
      refine List.map_congr_left ?_
      intro x hx
      rw [masked]
      split
      · rfl
      · next hseen =>
        rw [← homitted x hx (by simpa using hseen)]
        rfl
    obtain rfl := h.ext a v (ha.trans hall)
    refine .done ?_
    rw [Layout.isComplete, List.all_eq_true]
    intro f hf
    rw [h.optional f hf]
    rfl
  | cons m ms ih =>
    obtain ⟨name, m⟩ := m
    have hname : Names m.name name := (hnamed (name, m) (by simp)).quoted
    have hrest := fun {a : α} {seen : List String} =>
      @ih (fun x hx => hnamed x (by simp [hx])) (fun x hx => hgiven x (by simp [hx]))
        (fun x hx => hunknown x (by simp [hx])) a seen
    by_cases hknown : ∃ c, (name, c) ∈ fields v
    · obtain ⟨c, hc⟩ := hknown
      obtain ⟨f, put, hf, hread, hput⟩ := h.rows v (name, c) hc
      have hspelled := hgiven (name, m) (by simp) c hc
      have hseen : name ∉ seen := by
        have hcount := honce (name, c) hc
        intro hmem
        have hpos := List.count_pos_iff.2 hmem
        simp only [List.map_cons, List.cons_append, List.count_cons_self, List.count_append]
          at hcount
        omega
      refine .field hname hf (by simpa using hseen) (hread m.beforeValue m.value hspelled)
        (hrest ?_ ?_ ?_)
      · rw [hput, ha, List.map_map]
        refine List.map_congr_left ?_
        intro y hy
        rw [Function.comp_apply, masked_fst]
        split
        · next heq =>
          rw [h.eq_of_fst_eq hy hc heq, masked, if_pos (by simp)]
        · next hne =>
          rw [masked, masked]
          simp [hne]
      · intro x hx
        have hperm : (ms.map (·.1) ++ name :: seen).Perm (name :: ms.map (·.1) ++ seen) :=
          List.perm_middle
        rw [hperm.count_eq]
        exact honce x hx
      · intro x hx hnot
        refine homitted x hx ?_
        simpa [or_left_comm] using hnot
    · have hvalue := hunknown (name, m) (by simp) fun c hc => hknown ⟨c, hc⟩
      refine .unknown hname (h.find?_eq_none fun c hc => hknown ⟨c, hc⟩) ?_ (hrest ha ?_ ?_)
      · intro rest hrest
        exact hvalue.skip m.beforeValue hrest
      · intro x hx
        have hcount := honce x hx
        simp only [List.map_cons, List.cons_append, List.count_cons] at hcount
        omega
      · intro x hx hnot
        refine homitted x hx ?_
        have hne : x.1 ≠ name := by
          rintro rfl
          exact hknown ⟨x.2, hx⟩
        simpa [hne] using hnot

/-- **A record is read from each of its renderings.** -/
theorem readAll_eq_ok (h : Tabulates layout fields) {v : α} {ms : List (String × Member)}
    {bs : Bytes} (hms : Renders (fields v) ms) (hbs : IsObject (ms.map (·.2)) bs) :
    readAll layout.read bs = .ok v := by
  obtain ⟨lead, inside, trail, rfl⟩ := hbs
  have hblank : fields layout.blank = (fields v).map (masked []) := by
    rw [h.blank v]
    refine List.map_congr_left ?_
    intro x _
    rw [masked, if_neg (by simp)]
  have htakes : Takes layout layout.blank [] (ms.map (·.2)) v :=
    h.takes hms.named hms.given hms.unknown hblank (by simpa using hms.once)
      (by simpa using hms.omitted)
  have hend : trail.bytes = trail.bytes ++ [] := (List.append_nil _).symm
  have hstops : Stops trail.bytes := by
    rw [hend]
    exact stops_gap trail stops_nil
  have hread := (Layout.reads_enclosed htakes inside).reads trail.bytes hstops
  rw [readAll, Layout.read_gap, hread]
  show (if (skipBlanks trail.bytes).isEmpty = true then _ else _) = _
  rw [hend, skipBlanks_gap]
  rfl

end Tabulates

/-! ### Fields that stand twice -/

/-- Some bytes with these members left are read, when the fields `seen` have been given. -/
def Accepts (layout : Layout α) (seen : List String) (ms : List Member) : Prop :=
  ∃ bound first a gap rest x, layout.members bound first (a, seen)
    (Gap.bytes gap ++ remaining .object first (ms.map Member.item) rest) = .ok x

namespace Accepts

variable {layout : Layout α} {seen : List String} {m : Member} {ms : List Member}

/-- One member in front of the others: if it is a field, it has not been given before, and has been
given then. -/
theorem step (hends : ∀ f ∈ layout.fields, EndsValues f.read) (hname : IsText m.name)
    (hvalue : IsValue m.value) (h : Accepts layout seen (m :: ms)) :
    ∃ seen', Accepts layout seen' ms ∧ (∀ n ∈ seen, n ∈ seen') ∧
      ∀ f ∈ layout.fields, Spells f.name.toList m.name → f.name ∉ seen ∧ f.name ∈ seen' := by
  obtain ⟨bound, first, a, gap, rest, x, h⟩ := h
  have hstops := stops_gap m.after (stops_remaining .object (ms.map Member.item) rest)
  cases bound with
  | nil => cases h
  | cons y bound =>
    rw [List.map_cons, Layout.members, nextMember_remaining] at h
    cases hquoted : quoted (m.name ++ ascii '"' ::
        m.behind (m.after.bytes ++ remaining .object false (ms.map Member.item) rest)) with
    | error e =>
      rw [hquoted] at h
      cases h
    | ok found =>
      obtain ⟨name, rest₁⟩ := found
      obtain rfl := hname.rest_eq hquoted
      have hfield : ∀ f ∈ layout.fields, Spells f.name.toList m.name → f.name = name := by
        intro f _ hspells
        rw [hspells.quoted] at hquoted
        exact (Prod.mk.inj (Except.ok.inj hquoted)).1
      rw [hquoted] at h
      simp only [Except.map, colon_behind] at h
      split at h
      · next hf =>
        -- a member that is no field leaves things as they are
        rw [hvalue.skip m.beforeValue hstops] at h
        refine ⟨seen, ⟨bound, false, a, m.after, rest, x, h⟩, fun n hn => hn, ?_⟩
        intro f hmem hspells
        have hne := List.find?_eq_none.1 hf f hmem
        rw [hfield f hmem hspells] at hne
        simp at hne
      · next f hf =>
        split at h
        · cases h
        · next hseen =>
          split at h
          · cases h
          · next put rest₂ hread =>
            obtain rfl := hends f (List.mem_of_find?_eq_some hf) m.beforeValue _ _ _ _ hvalue hstops
              hread
            refine ⟨name :: seen, ⟨bound, false, put a, m.after, rest, x, h⟩,
              fun n hn => List.mem_cons_of_mem _ hn, ?_⟩
            intro f' hmem hspells
            rw [hfield f' hmem hspells]
            exact ⟨by simpa using hseen, by simp⟩

/-- A field that has been given does not come again. -/
theorem not_mem (hends : ∀ f ∈ layout.fields, EndsValues f.read)
    (hnames : ∀ m ∈ ms, IsText m.name) (hvalues : ∀ m ∈ ms, IsValue m.value)
    (h : Accepts layout seen ms) {f : Field α} (hf : f ∈ layout.fields) (hseen : f.name ∈ seen) :
    ∀ m ∈ ms, ¬ Spells f.name.toList m.name := by
  induction ms generalizing seen with
  | nil => simp
  | cons m ms ih =>
    obtain ⟨seen', hrest, hmono, hfield⟩ := h.step hends (hnames m (by simp)) (hvalues m (by simp))
    intro m' hm' hspells
    rcases List.mem_cons.1 hm' with rfl | hm'
    · exact (hfield f hf hspells).1 hseen
    · exact ih (fun m hm => hnames m (by simp [hm])) (fun m hm => hvalues m (by simp [hm])) hrest
        (hmono _ hseen) m' hm' hspells

/-- **No field is given twice.** -/
theorem not_repeats (hends : ∀ f ∈ layout.fields, EndsValues f.read)
    (hnames : ∀ m ∈ ms, IsText m.name) (hvalues : ∀ m ∈ ms, IsValue m.value)
    (h : Accepts layout seen ms) {f : Field α} (hf : f ∈ layout.fields) :
    ¬ Repeats f.name ms := by
  rintro ⟨before, m, between, m', after, rfl, hm, hm'⟩
  induction before generalizing seen with
  | nil =>
    obtain ⟨seen', hrest, -, hfield⟩ := h.step hends (hnames m (by simp)) (hvalues m (by simp))
    refine hrest.not_mem hends (fun x hx => hnames x ?_) (fun x hx => hvalues x ?_) hf
      (hfield f hf hm).2 m' (by simp) hm'
    · simp [hx]
    · simp [hx]
  | cons x before ih =>
    obtain ⟨seen', hrest, -⟩ := h.step hends (hnames x (by simp)) (hvalues x (by simp))
    exact ih (fun y hy => hnames y (by simp [hy])) (fun y hy => hvalues y (by simp [hy])) hrest

end Accepts

namespace Tabulates

variable {layout : Layout α} {fields : α → List (String × Content)}

/-- **An object that repeats a field is refused.** -/
theorem readAll_eq_error (h : Tabulates layout fields) {ms : List Member} {bs : Bytes}
    (hnames : ∀ m ∈ ms, IsText m.name) (hvalues : ∀ m ∈ ms, IsValue m.value)
    (hbs : IsObject ms bs) {f : Field α} (hf : f ∈ layout.fields) (hrepeats : Repeats f.name ms) :
    ∃ e, readAll layout.read bs = .error e := by
  obtain ⟨lead, inside, trail, rfl⟩ := hbs
  rw [readAll, Layout.read_gap, enclosed_append, Layout.read, skipBlanks_cons (by decide)]
  show ∃ e, (Layout.members layout _ true (layout.blank, []) _).bind _ = .error e
  cases hread : layout.members
      (inside.bytes ++ remaining .object true (ms.map Member.item) trail.bytes) true
      (layout.blank, []) (inside.bytes ++ remaining .object true (ms.map Member.item) trail.bytes)
      with
  | error e => exact ⟨e, rfl⟩
  | ok x =>
    have haccepts : Accepts layout [] ms := ⟨_, true, _, inside, trail.bytes, x, hread⟩
    exact absurd hrepeats (haccepts.not_repeats h.ends hnames hvalues hf)

/-- Records that are read as tables are read from all their renderings. -/
theorem readsAnyRendering (h : Tabulates layout fields) : ReadsAnyRendering layout fields :=
  ⟨fun v => ⟨_, _, h.renders_written v, .none, .none, .none, rfl⟩, fun _ _ _ => h.readAll_eq_ok,
    fun _ _ hnames hvalues hbs _ => h.readAll_eq_error hnames hvalues hbs⟩

end Tabulates

/-! ### Fields of each kind -/

section Kinds

variable {β : Type} {layout : Layout α} {fields : α → List (String × Content)} {name : String}

theorem isRow_optional {read : Bytes → Read β} {put : β → α → α} {c : Content} {b : β}
    (hfind : layout.fields.find? (·.name == name) = some (.optional name read put))
    (hgap : ∀ (g : Gap) bs, read (g.bytes ++ bs) = read bs)
    (hread : ∀ w, c.SpelledBy w → Reads read w b)
    (hput : ∀ a, fields (put b a) = (fields a).map fun y => if y.1 = name then (name, c) else y) :
    IsRow layout fields (name, c) := by
  refine ⟨_, put b, hfind, ?_, hput⟩
  intro g w hw rest hrest
  show (read (g.bytes ++ (w ++ rest))).map _ = _
  rw [hgap, (hread w hw).reads rest hrest]
  rfl

theorem isRow_text {put : String → α → α} {s : String}
    (hfind : layout.fields.find? (·.name == name) = some (.optional name readText put))
    (hput : ∀ a, fields (put s a) =
      (fields a).map fun y => if y.1 = name then (name, .text s) else y) :
    IsRow layout fields (name, .text s) := by
  refine isRow_optional hfind ?_ (fun w hw => QuotesText.reads hw) hput
  intro g bs
  rw [readText, readText, skipBlanks_gap]

theorem isRow_flag {put : Bool → α → α} {b : Bool}
    (hfind : layout.fields.find? (·.name == name) = some (.optional name readBool put))
    (hput : ∀ a, fields (put b a) =
      (fields a).map fun y => if y.1 = name then (name, .flag b) else y) :
    IsRow layout fields (name, .flag b) := by
  refine isRow_optional hfind ?_ ?_ hput
  · intro g bs
    rw [readBool, readBool, skipBlanks_gap]
  · rintro w rfl
    exact reads_bool b

theorem isRow_texts {put : List String → α → α} {ss : List String}
    (hfind : layout.fields.find? (·.name == name) = some (.optional name (readList readText) put))
    (hput : ∀ a, fields (put ss a) =
      (fields a).map fun y => if y.1 = name then (name, .texts ss) else y) :
    IsRow layout fields (name, .texts ss) := by
  refine isRow_optional hfind ?_ ?_ hput
  · intro g bs
    rw [readList, readList, skipBlanks_gap]
  · rintro w ⟨inside, items, rfl, hitems⟩
    exact reads_enclosed inside (hitems.imp fun _ _ h => h.reads)

theorem endsValues_optional {read : Bytes → Read β} (h : EndsValues read) (name : String)
    (put : β → α → α) : EndsValues (Field.optional name read put).read := by
  intro g w rest put' rest' hw hrest hread
  replace hread : (read (g.bytes ++ (w ++ rest))).map (fun x => (put x.1, x.2)) =
    .ok (put', rest') := hread
  cases hb : read (g.bytes ++ (w ++ rest)) with
  | error e =>
    rw [hb] at hread
    cases hread
  | ok x =>
    rw [hb] at hread
    cases hread
    exact h g w rest x.1 x.2 hw hrest hb

end Kinds

end Strongroom.Json
