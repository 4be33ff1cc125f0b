import Strongroom.Proofs.Json.Skipped

/-!
# Any value

Two things hold of every value of the grammar, whatever it is: `null`, a number of any size, a text
with any escapes, or values within values to any depth.  It is skipped by whoever ignores it
(`IsValue.skip`); and if a typed reader takes something off a byte string that starts with it, the
reader leaves what stands behind the value (`EndsValues`).

There is one lemma for each leaf of the grammar, which says that a reader takes just the leaf off
the front of what follows, and an induction on the value that puts them together
(`IsValue.skips`).  A number has no end of its own, so what stands behind a value must not continue
a number (`Stops`).
-/

namespace Strongroom.Json

variable {w rest : Bytes}

/-! ### Numbers -/

/-- What does not go on with digits. -/
def EndsDigits (rest : Bytes) : Prop := ∀ b ∈ rest.head?, isDigit b = false

theorem endsDigits_cons {b : UInt8} (h : isDigit b = false) (bs : Bytes) :
    EndsDigits (b :: bs) := by
  intro c hc
  obtain rfl : b = c := by simpa using hc
  exact h

theorem Stops.endsDigits (h : Stops rest) : EndsDigits rest := by
  intro b hb
  exact (h.head hb).1

theorem IsDigits.digits {ds : Bytes} (h : IsDigits ds) (hrest : EndsDigits rest) :
    ∃ d ds', ds = d :: ds' ∧ digits (ds ++ rest) = (d :: ds', rest) := by
  obtain ⟨hne, hall⟩ := h
  cases ds with
  | nil => exact absurd rfl hne
  | cons d ds => exact ⟨d, ds, rfl, digits_append hall hrest⟩

theorem IsWhole.wholeDigits (h : IsWhole w) (hrest : EndsDigits rest) :
    wholeDigits (w ++ rest) = .ok (w, rest) := by
  cases h with
  | zero =>
    cases rest with
    | nil => rfl
    | cons b rest =>
      show (if isDigit b = true then _ else _) = _
      rw [hrest b rfl]
      rfl
  | @digits d ds hzero hdigits =>
    rw [List.cons_append, Json.wholeDigits.eq_def]
    simp only [if_neg hzero, hdigits.2 d (by simp), if_true]
    rw [← List.cons_append, digits_append hdigits.2 hrest]

theorem IsExponent.exponent (h : IsExponent w) (hrest : Stops rest) :
    ∃ power, exponent (w ++ rest) = .ok (power, rest) := by
  cases h with
  | absent => exact ⟨_, exponent_stops hrest⟩
  | @digits e sign ds he hsign hdigits =>
    obtain ⟨d, ds', rfl, hread⟩ := hdigits.digits hrest.endsDigits
    have hd : isDigit d = true := hdigits.2 d (by simp)
    have hsigned : ∃ negative, exponentSign (sign ++ (d :: ds' ++ rest)) =
        (negative, d :: ds' ++ rest) := by
      simp only [List.mem_cons, List.not_mem_nil, or_false] at hsign
      rcases hsign with rfl | rfl | rfl
      · refine ⟨false, ?_⟩
        have hplus : d ≠ ascii '+' := by rintro rfl; revert hd; decide
        have hminus : d ≠ ascii '-' := by rintro rfl; revert hd; decide
        show (if d = ascii '+' then _ else if d = ascii '-' then _ else _) = _
        rw [if_neg hplus, if_neg hminus]
        rfl
      · exact ⟨false, rfl⟩
      · exact ⟨true, rfl⟩
    obtain ⟨negative, hsigned⟩ := hsigned
    refine ⟨some (if negative then -(exponentValue (d :: ds') : Int) else exponentValue (d :: ds')),
      ?_⟩
    rw [List.cons_append, List.append_assoc, Json.exponent, if_pos he]
    simp only [hsigned, hread]

theorem IsExponent.head (h : IsExponent w) (hrest : Stops rest) :
    EndsDigits (w ++ rest) ∧ ∀ b ∈ (w ++ rest).head?, b ≠ ascii '.' := by
  cases h with
  | absent =>
    refine ⟨hrest.endsDigits, ?_⟩
    intro b hb
    exact (hrest.head hb).2.1
  | digits he =>
    refine ⟨?_, ?_⟩
    · rw [List.cons_append]
      refine endsDigits_cons ?_ _
      rcases he with rfl | rfl <;> decide
    · intro b hb
      obtain rfl := Option.some.inj hb
      rcases he with rfl | rfl <;> decide

theorem IsFraction.fraction (h : IsFraction w) (hrest : EndsDigits rest)
    (hpoint : ∀ b ∈ rest.head?, b ≠ ascii '.') :
    ∃ ds, fraction (w ++ rest) = .ok (ds, rest) := by
  cases h with
  | absent =>
    refine ⟨[], ?_⟩
    cases rest with
    | nil => rfl
    | cons b rest => exact if_neg (hpoint b rfl)
  | digits hdigits =>
    obtain ⟨d, ds', rfl, hread⟩ := hdigits.digits hrest
    refine ⟨d :: ds', ?_⟩
    rw [List.cons_append, Json.fraction, if_pos rfl, hread]

theorem IsFraction.endsDigits (h : IsFraction w) (hrest : EndsDigits rest) :
    EndsDigits (w ++ rest) := by
  cases h with
  | absent => exact hrest
  | digits => exact endsDigits_cons (by decide) _

/-- A number of any size is skipped. -/
theorem IsNumber.skipNumeral (h : IsNumber w) (hrest : Stops rest) :
    skipNumeral (w ++ rest) = .ok rest := by
  cases h with
  | @mk sign whole fraction exponent hsign hwhole hfraction hexponent =>
    obtain ⟨hends, hpoint⟩ := hexponent.head hrest
    have hread := hwhole.wholeDigits (hfraction.endsDigits hends)
    obtain ⟨ds, hfractional⟩ := hfraction.fraction hends hpoint
    obtain ⟨power, hpower⟩ := hexponent.exponent hrest
    obtain ⟨d, whole', rfl, hd⟩ := hwhole.starts
    have hminus : d ≠ ascii '-' := by rintro rfl; revert hd; decide
    simp only [List.mem_cons, List.not_mem_nil, or_false] at hsign
    simp only [List.append_assoc, List.cons_append] at hread ⊢
    rcases hsign with rfl | rfl
    · rw [List.nil_append, Json.skipNumeral]
      simp only [if_neg hminus, hread, hfractional, hpower, bind, Except.bind]
    · rw [List.cons_append, List.nil_append, Json.skipNumeral]
      simp only [if_true, hread, hfractional, hpower, bind, Except.bind]

/-! ### Ignored values -/

theorem skipWithin_number (h : IsNumber w) (hrest : Stops rest) (x : UInt8) (bound : Bytes)
    (frames : List Frame) : skipWithin .ignored (x :: bound) .value frames (w ++ rest) =
      skipWithin .ignored bound .continued frames rest := by
  have hskip := h.skipNumeral hrest
  obtain ⟨b, bs, rfl, hb⟩ := h.starts
  have hstart : isBlank b = false ∧ b ≠ ascii 'n' ∧ b ≠ ascii 't' ∧ b ≠ ascii 'f' := by
    rcases hb with rfl | hb
    · decide
    · refine ⟨(starts_of_isDigit hb).1, ?_, ?_, ?_⟩ <;> (rintro rfl; revert hb; decide)
  obtain ⟨hblank, hn, ht, hf⟩ := hstart
  rw [List.cons_append] at hskip ⊢
  rw [skipWithin.eq_def]
  simp only [skipBlanks_cons hblank, if_neg hn, if_neg ht, if_neg hf, if_pos hb, Care.skipNumber,
    hskip]

/-- **Any value is skipped by whoever ignores it**, to whatever depth it nests. -/
theorem IsValue.skips (h : IsValue w) : SkipsBefore Stops .ignored .value 0 w := by
  induction h with
  | null =>
    refine ⟨1, by decide, ?_⟩
    intro bound frames rest hbound _ _
    obtain ⟨x, later, rfl, -⟩ := exists_cons hbound
    rfl
  | bool b => exact (skips_bool .ignored b).before Stops
  | number hnumber =>
    refine ⟨1, ?_, ?_⟩
    · obtain ⟨b, bs, rfl, -⟩ := hnumber.starts
      simp
    · intro bound frames rest hbound _ hrest
      obtain ⟨x, later, rfl, -⟩ := exists_cons hbound
      exact skipWithin_number hnumber hrest x later frames
  | text htext =>
    refine ⟨1, by simp [quote], ?_⟩
    intro bound frames rest hbound _ _
    obtain ⟨x, later, rfl, -⟩ := exists_cons hbound
    exact skipWithin_quote .ignored x later rest frames (htext.skipText rest)
  | @list inside items hitems ih =>
    have hskips : Skips .ignored .value (0 + 1) (enclosed .list inside items) := by
      refine skips_enclosed Stops inside (fun i items rest => stops_after .list i items rest) ih ?_
      intro i hi
      exact (hitems i hi).starts
    exact hskips.before Stops
  | @object inside ms hnames hvalues ih =>
    have hskips : Skips .ignored .value (0 + 1) (enclosed .object inside (ms.map Member.item)) := by
      refine skips_enclosed Stops inside (fun i items rest => stops_after .object i items rest)
        ?_ ?_
      · intro i hi
        obtain ⟨m, hm, rfl⟩ := List.mem_map.1 hi
        exact skips_content (hnames m hm).skipText (ih m hm)
      · intro i hi
        obtain ⟨m, -, rfl⟩ := List.mem_map.1 hi
        exact ⟨_, _, rfl, by decide, by decide⟩
    exact hskips.before Stops

/-- Blanks in front of an ignored value are ignored with it. -/
theorem IsValue.skip (h : IsValue w) (g : Gap) (hrest : Stops rest) :
    skip .ignored (g.bytes ++ (w ++ rest)) = .ok rest := by
  obtain ⟨rounds, hrounds, hskip⟩ := h.skips
  have hbound : rounds ≤ (g.bytes ++ (w ++ rest)).length := by
    simp only [List.length_append]
    omega
  rw [Json.skip, skipWithin_gap _ _ _ _ _ (by simp), hskip _ [] rest hbound trivial hrest]
  cases (g.bytes ++ (w ++ rest)).drop rounds <;> rfl

/-! ### Where values end -/

theorem IsNumber.starts_cons {b : UInt8} {bs : Bytes} (h : IsNumber (b :: bs)) :
    b = ascii '-' ∨ isDigit b = true := by
  obtain ⟨c, bs', heq, hc⟩ := h.starts
  rwa [(List.cons.inj heq).1]

/-- A value that starts with a quote is a text. -/
theorem IsValue.of_quote {bs : Bytes} (h : IsValue (ascii '"' :: bs)) :
    ∃ raw, bs = raw ++ [ascii '"'] ∧ IsText raw := by
  generalize hw : ascii '"' :: bs = w at h
  cases h with
  | null => cases hw
  | bool b => cases b <;> cases hw
  | number hnumber =>
    subst hw
    exact absurd hnumber.starts_cons (by decide)
  | @text raw htext => exact ⟨raw, (List.cons.inj hw).2, htext⟩
  | list => cases hw
  | object => cases hw

/-- A value that starts with a bracket is a list. -/
theorem IsValue.of_bracket {bs : Bytes} (h : IsValue (ascii '[' :: bs)) :
    ∃ inside items, ascii '[' :: bs = enclosed .list inside items ∧
      ∀ i ∈ items, IsValue i.content := by
  generalize hw : ascii '[' :: bs = w at h
  cases h with
  | null => cases hw
  | bool b => cases b <;> cases hw
  | number hnumber =>
    subst hw
    exact absurd hnumber.starts_cons (by decide)
  | text => cases hw
  | @list inside items hitems => exact ⟨inside, items, rfl, hitems⟩
  | object => cases hw

/-- A value that starts like a truth value is one. -/
theorem IsValue.of_bool {b : UInt8} {bs : Bytes} (h : IsValue (b :: bs))
    (hb : b = ascii 't' ∨ b = ascii 'f') : ∃ value, b :: bs = Json.bool value := by
  generalize hw : b :: bs = w at h
  cases h with
  | null =>
    cases hw
    exact absurd hb (by decide)
  | bool value => exact ⟨value, rfl⟩
  | number hnumber =>
    subst hw
    have hstart := hnumber.starts_cons
    rcases hb with rfl | rfl <;> exact absurd hstart (by decide)
  | text =>
    cases hw
    exact absurd hb (by decide)
  | list =>
    cases hw
    exact absurd hb (by decide)
  | object =>
    cases hw
    exact absurd hb (by decide)

/-- Whatever a reader takes off a byte string that starts with a value, it leaves what stands behind
the value. -/
def EndsValues {α : Type} (read : Bytes → Read α) : Prop :=
  ∀ (g : Gap) (w rest : Bytes) (a : α) (rest' : Bytes), IsValue w → Stops rest →
    read (g.bytes ++ (w ++ rest)) = .ok (a, rest') → rest' = rest

theorem endsValues_readText : EndsValues readText := by
  intro g w rest s rest' hw _ hread
  obtain ⟨b, bs, rfl, hblank, -⟩ := hw.starts
  rw [readText, skipBlanks_gap, List.cons_append, skipBlanks_cons hblank] at hread
  simp only at hread
  split at hread
  · next hb =>
    subst hb
    obtain ⟨raw, rfl, htext⟩ := hw.of_quote
    rw [List.append_assoc] at hread
    exact htext.rest_eq hread
  · cases hread

theorem endsValues_readBool : EndsValues readBool := by
  intro g w rest value rest' hw hrest hread
  obtain ⟨b, bs, rfl, hblank, -⟩ := hw.starts
  have hstart : b = ascii 't' ∨ b = ascii 'f' := by
    rw [readBool, skipBlanks_gap, List.cons_append, skipBlanks_cons hblank] at hread
    simp only at hread
    split at hread
    · next hb => exact .inl hb
    · split at hread
      · next hb => exact .inr hb
      · cases hread
  obtain ⟨value', hvalue⟩ := hw.of_bool hstart
  have hbool := (reads_bool value').reads rest hrest
  rw [hvalue] at hread
  rw [readBool] at hread hbool
  rw [skipBlanks_gap, hbool] at hread
  exact (Prod.mk.inj (Except.ok.inj hread)).2.symm

section Lists

variable {α : Type} {read : Bytes → Read α}

/-- The rest of a list ends where its values end, by induction on the items that are left. -/
theorem itemsOnto_ends (h : EndsValues read) {items : List Item}
    (hitems : ∀ i ∈ items, IsValue i.content) :
    ∀ (bound : Bytes) (first : Bool) (acc as : List α) (gap : Gap) (rest' : Bytes),
      itemsOnto read bound first acc (gap.bytes ++ remaining .list first items rest) =
        .ok (as, rest') → rest' = rest := by
  induction items with
  | nil =>
    intro bound first acc as gap rest' hread
    cases bound with
    | nil => cases hread
    | cons x bound =>
      rw [itemsOnto, nextItem_end] at hread
      cases hread
      rfl
  | cons i items ih =>
    intro bound first acc as gap rest' hread
    cases bound with
    | nil => cases hread
    | cons x bound =>
      have hi := hitems i (by simp)
      rw [itemsOnto, nextItem_remaining first gap hi.starts] at hread
      simp only at hread
      split at hread
      · cases hread
      · next a rest₁ hitem =>
        obtain rfl := h .none _ _ _ _ hi (stops_after .list i items rest) hitem
        exact ih (fun j hj => hitems j (by simp [hj])) bound false _ as i.after rest' hread

theorem endsValues_readList (h : EndsValues read) : EndsValues (readList read) := by
  intro g w rest as rest' hw _ hread
  obtain ⟨b, bs, rfl, hblank, -⟩ := hw.starts
  rw [readList, skipBlanks_gap, List.cons_append, skipBlanks_cons hblank] at hread
  simp only at hread
  split at hread
  · next hb =>
    subst hb
    obtain ⟨inside, items, hlist, hitems⟩ := hw.of_bracket
    have hbs : bs ++ rest = inside.bytes ++ remaining .list true items rest := by
      have happend := enclosed_append .list items rest inside
      rw [← hlist] at happend
      exact (List.cons.inj happend).2
    rw [hbs] at hread
    exact itemsOnto_ends h hitems _ true [] as inside rest' hread
  · cases hread

end Lists

end Strongroom.Json
