import Strongroom.Proofs.Json.Object

/-!
# Written values are skipped

Whoever skips a value sees nothing but its grammar: no fields, no types, no names.  So where a
written value ends for this reader says something about the bytes alone.  It ends where it was
written to end (`skip_append`), whatever texts it holds and whatever stands behind it, and so it can
be cut off in one piece by somebody who does not know what it is (`reads_piece`).

The reader goes through a value in rounds, each of which takes a byte at least, and it keeps the
frames that are open.  Between two values it is at a place of its own, so a value is skipped inside
any frames by the same rounds (`Skips`),

    value, frames, v ++ rest   →   continued, frames, rest        (in at most v.length rounds),

and lists and objects are skipped by induction on their items.  One statement serves for both: an
object is a frame around its members as a list is one around its values (`skips_enclosed`).
-/

namespace Strongroom.Json

variable {care : Care} {place : Place} {depth : Nat} {v w rest : Bytes}

/-! ### Texts -/

theorem skipText_written (care : Care) (s : String) (rest : Bytes) :
    care.skipText ((utf8 s).flatMap escapeByte ++ ascii '"' :: rest) = .ok rest := by
  cases care with
  | ignored => exact (spells_written s).isText.skipText rest
  | kept room =>
    show (quoted _).map _ = _
    rw [quoted_written]
    rfl

/-! ### One round -/

section Rounds

variable (care : Care) (x : UInt8) (bound rest : Bytes) (frames : List Frame) (frame : Frame)

theorem skipWithin_quote {raw : Bytes} (h : care.skipText (raw ++ ascii '"' :: rest) = .ok rest) :
    skipWithin care (x :: bound) .value frames (quote raw ++ rest) =
      skipWithin care bound .continued frames rest := by
  rw [quote_append, skipWithin.eq_def]
  simp only [skipBlanks_cons (show isBlank (ascii '"') = false by decide), h]
  rfl

theorem skipWithin_bool (b : Bool) :
    skipWithin care (x :: bound) .value frames (bool b ++ rest) =
      skipWithin care bound .continued frames rest := by
  cases b <;> rfl

/-- The name of a member and the colon. -/
theorem skipWithin_name {raw : Bytes} {bs : Bytes}
    (h : care.skipText (raw ++ ascii '"' :: bs) = .ok bs)
    (hcolon : skipBlanks bs = ascii ':' :: rest) :
    skipWithin care (x :: bound) .member frames (quote raw ++ bs) =
      skipWithin care bound .value frames rest := by
  rw [quote_append, skipWithin.eq_def]
  simp only [skipBlanks_cons (show isBlank (ascii '"') = false by decide), h, hcolon]
  rfl

/-- Blanks in front of what is expected make no difference. -/
theorem skipWithin_gap (g : Gap) {place : Place} (h : place = .continued → frames ≠ []) :
    skipWithin care bound place frames (g.bytes ++ rest) =
      skipWithin care bound place frames rest := by
  have hbs := skipBlanks_gap g rest
  rw [skipWithin.eq_def, skipWithin.eq_def care bound place frames rest]
  cases place with
  | value =>
    cases bound <;> simp only [hbs]
    cases skipBlanks rest <;> rfl
  | member =>
    cases bound <;> simp only [hbs]
    cases skipBlanks rest <;> rfl
  | continued =>
    cases frames with
    | nil => exact absurd rfl (h rfl)
    | cons frame frames =>
      cases bound <;> simp only [hbs]
      cases skipBlanks rest <;> rfl

theorem skipWithin_comma :
    skipWithin care (x :: bound) .continued (frame :: frames) (ascii ',' :: rest) =
      skipWithin care bound frame.item (frame :: frames) rest := by
  cases frame <;> rfl

theorem skipWithin_close :
    skipWithin care (x :: bound) .continued (frame :: frames) (frame.close :: rest) =
      skipWithin care bound .continued frames rest := by
  cases frame <;> rfl

theorem skipWithin_opening (hopen : care.mayOpen frames = true) :
    skipWithin care (x :: bound) .value frames (frame.opening :: rest) =
      match skipBlanks rest with
      | [] => .error .truncated
      | c :: rest =>
        if c = frame.close then skipWithin care bound .continued frames rest
        else skipWithin care bound frame.item (frame :: frames) (c :: rest) := by
  have hround : skipWithin care (x :: bound) .value frames (frame.opening :: rest) =
      if care.mayOpen frames = true then
        match skipBlanks rest with
        | [] => .error .truncated
        | c :: rest =>
          if c = frame.close then skipWithin care bound .continued frames rest
          else skipWithin care bound frame.item (frame :: frames) (c :: rest)
      else .error .malformed := by
    cases frame <;> rfl
  rw [hround, if_pos hopen]

end Rounds

/-! ### Whole values -/

/-- A reader that takes this care goes into so many frames. -/
def Care.Enters (care : Care) (frames : Nat) : Prop :=
  match care with
  | .ignored => True
  | .kept room => frames ≤ room

theorem Care.Enters.mayOpen {frames : List Frame} {n : Nat}
    (h : care.Enters (frames.length + (n + 1))) : care.mayOpen frames = true := by
  cases care with
  | ignored => rfl
  | kept room =>
    have hroom : frames.length + (n + 1) ≤ room := h
    exact decide_eq_true (by omega)

/-- Inside one more frame. -/
theorem Care.Enters.inside {frame : Frame} {frames : List Frame} {n : Nat}
    (h : care.Enters (frames.length + (n + 1))) : care.Enters ((frame :: frames).length + n) := by
  rwa [List.length_cons, Nat.add_right_comm]

theorem Care.Enters.mono {m n : Nat} (h : care.Enters n) (hmn : m ≤ n) : care.Enters m := by
  cases care with
  | ignored => trivial
  | kept room => exact Nat.le_trans hmn h

/-- What stands at some place and goes so many frames deep is skipped in at most as many rounds as
it has bytes, in front of bytes of a certain kind. -/
def SkipsBefore (ends : Bytes → Prop) (care : Care) (place : Place) (depth : Nat) (v : Bytes) :
    Prop :=
  ∃ rounds ≤ v.length, ∀ (bound : Bytes) (frames : List Frame) (rest : Bytes),
    rounds ≤ bound.length → care.Enters (frames.length + depth) → ends rest →
    skipWithin care bound place frames (v ++ rest) =
      skipWithin care (bound.drop rounds) .continued frames rest

/-- What stands at some place and goes so many frames deep is skipped in at most as many rounds as
it has bytes. -/
def Skips (care : Care) (place : Place) (depth : Nat) (v : Bytes) : Prop :=
  ∃ rounds ≤ v.length, ∀ (bound : Bytes) (frames : List Frame) (rest : Bytes),
    rounds ≤ bound.length → care.Enters (frames.length + depth) →
    skipWithin care bound place frames (v ++ rest) =
      skipWithin care (bound.drop rounds) .continued frames rest

theorem Skips.before (h : Skips care place depth v) (ends : Bytes → Prop) :
    SkipsBefore ends care place depth v := by
  obtain ⟨rounds, hrounds, hskip⟩ := h
  refine ⟨rounds, hrounds, ?_⟩
  intro bound frames rest hbound henters _
  exact hskip bound frames rest hbound henters

theorem Skips.mono {m : Nat} (h : Skips care place depth v) (hle : depth ≤ m) :
    Skips care place m v := by
  obtain ⟨rounds, hrounds, hskip⟩ := h
  refine ⟨rounds, hrounds, ?_⟩
  intro bound frames rest hbound henters
  exact hskip bound frames rest hbound (henters.mono (by omega))

theorem skips_text (care : Care) (s : String) : Skips care .value 0 (text s) := by
  refine ⟨1, by simp [text], ?_⟩
  intro bound frames rest hbound _
  obtain ⟨x, later, rfl, -⟩ := exists_cons hbound
  exact skipWithin_quote care x later rest frames (skipText_written care s rest)

theorem skips_bool (care : Care) (b : Bool) : Skips care .value 0 (bool b) := by
  refine ⟨1, by cases b <;> decide, ?_⟩
  intro bound frames rest hbound _
  obtain ⟨x, later, rfl, -⟩ := exists_cons hbound
  exact skipWithin_bool care x later rest frames b

/-- The name and the colon take a round, and then comes the value. -/
theorem skips_content {ends : Bytes → Prop} {m : Member}
    (hname : ∀ rest, care.skipText (m.name ++ ascii '"' :: rest) = .ok rest)
    (h : SkipsBefore ends care .value depth m.value) :
    SkipsBefore ends care .member depth m.content := by
  obtain ⟨rounds, hrounds, hskip⟩ := h
  refine ⟨rounds + 1, ?_, ?_⟩
  · rw [Member.content]
    simp only [List.length_append, List.length_cons]
    omega
  · intro bound frames rest hbound henters hrest
    obtain ⟨x, later, rfl, hlater⟩ := exists_cons hbound
    have hcolon : skipBlanks (m.beforeColon.bytes ++
        (ascii ':' :: (m.beforeValue.bytes ++ (m.value ++ rest)))) =
          ascii ':' :: (m.beforeValue.bytes ++ (m.value ++ rest)) := by
      rw [skipBlanks_gap, skipBlanks_cons (by decide)]
    rw [Member.content]
    simp only [List.append_assoc, List.cons_append]
    rw [skipWithin_name _ _ _ _ _ (hname _) hcolon, skipWithin_gap _ _ _ _ _ (by simp),
      hskip later frames rest hlater henters hrest, List.drop_succ_cons]

/-! ### Frames -/

section Frames

variable {frame : Frame} {items : List Item}

/-- What is left of a frame behind one of its items, by induction on the items that are left. -/
theorem skips_remaining {ends : Bytes → Prop}
    (hends : ∀ (i : Item) items rest, ends (i.after.bytes ++ remaining frame false items rest))
    (h : ∀ i ∈ items, SkipsBefore ends care frame.item depth i.content) :
    ∃ rounds ≤ (remaining frame false items []).length,
      ∀ (bound : Bytes) (frames : List Frame) (gap : Gap) (rest : Bytes), rounds ≤ bound.length →
        care.Enters (frames.length + (depth + 1)) →
        skipWithin care bound .continued (frame :: frames)
            (gap.bytes ++ remaining frame false items rest) =
          skipWithin care (bound.drop rounds) .continued frames rest := by
  have hitem : frame.item ≠ .continued := by
    cases frame <;> simp [Frame.item]
  induction items with
  | nil =>
    refine ⟨1, by simp [remaining_nil], ?_⟩
    intro bound frames gap rest hbound _
    obtain ⟨x, later, rfl, -⟩ := exists_cons hbound
    rw [skipWithin_gap _ _ _ _ _ (by simp), remaining_nil]
    exact skipWithin_close care x later rest frames frame
  | cons i items ih =>
    obtain ⟨first, hfirst, hskip⟩ := h i (by simp)
    obtain ⟨others, hothers, hitems⟩ := ih fun j hj => h j (List.mem_cons_of_mem _ hj)
    refine ⟨first + others + 1, ?_, ?_⟩
    · rw [remaining_more]
      simp only [List.length_cons, List.length_append]
      omega
    · intro bound frames gap rest hbound henters
      obtain ⟨x, later, rfl, hlater⟩ := exists_cons hbound
      rw [skipWithin_gap _ _ _ _ _ (by simp), remaining_more, skipWithin_comma,
        skipWithin_gap _ _ _ _ _ fun heq => absurd heq hitem,
        hskip later (frame :: frames) _ (by omega) henters.inside (hends i items rest),
        hitems _ frames _ rest (by rw [List.length_drop]; omega) henters,
        List.drop_drop, List.drop_succ_cons]

/-- **A frame is skipped if its items are**, whatever stands behind it. -/
theorem skips_enclosed (ends : Bytes → Prop) (inside : Gap)
    (hends : ∀ (i : Item) items rest, ends (i.after.bytes ++ remaining frame false items rest))
    (h : ∀ i ∈ items, SkipsBefore ends care frame.item depth i.content)
    (hstarts : ∀ i ∈ items, ∃ b bs, i.content = b :: bs ∧ isBlank b = false ∧ b ≠ frame.close) :
    Skips care .value (depth + 1) (enclosed frame inside items) := by
  cases items with
  | nil =>
    refine ⟨1, by simp [enclosed], ?_⟩
    intro bound frames rest hbound henters
    obtain ⟨x, later, rfl, -⟩ := exists_cons hbound
    have hclose : isBlank frame.close = false := by cases frame <;> decide
    rw [enclosed_append, skipWithin_opening _ _ _ _ _ _ henters.mayOpen, skipBlanks_gap,
      remaining_nil, skipBlanks_cons hclose]
    exact if_pos rfl
  | cons i items =>
    obtain ⟨first, hfirst, hskip⟩ := h i (by simp)
    obtain ⟨others, hothers, hitems⟩ := skips_remaining hends fun j hj =>
      h j (List.mem_cons_of_mem _ hj)
    obtain ⟨b, bs, hcontent, hblank, hclose⟩ := hstarts i (by simp)
    refine ⟨first + others + 1, ?_, ?_⟩
    · have hlength := congrArg List.length (enclosed_append frame (i :: items) [] inside)
      rw [List.append_nil, remaining_first] at hlength
      simp only [List.length_cons, List.length_append] at hlength
      omega
    · intro bound frames rest hbound henters
      obtain ⟨x, later, rfl, hlater⟩ := exists_cons hbound
      have hinside := hskip later (frame :: frames) _ (by omega) henters.inside
        (hends i items rest)
      rw [hitems _ frames _ rest (by rw [List.length_drop]; omega) henters, List.drop_drop]
        at hinside
      rw [enclosed_append, skipWithin_opening _ _ _ _ _ _ henters.mayOpen, skipBlanks_gap,
        remaining_first, skipBlanks_gap, List.drop_succ_cons, ← hinside, hcontent,
        List.cons_append, skipBlanks_cons hblank]
      exact if_neg hclose

end Frames

/-- A list of texts. -/
theorem skips_texts (care : Care) (ss : List String) :
    Skips care .value 1 (list (ss.map text)) := by
  have hlist : list (ss.map text) = enclosed .list .none ((ss.map text).map .bare) :=
    (enclosed_bare .list _).symm
  rw [hlist]
  refine skips_enclosed (fun _ => True) .none (fun _ _ _ => trivial) ?_ ?_
  · intro i hi
    simp only [List.mem_map] at hi
    obtain ⟨_, ⟨s, -, rfl⟩, rfl⟩ := hi
    exact (skips_text care s).before _
  · intro i hi
    simp only [List.mem_map] at hi
    obtain ⟨_, ⟨s, -, rfl⟩, rfl⟩ := hi
    exact ⟨_, _, rfl, by decide, by decide⟩

/-- An object goes one frame deeper than its members. -/
theorem skips_object {ms : List (String × Bytes)} (h : ∀ m ∈ ms, Skips care .value depth m.2) :
    Skips care .value (depth + 1) (object ms) := by
  rw [object_eq_enclosed]
  refine skips_enclosed (fun _ => True) .none (fun _ _ _ => trivial) ?_ ?_
  · intro i hi
    simp only [List.mem_map] at hi
    obtain ⟨_, ⟨m, hm, rfl⟩, rfl⟩ := hi
    exact skips_content (skipText_written care m.1) ((h m hm).before _)
  · intro i hi
    simp only [List.mem_map] at hi
    obtain ⟨_, ⟨m, -, rfl⟩, rfl⟩ := hi
    exact ⟨_, _, rfl, by decide, by decide⟩

/-! ### Cutting -/

/-- **A value that is skipped ends where it was written to end.** -/
theorem skip_append (h : Skips care .value depth v) (henters : care.Enters depth) (rest : Bytes) :
    skip care (v ++ rest) = .ok rest := by
  obtain ⟨rounds, hrounds, hskip⟩ := h
  have hbound : rounds ≤ (v ++ rest).length := by
    rw [List.length_append]
    omega
  rw [skip, hskip (v ++ rest) [] rest hbound (by simpa using henters)]
  cases (v ++ rest).drop rounds <;> rfl

/-- The bytes of the value in front, whatever value it is. -/
def piece (care : Care) (bs : Bytes) : Read Bytes :=
  let bs := skipBlanks bs
  (skip care bs).map fun rest => (bs.take (bs.length - rest.length), rest)

/-- **A written value is cut off in one piece.** -/
theorem reads_piece (h : Skips care .value depth v) (henters : care.Enters depth)
    (hstarts : ∃ b bs, v = b :: bs ∧ isBlank b = false ∧ b ≠ ascii ']') :
    Reads (piece care) v v := by
  refine ⟨hstarts, ?_⟩
  intro rest _
  obtain ⟨b, bs, hv, hblank, -⟩ := hstarts
  have hblanks : skipBlanks (v ++ rest) = v ++ rest := by
    rw [hv, List.cons_append, skipBlanks_cons hblank]
  have hlength : (v ++ rest).length - rest.length = v.length := by
    rw [List.length_append]
    omega
  rw [piece, hblanks, skip_append h henters]
  show Except.ok ((v ++ rest).take ((v ++ rest).length - rest.length), rest) = _
  rw [hlength, List.take_left]

end Strongroom.Json
