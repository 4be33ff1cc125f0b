import Strongroom.Text.Timestamp

/-!
# Written timestamps are read back

`Timestamp.render` writes a moment and `Timestamp.ofString?` reads one.  Reading is far more lenient
than writing, so only one direction holds: a valid moment is read back from its own text
(`ofString?_render`).  But nothing else than a valid moment is ever read (`isValid_of_ofString?`).
The proof of the first goes through the text from left to right.  Each component is a run of digits
that is either as long as its reader allows or followed by something that is no digit, and
`readDigits_append` covers both.
-/

namespace Strongroom.Timestamp

/-! ### Runs of digits -/

/-- The number that a run of digits spells. -/
def spelled (ds : List Char) : Nat := ds.foldl (fun n c => 10 * n + (c.toNat - 48)) 0

/-- A run of digits. -/
def AreDigits (ds : List Char) : Prop := ∀ c ∈ ds, (digitValue? c).isSome = true

theorem spelled_append (ds : List Char) (c : Char) :
    spelled (ds ++ [c]) = 10 * spelled ds + (c.toNat - 48) := by
  simp [spelled]

theorem toNat_digit {n : Nat} (h : n < 10) : (digit n).toNat - 48 = n := by
  revert n
  decide

theorem isSome_digitValue?_digit {n : Nat} (h : n < 10) :
    (digitValue? (digit n)).isSome = true := by
  revert n
  decide

theorem digitChar_eq_digit {n : Nat} (h : n < 10) : n.digitChar = digit n := by
  revert n
  decide

theorem areDigits_append {ds : List Char} {n : Nat} (hds : AreDigits ds) (h : n < 10) :
    AreDigits (ds ++ [digit n]) := by
  intro c hc
  rcases List.mem_append.1 hc with hc | hc
  · exact hds c hc
  · rw [List.mem_singleton.1 hc]
    exact isSome_digitValue?_digit h

theorem areDigits_padded (width n : Nat) : AreDigits (padded width n) := by
  induction width generalizing n with
  | zero => intro c hc; exact absurd hc (by simp [padded])
  | succ width ih => exact areDigits_append (ih (n / 10)) (Nat.mod_lt n (by decide))

theorem length_padded (width n : Nat) : (padded width n).length = width := by
  induction width generalizing n with
  | zero => rfl
  | succ width ih => simp [padded, ih]

theorem spelled_padded {width n : Nat} (h : n < Nat.pow 10 width) :
    spelled (padded width n) = n := by
  induction width generalizing n with
  | zero =>
    obtain rfl : n = 0 := Nat.lt_one_iff.1 h
    rfl
  | succ width ih =>
    have hn : n / 10 < Nat.pow 10 width := (Nat.div_lt_iff_lt_mul (by decide)).2 h
    rw [padded, spelled_append, ih hn, toNat_digit (Nat.mod_lt n (by decide))]
    omega

theorem areDigits_toDigits (n : Nat) : AreDigits (Nat.toDigits 10 n) := by
  induction n using Nat.strongRecOn with
  | ind n ih =>
    by_cases h : n < 10
    · rw [Nat.toDigits_of_lt_base h, digitChar_eq_digit h]
      have hnil : AreDigits [] := fun c hc => absurd hc (by simp)
      exact areDigits_append hnil h
    · have hmod := Nat.mod_lt n (by decide : 0 < 10)
      rw [Nat.toDigits_of_base_le (by decide) (by omega), digitChar_eq_digit hmod]
      exact areDigits_append (ih (n / 10) (by omega)) hmod

theorem spelled_toDigits (n : Nat) : spelled (Nat.toDigits 10 n) = n := by
  induction n using Nat.strongRecOn with
  | ind n ih =>
    by_cases h : n < 10
    · rw [Nat.toDigits_of_lt_base h, digitChar_eq_digit h]
      simp [spelled, toNat_digit h]
    · have hmod := Nat.mod_lt n (by decide : 0 < 10)
      rw [Nat.toDigits_of_base_le (by decide) (by omega), digitChar_eq_digit hmod,
        spelled_append, ih (n / 10) (by omega), toNat_digit hmod]
      omega

theorem takeWhile_append {ds rest : List Char} (hds : AreDigits ds)
    (hrest : ∀ c ∈ rest.head?, (digitValue? c).isSome = false) :
    (ds ++ rest).takeWhile (fun c => (digitValue? c).isSome) = ds := by
  induction ds with
  | nil =>
    cases rest with
    | nil => rfl
    | cons c rest => simp [hrest c rfl]
  | cons d ds ih =>
    have hd := hds d (by simp)
    have htail := ih fun c hc => hds c (by simp [hc])
    simp only [List.cons_append, List.takeWhile_cons, hd, if_true, htail]

/-- A run of digits is read whole if it fits and if it ends with its room or with its digits. -/
theorem readDigits_append {width : Nat} {ds rest : List Char} (hds : AreDigits ds) (hne : ds ≠ [])
    (hlen : ds.length ≤ width)
    (hend : ds.length = width ∨ ∀ c ∈ rest.head?, (digitValue? c).isSome = false) :
    readDigits width (ds ++ rest) = some (spelled ds, rest) := by
  have htake : ((ds ++ rest).take width).takeWhile (fun c => (digitValue? c).isSome) = ds := by
    rw [List.take_append, List.take_of_length_le hlen]
    apply takeWhile_append hds
    intro c hc
    rcases hend with hend | hend
    · simp [hend] at hc
    · apply hend
      cases hw : width - ds.length with
      | zero => simp [hw] at hc
      | succ k =>
        rw [hw] at hc
        cases rest with
        | nil => simp at hc
        | cons d rest => simpa using hc
  rw [readDigits, htake]
  simp [hne, spelled]

theorem isBlank_of_digitValue? {c : Char} (h : (digitValue? c).isSome = true) :
    Text.isBlank c = false ∧ c ≠ '-' ∧ c ≠ '+' := by
  have hc : '0' ≤ c ∧ c ≤ '9' := by
    unfold digitValue? at h
    split at h
    · assumption
    · simp at h
  have hn : 48 ≤ c.toNat ∧ c.toNat ≤ 57 := hc
  refine ⟨?_, ?_, ?_⟩
  · simp only [Text.isBlank, Bool.or_eq_false_iff, Bool.and_eq_false_iff, decide_eq_false_iff_not]
    omega
  · rintro rfl
    exact absurd hn (by decide)
  · rintro rfl
    exact absurd hn (by decide)

theorem trimStart_cons {c : Char} (h : Text.isBlank c = false) (cs : List Char) :
    Text.trimStart (c :: cs) = c :: cs := by
  simp [Text.trimStart, h]

theorem trimStart_digits {ds : List Char} (hds : AreDigits ds) (hne : ds ≠ []) (rest : List Char) :
    Text.trimStart (ds ++ rest) = ds ++ rest := by
  cases ds with
  | nil => exact absurd rfl hne
  | cons d ds =>
    rw [List.cons_append]
    exact trimStart_cons (isBlank_of_digitValue? (hds d (by simp))).1 _

/-! ### Components -/

theorem padded_ne_nil {width : Nat} (h : width ≠ 0) (n : Nat) : padded width n ≠ [] := by
  intro he
  have := length_padded width n
  rw [he] at this
  exact h this.symm

theorem readPair_padded {n : Nat} (h : n < 100) (rest : List Char) :
    readPair (padded 2 n ++ rest) = some (n, rest) := by
  have hne : padded 2 n ≠ [] := padded_ne_nil (by decide) n
  rw [readPair, trimStart_digits (areDigits_padded 2 n) hne,
    readDigits_append (areDigits_padded 2 n) hne (Nat.le_of_eq (length_padded 2 n))
      (.inl (length_padded 2 n)), spelled_padded h]

theorem readMark_cons {mark : Char} (h : Text.isBlank mark = false) (rest : List Char) :
    readMark mark (mark :: rest) = some rest := by
  rw [readMark, trimStart_cons h]
  simp

/-- A year without a sign. -/
theorem readYear_digits {ds rest : List Char} (hds : AreDigits ds) (hlen : ds.length = 4) :
    readYear (ds ++ rest) = some ((spelled ds : Int), rest) := by
  have hne : ds ≠ [] := by
    rintro rfl
    simp at hlen
  have hread : readDigits 4 (ds ++ rest) = some (spelled ds, rest) :=
    readDigits_append hds hne (Nat.le_of_eq hlen) (.inl hlen)
  rw [readYear, trimStart_digits hds hne]
  cases ds with
  | nil => exact absurd rfl hne
  | cons d ds =>
    obtain ⟨-, hminus, hplus⟩ := isBlank_of_digitValue? (hds d (by simp))
    rw [List.cons_append] at hread ⊢
    split
    · next h => exact absurd (List.cons.inj h).1 hminus
    · next h => exact absurd (List.cons.inj h).1 hplus
    · rw [hread]
      rfl

theorem readDigits_sign {ds rest : List Char} (hds : AreDigits ds) (hne : ds ≠ []) :
    readDigits (ds ++ '-' :: rest).length (ds ++ '-' :: rest) = some (spelled ds, '-' :: rest) := by
  refine readDigits_append hds hne (by simp) (.inr fun c hc => ?_)
  obtain rfl : '-' = c := by simpa using hc
  decide

theorem readYear_negative {ds : List Char} (hds : AreDigits ds) (hne : ds ≠ []) (rest : List Char) :
    readYear ('-' :: (ds ++ '-' :: rest)) = some (-(spelled ds : Int), '-' :: rest) := by
  rw [readYear, trimStart_cons (by decide)]
  simp only [readDigits_sign hds hne]
  rfl

theorem readYear_positive {ds : List Char} (hds : AreDigits ds) (hne : ds ≠ []) (rest : List Char) :
    readYear ('+' :: (ds ++ '-' :: rest)) = some ((spelled ds : Int), '-' :: rest) := by
  rw [readYear, trimStart_cons (by decide)]
  simp only [readDigits_sign hds hne]
  rfl

/-- The digits of a year that has a sign. -/
def magnitude (n : Nat) : List Char := if n ≤ 9999 then padded 4 n else (toString n).toList

theorem magnitude_spec (n : Nat) :
    AreDigits (magnitude n) ∧ magnitude n ≠ [] ∧ spelled (magnitude n) = n := by
  unfold magnitude
  split
  · next h =>
    exact ⟨areDigits_padded 4 n, padded_ne_nil (by decide) n, spelled_padded (Nat.lt_succ_of_le h)⟩
  · rw [Nat.toString_eq_ofList_toDigits, String.toList_ofList]
    exact ⟨areDigits_toDigits n, Nat.toDigits_ne_nil, spelled_toDigits n⟩

theorem readYear_writeYear (year : Int) (rest : List Char) :
    readYear (writeYear year ++ '-' :: rest) = some (year, '-' :: rest) := by
  obtain ⟨hds, hne, hval⟩ := magnitude_spec year.natAbs
  unfold writeYear
  split
  · next h =>
    have hn : year.toNat < Nat.pow 10 4 := by
      show year.toNat < 10000
      omega
    rw [readYear_digits (areDigits_padded 4 _) (length_padded 4 _), spelled_padded hn,
      Int.toNat_of_nonneg h.1]
  · next h =>
    show readYear ((if year < 0 then '-' else '+') :: (magnitude year.natAbs ++ '-' :: rest)) = _
    split
    · rw [readYear_negative hds hne, hval]
      congr 2
      omega
    · rw [readYear_positive hds hne, hval]
      congr 2
      omega

/-- A fraction of `width` digits, the last of which stands for `Nat.pow 10 (9 - width)`
nanoseconds. -/
theorem readFraction_padded {width n : Nat} (hw : width ≠ 0) (hw9 : width ≤ 9)
    (h : n < Nat.pow 10 width) :
    readFraction ('.' :: padded width n ++ ['Z']) = some (n * Nat.pow 10 (9 - width), ['Z']) := by
  have hread : readDigits 9 (padded width n ++ ['Z']) = some (n, ['Z']) := by
    rw [readDigits_append (areDigits_padded width n) (padded_ne_nil hw n)
      (by rw [length_padded]; exact hw9), spelled_padded h]
    right
    intro c hc
    obtain rfl : 'Z' = c := by simpa using hc
    decide
  have hcount : (padded width n ++ ['Z']).length - ['Z'].length = width := by
    rw [List.length_append, length_padded]
    exact Nat.add_sub_cancel _ _
  rw [List.cons_append, readFraction, hread]
  simp only [bind, Option.bind, hcount]
  rfl

theorem readFraction_writeFraction {n : Nat} (h : n ≤ 999999999) :
    readFraction (writeFraction n ++ ['Z']) = some (n, ['Z']) := by
  have h9 : Nat.pow 10 9 = 1000000000 := by decide
  have h6 : Nat.pow 10 6 = 1000000 := by decide
  have h3 : Nat.pow 10 3 = 1000 := by decide
  unfold writeFraction
  split
  · next h0 =>
    rw [h0]
    rfl
  split
  · next hm =>
    rw [readFraction_padded (by decide) (by decide) (by omega), h6]
    congr 2
    omega
  split
  · next hm =>
    rw [readFraction_padded (by decide) (by decide) (by omega), h3]
    congr 2
    omega
  · rw [readFraction_padded (by decide) (by decide) (by omega)]
    congr 2
    exact Nat.mul_one n

/-! ### The whole -/

theorem addMinutes_zero {t : Timestamp} (h : t.IsValid) : t.addMinutes 0 = t := by
  obtain ⟨-, -, -, -, -, -, hh, hm, -, -⟩ := h
  have hneg : ¬((t.hour * 60 + t.minute + 0 : Int) < 0) := by omega
  have hday : (t.hour * 60 + t.minute + 0 : Int) < 1440 := by omega
  have hour : ((t.hour * 60 + t.minute + 0 : Int) / 60).toNat = t.hour := by omega
  have minute : ((t.hour * 60 + t.minute + 0 : Int) % 60).toNat = t.minute := by omega
  simp only [addMinutes, if_neg hneg, if_pos hday, hour, minute]

/-- **A valid moment is read back from its own text.** -/
theorem ofString?_render {t : Timestamp} (h : t.IsValid) : ofString? t.render = some t := by
  have hvalid := h
  obtain ⟨-, -, -, hmonth, -, hday, hhour, hminute, hsecond, hnano⟩ := h
  have hdays : daysInMonth t.year t.month ≤ 31 := by
    unfold daysInMonth
    repeat' split
    all_goals decide
  have hrender : t.chars = writeYear t.year ++ '-' :: (padded 2 t.month ++ '-' ::
      (padded 2 t.day ++ 'T' :: (padded 2 t.hour ++ ':' :: (padded 2 t.minute ++ ':' ::
        (padded 2 t.second ++ (writeFraction t.nanosecond ++ ['Z'])))))) := by
    simp [chars]
  have hzone : readOffset (Text.trimStart ['Z']) = some (0, []) := rfl
  rw [ofString?, render, String.toList_ofList, hrender, ofChars?]
  simp only [readYear_writeYear, readMark_cons (show Text.isBlank '-' = false from rfl),
    readMark_cons (show Text.isBlank ':' = false from rfl),
    readPair_padded (show t.month < 100 by omega), readPair_padded (show t.day < 100 by omega),
    readPair_padded (show t.hour < 100 by omega), readPair_padded (show t.minute < 100 by omega),
    readPair_padded (show t.second < 100 by omega),
    readFraction_writeFraction hnano, hzone, readSeparator, bind, Option.bind, true_or, if_true]
  show (if (Text.trimStart []).isEmpty = true ∧ t.IsValid ∧ (-1440 : Int) < 0 ∧ (0 : Int) < 1440 ∧
    (t.addMinutes 0).IsValid then some (t.addMinutes 0) else none) = some t
  rw [addMinutes_zero hvalid, if_pos ⟨rfl, hvalid, by decide, by decide, hvalid⟩]

/-- Only valid moments are read. -/
theorem isValid_of_ofString? {s : String} {t : Timestamp} (h : ofString? s = some t) :
    t.IsValid := by
  rw [ofString?, ofChars?] at h
  obtain ⟨⟨year, _⟩, -, h⟩ := Option.bind_eq_some_iff.1 h
  obtain ⟨_, -, h⟩ := Option.bind_eq_some_iff.1 h
  obtain ⟨⟨month, _⟩, -, h⟩ := Option.bind_eq_some_iff.1 h
  obtain ⟨_, -, h⟩ := Option.bind_eq_some_iff.1 h
  obtain ⟨⟨day, _⟩, -, h⟩ := Option.bind_eq_some_iff.1 h
  obtain ⟨_, -, h⟩ := Option.bind_eq_some_iff.1 h
  obtain ⟨⟨hour, _⟩, -, h⟩ := Option.bind_eq_some_iff.1 h
  obtain ⟨_, -, h⟩ := Option.bind_eq_some_iff.1 h
  obtain ⟨⟨minute, _⟩, -, h⟩ := Option.bind_eq_some_iff.1 h
  obtain ⟨_, -, h⟩ := Option.bind_eq_some_iff.1 h
  obtain ⟨⟨second, _⟩, -, h⟩ := Option.bind_eq_some_iff.1 h
  obtain ⟨⟨nanosecond, _⟩, -, h⟩ := Option.bind_eq_some_iff.1 h
  obtain ⟨⟨offset, _⟩, -, h⟩ := Option.bind_eq_some_iff.1 h
  obtain ⟨hvalid, h⟩ := Option.ite_none_right_eq_some.1 h
  cases h
  exact hvalid.2.2.2.2

end Strongroom.Timestamp
