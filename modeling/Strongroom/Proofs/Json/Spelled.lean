import Strongroom.Proofs.Json.Grammar
import Strongroom.Proofs.Text.Ascii

/-!
# Texts in any spelling

The same text has many spellings: a character may stand for itself or be escaped, in its short form
or by its number, and a character beyond the first 65536 by a pair of numbers (`Spells`).  All
spellings of a text are read alike (`Spells.quoted`).

Whoever skips a text takes any escapes (`IsText.skipQuoted`).  A text that is read could as well
have been skipped (`skipQuoted_of_quotedOnto`), so both readers find the same end of it.
-/

namespace Strongroom.Json

variable {w raw rest : Bytes}

/-- A round is there to be taken. -/
theorem exists_cons {n : Nat} {bound : Bytes} (h : n + 1 ≤ bound.length) :
    ∃ x later, bound = x :: later ∧ n ≤ later.length := by
  cases bound with
  | nil => simp at h
  | cons x later => exact ⟨x, later, rfl, by simpa using h⟩

/-! ### Escapes -/

theorem IsHex.hexValue? {n : Nat} {b : UInt8} (h : IsHex n b) : n < 16 ∧ hexValue? b = some n := by
  have hall : ∀ digits ∈ ["0123456789abcdef".toList, "0123456789ABCDEF".toList],
      digits.length = 16 ∧ ∀ i < 16, (digits[i]?.map (Json.hexValue? ∘ ascii)) = some (some i) := by
    decide
  obtain ⟨c, rfl, hc⟩ := h
  have hdigit : ∃ digits ∈ ["0123456789abcdef".toList, "0123456789ABCDEF".toList],
      digits[n]? = some c := by
    rcases hc with hc | hc
    · exact ⟨_, by simp, hc⟩
    · exact ⟨_, by simp, hc⟩
  obtain ⟨digits, hmem, hc⟩ := hdigit
  obtain ⟨hlength, hvalue⟩ := hall digits hmem
  obtain ⟨hn, -⟩ := List.getElem?_eq_some_iff.1 hc
  rw [hlength] at hn
  refine ⟨hn, ?_⟩
  have hread := hvalue n hn
  rw [hc] at hread
  exact Option.some.inj hread

theorem IsQuad.hexQuad {n : Nat} {quad : Bytes} (h : IsQuad n quad) (rest : Bytes) :
    hexQuad (quad ++ rest) = .ok (n, rest) := by
  cases h with
  | mk ha hb hc hd =>
    simp only [List.cons_append, List.nil_append, Json.hexQuad, ha.hexValue?.2, hb.hexValue?.2,
      hc.hexValue?.2, hd.hexValue?.2]

theorem IsQuad.length {n : Nat} {quad : Bytes} (h : IsQuad n quad) : quad.length = 4 := by
  cases h
  rfl

theorem shortEscape?_of_mem {e : Char × Char} (h : e ∈ shortEscapes) :
    ascii e.1 ≠ ascii 'u' ∧ shortEscape? (ascii e.1) = some (ascii e.2) := by
  revert e
  decide

/-! ### Spellings -/

/-- The bytes spell these characters between quotes. -/
inductive Spells : List Char → Bytes → Prop
  | nil : Spells [] []
  | raw {c : Char} {cs : List Char} {w : Bytes} : ' ' ≤ c → c ≠ '"' → c ≠ '\\' → Spells cs w →
      Spells (c :: cs) (String.utf8EncodeChar c ++ w)
  | short {e : Char × Char} {cs : List Char} {w : Bytes} : e ∈ shortEscapes → Spells cs w →
      Spells (e.2 :: cs) (ascii '\\' :: ascii e.1 :: w)
  | unicode {c : Char} {cs : List Char} {quad w : Bytes} : IsQuad c.toNat quad → Spells cs w →
      Spells (c :: cs) (ascii '\\' :: ascii 'u' :: (quad ++ w))
  | pair {c : Char} {cs : List Char} {high low w : Bytes} : 0x10000 ≤ c.toNat →
      IsQuad (0xd800 + (c.toNat - 0x10000) / 0x400) high →
      IsQuad (0xdc00 + (c.toNat - 0x10000) % 0x400) low → Spells cs w →
      Spells (c :: cs) (ascii '\\' :: ascii 'u' :: (high ++ ascii '\\' :: ascii 'u' :: (low ++ w)))

/-- A byte that stands for itself in a text. -/
def IsPlain (b : UInt8) : Prop := 0x20 ≤ b ∧ b ≠ ascii '"' ∧ b ≠ ascii '\\'

theorem isPlain_of_mem_utf8EncodeChar {c : Char} (hcontrol : ' ' ≤ c) (hquote : c ≠ '"')
    (hslash : c ≠ '\\') : ∀ b ∈ String.utf8EncodeChar c, IsPlain b := by
  have hlow : 32 ≤ c.toNat := hcontrol
  have hquote : c.toNat ≠ 34 := fun h => hquote (Char.toNat_inj.1 h)
  have hslash : c.toNat ≠ 92 := fun h => hslash (Char.toNat_inj.1 h)
  intro b hb
  have hnat : 32 ≤ b.toNat ∧ b.toNat ≠ 34 ∧ b.toNat ≠ 92 := by
    rcases of_mem_utf8EncodeChar hb with ⟨-, heq⟩ | ⟨-, hlarge⟩ <;> omega
  refine ⟨UInt8.le_iff_toNat_le.2 hnat.1, ?_, ?_⟩
  · intro heq
    exact hnat.2.1 (congrArg UInt8.toNat heq)
  · intro heq
    exact hnat.2.2 (congrArg UInt8.toNat heq)

theorem quotedOnto_plain {bs : Bytes} (h : ∀ b ∈ bs, IsPlain b) (rest : Bytes) :
    ∀ bound read : Bytes, bs.length ≤ bound.length →
      quotedOnto bound read (bs ++ rest) = quotedOnto (bound.drop bs.length) (bs.reverse ++ read)
        rest := by
  induction bs with
  | nil =>
    intro bound read _
    rfl
  | cons b bs ih =>
    intro bound read hbound
    obtain ⟨x, later, rfl, hlater⟩ := exists_cons hbound
    obtain ⟨hcontrol, hquote, hslash⟩ := h b (by simp)
    rw [List.cons_append, quotedOnto, if_neg hquote, if_neg hslash,
      if_neg (UInt8.not_lt.2 hcontrol), ih (fun c hc => h c (by simp [hc])) later _ hlater]
    simp

/-- An escape takes one round. -/
theorem quotedOnto_escape {bs decoded : Bytes} (x : UInt8) (bound read : Bytes)
    (h : escape bs = .ok (decoded, rest)) :
    quotedOnto (x :: bound) read (ascii '\\' :: bs) =
      quotedOnto bound (decoded.reverse ++ read) rest := by
  rw [quotedOnto, if_neg (by decide), if_pos rfl, h]
  show quotedOnto bound (decoded.reverseAux read) rest = _
  rw [List.reverseAux_eq]

theorem escape_short {e : Char × Char} (h : e ∈ shortEscapes) (rest : Bytes) :
    escape (ascii e.1 :: rest) = .ok (String.utf8EncodeChar e.2, rest) := by
  obtain ⟨hunicode, hshort⟩ := shortEscape?_of_mem h
  have hsingle : [ascii e.2] = String.utf8EncodeChar e.2 := by
    revert e
    decide
  rw [escape, if_neg hunicode, hshort, ← hsingle]

theorem not_surrogate (c : Char) : c.toNat < 0xd800 ∨ 0xdfff < c.toNat := by
  rcases c.valid with h | h
  · exact .inl h
  · exact .inr h.1

theorem escape_unicode {c : Char} {quad : Bytes} (h : IsQuad c.toNat quad) (rest : Bytes) :
    escape (ascii 'u' :: (quad ++ rest)) = .ok (String.utf8EncodeChar c, rest) := by
  have hc := not_surrogate c
  rw [escape, if_pos rfl, h.hexQuad]
  show (if 0xdc00 ≤ c.toNat ∧ c.toNat ≤ 0xdfff then _ else _) = _
  rw [if_neg (by omega), if_neg (by omega), codePoint, Char.ofNat_toNat]

/-- Two surrogates, one behind the other. -/
theorem escape_surrogates {m n : Nat} {high low : Bytes} (hhigh : IsQuad m high)
    (hlow : IsQuad n low) (hm : 0xd800 ≤ m ∧ m ≤ 0xdbff) (hn : 0xdc00 ≤ n ∧ n ≤ 0xdfff)
    (rest : Bytes) :
    escape (ascii 'u' :: (high ++ ascii '\\' :: ascii 'u' :: (low ++ rest))) =
      .ok (codePoint ((m - 0xd800) * 0x400 + (n - 0xdc00) + 0x10000), rest) := by
  rw [escape, if_pos rfl, hhigh.hexQuad]
  show (if 0xdc00 ≤ m ∧ m ≤ 0xdfff then _ else _) = _
  rw [if_neg (by omega), if_pos hm, lowSurrogate, if_neg (by simp)]
  show (if ascii 'u' ≠ ascii 'u' then _ else _) = _
  rw [if_neg (by simp), hlow.hexQuad]
  show (if n < 0xdc00 ∨ 0xdfff < n then _ else _) = _
  rw [if_neg (by omega)]

theorem escape_pair {c : Char} {high low : Bytes} (hc : 0x10000 ≤ c.toNat)
    (hhigh : IsQuad (0xd800 + (c.toNat - 0x10000) / 0x400) high)
    (hlow : IsQuad (0xdc00 + (c.toNat - 0x10000) % 0x400) low) (rest : Bytes) :
    escape (ascii 'u' :: (high ++ ascii '\\' :: ascii 'u' :: (low ++ rest))) =
      .ok (String.utf8EncodeChar c, rest) := by
  have hmax : c.toNat < 0x110000 := by
    rcases c.valid with h | h
    · exact Nat.lt_trans h (by decide)
    · exact h.2
  rw [escape_surrogates hhigh hlow (by omega) (by omega), codePoint]
  have hpair : (0xd800 + (c.toNat - 0x10000) / 0x400 - 0xd800) * 0x400 +
      (0xdc00 + (c.toNat - 0x10000) % 0x400 - 0xdc00) + 0x10000 = c.toNat := by omega
  rw [hpair, Char.ofNat_toNat]

theorem Spells.quotedOnto {cs : List Char} (h : Spells cs w) (rest : Bytes) :
    ∀ bound read : Bytes, w.length < bound.length →
      quotedOnto bound read (w ++ ascii '"' :: rest) =
        .ok (read.reverse ++ cs.flatMap String.utf8EncodeChar, rest) := by
  induction h with
  | nil =>
    intro bound read hbound
    obtain ⟨x, later, rfl, -⟩ := exists_cons hbound
    rw [List.nil_append, Json.quotedOnto, if_pos rfl, List.flatMap_nil, List.append_nil]
  | @raw c cs w hcontrol hquote hslash _ ih =>
    intro bound read hbound
    rw [List.length_append] at hbound
    rw [List.append_assoc, quotedOnto_plain
      (isPlain_of_mem_utf8EncodeChar hcontrol hquote hslash) _ bound read (by omega),
      ih _ _ (by rw [List.length_drop]; omega)]
    simp
  | @short e cs w he _ ih =>
    intro bound read hbound
    obtain ⟨x, later, rfl, hlater⟩ := exists_cons hbound
    simp only [List.length_cons] at hlater
    rw [List.cons_append, List.cons_append, quotedOnto_escape x later read (escape_short he _),
      ih later _ (by omega)]
    simp
  | @unicode c cs quad w hquad _ ih =>
    intro bound read hbound
    obtain ⟨x, later, rfl, hlater⟩ := exists_cons hbound
    simp only [List.length_cons, List.length_append] at hlater
    rw [List.cons_append, List.cons_append, List.append_assoc,
      quotedOnto_escape x later read (escape_unicode hquad _), ih later _ (by omega)]
    simp
  | @pair c cs high low w hc hhigh hlow _ ih =>
    intro bound read hbound
    obtain ⟨x, later, rfl, hlater⟩ := exists_cons hbound
    simp only [List.length_cons, List.length_append] at hlater
    simp only [List.cons_append, List.append_assoc]
    rw [quotedOnto_escape x later read (escape_pair hc hhigh hlow _), ih later _ (by omega)]
    simp

/-- The bytes of a text are read as the text. -/
theorem quoted_of_quotedOnto {bs : Bytes} {s : String}
    (h : quotedOnto bs [] bs = .ok (utf8 s, rest)) : quoted bs = .ok (s, rest) := by
  rw [quoted, h]
  simp only [bind, Except.bind, ofUtf8?_utf8]

/-- **A text is read from each of its spellings.** -/
theorem Spells.quoted {s : String} (h : Spells s.toList w) (rest : Bytes) :
    quoted (w ++ ascii '"' :: rest) = .ok (s, rest) := by
  have hlength : w.length < (w ++ ascii '"' :: rest).length := by
    rw [List.length_append, List.length_cons]
    omega
  have hread := h.quotedOnto rest _ [] hlength
  rw [List.reverse_nil, List.nil_append, ← utf8_ofList, String.ofList_toList] at hread
  exact quoted_of_quotedOnto hread

/-- A spelling may stand between quotes. -/
theorem Spells.isText {cs : List Char} (h : Spells cs w) : IsText w := by
  induction h with
  | nil => exact .nil
  | @raw c cs w hcontrol hquote hslash _ ih =>
    have hplain := isPlain_of_mem_utf8EncodeChar hcontrol hquote hslash
    generalize String.utf8EncodeChar c = bs at hplain ⊢
    induction bs with
    | nil => exact ih
    | cons b bs ihb =>
      obtain ⟨hb, hbquote, hbslash⟩ := hplain b (by simp)
      exact .raw hb hbquote hbslash (ihb fun b hb => hplain b (by simp [hb]))
  | short he _ ih => exact .short he ih
  | unicode hquad _ ih => exact .unicode hquad ih
  | pair _ hhigh hlow _ ih => exact .unicode hhigh (.unicode hlow ih)

/-! ### Skipped texts -/

theorem skipQuoted_unicode {n : Nat} {x : UInt8} {bound bs : Bytes}
    (h : hexQuad bs = .ok (n, rest)) :
    skipQuoted (x :: bound) (ascii '\\' :: ascii 'u' :: bs) = skipQuoted bound rest := by
  rw [skipQuoted.eq_def]
  simp only [if_neg (show ¬ascii '\\' = ascii '"' by decide), if_true, h]

/-- A text is skipped in at most as many rounds as it has bytes and one for the quote. -/
theorem IsText.skipQuoted (h : IsText w) (rest : Bytes) : ∀ bound : Bytes,
    w.length < bound.length → skipQuoted bound (w ++ ascii '"' :: rest) = .ok rest := by
  induction h with
  | nil =>
    intro bound hbound
    obtain ⟨x, later, rfl, -⟩ := exists_cons hbound
    rfl
  | raw hcontrol hquote hslash _ ih =>
    intro bound hbound
    obtain ⟨x, later, rfl, hlater⟩ := exists_cons hbound
    rw [List.cons_append, Json.skipQuoted.eq_def]
    simp only [if_neg hquote, if_neg hslash, if_neg (UInt8.not_lt.2 hcontrol)]
    exact ih later hlater
  | short he _ ih =>
    intro bound hbound
    obtain ⟨x, later, rfl, hlater⟩ := exists_cons hbound
    obtain ⟨hunicode, hshort⟩ := shortEscape?_of_mem he
    rw [List.cons_append, List.cons_append, Json.skipQuoted.eq_def]
    simp only [if_neg (show ¬ascii '\\' = ascii '"' by decide), if_true, if_neg hunicode, hshort,
      Option.isSome_some]
    exact ih later (by simp only [List.length_cons] at hlater; omega)
  | unicode hquad _ ih =>
    intro bound hbound
    obtain ⟨x, later, rfl, hlater⟩ := exists_cons hbound
    rw [List.cons_append, List.cons_append, List.append_assoc, skipQuoted_unicode (hquad.hexQuad _)]
    exact ih later (by simp only [List.length_cons, List.length_append] at hlater; omega)

theorem IsText.skipText (h : IsText w) (rest : Bytes) :
    Care.ignored.skipText (w ++ ascii '"' :: rest) = .ok rest := by
  refine h.skipQuoted rest _ ?_
  rw [List.length_append, List.length_cons]
  omega

/-! ### Where texts end -/

theorem length_of_hexQuad {bs : Bytes} {n : Nat} (h : hexQuad bs = .ok (n, rest)) :
    bs.length = rest.length + 4 := by
  rw [hexQuad.eq_def] at h
  split at h
  · split at h
    · cases h
      rfl
    · cases h
  · cases h

theorem of_lowSurrogate {high : Nat} {bs decoded : Bytes}
    (h : lowSurrogate high bs = .ok (decoded, rest)) :
    ∃ n bs', bs = ascii '\\' :: ascii 'u' :: bs' ∧ hexQuad bs' = .ok (n, rest) := by
  rw [lowSurrogate.eq_def] at h
  split at h
  · cases h
  · next b bs =>
    split at h
    · cases h
    · next hb =>
      split at h
      · cases h
      · next c bs =>
        split at h
        · cases h
        · next hc =>
          cases hquad : hexQuad bs with
          | error e =>
            rw [hquad] at h
            cases h
          | ok x =>
            obtain ⟨n, rest'⟩ := x
            simp only [hquad, bind, Except.bind] at h
            split at h
            · cases h
            · obtain ⟨-, rfl⟩ := Prod.mk.inj (Except.ok.inj h)
              rw [Decidable.not_not] at hb hc
              exact ⟨n, bs, by rw [hb, hc], hquad⟩

/-- What an escape takes off a text is skipped, in one round or two. -/
theorem skipQuoted_of_escape {bs decoded : Bytes} (h : escape bs = .ok (decoded, rest)) :
    ∀ bound : Bytes, bs.length < bound.length → ∃ later : Bytes, rest.length ≤ later.length ∧
      skipQuoted bound (ascii '\\' :: bs) = skipQuoted later rest := by
  intro bound hbound
  obtain ⟨x, later, rfl, hlater⟩ := exists_cons hbound
  cases bs with
  | nil => cases h
  | cons b bs =>
    rw [List.length_cons] at hlater
    rw [escape] at h
    split at h
    · next hb =>
      subst hb
      cases hquad : hexQuad bs with
      | error e =>
        rw [hquad] at h
        cases h
      | ok x' =>
        obtain ⟨n, rest₁⟩ := x'
        have hlength := length_of_hexQuad hquad
        rw [hquad] at h
        replace h : (if 0xdc00 ≤ n ∧ n ≤ 0xdfff then .error .malformed
          else if 0xd800 ≤ n ∧ n ≤ 0xdbff then lowSurrogate n rest₁
          else .ok (codePoint n, rest₁)) = Except.ok (decoded, rest) := h
        rw [skipQuoted_unicode hquad]
        split at h
        · cases h
        · split at h
          · -- the second surrogate takes one more round
            obtain ⟨m, bs', rfl, hlow⟩ := of_lowSurrogate h
            have hlength' := length_of_hexQuad hlow
            simp only [List.length_cons] at hlength hlater
            have hround : 0 + 1 ≤ later.length := by omega
            obtain ⟨y, later, rfl, -⟩ := exists_cons hround
            simp only [List.length_cons] at hlater
            exact ⟨later, by omega, skipQuoted_unicode hlow⟩
          · cases h
            exact ⟨later, by omega, rfl⟩
    · next hb =>
      split at h
      · next c hshort =>
        cases h
        refine ⟨later, by omega, ?_⟩
        rw [skipQuoted.eq_def]
        simp only [if_neg (show ¬ascii '\\' = ascii '"' by decide), if_true, if_neg hb, hshort,
          Option.isSome_some]
      · cases h

/-- **A text that is read could as well have been skipped.** -/
theorem skipQuoted_of_quotedOnto {content : Bytes} : ∀ {bound read bs : Bytes},
    quotedOnto bound read bs = .ok (content, rest) → ∀ bound' : Bytes, bs.length ≤ bound'.length →
      skipQuoted bound' bs = .ok rest := by
  intro bound
  induction bound with
  | nil =>
    intro read bs h
    cases bs <;> cases h
  | cons x bound ih =>
    intro read bs h bound' hbound
    cases bs with
    | nil => cases h
    | cons b bs =>
      obtain ⟨y, later, rfl, hlater⟩ := exists_cons hbound
      rw [quotedOnto] at h
      split at h
      · next hb =>
        cases h
        rw [skipQuoted.eq_def]
        exact if_pos hb
      · next hquote =>
        split at h
        · next hb =>
          subst hb
          split at h
          · next decoded rest₁ hescape =>
            obtain ⟨later', hlength, hskip⟩ := skipQuoted_of_escape hescape (y :: later) hbound
            rw [hskip]
            exact ih h later' hlength
          · cases h
        · next hslash =>
          split at h
          · cases h
          · next hcontrol =>
            rw [skipQuoted.eq_def]
            simp only [if_neg hquote, if_neg hslash, if_neg hcontrol]
            exact ih h later hlater

/-- Of a text that is read, the bytes are read, whatever they are. -/
theorem of_quoted_eq_ok {bs : Bytes} {s : String} (h : quoted bs = .ok (s, rest)) :
    ∃ content, quotedOnto bs [] bs = .ok (content, rest) := by
  rw [quoted] at h
  cases hcontent : quotedOnto bs [] bs with
  | error e =>
    rw [hcontent] at h
    cases h
  | ok x =>
    obtain ⟨content, rest₁⟩ := x
    simp only [hcontent, bind, Except.bind] at h
    split at h
    · cases h
      exact ⟨content, rfl⟩
    · cases h

/-- A text that is read ends at the quote at which it was written to end. -/
theorem IsText.rest_eq {s : String} {rest' : Bytes} (h : IsText raw)
    (hread : quoted (raw ++ ascii '"' :: rest) = .ok (s, rest')) : rest' = rest := by
  obtain ⟨content, hcontent⟩ := of_quoted_eq_ok hread
  have hskip := skipQuoted_of_quotedOnto hcontent _ (Nat.le_refl _)
  have hends : Json.skipQuoted (raw ++ ascii '"' :: rest) (raw ++ ascii '"' :: rest) = .ok rest :=
    h.skipText rest
  rw [hends] at hskip
  exact (Except.ok.inj hskip).symm

end Strongroom.Json
