import Mathlib.Algebra.Group.Nat.Defs
import Strongroom.Access.Header
import Strongroom.Proofs.Text.Ascii
import Strongroom.Proofs.Text.Blank
import Strongroom.Proofs.Text.Decimal
import Strongroom.Service.Login

/-!
# Session ids in headers

A login reply names the new session by its id in decimal digits, and every later request gives the
id back in a header.  What is read from a header value has a grammar of its own (`SpellsNumber`):
blanks and tabs, a plus sign or none, digits, and again blanks and tabs.  The number is judged as a
whole and never cut down to 64 bits,

    sessionId (value :: more) = .ok id  ↔  value spells the number of id,

so no header value names two sessions and none names a session by a number that is too large
(`session_ids_read_exactly`).
-/

namespace Strongroom.Access

/-! ### Header values that spell a number -/

/-- A header value spells a number in decimal: at least one digit, and any number of leading zeros
among them, behind a plus sign or not, with blanks and tabs on both sides or not. -/
def SpellsNumber (value : Bytes) (n : Nat) : Prop :=
  ∃ before sign digits after : List Char,
    value = utf8 (String.ofList (before ++ (sign ++ digits) ++ after)) ∧
    (∀ c ∈ before ++ after, c = ' ' ∨ c = '\t') ∧ (sign = [] ∨ sign = ['+']) ∧
    digits ≠ [] ∧ (∀ d ∈ digits, d.isDigit = true) ∧ Nat.ofDigitChars 10 digits 0 = n

/-- A character that may stand in a header value. -/
def IsVisible (c : Char) : Prop := c = '\t' ∨ ' ' ≤ c ∧ c ≤ '~'

theorem isVisible_of_mem_utf8EncodeChar {c : Char} {b : UInt8}
    (hb : b ∈ String.utf8EncodeChar c) : Http.isVisible b = true ↔ IsVisible c := by
  have hbyte : Http.isVisible b = true ↔ b.toNat = 9 ∨ 32 ≤ b.toNat ∧ b.toNat < 127 := by
    simp only [Http.isVisible, Bool.or_eq_true, Bool.and_eq_true, decide_eq_true_eq,
      ← UInt8.toNat_inj, UInt8.le_iff_toNat_le, UInt8.lt_iff_toNat_lt]
    rfl
  have hchar : IsVisible c ↔ c.toNat = 9 ∨ 32 ≤ c.toNat ∧ c.toNat ≤ 126 := by
    unfold IsVisible
    rw [← Char.toNat_inj]
    rfl
  rw [hbyte, hchar]
  rcases of_mem_utf8EncodeChar hb with ⟨hlow, heq⟩ | ⟨hlarge, hlarge'⟩ <;> omega

/-- A header value is a text exactly if the characters of the text may stand in it. -/
theorem headerText?_eq_some_iff {value : Bytes} {s : String} :
    Http.headerText? value = some s ↔ value = utf8 s ∧ ∀ c ∈ s.toList, IsVisible c := by
  have hvisible : (∀ b ∈ utf8 s, Http.isVisible b = true) ↔ ∀ c ∈ s.toList, IsVisible c := by
    constructor
    · intro h c hc
      obtain ⟨b, hb⟩ := exists_mem_utf8EncodeChar c
      exact (isVisible_of_mem_utf8EncodeChar hb).1 (h b (mem_utf8_iff.2 ⟨c, hc, hb⟩))
    · intro h b hb
      obtain ⟨c, hc, hb⟩ := mem_utf8_iff.1 hb
      exact (isVisible_of_mem_utf8EncodeChar hb).2 (h c hc)
  rw [← hvisible]
  unfold Http.headerText?
  split
  · next hall =>
    rw [ofUtf8?_eq_some_iff]
    constructor
    · rintro rfl
      exact ⟨rfl, List.all_eq_true.1 hall⟩
    · exact fun h => h.1
  · next hnot =>
    constructor
    · nofun
    · rintro ⟨rfl, h⟩
      exact absurd (List.all_eq_true.2 h) hnot

/-- The blanks that may stand in a header value. -/
theorem isBlank_iff {c : Char} (h : IsVisible c) : Text.isBlank c = true ↔ c = ' ' ∨ c = '\t' := by
  have hblank : (c = ' ' ∨ c = '\t') ↔ c.toNat = 32 ∨ c.toNat = 9 := by
    rw [← Char.toNat_inj, ← Char.toNat_inj]
    rfl
  have hrange : c.toNat = 9 ∨ 32 ≤ c.toNat ∧ c.toNat ≤ 126 := by
    rcases h with rfl | h
    · exact .inl rfl
    · exact .inr h
  rw [hblank]
  simp only [Text.isBlank, Bool.or_eq_true, Bool.and_eq_true, decide_eq_true_eq]
  omega

/-- Digits and the plus sign may stand in a header value and are no blanks. -/
theorem isVisible_and_not_isBlank {c : Char} (h : c = '+' ∨ c.isDigit = true) :
    IsVisible c ∧ Text.isBlank c = false := by
  have hrange : 43 ≤ c.toNat ∧ c.toNat ≤ 57 := by
    rcases h with rfl | h
    · decide
    · have hdigit : 48 ≤ c.toNat ∧ c.toNat ≤ 57 := by
        simpa [Char.isDigit, UInt32.le_iff_toNat_le] using h
      exact ⟨by omega, hdigit.2⟩
  have hvisible : IsVisible c := .inr ⟨by show 32 ≤ c.toNat; omega, by show c.toNat ≤ 126; omega⟩
  refine ⟨hvisible, ?_⟩
  rw [Bool.eq_false_iff, ne_eq, isBlank_iff hvisible]
  rintro (rfl | rfl)
  · exact absurd hrange.1 (by decide)
  · exact absurd hrange.1 (by decide)

/-! ### Reading them -/

/-- **A header value is read as the number that it spells, if that is below the bound.** -/
theorem bind_headerText?_eq_some_iff {bound n : Nat} {value : Bytes} :
    (Http.headerText? value).bind (Decimal.ofTrimmed? bound) = some n ↔
      SpellsNumber value n ∧ n < bound := by
  constructor
  · intro h
    obtain ⟨text, htext, hread⟩ := Option.bind_eq_some_iff.1 h
    obtain ⟨rfl, hvisible⟩ := headerText?_eq_some_iff.1 htext
    obtain ⟨⟨digits, hsign, hne, hdigits, hvalue⟩, hbound⟩ := Decimal.ofTrimmed?_eq_some_iff.1 hread
    obtain ⟨before, after, hsplit, hblank⟩ := Text.exists_eq_trimChars text.toList
    have hgap : ∀ c ∈ before ++ after, c = ' ' ∨ c = '\t' := by
      intro c hc
      have hmem : c ∈ text.toList := by
        rw [hsplit]
        rcases List.mem_append.1 hc with hc | hc
        · simp [hc]
        · simp [hc]
      exact (isBlank_iff (hvisible c hmem)).1 (hblank c hc)
    refine ⟨?_, hbound⟩
    rcases hsign with hsign | hsign
    · refine ⟨before, [], digits, after, ?_, hgap, .inl rfl, hne, hdigits, hvalue⟩
      rw [List.nil_append, ← hsign, ← hsplit, String.ofList_toList]
    · refine ⟨before, ['+'], digits, after, ?_, hgap, .inr rfl, hne, hdigits, hvalue⟩
      rw [List.singleton_append, ← hsign, ← hsplit, String.ofList_toList]
  · rintro ⟨⟨before, sign, digits, after, rfl, hgap, hsign, hne, hdigits, hvalue⟩, hbound⟩
    have hcore : ∀ c ∈ sign ++ digits, IsVisible c ∧ Text.isBlank c = false := by
      intro c hc
      apply isVisible_and_not_isBlank
      rcases List.mem_append.1 hc with hc | hc
      · rcases hsign with rfl | rfl
        · cases hc
        · exact .inl (List.mem_singleton.1 hc)
      · exact .inr (hdigits c hc)
    have hgaps : ∀ c ∈ before ++ after, IsVisible c ∧ Text.isBlank c = true := by
      intro c hc
      rcases hgap c hc with rfl | rfl
      · exact ⟨.inr (by decide), rfl⟩
      · exact ⟨.inl rfl, rfl⟩
    have htext : Http.headerText? (utf8 (String.ofList (before ++ (sign ++ digits) ++ after))) =
        some (String.ofList (before ++ (sign ++ digits) ++ after)) := by
      refine headerText?_eq_some_iff.2 ⟨rfl, fun c hc => ?_⟩
      rw [String.toList_ofList, List.mem_append, List.mem_append] at hc
      rcases hc with (hc | hc) | hc
      · exact (hgaps c (by simp [hc])).1
      · exact (hcore c hc).1
      · exact (hgaps c (by simp [hc])).1
    -- the sign and the digits are what is left when the blanks are taken off
    have htrim : Text.trimChars (before ++ (sign ++ digits) ++ after) = sign ++ digits := by
      rw [Text.trimChars_pad (fun c hc => (hgaps c (by simp [hc])).2)
        (fun c hc => (hgaps c (by simp [hc])).2)]
      exact Text.trimChars_eq_self fun c hc => (hcore c hc).2
    rw [htext, Option.bind_some, Decimal.ofTrimmed?_eq_some_iff, String.toList_ofList, htrim]
    refine ⟨⟨digits, ?_, hne, hdigits, hvalue⟩, hbound⟩
    rcases hsign with rfl | rfl
    · exact .inl rfl
    · exact .inr rfl

/-- A header value spells one number at most. -/
theorem SpellsNumber.unique {value : Bytes} {m n : Nat} (hm : SpellsNumber value m)
    (hn : SpellsNumber value n) : m = n := by
  -- both are what is read below a bound above both of them
  have hm' := bind_headerText?_eq_some_iff.2 ⟨hm, (by omega : m < m + n + 1)⟩
  have hn' := bind_headerText?_eq_some_iff.2 ⟨hn, (by omega : n < m + n + 1)⟩
  rw [hm'] at hn'
  exact Option.some.inj hn'

/-- What is written for a number spells it. -/
theorem spellsNumber_toString (n : Nat) : SpellsNumber (utf8 (toString n)) n := by
  refine ⟨[], [], Nat.toDigits 10 n, [], ?_, nofun, .inl rfl, Nat.toDigits_ne_nil, ?_,
    Nat.ofDigitChars_ten_toDigits⟩
  · rw [Nat.toString_eq_ofList_toDigits]
    simp
  · intro d hd
    exact Nat.isDigit_of_mem_toDigits (by decide) (by decide) hd

theorem sessionId_cons (value : Bytes) (more : List Bytes) :
    sessionId (value :: more) =
      match (Http.headerText? value).bind (Decimal.ofTrimmed? UInt64.size) with
      | some n => .ok (UInt64.ofNat n)
      | none => .error .invalidSessionHeader := rfl

theorem sessionId_of_spellsNumber {value : Bytes} {n : Nat} (h : SpellsNumber value n)
    (hn : n < 2 ^ 64) (more : List Bytes) : sessionId (value :: more) = .ok (UInt64.ofNat n) := by
  have hread : (Http.headerText? value).bind (Decimal.ofTrimmed? UInt64.size) = some n :=
    bind_headerText?_eq_some_iff.2 ⟨h, hn⟩
  rw [sessionId_cons, hread]

/-- What spells no number below `2 ^ 64` is refused. -/
theorem sessionId_eq_error {value : Bytes} (h : ∀ n, SpellsNumber value n → 2 ^ 64 ≤ n)
    (more : List Bytes) : sessionId (value :: more) = .error .invalidSessionHeader := by
  have hnone : (Http.headerText? value).bind (Decimal.ofTrimmed? UInt64.size) = none := by
    rw [Option.eq_none_iff_forall_ne_some]
    intro n hn
    obtain ⟨hspells, hbound⟩ := bind_headerText?_eq_some_iff.1 hn
    exact absurd hbound (Nat.not_lt.2 (h n hspells))
  rw [sessionId_cons, hnone]

theorem sessionId_eq_ok_iff {value : Bytes} {more : List Bytes} {id : UInt64} :
    sessionId (value :: more) = .ok id ↔ SpellsNumber value id.toNat := by
  constructor
  · intro h
    by_cases hspells : ∃ n < 2 ^ 64, SpellsNumber value n
    · obtain ⟨n, hn, hspells⟩ := hspells
      rw [sessionId_of_spellsNumber hspells hn] at h
      obtain rfl := Except.ok.inj h
      rwa [UInt64.toNat_ofNat_of_lt' hn]
    · rw [sessionId_eq_error] at h
      · cases h
      · intro n hn
        by_contra hlt
        exact hspells ⟨n, Nat.not_le.1 hlt, hn⟩
  · intro h
    rw [sessionId_of_spellsNumber h id.toNat_lt, UInt64.ofNat_toNat]

/-- **Ids of sessions survive the header and are never cut down.**  The id in the header of a login
reply is read back.  Of the headers of a request only the first counts: it is taken for an id
exactly if it spells the number of the id; if it spells a larger number, of whatever length, or none
at all, it is malformed. -/
theorem session_ids_read_exactly :
    (∀ new : NewSession, sessionId (((Service.welcome new).headers.filter fun header =>
      header.1 = "session-id").map (·.2)) = .ok new.id) ∧
    sessionId [] = .error .missingSession ∧
    ∀ (value : Bytes) (more : List Bytes),
      (∀ id, sessionId (value :: more) = .ok id ↔ SpellsNumber value id.toNat) ∧
      (∀ n, SpellsNumber value n → 2 ^ 64 ≤ n →
        sessionId (value :: more) = .error .invalidSessionHeader) ∧
      ((∀ n, ¬SpellsNumber value n) →
        sessionId (value :: more) = .error .invalidSessionHeader) := by
  refine ⟨fun new => ?_, rfl, fun value more => ⟨fun id => sessionId_eq_ok_iff, ?_, ?_⟩⟩
  · have hheader : ((Service.welcome new).headers.filter fun header =>
        header.1 = "session-id").map (·.2) = [utf8 (toString new.id.toNat)] := by
      rfl
    rw [hheader]
    exact sessionId_eq_ok_iff.2 (spellsNumber_toString new.id.toNat)
  · intro n hn hlarge
    apply sessionId_eq_error
    intro m hm
    rwa [hm.unique hn]
  · intro hnone
    apply sessionId_eq_error
    intro n hn
    exact absurd hn (hnone n)

/-- The greatest id, with a tab, a blank, a plus sign and zeros in front of it. -/
def samplePadded : Bytes := utf8 "\t +00018446744073709551615 "

/-- A number that 64 bits would take for one. -/
def sampleBeyond : Bytes := utf8 "18446744073709551617"

theorem session_ids_read_exactly_samplePadded :
    SpellsNumber samplePadded (2 ^ 64 - 1) ∧ SpellsNumber sampleBeyond (2 ^ 64 + 1) ∧
      sessionId [samplePadded, sampleBeyond] = .ok (UInt64.ofNat (2 ^ 64 - 1)) ∧
      sessionId [sampleBeyond, samplePadded] = .error .invalidSessionHeader := by
  have hpadded : SpellsNumber samplePadded (2 ^ 64 - 1) :=
    ⟨['\t', ' '], ['+'], "00018446744073709551615".toList, [' '], by decide +kernel, by simp,
      .inr rfl, by decide, List.all_eq_true.1 (by decide), by decide⟩
  have hbeyond : SpellsNumber sampleBeyond (2 ^ 64 + 1) :=
    ⟨[], [], "18446744073709551617".toList, [], by decide +kernel, nofun, .inl rfl, by decide,
      List.all_eq_true.1 (by decide), by decide⟩
  obtain ⟨-, -, hread⟩ := session_ids_read_exactly
  obtain ⟨haccepted, -, -⟩ := hread samplePadded [sampleBeyond]
  obtain ⟨-, hrefused, -⟩ := hread sampleBeyond [samplePadded]
  exact ⟨hpadded, hbeyond, (haccepted _).2 hpadded, hrefused _ hbeyond (by decide)⟩

end Strongroom.Access
