import Strongroom.Proofs.Json.Messages
import Strongroom.Proofs.Text.Base64
import Strongroom.Service.Basic

/-!
# Byte strings in the fields of messages

A field that holds a byte string holds its base64 text.  There are three kinds of values, and a
receiver never takes one for another (`value_cases`): the empty text is an absent field, a text in
strict base64 that is not empty gives the bytes that it is written for, and these are not empty
either, and any other text is refused as no base64.  So base64 is a bijection between byte strings
and the texts that are accepted (`base64_fields_bijective`), and a field that is given is never
treated as absent.
-/

namespace Strongroom

/-- What a caller is told says why a request has failed. -/
theorem Http.Failure.eq_of_reply_eq {f g : Http.Failure} (h : f.reply = g.reply) : f = g := by
  have hstatus : f.status = g.status := congrArg Http.Reply.status h
  have hbody : Message.Response.toJson ⟨f.message⟩ = Message.Response.toJson ⟨g.message⟩ :=
    congrArg Http.Reply.body h
  have hf := Json.readAll_of_reads (Message.Response.reads_toJson ⟨f.message⟩)
  have hg := Json.readAll_of_reads (Message.Response.reads_toJson ⟨g.message⟩)
  rw [hbody, hg] at hf
  have hmessage : g.message = f.message := congrArg Message.Response.string (Except.ok.inj hf)
  cases f
  cases g
  cases hstatus
  cases hmessage
  rfl

namespace Service

theorem fail_inj {α : Type} {f g : Http.Failure} (h : fail (α := α) f = fail g) : f = g :=
  Http.Failure.eq_of_reply_eq (Except.error.inj h)

/-! ### The three kinds of values -/

theorem value_cases (value : String) : value = "" ∨
    (∃ b : Bytes, b ≠ [] ∧ Base64.encode b = value) ∨ ¬ Base64.IsStrict value := by
  by_cases hstrict : Base64.IsStrict value
  · obtain ⟨b, rfl⟩ := Base64.isStrict_iff.1 hstrict
    by_cases hb : b = []
    · subst hb
      exact .inl rfl
    · exact .inr (.inl ⟨b, hb, rfl⟩)
  · exact .inr (.inr hstrict)

/-- Only the empty byte string is written as the empty text. -/
theorem encode_ne_empty {b : Bytes} (hb : b ≠ []) : Base64.encode b ≠ "" := by
  intro hempty
  have hdecode := Base64.decode?_encode b
  rw [hempty] at hdecode
  exact hb (Option.some.inj hdecode).symm

theorem isStrict_empty : Base64.IsStrict "" :=
  Base64.isStrict_iff.2 ⟨[], rfl⟩

section

variable {value field : String} {b : Bytes}

theorem optionalBytes_encode (hb : b ≠ []) :
    optionalBytes (Base64.encode b) field = .ok (some b) := by
  rw [optionalBytes, if_neg (by simpa using encode_ne_empty hb), Base64.decode?_encode]
  simp [hb]

theorem optionalBytes_of_not_isStrict (h : ¬ Base64.IsStrict value) :
    optionalBytes value field = fail (.badRequest (field ++ " must be base64")) := by
  have hne : value ≠ "" := by
    rintro rfl
    exact h isStrict_empty
  have hdecode : Base64.decode? value = none := by
    cases hdecode : Base64.decode? value with
    | none => rfl
    | some b => exact absurd (Base64.isStrict_iff.2 ⟨b, Base64.encode_of_decode? hdecode⟩) h
  rw [optionalBytes, if_neg (by simpa using hne), hdecode]

theorem requiredBytes_empty :
    requiredBytes "" field = fail (.badRequest (field ++ " is required")) := rfl

theorem requiredBytes_encode (hb : b ≠ []) :
    requiredBytes (Base64.encode b) field = .ok b := by
  rw [requiredBytes, optionalBytes_encode hb]
  rfl

theorem requiredBytes_of_not_isStrict (h : ¬ Base64.IsStrict value) :
    requiredBytes value field = fail (.badRequest (field ++ " must be base64")) := by
  rw [requiredBytes, optionalBytes_of_not_isStrict h]
  rfl

theorem exists_of_optionalBytes {bytes : Option Bytes} (hne : value ≠ "")
    (h : optionalBytes value field = .ok bytes) :
    ∃ b, bytes = some b ∧ b ≠ [] ∧ Base64.encode b = value := by
  rcases value_cases value with rfl | ⟨b, hb, rfl⟩ | hstrict
  · exact absurd rfl hne
  · rw [optionalBytes_encode hb] at h
    exact ⟨b, (Except.ok.inj h).symm, hb, rfl⟩
  · rw [optionalBytes_of_not_isStrict hstrict] at h
    cases h

theorem of_requiredBytes_eq_ok (h : requiredBytes value field = .ok b) :
    b ≠ [] ∧ Base64.encode b = value := by
  rcases value_cases value with rfl | ⟨b', hb, rfl⟩ | hstrict
  · cases h
  · rw [requiredBytes_encode hb] at h
    cases h
    exact ⟨hb, rfl⟩
  · rw [requiredBytes_of_not_isStrict hstrict] at h
    cases h

end

/-- The field is missing, or it is there and no base64; these are different failures. -/
theorem required_ne_notBase64 (field : String) :
    Http.Failure.badRequest (field ++ " is required") ≠
      Http.Failure.badRequest (field ++ " must be base64") := by
  intro h
  have hwords : field ++ " is required" = field ++ " must be base64" :=
    congrArg Http.Failure.message h
  exact absurd ((String.append_right_inj field).1 hwords) (by decide)

/-- **Base64 is a bijection between byte strings and the texts that are accepted.**  Every byte
string is read back from its text, and a text that is read is the text of what it is read as.  The
texts that are read are those in strict base64: digits of the standard alphabet and the padding that
is due, with no bits left over.  The empty text alone is read as the empty byte string.

So a field counts as absent exactly if its value is empty, it gives bytes exactly if its value is
their text, and it is refused as no base64 exactly if its value is not in strict base64. -/
theorem base64_fields_bijective :
    (∀ b, Base64.decode? (Base64.encode b) = some b) ∧
      (∀ text b, Base64.decode? text = some b ↔ Base64.encode b = text) ∧
      (∀ text, (∃ b, Base64.decode? text = some b) ↔ Base64.IsStrict text) ∧
      (∀ text, Base64.decode? text = some [] ↔ text = "") ∧
      ∀ value field,
        (optionalBytes value field = .ok none ↔ value = "") ∧
        (∀ b, optionalBytes value field = .ok (some b) ↔ value ≠ "" ∧ Base64.encode b = value) ∧
        (∀ b, requiredBytes value field = .ok b ↔ value ≠ "" ∧ Base64.encode b = value) ∧
        (requiredBytes value field = fail (.badRequest (field ++ " is required")) ↔ value = "") ∧
        (requiredBytes value field = fail (.badRequest (field ++ " must be base64")) ↔
          ¬ Base64.IsStrict value) := by
  refine ⟨Base64.decode?_encode, fun text b => Base64.decode?_eq_some_iff, ?_, ?_, ?_⟩
  · intro text
    simp only [Base64.decode?_eq_some_iff, Base64.isStrict_iff]
  · intro text
    rw [Base64.decode?_eq_some_iff]
    exact eq_comm
  · intro value field
    rcases value_cases value with rfl | ⟨b, hb, rfl⟩ | hstrict
    · have hrequired : requiredBytes "" field = fail (.badRequest (field ++ " is required")) :=
        requiredBytes_empty
      have hoptional : optionalBytes "" field = .ok none := rfl
      rw [hrequired, hoptional]
      refine ⟨by simp, by simp, by simp [fail], by simp, ?_⟩
      simp only [isStrict_empty, not_true_eq_false, iff_false]
      intro h
      exact required_ne_notBase64 field (fail_inj h)
    · have hinj : ∀ b', Base64.encode b' = Base64.encode b ↔ b = b' := by
        intro b'
        rw [← Base64.decode?_eq_some_iff, Base64.decode?_encode, Option.some_inj]
      have hstrict : Base64.IsStrict (Base64.encode b) := Base64.isStrict_iff.2 ⟨b, rfl⟩
      rw [requiredBytes_encode hb, optionalBytes_encode hb]
      simp [hinj, encode_ne_empty hb, hstrict, fail]
    · have hne : value ≠ "" := by
        rintro rfl
        exact hstrict isStrict_empty
      have hnone : ∀ b, Base64.encode b ≠ value := by
        intro b h
        exact hstrict (Base64.isStrict_iff.2 ⟨b, h⟩)
      rw [requiredBytes_of_not_isStrict hstrict, optionalBytes_of_not_isStrict hstrict]
      refine ⟨by simp [fail, hne], by simp [fail, hnone], by simp [fail, hnone], ?_,
        by simp [hstrict]⟩
      simp only [hne, iff_false]
      intro h
      exact required_ne_notBase64 field (fail_inj h).symm

/-- A character of padding is missing, a bit is left over, there is a blank: no base64. -/
example : Base64.decode? "AQ=" = none ∧ Base64.decode? "AR==" = none ∧
    Base64.decode? "AQ== " = none ∧ Base64.decode? "AQ==" = some [1] := by
  decide +kernel

end Service

end Strongroom
