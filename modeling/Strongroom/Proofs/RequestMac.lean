import Mathlib.Algebra.Group.Nat.Defs
import Mathlib.Data.List.TakeDrop
import Strongroom.RequestMac

/-!
# What is authenticated of a request

A code is the HMAC of a frame, and a check computes the same HMAC (`compute_eq_hmac`,
`verify_eq_true_iff_hmac`).  So it is the frame that has to tell two requests apart.  In a frame the
context and the body each stand behind their length, in eight bytes.  The length is read before what
it measures, so it does not matter which bytes stand there, and a context may well look like a
length itself:

    measured a ++ s = measured b ++ t  →  a = b  and  s = t

(`measured_append_inj`), which is injectivity and says at the same time that no frame is the
beginning of another one.  Eight bytes hold the lengths below `2 ^ 64`; a longer byte string would
get the length of a shorter one.

A code has thirty-two bytes and is compared as a whole (`verify_eq_true_iff`).
-/

namespace Strongroom.RequestMac

variable {a b s t context context' body body' : Bytes}

/-! ### Frames -/

/-- **A measured byte string ends where it ends**, whatever stands behind it. -/
theorem measured_append_inj (ha : a.length < 2 ^ 64) (hb : b.length < 2 ^ 64)
    (h : measured a ++ s = measured b ++ t) : a = b ∧ s = t := by
  simp only [measured, List.append_assoc] at h
  have hwidth : (bigEndian 8 a.length).length = (bigEndian 8 b.length).length := by
    rw [length_bigEndian, length_bigEndian]
  obtain ⟨hlengths, hrest⟩ := List.append_inj h hwidth
  have hsame : a.length = b.length := by
    refine bigEndian_inj ?_ ?_ hlengths
    · exact ha
    · exact hb
  exact List.append_inj hrest hsame

theorem frame_append_inj (hcontext : context.length < 2 ^ 64) (hcontext' : context'.length < 2 ^ 64)
    (hbody : body.length < 2 ^ 64) (hbody' : body'.length < 2 ^ 64)
    (h : frame context body ++ s = frame context' body' ++ t) :
    context = context' ∧ body = body' ∧ s = t := by
  simp only [frame, List.append_assoc] at h
  obtain ⟨hcontexts, hrest⟩ := measured_append_inj hcontext hcontext' h
  exact ⟨hcontexts, measured_append_inj hbody hbody' hrest⟩

/-! ### Codes -/

variable {key mac : Bytes}

/-- **What a code is computed from** is the frame of the request, under whatever key. -/
theorem compute_eq_hmac (key context body : Bytes) :
    compute key context body = Hmac.sha256 key (frame context body) := rfl

theorem verify_eq_true_iff :
    verify key mac context body = true ↔ mac = (compute key context body).bytes := by
  rw [verify, decide_eq_true_eq]

/-- **What a code is checked against** is computed from the same frame. -/
theorem verify_eq_true_iff_hmac :
    verify key mac context body = true ↔ mac = (Hmac.sha256 key (frame context body)).bytes := by
  rw [verify_eq_true_iff, compute_eq_hmac]

theorem verify_append_iff {extra : Bytes} :
    verify key ((compute key context body).bytes ++ extra) context body = true ↔ extra = [] := by
  rw [verify_eq_true_iff, List.append_right_eq_self]

theorem verify_take_iff {n : Nat} :
    verify key ((compute key context body).bytes.take n) context body = true ↔ length ≤ n := by
  have hlength := (compute key context body).length_eq
  rw [verify_eq_true_iff, List.take_eq_self_iff, hlength, length]

/-- **Frames are unambiguous, and only the code itself is accepted.**  What goes into the HMAC when
the code of a request is computed, and again when it is checked, is the frame of its context and its
body.  Two requests whose contexts and bodies are shorter than `2 ^ 64` bytes have the same frame
only if they have the same context and the same body, and no frame is the beginning of another.  A
byte string of whatever length passes as the code of a request if and only if it is the code: it
does not with anything added to it, nor with anything cut off. -/
theorem frames_unambiguous_and_codes_exact :
    (∀ key mac context body : Bytes,
      compute key context body = Hmac.sha256 key (frame context body) ∧
      (verify key mac context body = true ↔
        mac = (Hmac.sha256 key (frame context body)).bytes)) ∧
    (∀ context context' body body' : Bytes, context.length < 2 ^ 64 → context'.length < 2 ^ 64 →
      body.length < 2 ^ 64 → body'.length < 2 ^ 64 →
      (frame context body = frame context' body' ↔ context = context' ∧ body = body') ∧
      (frame context body <+: frame context' body' → frame context body = frame context' body')) ∧
    ∀ key mac context body : Bytes,
      (verify key mac context body = true ↔ mac = (compute key context body).bytes) ∧
      (∀ extra, verify key ((compute key context body).bytes ++ extra) context body = true ↔
        extra = []) ∧
      ∀ n, verify key ((compute key context body).bytes.take n) context body = true ↔ 32 ≤ n := by
  refine ⟨fun key mac context body => ⟨compute_eq_hmac key context body, verify_eq_true_iff_hmac⟩,
    fun context context' body body' hcontext hcontext' hbody hbody' => ⟨⟨?_, ?_⟩, ?_⟩,
    fun key mac context body =>
      ⟨verify_eq_true_iff, fun _ => verify_append_iff, fun _ => verify_take_iff⟩⟩
  · intro h
    obtain ⟨hcontexts, hbodies, -⟩ :=
      frame_append_inj (s := []) (t := []) hcontext hcontext' hbody hbody' (by rw [h])
    exact ⟨hcontexts, hbodies⟩
  · rintro ⟨rfl, rfl⟩
    rfl
  · rintro ⟨s, hs⟩
    obtain ⟨rfl, rfl, -⟩ :=
      frame_append_inj (t := []) hcontext hcontext' hbody hbody' (by rw [hs, List.append_nil])
    rfl

/-- The second context is the first one with the measured body of the first request behind it.  If
contexts had no length in front, the bytes of the first request would be the beginning of those of
the second. -/
theorem frames_unambiguous_and_codes_exact_measuredInContext :
    let context : Bytes := [97]
    let body : Bytes := [98, 99]
    let context' : Bytes := context ++ measured body
    context ++ measured body <+: context' ++ measured [] ∧
      context.length < 2 ^ 64 ∧ context'.length < 2 ^ 64 ∧ body.length < 2 ^ 64 ∧
      compute [1] context body = Hmac.sha256 [1] (frame context body) ∧
      compute [1] context' [] = Hmac.sha256 [1] (frame context' []) ∧
      frame context body ≠ frame context' [] ∧ ¬frame context body <+: frame context' [] := by
  intro context body context'
  have hcontext : context.length < 2 ^ 64 := by decide
  have hcontext' : context'.length < 2 ^ 64 := by decide
  have hbody : body.length < 2 ^ 64 := by decide
  have hempty : ([] : Bytes).length < 2 ^ 64 := by decide
  obtain ⟨hcodes, hframes, -⟩ := frames_unambiguous_and_codes_exact
  obtain ⟨hsame, hbegins⟩ := hframes context context' body [] hcontext hcontext' hbody hempty
  have hdifferent : frame context body ≠ frame context' [] := by
    rw [Ne, hsame]
    decide
  exact ⟨List.prefix_append _ _, hcontext, hcontext', hbody, (hcodes [1] [] context body).1,
    (hcodes [1] [] context' []).1, hdifferent, fun h => hdifferent (hbegins h)⟩

end Strongroom.RequestMac
