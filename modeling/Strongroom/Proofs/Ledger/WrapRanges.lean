import Strongroom.Proofs.Ledger.ReadPaths

/-!
# Where the wraps of a secret stand

The key of a wrap is the name of its secret, a zero byte and eight bytes of its number, in which any
byte may occur.  What keeps the secrets apart is that a name that is accepted has no byte as low as
the zero and the one that bound its range.  So keys compare first by the names and then by the
numbers (`wrapKey_lt_iff`), and the range of a name has the keys of this name and no others
(`mem_range_iff`): if one name starts another, the longer one goes on above the range,

    name ++ [0]  ≤  name's keys  <  name ++ [1]  <  keys of longer names.

A scan that is limited to a text that is no name covers a range like any other, and there may be
keys in it, for the numbers of a secret's wraps start with zeros.  But rows of other secrets are
left out, so every scan gives what it should (`wrap_keys_keep_secrets_apart`).
-/

namespace Strongroom.Ledger

variable {s t : String} {m n : UInt64}

/-- Keys compare by the names and, under one name, by the numbers. -/
theorem wrapKey_lt_iff (hs : (0 : UInt8) ∉ utf8 s) (ht : (0 : UInt8) ∉ utf8 t) :
    wrapKey s m < wrapKey t n ↔ utf8 s < utf8 t ∨ s = t ∧ m < n := by
  rcases Std.lt_trichotomy (utf8 s) (utf8 t) with hlt | heq | hgt
  · exact iff_of_true (wrapKey_lt_of_utf8_lt ht hlt m n) (.inl hlt)
  · obtain rfl := utf8_inj.1 heq
    rw [wrapKey_lt_iff_of_same]
    constructor
    · exact fun hlt => .inr ⟨rfl, hlt⟩
    · rintro (hlt | ⟨-, hlt⟩)
      · exact absurd hlt (List.lt_irrefl _)
      · exact hlt
  · have hreverse := wrapKey_lt_of_utf8_lt hs hgt n m
    apply iff_of_false
    · intro hlt
      exact absurd (Std.lt_trans hlt hreverse) (List.lt_irrefl _)
    · rintro (hlt | ⟨rfl, -⟩)
      · exact absurd (Std.lt_trans hlt hgt) (List.lt_irrefl _)
      · exact absurd hgt (List.lt_irrefl _)

/-- **The range of a name has the keys of this name and no others.** -/
theorem mem_range_iff (hs : s.toList.all isNameChar = true) (ht : t.toList.all isNameChar = true) :
    wrapsStart s ≤ wrapKey t n ∧ wrapKey t n < wrapsEnd s ↔ s = t := by
  -- the bytes of names are above those that bound the ranges
  have habove : ∀ {u : String}, u.toList.all isNameChar = true → ∀ {x : UInt8}, x < 0x20 →
      ∀ y ∈ utf8 u, x < y :=
    fun hu _ hx y hy => Std.lt_of_lt_of_le hx (blank_le_of_mem_utf8 hu hy)
  constructor
  · rintro ⟨hstart, hend⟩
    rcases Std.lt_trichotomy (utf8 s) (utf8 t) with hlt | heq | hgt
    · have hbeyond : wrapsEnd s < wrapKey t n :=
        append_cons_lt_append (habove ht (by decide)) hlt [] _
      exact absurd (Std.lt_trans hbeyond hend) (List.lt_irrefl _)
    · exact utf8_inj.1 heq
    · have hbefore : wrapKey t n < wrapsStart s :=
        append_cons_lt_append (habove hs (by decide)) hgt _ [0]
      exact absurd hbefore (Std.not_lt.2 hstart)
  · rintro rfl
    exact ⟨wrapsStart_le_wrapKey s n, wrapKey_lt_wrapsEnd s n⟩

/-- **The keys of wraps keep the secrets apart and in order.**  Under names that are accepted, a key
determines the name and the number, keys come in the byte order of the names and then in that of the
numbers, and the range of a name has the keys of this name only.  In every ledger that a run can
reach, a scan for a secret, under whatever text, finds those of all wraps that are of this secret,
in the same order. -/
theorem wrap_keys_keep_secrets_apart :
    (∀ (what what' s t : String), checkName what s = .ok () → checkName what' t = .ok () →
      ∀ m n : UInt64,
        (wrapKey s m = wrapKey t n ↔ s = t ∧ m = n) ∧
        (wrapKey s m < wrapKey t n ↔ utf8 s < utf8 t ∨ s = t ∧ m < n) ∧
        (wrapsStart s ≤ wrapKey t n ∧ wrapKey t n < wrapsEnd s ↔ s = t)) ∧
    ∀ (cs : List Command) (secret : String),
      let l := (run Ledger.execute .empty cs).2
      ∃ ws, l.scanWraps none = .ok ws ∧
        l.scanWraps (some secret) = .ok (ws.filter fun x => x.2.secret = secret) := by
  constructor
  · intro what what' s t hs ht m n
    have hs := isNameChar_of_checkName hs
    have ht := isNameChar_of_checkName ht
    refine ⟨⟨wrapKey_inj, ?_⟩, wrapKey_lt_iff (zero_notMem_utf8 hs) (zero_notMem_utf8 ht),
      mem_range_iff hs ht⟩
    rintro ⟨rfl, rfl⟩
    rfl
  · intro cs secret l
    have hintact : l.Intact := intact_run .empty cs
    obtain ⟨ws, hws⟩ := exists_scanWraps hintact.wraps none
    exact ⟨ws, hws, hintact.scanWraps_eq_filter hws secret⟩

/-- One name starts the other, and the shorter one has the greatest number.  The text that is no
name covers the row of `db` that is left, and the scan for it leaves the row out. -/
theorem wrap_keys_keep_secrets_apart_samplePrefix :
    let l := (run Ledger.execute .empty sampleRun).2
    checkName "secret" "db" = .ok () ∧ checkName "secret" "dba" = .ok () ∧
      wrapKey "db" (UInt64.ofNat (2 ^ 64 - 1)) < wrapKey "dba" 0 ∧
      ¬(wrapsStart "db" ≤ wrapKey "dba" 0 ∧ wrapKey "dba" 0 < wrapsEnd "db") ∧
      (l.wrapRows (some "db\x00")).length = 1 ∧ l.scanWraps (some "db\x00") = .ok [] := by
  intro l
  have hdb : checkName "secret" "db" = .ok () := by decide
  have hdba : checkName "secret" "dba" = .ok () := by decide
  obtain ⟨hnames, hscans⟩ := wrap_keys_keep_secrets_apart
  obtain ⟨-, horder, hrange⟩ := hnames _ _ _ _ hdb hdba (UInt64.ofNat (2 ^ 64 - 1)) 0
  have hlower : utf8 "db" < utf8 "dba" := by decide
  obtain ⟨ws, hws, hscan⟩ := hscans sampleRun "db\x00"
  have hsecrets : (l.scanWraps none).toOption.map (fun ws => ws.map (·.2.secret)) =
      some ["db"] := by
    decide +kernel
  refine ⟨hdb, hdba, horder.2 (.inl hlower), fun h => absurd (hrange.1 h) (by decide),
    by decide +kernel, ?_⟩
  have hnone : (ws.filter fun x => x.2.secret = "db\x00") = [] := by
    rw [hws] at hsecrets
    have hmap : ws.map (·.2.secret) = ["db"] := Option.some.inj hsecrets
    rw [List.filter_eq_nil_iff]
    intro x hx
    have hmem : x.2.secret ∈ ["db"] := hmap ▸ List.mem_map_of_mem hx
    rw [List.mem_singleton.1 hmem]
    decide
  rw [hscan, hnone]

end Strongroom.Ledger
