import Mathlib.Data.List.Forall2
import Mathlib.Data.List.TakeDrop
import Strongroom.Proofs.Json.Written

/-!
# Written numbers and lists of numbers

A byte string is written as the list of its bytes' numbers, so reading it back needs two things: a
number is read back (`numeral_number`) and a list of readable items is read back (`reads_list`).
The digits of a number come from `Nat.toDigits`; `number_of_lt` and `number_of_le` give them a
recursion from the right, which is the direction in which both the reader's value and the written
form are built up.
-/

namespace Strongroom.Json

/-! ### Digits -/

theorem utf8EncodeChar_digitChar {n : Nat} (h : n < 10) :
    String.utf8EncodeChar n.digitChar = [UInt8.ofNat (48 + n)] := by
  revert n
  decide

theorem number_of_lt {n : Nat} (h : n < 10) : number n = [UInt8.ofNat (48 + n)] := by
  rw [number, Nat.toString_eq_ofList_toDigits, utf8_ofList, Nat.toDigits_of_lt_base h]
  simp [utf8EncodeChar_digitChar h]

theorem number_of_le {n : Nat} (h : 10 ≤ n) :
    number n = number (n / 10) ++ [UInt8.ofNat (48 + n % 10)] := by
  simp only [number, Nat.toString_eq_ofList_toDigits, utf8_ofList]
  rw [Nat.toDigits_of_base_le (by decide) h, List.flatMap_append]
  simp [utf8EncodeChar_digitChar (Nat.mod_lt n (by decide : 0 < 10))]

theorem isDigit_ofNat {n : Nat} (h : n < 10) : isDigit (UInt8.ofNat (48 + n)) = true := by
  revert n
  decide

theorem toNat_ofNat_digit {n : Nat} (h : n < 10) : (UInt8.ofNat (48 + n)).toNat - 48 = n := by
  revert n
  decide

theorem eq_zero_of_digit {n : Nat} (h : n < 10) : UInt8.ofNat (48 + n) = ascii '0' → n = 0 := by
  revert n
  decide

theorem isDigit_of_mem_number {n : Nat} : ∀ b ∈ number n, isDigit b = true := by
  induction n using Nat.strongRecOn with
  | ind n ih =>
    intro b hb
    by_cases h : n < 10
    · rw [number_of_lt h, List.mem_singleton] at hb
      rw [hb]
      exact isDigit_ofNat h
    · rw [number_of_le (by omega), List.mem_append, List.mem_singleton] at hb
      rcases hb with hb | rfl
      · exact ih (n / 10) (by omega) b hb
      · exact isDigit_ofNat (Nat.mod_lt n (by decide))

/-- Only zero starts with a zero. -/
theorem number_starts (n : Nat) : ∃ b bs, number n = b :: bs ∧ (b = ascii '0' → n = 0) := by
  induction n using Nat.strongRecOn with
  | ind n ih =>
    by_cases h : n < 10
    · exact ⟨_, _, number_of_lt h, eq_zero_of_digit h⟩
    · obtain ⟨b, bs, hb, h0⟩ := ih (n / 10) (by omega)
      refine ⟨b, bs ++ [UInt8.ofNat (48 + n % 10)], ?_, fun hz => ?_⟩
      · rw [number_of_le (by omega), hb, List.cons_append]
      · have := h0 hz
        omega

theorem extend_append {a m : Nat} {xs : Bytes} {d : UInt8} (h : Magnitude.extend a xs = (m, []))
    (hd : 10 * m + (d.toNat - 48) < UInt64.size) :
    Magnitude.extend a (xs ++ [d]) = (10 * m + (d.toNat - 48), []) := by
  induction xs generalizing a with
  | nil =>
    obtain rfl : a = m := by simpa [Magnitude.extend] using h
    simp only [List.nil_append, Magnitude.extend]
    rw [if_pos hd]
  | cons x xs ih =>
    simp only [List.cons_append, Magnitude.extend] at h ⊢
    split at h
    · next hx => rw [if_pos hx]; exact ih h
    · simp at h

theorem extend_number {n : Nat} (h : n < UInt64.size) :
    Magnitude.extend 0 (number n) = (n, []) := by
  induction n using Nat.strongRecOn with
  | ind n ih =>
    by_cases hn : n < 10
    · rw [number_of_lt hn]
      simp only [Magnitude.extend, toNat_ofNat_digit hn]
      rw [if_pos (by omega)]
      simp
    · have hmod := toNat_ofNat_digit (Nat.mod_lt n (by decide : 0 < 10))
      have hlast := extend_append (ih (n / 10) (by omega) (by omega))
        (d := UInt8.ofNat (48 + n % 10)) (by omega)
      rw [number_of_le (by omega), hlast, hmod]
      congr 1
      omega

theorem not_isTooLarge {n : Nat} (h : n < 1 <<< 53) :
    Magnitude.isTooLarge ⟨n, 0⟩ = false := by
  have hn := Magnitude.nearest_of_lt h
  have h1 : Magnitude.nearest (Nat.pow 10 0) = 1 := by decide
  have hl : 1 <<< 53 < Magnitude.limit := by decide
  simp only [Magnitude.isTooLarge]
  split
  · rfl
  · show (if (308 : Int) < 0 then true else decide (Magnitude.limit ≤
      Magnitude.nearest n * Magnitude.nearest (Nat.pow 10 0))) = false
    rw [hn, h1]
    simp
    omega

theorem digits_append {ds rest : Bytes} (hd : ∀ b ∈ ds, isDigit b = true)
    (hr : ∀ b ∈ rest.head?, isDigit b = false) : digits (ds ++ rest) = (ds, rest) := by
  rw [digits, List.span_eq_takeWhile_dropWhile]
  induction ds with
  | nil =>
    cases rest with
    | nil => rfl
    | cons b rest => simp [hr b rfl]
  | cons d ds ih =>
    have hd' := hd d (by simp)
    have := ih fun b hb => hd b (by simp [hb])
    simp only [Prod.mk.injEq] at this
    simp [hd', this]

theorem Stops.head {rest : Bytes} (h : Stops rest) {b : UInt8} (hb : b ∈ rest.head?) :
    isDigit b = false ∧ b ≠ ascii '.' ∧ ¬(b = ascii 'e' ∨ b = ascii 'E') := by
  have := h b hb
  simp only [continuesNumber, Bool.or_eq_false_iff, decide_eq_false_iff_not] at this
  exact ⟨this.1.1.1, this.1.1.2, fun h => h.elim this.1.2 this.2⟩

theorem wholeDigits_number (n : Nat) {rest : Bytes} (h : Stops rest) :
    wholeDigits (number n ++ rest) = .ok (number n, rest) := by
  obtain ⟨b, bs, hb, h0⟩ := number_starts n
  have hdig := isDigit_of_mem_number (n := n)
  by_cases hz : b = ascii '0'
  · obtain rfl := h0 hz
    rw [number_of_lt (by decide)]
    cases rest with
    | nil => rfl
    | cons c rest =>
      show (if isDigit c = true then _ else _) = _
      rw [(h.head rfl).1]
      rfl
  · rw [hb] at hdig ⊢
    rw [List.cons_append]
    unfold wholeDigits
    simp only [if_neg hz, if_pos (hdig b (by simp))]
    rw [← List.cons_append, digits_append hdig fun c hc => (h.head hc).1]

theorem fraction_stops {rest : Bytes} (h : Stops rest) : fraction rest = .ok ([], rest) := by
  cases rest with
  | nil => rfl
  | cons c rest => rw [fraction, if_neg (h.head rfl).2.1]

theorem exponent_stops {rest : Bytes} (h : Stops rest) : exponent rest = .ok (none, rest) := by
  cases rest with
  | nil => rfl
  | cons c rest => rw [exponent, if_neg (h.head rfl).2.2]

theorem numeral_number {n : Nat} (hn : n < 1 <<< 53) {rest : Bytes} (h : Stops rest) :
    numeral (number n ++ rest) = .ok (some n, rest) := by
  obtain ⟨b, bs, hb, -⟩ := number_starts n
  have hminus : b ≠ ascii '-' := by
    intro hm
    have := isDigit_of_mem_number (n := n) b (by simp [hb])
    rw [hm] at this
    exact absurd this (by decide)
  have hmag : (Magnitude.ofDigits (number n) []).scale 0 = ⟨n, 0⟩ := by
    simp only [Magnitude.ofDigits, extend_number (Nat.lt_trans hn (by decide)), Magnitude.extend,
      Magnitude.scale]
    rfl
  rw [hb, List.cons_append]
  unfold numeral
  simp only [if_neg hminus]
  rw [← List.cons_append, ← hb]
  simp only [bind, Except.bind, wholeDigits_number n h, fraction_stops h, exponent_stops h,
    Option.getD_none, hmag, not_isTooLarge hn]
  simp

theorem reads_byte (x : UInt8) : Reads readByte (number x.toNat) x := by
  obtain ⟨b, bs, hb, -⟩ := number_starts x.toNat
  have hdig : isDigit b = true := isDigit_of_mem_number (n := x.toNat) b (by simp [hb])
  have hblank := starts_of_isDigit hdig
  refine ⟨⟨b, bs, hb, hblank⟩, fun rest hrest => ?_⟩
  have hread := numeral_number (n := x.toNat) (Nat.lt_trans x.toNat_lt (by decide)) hrest
  rw [hb, List.cons_append] at hread ⊢
  rw [readByte, skipBlanks_cons hblank.1]
  simp only [hdig, or_true, if_true, hread]
  rw [if_pos x.toNat_lt]
  simp

/-! ### Lists -/

/-- The next item of a list is found behind whatever leads to it. -/
theorem nextItem_remaining (first : Bool) (g : Gap) {i : Item}
    (hstarts : ∃ b bs, i.content = b :: bs ∧ isBlank b = false ∧ b ≠ ascii ']')
    (items : List Item) (rest : Bytes) :
    nextItem first (g.bytes ++ remaining .list first (i :: items) rest) =
      .ok (true, i.content ++ (i.after.bytes ++ remaining .list false items rest)) := by
  obtain ⟨b, bs, hcontent, hblank, hclose⟩ := hstarts
  cases first with
  | true =>
    rw [nextItem, remaining_first, skipBlanks_gap, skipBlanks_gap, hcontent, List.cons_append,
      skipBlanks_cons hblank]
    simp only [if_neg hclose, if_true]
  | false =>
    rw [nextItem, remaining_more, skipBlanks_gap, skipBlanks_cons (by decide)]
    simp only [skipBlanks_gap, hcontent, List.cons_append, skipBlanks_cons hblank, if_neg hclose]
    rfl

theorem nextItem_end (first : Bool) (g : Gap) (rest : Bytes) :
    nextItem first (g.bytes ++ remaining .list first [] rest) = .ok (false, ascii ']' :: rest) := by
  rw [nextItem, remaining_nil, skipBlanks_gap, skipBlanks_cons (by decide)]
  rfl

section Lists

variable {α β : Type} {read : Bytes → Read α}

/-- The rest of a list is read by induction on the items that are left. -/
theorem itemsOnto_remaining {items : List Item} {as : List α}
    (h : List.Forall₂ (fun i a => Reads read (Item.content i) a) items as) (rest : Bytes) :
    ∀ (bound : Bytes) (first : Bool) (acc : List α) (gap : Gap), items.length < bound.length →
      itemsOnto read bound first acc (gap.bytes ++ remaining .list first items rest) =
        .ok (acc.reverse ++ as, rest) := by
  induction h with
  | nil =>
    intro bound first acc gap hbound
    cases bound with
    | nil => simp at hbound
    | cons x bound =>
      rw [itemsOnto, nextItem_end, List.append_nil]
      rfl
  | @cons i a items as hi _ ih =>
    intro bound first acc gap hbound
    cases bound with
    | nil => simp at hbound
    | cons x bound =>
      rw [itemsOnto, nextItem_remaining first gap hi.starts]
      simp only [hi.reads _ (stops_after .list i items rest)]
      rw [ih bound false (a :: acc) i.after (by simpa using hbound)]
      simp

/-- **A list is read if its items are**, whatever blanks stand between them. -/
theorem reads_enclosed (inside : Gap) {items : List Item} {as : List α}
    (h : List.Forall₂ (fun i a => Reads read (Item.content i) a) items as) :
    Reads (readList read) (enclosed .list inside items) as := by
  refine ⟨⟨_, _, rfl, by decide, by decide⟩, fun rest _ => ?_⟩
  have hne : ∀ i ∈ items, i.content ≠ [] := by
    induction h with
    | nil => simp
    | cons hi _ ih =>
      obtain ⟨b, bs, hcontent, -⟩ := hi.starts
      simpa [hcontent] using ih
  have hbound : items.length < (inside.bytes ++ remaining .list true items rest).length := by
    have hlength := length_lt_remaining .list rest true hne
    rw [List.length_append]
    omega
  rw [enclosed_append, readList, skipBlanks_cons (by decide)]
  exact itemsOnto_remaining h rest _ true [] inside hbound

/-- **A written list is read back** if its items are. -/
theorem reads_list {write : β → Bytes} {value : β → α} {items : List β}
    (h : ∀ i ∈ items, Reads read (write i) (value i)) :
    Reads (readList read) (list (items.map write)) (items.map value) := by
  have hlist : list (items.map write) = enclosed .list .none ((items.map write).map .bare) :=
    (enclosed_bare .list _).symm
  rw [hlist]
  refine reads_enclosed .none ?_
  rw [List.map_map, List.forall₂_map_left_iff, List.forall₂_map_right_iff, List.forall₂_same]
  exact h

end Lists

/-- **A written byte string is read back.** -/
theorem reads_bytes (b : Bytes) : Reads readBytes (bytes b) b := by
  have h : Reads (readList readByte) (list (b.map fun x => number x.toNat)) (b.map id) :=
    reads_list fun x _ => reads_byte x
  rw [List.map_id] at h
  exact h

end Strongroom.Json
