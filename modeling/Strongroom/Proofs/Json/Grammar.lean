import Strongroom.Json.Record

/-!
# The grammar of JSON

What a JSON value is, said about its bytes and without any reader: `null`, a truth value, a number,
a text, or a list or an object of values, with blanks between the tokens wherever somebody likes
them (`Gap`).  `IsValue` knows no bound on how deep values nest or how large numbers are, and a text
in it need not be Unicode: any four hexadecimal digits may stand in an escape.

A list and an object are the same to whoever looks for their ends: a frame around items with commas
between them (`enclosed`), where an item of an object is a member.  A reader that has come to some
item has the rest of the frame in front of it (`remaining`), and takes the items off one by one,

    remaining (i :: items)  =  gap ++ i ++ gap ++ remaining items.
-/

namespace Strongroom.Json

/-! ### Ends of values -/

/-- Whether a byte would be read as a part of a number in front of it. -/
def continuesNumber (b : UInt8) : Bool :=
  isDigit b || b = ascii '.' || b = ascii 'e' || b = ascii 'E'

/-- A byte string that does not continue a number in front of it. -/
def Stops (rest : Bytes) : Prop := ∀ b ∈ rest.head?, continuesNumber b = false

theorem stops_nil : Stops [] := by
  intro b hb
  simp at hb

theorem stops_cons {b : UInt8} (h : continuesNumber b = false) (rest : Bytes) :
    Stops (b :: rest) := by
  intro c hc
  obtain rfl : b = c := by simpa using hc
  exact h

/-! ### Gaps -/

/-- Blanks, or none, as they may stand between two tokens. -/
structure Gap where
  bytes : Bytes
  blank : ∀ b ∈ bytes, isBlank b = true

/-- No blanks. -/
def Gap.none : Gap := ⟨[], by simp⟩

theorem skipBlanks_cons {b : UInt8} (h : isBlank b = false) (bs : Bytes) :
    skipBlanks (b :: bs) = b :: bs := by
  simp [skipBlanks, h]

theorem skipBlanks_gap (g : Gap) (bs : Bytes) : skipBlanks (g.bytes ++ bs) = skipBlanks bs := by
  obtain ⟨gap, hgap⟩ := g
  induction gap with
  | nil => rfl
  | cons b gap ih =>
    rw [skipBlanks, List.cons_append, List.dropWhile_cons_of_pos (hgap b (by simp))]
    exact ih fun c hc => hgap c (by simp [hc])

theorem not_continuesNumber_of_isBlank {b : UInt8} (h : isBlank b = true) :
    continuesNumber b = false := by
  simp only [isBlank, Bool.or_eq_true, decide_eq_true_eq] at h
  rcases h with ((rfl | rfl) | rfl) | rfl <;> decide

theorem stops_gap (g : Gap) {rest : Bytes} (h : Stops rest) : Stops (g.bytes ++ rest) := by
  obtain ⟨gap, hgap⟩ := g
  cases gap with
  | nil => exact h
  | cons b gap => exact stops_cons (not_continuesNumber_of_isBlank (hgap b (by simp))) _

/-! ### Frames -/

/-- An item of a list or an object, with the blanks around it. -/
structure Item where
  before : Gap
  content : Bytes
  after : Gap

namespace Item

def written (i : Item) : Bytes := i.before.bytes ++ (i.content ++ i.after.bytes)

/-- An item without blanks around it. -/
def bare (content : Bytes) : Item := ⟨.none, content, .none⟩

end Item

/-- The byte that opens a frame. -/
def Frame.opening : Frame → UInt8
  | .list => ascii '['
  | .object => ascii '\x7b'

/-- Items with commas between them in a frame. The blanks `inside` are all that an empty frame
holds. -/
def enclosed (frame : Frame) (inside : Gap) (items : List Item) : Bytes :=
  frame.opening :: (inside.bytes ++ (separated (items.map Item.written) ++ [frame.close]))

/-- What is left of a frame from an item on, or from the comma in front of it, and what stands
behind the frame. -/
def remaining (frame : Frame) (first : Bool) (items : List Item) (rest : Bytes) : Bytes :=
  (if first then separated (items.map Item.written)
    else items.flatMap fun i => ascii ',' :: i.written) ++ frame.close :: rest

theorem separated_cons (w : Bytes) (ws : List Bytes) :
    separated (w :: ws) = w ++ ws.flatMap (ascii ',' :: ·) := by
  induction ws generalizing w with
  | nil => simp [separated]
  | cons v ws ih =>
    have hv := ih v
    rw [separated] at hv ⊢
    rw [List.intersperse_cons_cons, List.flatten_cons, List.flatten_cons, hv]
    simp

/-- A frame without any blanks. -/
theorem enclosed_bare (frame : Frame) (items : List Bytes) :
    enclosed frame .none (items.map .bare) =
      frame.opening :: (separated items ++ [frame.close]) := by
  have hwritten : Item.written ∘ Item.bare = id := by
    funext content
    simp [Item.written, Item.bare, Gap.none]
  rw [enclosed, List.map_map, hwritten, List.map_id]
  rfl

section Remaining

variable (frame : Frame) (i : Item) (items : List Item) (rest : Bytes)

theorem enclosed_append (inside : Gap) : enclosed frame inside items ++ rest =
    frame.opening :: (inside.bytes ++ remaining frame true items rest) := by
  simp [enclosed, remaining]

theorem remaining_nil (first : Bool) : remaining frame first [] rest = frame.close :: rest := by
  cases first <;> rfl

theorem remaining_first : remaining frame true (i :: items) rest =
    i.before.bytes ++ (i.content ++ (i.after.bytes ++ remaining frame false items rest)) := by
  simp [remaining, separated_cons, Item.written, List.flatMap_map]

theorem remaining_more : remaining frame false (i :: items) rest =
    ascii ',' :: (i.before.bytes ++ (i.content ++
      (i.after.bytes ++ remaining frame false items rest))) := by
  simp [remaining, Item.written]

theorem stops_remaining : Stops (remaining frame false items rest) := by
  cases items with
  | nil =>
    rw [remaining_nil]
    cases frame <;> exact stops_cons (by decide) _
  | cons i items =>
    rw [remaining_more]
    exact stops_cons (by decide) _

/-- What stands behind an item continues no number. -/
theorem stops_after : Stops (i.after.bytes ++ remaining frame false items rest) :=
  stops_gap _ (stops_remaining frame items rest)

/-- There are more bytes than items. -/
theorem length_lt_remaining (first : Bool) {items : List Item} (h : ∀ i ∈ items, i.content ≠ []) :
    items.length < (remaining frame first items rest).length := by
  induction items generalizing first with
  | nil => simp [remaining_nil]
  | cons i items ih =>
    have hitems := ih false fun j hj => h j (by simp [hj])
    have hcontent := List.length_pos_iff.2 (h i (by simp))
    cases first with
    | true =>
      rw [remaining_first]
      simp only [List.length_cons, List.length_append]
      omega
    | false =>
      rw [remaining_more]
      simp only [List.length_cons, List.length_append]
      omega

end Remaining

/-! ### Texts -/

/-- A hexadecimal digit, small or capital, and the value that it stands for. -/
def IsHex (n : Nat) (b : UInt8) : Prop :=
  ∃ c : Char, b = ascii c ∧
    ("0123456789abcdef".toList[n]? = some c ∨ "0123456789ABCDEF".toList[n]? = some c)

/-- Four hexadecimal digits, in small letters or capitals. -/
inductive IsQuad : Nat → Bytes → Prop
  | mk {m n p q : Nat} {a b c d : UInt8} : IsHex m a → IsHex n b → IsHex p c → IsHex q d →
      IsQuad (((m * 16 + n) * 16 + p) * 16 + q) [a, b, c, d]

/-- What may stand behind a backslash, and the character that it stands for. -/
def shortEscapes : List (Char × Char) :=
  [('"', '"'), ('\\', '\\'), ('/', '/'), ('b', '\x08'), ('f', '\x0c'), ('n', '\n'), ('r', '\r'),
    ('t', '\t')]

/-- What may stand between quotes. -/
inductive IsText : Bytes → Prop
  | nil : IsText []
  | raw {b : UInt8} {w : Bytes} : 0x20 ≤ b → b ≠ ascii '"' → b ≠ ascii '\\' → IsText w →
      IsText (b :: w)
  | short {e : Char × Char} {w : Bytes} : e ∈ shortEscapes → IsText w →
      IsText (ascii '\\' :: ascii e.1 :: w)
  | unicode {n : Nat} {quad w : Bytes} : IsQuad n quad → IsText w →
      IsText (ascii '\\' :: ascii 'u' :: (quad ++ w))

def quote (raw : Bytes) : Bytes := ascii '"' :: (raw ++ [ascii '"'])

theorem quote_append (raw rest : Bytes) :
    quote raw ++ rest = ascii '"' :: (raw ++ ascii '"' :: rest) := by
  simp [quote]

/-! ### Numbers -/

/-- One decimal digit or more. -/
def IsDigits (ds : Bytes) : Prop := ds ≠ [] ∧ ∀ d ∈ ds, isDigit d = true

/-- A lone zero, or digits of which the first one is not zero. -/
inductive IsWhole : Bytes → Prop
  | zero : IsWhole [ascii '0']
  | digits {d : UInt8} {ds : Bytes} : d ≠ ascii '0' → IsDigits (d :: ds) → IsWhole (d :: ds)

inductive IsFraction : Bytes → Prop
  | absent : IsFraction []
  | digits {ds : Bytes} : IsDigits ds → IsFraction (ascii '.' :: ds)

inductive IsExponent : Bytes → Prop
  | absent : IsExponent []
  | digits {e : UInt8} {sign ds : Bytes} : e = ascii 'e' ∨ e = ascii 'E' →
      sign ∈ [[], [ascii '+'], [ascii '-']] → IsDigits ds → IsExponent (e :: (sign ++ ds))

/-- A number of any size. -/
inductive IsNumber : Bytes → Prop
  | mk {sign whole fraction exponent : Bytes} : sign ∈ [[], [ascii '-']] → IsWhole whole →
      IsFraction fraction → IsExponent exponent →
      IsNumber (sign ++ (whole ++ (fraction ++ exponent)))

/-! ### Values -/

/-- A member of an object, with the blanks around it and in it. -/
structure Member where
  before : Gap
  /-- The name as it stands between its quotes. -/
  name : Bytes
  beforeColon : Gap
  beforeValue : Gap
  /-- The bytes of the value. -/
  value : Bytes
  after : Gap

namespace Member

def content (m : Member) : Bytes :=
  quote m.name ++ (m.beforeColon.bytes ++ ascii ':' :: (m.beforeValue.bytes ++ m.value))

/-- A member as an item of an object. -/
def item (m : Member) : Item := ⟨m.before, m.content, m.after⟩

end Member

/-- The bytes of a JSON value, which may nest to any depth. -/
inductive IsValue : Bytes → Prop
  | null : IsValue null
  | bool (b : Bool) : IsValue (bool b)
  | number {w : Bytes} : IsNumber w → IsValue w
  | text {raw : Bytes} : IsText raw → IsValue (quote raw)
  | list {inside : Gap} {items : List Item} : (∀ i ∈ items, IsValue i.content) →
      IsValue (enclosed .list inside items)
  | object {inside : Gap} {ms : List Member} : (∀ m ∈ ms, IsText m.name) →
      (∀ m ∈ ms, IsValue m.value) → IsValue (enclosed .object inside (ms.map Member.item))

/-- A byte string that is an object and nothing else, with these members in turn. -/
def IsObject (ms : List Member) (bs : Bytes) : Prop :=
  ∃ lead inside trail : Gap,
    bs = lead.bytes ++ (enclosed .object inside (ms.map Member.item) ++ trail.bytes)

/-! ### How values start -/

theorem isDigit_iff {b : UInt8} : isDigit b = true ↔ 48 ≤ b.toNat ∧ b.toNat ≤ 57 := by
  simp [isDigit, UInt8.le_iff_toNat_le, ascii]

theorem starts_of_isDigit {b : UInt8} (h : isDigit b = true) :
    isBlank b = false ∧ b ≠ ascii ']' := by
  rw [isDigit_iff] at h
  simp only [isBlank, ascii, Bool.or_eq_false_iff, decide_eq_false_iff_not, ne_eq,
    UInt8.toNat_inj.symm]
  simp
  omega

theorem IsWhole.starts {w : Bytes} (h : IsWhole w) : ∃ d ds, w = d :: ds ∧ isDigit d = true := by
  cases h with
  | zero => exact ⟨_, _, rfl, by decide⟩
  | digits _ hds => exact ⟨_, _, rfl, hds.2 _ (by simp)⟩

theorem IsNumber.starts {w : Bytes} (h : IsNumber w) :
    ∃ b bs, w = b :: bs ∧ (b = ascii '-' ∨ isDigit b = true) := by
  cases h with
  | mk hsign hwhole =>
    obtain ⟨d, ds, rfl, hd⟩ := hwhole.starts
    simp only [List.mem_cons, List.not_mem_nil, or_false] at hsign
    rcases hsign with rfl | rfl
    · exact ⟨d, _, rfl, .inr hd⟩
    · exact ⟨_, _, rfl, .inl rfl⟩

/-- A value starts with a byte that is no blank and ends no frame. -/
theorem IsValue.starts {w : Bytes} (h : IsValue w) :
    ∃ b bs, w = b :: bs ∧ isBlank b = false ∧ b ≠ ascii ']' := by
  cases h with
  | null => exact ⟨_, _, rfl, by decide, by decide⟩
  | bool b => cases b <;> exact ⟨_, _, rfl, by decide, by decide⟩
  | number hnumber =>
    obtain ⟨b, bs, hw, hb⟩ := hnumber.starts
    refine ⟨b, bs, hw, ?_⟩
    rcases hb with rfl | hb
    · decide
    · exact starts_of_isDigit hb
  | text => exact ⟨_, _, rfl, by decide, by decide⟩
  | list => exact ⟨_, _, rfl, by decide, by decide⟩
  | object => exact ⟨_, _, rfl, by decide, by decide⟩

end Strongroom.Json
