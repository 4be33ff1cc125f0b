import Strongroom.Wipe

/-!
# Functions that guard their buffer

A function that only reads its buffer (`Borrower.OnlyReads`) leaves the content and the guard alone,
whatever way it returns.  What the caller finds in the buffer afterwards is then a matter of where
the guard stands (`Borrower.buffer_run`):

    do let a ← before; guard; behind a

leaves the buffer as it was if `before` returns early; otherwise it leaves zeros, whatever way
`behind a` returns.  So a function that guards the buffer first always leaves zeros
(`Borrower.isWiped_run`).

What such a function gives to its caller does not depend on the guard.  It gives a value exactly if
none of its checks makes it return early (`Borrower.Yields`).
-/

namespace Strongroom

/-- What is left of a buffer is as long as it was and holds only zeros. -/
def IsWiped (buffer left : Bytes) : Prop :=
  left.length = buffer.length ∧ ∀ b ∈ left, b = 0

theorem isWiped_wipe (buffer : Bytes) : IsWiped buffer (wipe buffer) :=
  ⟨length_wipe buffer, fun _ hb => List.eq_of_mem_replicate hb⟩

namespace Borrower

variable {α β : Type}

/-! ### What is left in the buffer -/

/-- Whatever way a part returns, the buffer and its guard are as before. -/
def OnlyReads (part : Borrower α) : Prop :=
  ∀ lent, ((ExceptT.run part).run lent).2 = lent

theorem onlyReads_pure (a : α) : OnlyReads (pure a : Borrower α) := fun _ => rfl

theorem onlyReads_throw (e : CryptoError) : OnlyReads (throw e : Borrower α) := fun _ => rfl

theorem onlyReads_content : OnlyReads content := fun _ => rfl

theorem onlyReads_check (holds : Bool) (e : CryptoError) : OnlyReads (check holds e) := by
  cases holds with
  | true => exact onlyReads_pure ()
  | false => exact onlyReads_throw e

theorem onlyReads_need (value : Option α) (e : CryptoError) : OnlyReads (need value e) := by
  cases value with
  | some a => exact onlyReads_pure a
  | none => exact onlyReads_throw e

/-- How a function goes on behind one of its parts. -/
theorem run_bind_apply (part : Borrower α) (next : α → Borrower β) (lent : Lent) :
    (ExceptT.run (part >>= next)).run lent =
      match (ExceptT.run part).run lent with
      | (.ok a, lent') => (ExceptT.run (next a)).run lent'
      | (.error e, lent') => (.error e, lent') := by
  rw [ExceptT.run_bind, StateT.run_bind]
  cases (ExceptT.run part).run lent with
  | mk result lent' =>
    cases result with
    | ok a => rfl
    | error e => rfl

theorem OnlyReads.bind {part : Borrower α} {next : α → Borrower β} (hpart : OnlyReads part)
    (hnext : ∀ a, OnlyReads (next a)) : OnlyReads (part >>= next) := by
  intro lent
  have hunread := hpart lent
  rw [run_bind_apply]
  cases h : (ExceptT.run part).run lent with
  | mk result lent' =>
    rw [h] at hunread
    obtain rfl : lent' = lent := hunread
    cases result with
    | ok a => exact hnext a lent'
    | error e => rfl

/-- **What is left in a buffer** depends on whether the function comes to the guard. -/
theorem buffer_run {before : Borrower α} {behind : α → Borrower β} (hbefore : OnlyReads before)
    (hbehind : ∀ a, OnlyReads (behind a)) (buffer : Bytes) :
    (run buffer (do let a ← before; guard; behind a)).buffer =
      match (run buffer before).result with
      | .ok _ => wipe buffer
      | .error _ => buffer := by
  have hunread := hbefore ⟨buffer, false⟩
  unfold run
  rw [run_bind_apply]
  cases h : (ExceptT.run before).run ⟨buffer, false⟩ with
  | mk result lent =>
    rw [h] at hunread
    obtain rfl : lent = ⟨buffer, false⟩ := hunread
    cases result with
    | ok a =>
      have hguarded := hbehind a ⟨buffer, true⟩
      exact congrArg Lent.returned hguarded
    | error e => rfl

/-- A check in front of the guard that fails. -/
example (buffer : Bytes) (e : CryptoError) :
    (run buffer (do check false e; guard)).buffer = buffer := rfl

/-- **A buffer that is guarded first is wiped**, whatever way the function returns. -/
theorem isWiped_run {body : Borrower α} (h : OnlyReads body) (buffer : Bytes) :
    IsWiped buffer (run buffer (do guard; body)).buffer := by
  have hwiped : (run buffer (do guard; body)).buffer = wipe buffer :=
    buffer_run (onlyReads_pure ()) (fun _ => h) buffer
  rw [hwiped]
  exact isWiped_wipe buffer

/-! ### What is given to the caller -/

variable {lent : Lent} {e : CryptoError} {b : β}

/-- A part gives a value and does not return early. -/
def Yields (part : Borrower α) (lent : Lent) (a : α) : Prop :=
  ((ExceptT.run part).run lent).1 = .ok a

theorem yields_pure_iff {b' : β} : Yields (pure b) lent b' ↔ b = b' := by
  constructor
  · exact Except.ok.inj
  · rintro rfl
    rfl

theorem yields_check_bind_iff {holds : Bool} {next : Unit → Borrower β} :
    Yields (check holds e >>= next) lent b ↔ holds = true ∧ Yields (next ()) lent b := by
  cases holds with
  | true => exact (and_iff_right rfl).symm
  | false => exact iff_of_false nofun fun h => nomatch h.1

theorem yields_need_bind_iff {value : Option α} {next : α → Borrower β} :
    Yields (need value e >>= next) lent b ↔ ∃ a, value = some a ∧ Yields (next a) lent b := by
  cases value with
  | some a =>
    constructor
    · exact fun h => ⟨a, rfl, h⟩
    · rintro ⟨a', hsome, h⟩
      cases hsome
      exact h
  | none => exact iff_of_false nofun fun ⟨_, hnone, _⟩ => nomatch hnone

/-- A function that guards its buffer and then reads it. -/
theorem result_run_eq_ok_iff {body : Bytes → Borrower β} {buffer : Bytes} :
    (run buffer (do guard; let bytes ← content; body bytes)).result = .ok b ↔
      Yields (body buffer) ⟨buffer, true⟩ b := Iff.rfl

end Borrower

end Strongroom
