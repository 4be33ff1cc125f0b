import Strongroom.Bytes
import Strongroom.Crypto.Error

/-!
# Wiping buffers

Plaintext and key material are handed over in a buffer that is overwritten with zeros when the
function that works on it returns, whether it succeeds or fails. The function asks for this itself,
by guarding the buffer; whatever way it returns from then on, the buffer is wiped. Should it return
before, the buffer is left as it is, so the guard has to come first.
-/

namespace Strongroom

/-- A byte string of the same length that holds only zeros. -/
def wipe (buffer : Bytes) : Bytes :=
  List.replicate buffer.length 0

@[simp] theorem length_wipe (buffer : Bytes) : (wipe buffer).length = buffer.length := by
  simp [wipe]

/-- A byte string whose bytes from `start` on and before `stop` are wiped. -/
def wipeRange (buffer : Bytes) (start stop : Nat) : Bytes :=
  let stop := min stop buffer.length
  let start := min start stop
  buffer.take start ++ wipe ((buffer.take stop).drop start) ++ buffer.drop stop

/-- The result of a function and what the buffer that it was lent holds afterwards. -/
structure Guarded (α : Type) where
  result : α
  /-- The content of the buffer afterwards. -/
  buffer : Bytes

/-- A buffer while a function works on it. -/
structure Lent where
  content : Bytes
  /-- Whether the buffer is wiped when the function returns. -/
  guarded : Bool

/-- What the caller gets back. -/
def Lent.returned (lent : Lent) : Bytes :=
  if lent.guarded then wipe lent.content else lent.content

/-- A function on a buffer that it is lent, or a part of one. It may return early, with an error. -/
abbrev Borrower (α : Type) := ExceptT CryptoError (StateM Lent) α

namespace Borrower

/-- Guards the buffer. -/
def guard : Borrower Unit := modify fun lent => { lent with guarded := true }

/-- The content of the buffer. -/
def content : Borrower Bytes := do return (← get).content

/-- Returns early unless something holds. -/
def check (holds : Bool) (e : CryptoError) : Borrower Unit :=
  if holds then pure () else throw e

/-- Returns early unless a value is there. -/
def need {α : Type} (value : Option α) (e : CryptoError) : Borrower α :=
  match value with
  | some a => pure a
  | none => throw e

/-- Lends a function a buffer that is not guarded yet. -/
def run {α : Type} (buffer : Bytes) (body : Borrower α) : Guarded (Except CryptoError α) :=
  let outcome := (ExceptT.run body).run ⟨buffer, false⟩
  ⟨outcome.1, outcome.2.returned⟩

end Borrower

end Strongroom
