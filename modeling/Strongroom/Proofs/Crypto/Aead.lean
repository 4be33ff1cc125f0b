import Mathlib.Data.List.Basic
import Strongroom.Crypto.Aead

/-!
# Decryption inverts encryption

The stream cipher adds a keystream that is at least as long as what it is added to, so adding it
once more takes it away again (`ChaCha20.apply_apply`).  The tag stands in the last sixteen bytes
and is made from the encrypted bytes in front of it.  Together these say that a byte string is
decrypted to a plain one exactly if it is what that one is encrypted to
(`Aead.decrypt?_eq_some_iff`).
-/

namespace Strongroom

/-! ### The stream cipher -/

namespace ChaCha20

variable (key : Octets 32) (nonce : Octets 12) (counter : Nat)

theorem length_toBytes (w : List UInt32) : (toBytes w).length = 4 * w.length := by
  induction w with
  | nil => rfl
  | cons x w ih =>
    rw [toBytes, List.flatMap_cons, List.length_append, length_littleEndian, List.length_cons]
    rw [toBytes] at ih
    omega

theorem length_block : (block key nonce counter).length = 64 := by
  rw [block, length_toBytes]
  rfl

theorem le_length_keystream (n : Nat) : n ≤ (keystream key nonce counter n).length := by
  have hblocks : ∀ is : List Nat,
      (is.flatMap fun i => block key nonce (counter + i)).length = 64 * is.length := by
    intro is
    induction is with
    | nil => rfl
    | cons i is ih =>
      rw [List.flatMap_cons, List.length_append, length_block, ih, List.length_cons]
      omega
  rw [keystream, hblocks, List.length_range]
  omega

theorem length_apply (b : Bytes) : (apply key nonce counter b).length = b.length := by
  have hlong := le_length_keystream key nonce counter b.length
  rw [apply, List.length_zipWith]
  omega

/-- **Adding the keystream twice gives the byte string back.** -/
theorem apply_apply (b : Bytes) : apply key nonce counter (apply key nonce counter b) = b := by
  refine List.ext_getElem (by rw [length_apply, length_apply]) fun i hi hb => ?_
  have hxor : ∀ x k : UInt8, x ^^^ k ^^^ k = x := by
    intro x k
    rw [UInt8.xor_assoc, UInt8.xor_self, UInt8.xor_zero]
  -- both times it is the keystream of the same length
  have hlength := length_apply key nonce counter b
  simp only [apply, List.getElem_zipWith] at hlength ⊢
  simp only [hlength, hxor]

end ChaCha20

/-! ### The cipher with its tag -/

namespace Aead

variable {key : Octets 32} {nonce : Octets 24} {plain sealed : Bytes}

theorem fits_apply (key : Octets 32) (nonce : Octets 12) (counter : Nat) (b : Bytes) :
    fits (ChaCha20.apply key nonce counter b) = fits b := by
  rw [fits, fits, ChaCha20.length_apply]

theorem encrypt?_eq_some_iff :
    encrypt? key nonce plain = some sealed ↔ fits plain = true ∧
      sealed = ChaCha20.apply (subkey key nonce).1 (subkey key nonce).2 1 plain ++
        (tag (subkey key nonce).1 (subkey key nonce).2
          (ChaCha20.apply (subkey key nonce).1 (subkey key nonce).2 1 plain)).bytes := by
  simp only [encrypt?]
  split
  · next hfits =>
    exact ⟨fun h => ⟨hfits, (Option.some.inj h).symm⟩, fun h => congrArg some h.2.symm⟩
  · next hlong =>
    constructor
    · intro h
      cases h
    · intro h
      exact absurd h.1 hlong

theorem length_of_encrypt? (h : encrypt? key nonce plain = some sealed) :
    sealed.length = plain.length + tagLength := by
  obtain ⟨-, rfl⟩ := encrypt?_eq_some_iff.1 h
  rw [List.length_append, ChaCha20.length_apply, Octets.length_eq]
  rfl

/-- **A byte string is decrypted to what has been encrypted to it**, and to nothing else. -/
theorem decrypt?_eq_some_iff :
    decrypt? key nonce sealed = some plain ↔ encrypt? key nonce plain = some sealed := by
  rw [encrypt?_eq_some_iff]
  generalize hsub : subkey key nonce = sub
  obtain ⟨key', nonce'⟩ := sub
  simp only [decrypt?, hsub]
  generalize hfront : sealed.take (sealed.length - tagLength) = encrypted
  constructor
  · intro h
    split at h
    · next hright =>
      obtain ⟨-, hfits, htag⟩ := hright
      obtain rfl := Option.some.inj h
      refine ⟨by rwa [fits_apply], ?_⟩
      rw [ChaCha20.apply_apply, ← htag, ← hfront, List.take_append_drop]
    · cases h
  · rintro ⟨hfits, rfl⟩
    have hlength : (ChaCha20.apply key' nonce' 1 plain ++
        (tag key' nonce' (ChaCha20.apply key' nonce' 1 plain)).bytes).length - tagLength =
          (ChaCha20.apply key' nonce' 1 plain).length := by
      rw [List.length_append, Octets.length_eq]
      exact Nat.add_sub_cancel _ _
    rw [hlength, List.take_left] at hfront
    subst hfront
    rw [hlength, List.drop_left, if_pos, ChaCha20.apply_apply]
    refine ⟨?_, by rwa [fits_apply], rfl⟩
    rw [List.length_append, Octets.length_eq]
    exact Nat.le_add_left _ _

end Aead

end Strongroom
