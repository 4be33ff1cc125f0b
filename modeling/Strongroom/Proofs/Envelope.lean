import Strongroom.Envelope
import Strongroom.Proofs.Crypto.Aead
import Strongroom.Proofs.Wipe

/-!
# Envelopes open to what was enclosed

Sender and recipient come to the key of an envelope from opposite sides, each with its own private
key and the other's public key.  They come to the same one if the agreement of the two key pairs is
symmetric (`KeyPair.Agree`), as X25519 is: both bind the key to the sender first and the recipient
second (`key?_eq_of_agree`).  Writer and reader cut the envelope at the same places, whatever the
length of the payload,

    nonce (24)  ++  public key of the sender (32)  ++  encrypted payload and tag,

so an envelope is opened to the payload that was enclosed (`unwrap_of_make`).

Whoever encloses a payload guards its buffer before anything is checked, and so does whoever makes a
key pair of a private key.  So there is no return in front of the guard, and the buffers hold
nothing but zeros afterwards (`isWiped_make`, `isWiped_ofBytes`).
-/

namespace Strongroom

/-! ### Wiped buffers -/

/-- **The buffer of a private key is wiped**, whatever its length. -/
theorem KeyPair.isWiped_ofBytes (buffer : Bytes) :
    IsWiped buffer (KeyPair.ofBytes buffer).buffer := by
  refine Borrower.isWiped_run ?_ buffer
  refine Borrower.onlyReads_content.bind fun bytes => ?_
  exact (Borrower.onlyReads_need _ _).bind fun secret => Borrower.onlyReads_pure _

/-- **The buffer of a payload is wiped**, whatever is wrong with the payload or the recipient. -/
theorem Envelope.isWiped_make (buffer : Bytes) (sender : KeyPair) (recipient : PublicKey)
    (nonce : Nonce) : IsWiped buffer (Envelope.make buffer sender recipient nonce).buffer := by
  refine Borrower.isWiped_run ?_ buffer
  refine Borrower.onlyReads_content.bind fun payload => ?_
  refine (Borrower.onlyReads_check _ _).bind fun _ => ?_
  refine (Borrower.onlyReads_need _ _).bind fun key => ?_
  exact (Borrower.onlyReads_need _ _).bind fun encrypted => Borrower.onlyReads_pure _

/-! ### Shared secrets -/

namespace KeyPair

/-- The holders of two key pairs find the same secret. -/
def Agree (a b : KeyPair) : Prop :=
  X25519.agree a.secret b.publicKey = X25519.agree b.secret a.publicKey

/-- The secret that the holder of a key pair shares with the owner of a public key is not the one
that anybody knows. -/
def Contributes (a : KeyPair) (peer : PublicKey) : Prop :=
  X25519.agree a.secret peer ≠ Octets.zero 32

end KeyPair

namespace Envelope

variable {a b : KeyPair} {payload envelope : Bytes} {nonce : Nonce}

/-! ### Both ends -/

theorem isSome_key? {peer sender recipient : PublicKey} (h : a.Contributes peer) :
    ∃ key, key? a.secret peer sender recipient = some key := by
  rw [key?]
  exact ⟨_, if_neg h⟩

/-- **Sender and recipient derive the same key.** -/
theorem key?_eq_of_agree (h : a.Agree b) (sender recipient : PublicKey) :
    key? b.secret a.publicKey sender recipient = key? a.secret b.publicKey sender recipient := by
  rw [KeyPair.Agree] at h
  rw [key?, key?, h]

theorem ofPadded_append {n : Nat} (x : Octets n) (rest : Bytes) :
    Octets.ofPadded n (x.bytes ++ rest) = x := by
  have hbytes : (x.bytes ++ rest ++ List.replicate n 0).take n = x.bytes := by
    rw [List.append_assoc, List.take_left' x.length_eq]
  cases x
  simp only [Octets.ofPadded, hbytes]

/-! ### Enclosing -/

/-- **What an envelope is made of**, once every check has been passed. -/
theorem make_eq_ok_iff {recipient : PublicKey} :
    (make payload a recipient nonce).result = .ok envelope ↔
      (!payload.isEmpty) = true ∧
      ∃ key, key? a.secret recipient a.publicKey recipient = some key ∧
      ∃ encrypted, Aead.encrypt? key nonce payload = some encrypted ∧
        envelope = nonce.bytes ++ (a.publicKey.bytes ++ encrypted) := by
  rw [make, Borrower.result_run_eq_ok_iff, Borrower.yields_check_bind_iff,
    Borrower.yields_need_bind_iff]
  simp only [Borrower.yields_need_bind_iff, Borrower.yields_pure_iff, List.append_assoc,
    @eq_comm _ _ envelope]

/-- **A payload that is neither empty nor too long can be enclosed.** -/
theorem exists_make {recipient : PublicKey} (hcontributes : a.Contributes recipient)
    (hsome : payload ≠ []) (hfits : Aead.fits payload = true) (nonce : Nonce) :
    ∃ envelope, (make payload a recipient nonce).result = .ok envelope := by
  obtain ⟨key, hkey⟩ : ∃ key, key? a.secret recipient a.publicKey recipient = some key :=
    isSome_key? hcontributes
  obtain ⟨encrypted, hencrypted⟩ : ∃ encrypted, Aead.encrypt? key nonce payload = some encrypted :=
    ⟨_, Aead.encrypt?_eq_some_iff.2 ⟨hfits, rfl⟩⟩
  have hfull : (!payload.isEmpty) = true := by simpa using hsome
  exact ⟨_, make_eq_ok_iff.2 ⟨hfull, key, hkey, encrypted, hencrypted, rfl⟩⟩

theorem length_of_make {recipient : PublicKey}
    (h : (make payload a recipient nonce).result = .ok envelope) :
    envelope.length = minLength + payload.length := by
  obtain ⟨-, key, -, encrypted, hencrypted, rfl⟩ := make_eq_ok_iff.1 h
  rw [List.length_append, List.length_append, nonce.length_eq, a.publicKey.length_eq,
    Aead.length_of_encrypt? hencrypted, minLength]
  omega

/-- The sender's public key stands behind the nonce. -/
theorem sender_of_make {recipient : PublicKey}
    (h : (make payload a recipient nonce).result = .ok envelope) :
    (envelope.drop 24).take 32 = a.publicKey.bytes := by
  obtain ⟨-, key, -, encrypted, -, rfl⟩ := make_eq_ok_iff.1 h
  rw [List.drop_left' nonce.length_eq, List.take_left' a.publicKey.length_eq]

/-! ### Opening -/

/-- How a byte string is opened that is long enough, by the places where it is cut. -/
theorem unwrap_append (nonce : Nonce) (sender : PublicKey) {rest : Bytes}
    (hlong : Aead.tagLength ≤ rest.length) :
    unwrap (nonce.bytes ++ (sender.bytes ++ rest)) b =
      match key? b.secret sender sender b.publicKey with
      | none => .error .decryptionFailed
      | some key =>
        match Aead.decrypt? key nonce rest with
        | none => .error .decryptionFailed
        | some payload => .ok payload := by
  have hlength : ¬ (nonce.bytes ++ (sender.bytes ++ rest)).length < minLength := by
    rw [List.length_append, List.length_append, nonce.length_eq, sender.length_eq, minLength]
    omega
  have hsender : (nonce.bytes ++ (sender.bytes ++ rest)).drop 24 = sender.bytes ++ rest :=
    List.drop_left' nonce.length_eq
  have hrest : (nonce.bytes ++ (sender.bytes ++ rest)).drop 56 = rest := by
    rw [← List.append_assoc]
    refine List.drop_left' ?_
    rw [List.length_append, nonce.length_eq, sender.length_eq]
  rw [unwrap, if_neg hlength]
  cases hkey : key? b.secret sender sender b.publicKey with
  | none => simp only [hsender, ofPadded_append, hkey]
  | some key =>
    cases hdecrypted : Aead.decrypt? key nonce rest with
    | none => simp only [hsender, hrest, ofPadded_append, hkey, hdecrypted]
    | some payload => simp only [hsender, hrest, ofPadded_append, hkey, hdecrypted]

/-- **An envelope is opened to the payload that was enclosed.** -/
theorem unwrap_of_make (hagree : a.Agree b)
    (h : (make payload a b.publicKey nonce).result = .ok envelope) :
    unwrap envelope b = .ok payload := by
  obtain ⟨-, key, hkey, encrypted, hencrypted, rfl⟩ := make_eq_ok_iff.1 h
  have hlong : Aead.tagLength ≤ encrypted.length := by
    rw [Aead.length_of_encrypt? hencrypted]
    omega
  rw [unwrap_append nonce a.publicKey hlong]
  simp only [key?_eq_of_agree hagree, hkey, Aead.decrypt?_eq_some_iff.2 hencrypted]

end Envelope

/-- **Envelopes open to what was enclosed, and buffers are always wiped.**  Between two key pairs
whose agreement is symmetric and contributory, a payload that is neither empty nor too long for the
cipher is enclosed, whatever nonce is drawn: the envelope is seventy-two bytes longer than the
payload, has the sender's public key in the bytes from 24 on, and is opened to the payload.  The
buffer of the payload, and likewise the one of a private key, is wiped in every case. -/
theorem envelopes_open_and_buffers_are_wiped :
    (∀ (a b : KeyPair) (payload : Bytes) (nonce : Nonce), a.Agree b → a.Contributes b.publicKey →
      payload ≠ [] → Aead.fits payload = true →
      ∃ envelope, (Envelope.make payload a b.publicKey nonce).result = .ok envelope ∧
        envelope.length = 72 + payload.length ∧
        (envelope.drop 24).take 32 = a.publicKey.bytes ∧
        Envelope.unwrap envelope b = .ok payload) ∧
      (∀ (buffer : Bytes) (sender : KeyPair) (recipient : PublicKey) (nonce : Nonce),
        IsWiped buffer (Envelope.make buffer sender recipient nonce).buffer) ∧
      ∀ buffer : Bytes, IsWiped buffer (KeyPair.ofBytes buffer).buffer := by
  refine ⟨fun a b payload nonce hagree hcontributes hsome hfits => ?_,
    Envelope.isWiped_make, KeyPair.isWiped_ofBytes⟩
  obtain ⟨envelope, hok⟩ := Envelope.exists_make hcontributes hsome hfits nonce
  exact ⟨envelope, hok, Envelope.length_of_make hok, Envelope.sender_of_make hok,
    Envelope.unwrap_of_make hagree hok⟩

/-- Key pairs for examples. -/
def sampleSender : KeyPair := .ofSecret ⟨List.replicate 32 1, by simp⟩

/-- The other end of an envelope for examples. -/
def sampleRecipient : KeyPair := .ofSecret ⟨List.replicate 32 2, by simp⟩

theorem envelopes_open_and_buffers_are_wiped_sample :
    sampleSender.Agree sampleRecipient ∧ sampleSender.Contributes sampleRecipient.publicKey ∧
      ∃ envelope, (Envelope.make [1, 2, 3] sampleSender sampleRecipient.publicKey
          (Octets.zero 24)).result = .ok envelope ∧
        envelope.length = 75 ∧ (envelope.drop 24).take 32 = sampleSender.publicKey.bytes ∧
        Envelope.unwrap envelope sampleRecipient = .ok [1, 2, 3] := by
  have hboth : X25519.agree sampleSender.secret sampleRecipient.publicKey =
      X25519.agree sampleRecipient.secret sampleSender.publicKey ∧
      X25519.agree sampleSender.secret sampleRecipient.publicKey ≠ Octets.zero 32 := by
    decide +kernel
  exact ⟨hboth.1, hboth.2, envelopes_open_and_buffers_are_wiped.1 sampleSender sampleRecipient
    [1, 2, 3] (Octets.zero 24) hboth.1 hboth.2 (by decide) (by decide)⟩

end Strongroom
