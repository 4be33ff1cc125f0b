import Strongroom.Proofs.Envelope

/-!
# Only honest envelopes open

An envelope is honest for a key pair and a payload if it is put together as its writer would put it
together: a nonce, the public key of a sender with whom the pair shares a secret that not everybody
knows, and behind them the payload, encrypted with that nonce under the key derived for this sender
and this recipient (`Envelope.Honest`).  Opening cuts a byte string at the same places whatever is
in it, so it gives a payload exactly for the honest envelopes around that payload
(`Envelope.unwrap_eq_ok_iff`), and no byte of an envelope can be exchanged for another one unnoticed.

For the public key in an envelope this does not follow from the agreement of the two key pairs.
The highest bit of a public key takes no part in it (`X25519.agree_turnTop`), so two envelopes with
different senders in them may well lead to one shared secret.  What tells them apart is the binding,
which has both public keys at fixed places and in full (`Envelope.binding_inj`).
-/

namespace Strongroom

/-! ### The bit that X25519 leaves out -/

/-- The public key with its highest bit turned over. -/
def PublicKey.turnTop (key : PublicKey) : PublicKey :=
  ⟨key.bytes.take 31 ++ (key.bytes.drop 31).map (· ^^^ 0x80), by simp [key.length_eq]⟩

theorem PublicKey.exists_bytes_eq (key : PublicKey) :
    ∃ (low : Bytes) (top : UInt8), low.length = 31 ∧ key.bytes = low ++ [top] ∧
      key.turnTop.bytes = low ++ [top ^^^ 0x80] := by
  have hlow : (key.bytes.take 31).length = 31 := by simp [key.length_eq]
  have hrest : (key.bytes.drop 31).length = 1 := by simp [key.length_eq]
  obtain ⟨top, htop⟩ := List.length_eq_one_iff.1 hrest
  refine ⟨key.bytes.take 31, top, hlow, ?_, ?_⟩
  · rw [← htop, List.take_append_drop]
  · simp [turnTop, htop]

theorem toNat_xor_top (x : UInt8) :
    (x ^^^ 0x80).toNat = x.toNat + 128 ∨ x.toNat = (x ^^^ 0x80).toNat + 128 := by
  have hnat : ∀ n < 256, n ^^^ 128 = n + 128 ∨ n = (n ^^^ 128) + 128 := by
    decide +kernel
  rw [UInt8.toNat_xor]
  exact hnat x.toNat x.toNat_lt

theorem PublicKey.turnTop_ne (key : PublicKey) : key.turnTop ≠ key := by
  intro heq
  obtain ⟨low, top, -, hkey, hturned⟩ := key.exists_bytes_eq
  rw [heq, hkey] at hturned
  have htop : top = top ^^^ 0x80 := by simpa using hturned
  have := toNat_xor_top top
  rw [← htop] at this
  omega

theorem X25519.agree_congr {secret key key' : Octets 32} (h : coordinate key = coordinate key') :
    agree secret key = agree secret key' := by
  simp only [agree, h]

/-- **The highest bit of a public key takes no part in the agreement.** -/
theorem X25519.agree_turnTop (secret : Octets 32) (key : PublicKey) :
    agree secret key.turnTop = agree secret key := by
  obtain ⟨low, top, hlow, hkey, hturned⟩ := key.exists_bytes_eq
  have hsum : ∀ x : UInt8, ofLittleEndian (low ++ [x]) = ofLittleEndian low + 2 ^ 248 * x.toNat := by
    intro x
    rw [ofLittleEndian_append, hlow]
    simp [ofLittleEndian]
  -- a coordinate is taken modulo 128 times the weight of the last byte
  have hturn : ∀ n : Nat, (ofLittleEndian low + 2 ^ 248 * (n + 128)) % 2 ^ 255 =
      (ofLittleEndian low + 2 ^ 248 * n) % 2 ^ 255 := by
    intro n
    have hweight : 2 ^ 248 * 128 = 2 ^ 255 := (Nat.pow_add 2 248 7).symm
    rw [Nat.mul_add, ← Nat.add_assoc, hweight, Nat.add_mod_right]
  have hcoordinate : coordinate key.turnTop = coordinate key := by
    rw [coordinate, coordinate, hturned, hkey, hsum, hsum, Nat.one_shiftLeft]
    rcases toNat_xor_top top with h | h
    · rw [h, hturn]
    · rw [h, hturn]
  exact agree_congr hcoordinate

namespace Envelope

variable {b : KeyPair} {envelope payload : Bytes}

/-! ### Bindings -/

/-- **A binding tells both public keys**, bit for bit. -/
theorem binding_inj {sender sender' recipient recipient' : PublicKey} :
    binding sender recipient = binding sender' recipient' ↔
      sender = sender' ∧ recipient = recipient' := by
  constructor
  · intro h
    have hlength : (purpose ++ sender.bytes).length = (purpose ++ sender'.bytes).length := by
      rw [List.length_append, List.length_append, sender.length_eq, sender'.length_eq]
    obtain ⟨hfront, hrecipient⟩ := List.append_inj h hlength
    have hsender := List.append_cancel_left hfront
    exact ⟨Octets.eq_of_bytes hsender, Octets.eq_of_bytes hrecipient⟩
  · rintro ⟨rfl, rfl⟩
    rfl

/-! ### Parts of an envelope -/

/-- The key of the cipher for a sender and the holder of a key pair. -/
def cipherKey (b : KeyPair) (sender : PublicKey) : Octets 32 :=
  Hkdf.derive (X25519.agree b.secret sender).bytes (binding sender b.publicKey)

theorem key?_of_contributes {sender : PublicKey} (h : b.Contributes sender) :
    key? b.secret sender sender b.publicKey = some (cipherKey b sender) := by
  rw [key?]
  exact if_neg h

theorem key?_of_not_contributes {sender : PublicKey} (h : ¬b.Contributes sender) :
    key? b.secret sender sender b.publicKey = none := by
  have hzero : X25519.agree b.secret sender = Octets.zero 32 := by
    by_contra hne
    exact h hne
  rw [key?]
  exact if_pos hzero

/-- Where an envelope is cut. -/
theorem exists_parts (h : 56 ≤ envelope.length) :
    ∃ (nonce : Nonce) (sender : PublicKey) (rest : Bytes),
      envelope = nonce.bytes ++ (sender.bytes ++ rest) := by
  have hnonce : (envelope.take 24).length = 24 := by
    rw [List.length_take]
    omega
  have hsender : ((envelope.drop 24).take 32).length = 32 := by
    rw [List.length_take, List.length_drop]
    omega
  refine ⟨⟨envelope.take 24, hnonce⟩, ⟨(envelope.drop 24).take 32, hsender⟩,
    (envelope.drop 24).drop 32, ?_⟩
  rw [List.take_append_drop, List.take_append_drop]

/-- An envelope as somebody puts it together who knows the secret that a key pair shares with the
sender named in it. -/
def Honest (envelope : Bytes) (b : KeyPair) (payload : Bytes) : Prop :=
  ∃ (nonce : Nonce) (sender : PublicKey) (encrypted : Bytes), b.Contributes sender ∧
    Aead.encrypt? (cipherKey b sender) nonce payload = some encrypted ∧
    envelope = nonce.bytes ++ (sender.bytes ++ encrypted)

/-! ### Opening -/

theorem unwrap_of_short (h : envelope.length < minLength) :
    unwrap envelope b = .error (.invalidInput "envelope is too short") := by
  rw [unwrap, if_pos h]

theorem unwrap_of_honest (h : Honest envelope b payload) : unwrap envelope b = .ok payload := by
  obtain ⟨nonce, sender, encrypted, hcontributes, hencrypted, rfl⟩ := h
  have hlong : Aead.tagLength ≤ encrypted.length := by
    rw [Aead.length_of_encrypt? hencrypted]
    omega
  rw [unwrap_append nonce sender hlong, key?_of_contributes hcontributes]
  simp only [Aead.decrypt?_eq_some_iff.2 hencrypted]

/-- Whatever is long enough is honest, or it cannot be decrypted. -/
theorem honest_or_decryptionFailed (h : minLength ≤ envelope.length) :
    (∃ payload, Honest envelope b payload) ∨ unwrap envelope b = .error .decryptionFailed := by
  rw [minLength] at h
  have hheader : 56 ≤ envelope.length := by omega
  obtain ⟨nonce, sender, rest, rfl⟩ := exists_parts hheader
  have hlong : Aead.tagLength ≤ rest.length := by
    rw [List.length_append, List.length_append, nonce.length_eq, sender.length_eq] at h
    omega
  rw [unwrap_append nonce sender hlong]
  by_cases hcontributes : b.Contributes sender
  · rw [key?_of_contributes hcontributes]
    cases hdecrypted : Aead.decrypt? (cipherKey b sender) nonce rest with
    | none =>
      right
      simp only [hdecrypted]
    | some payload =>
      exact .inl ⟨payload, nonce, sender, rest, hcontributes,
        Aead.decrypt?_eq_some_iff.1 hdecrypted, rfl⟩
  · rw [key?_of_not_contributes hcontributes]
    exact .inr rfl

/-- **A byte string is opened to a payload exactly if it is an honest envelope around it.** -/
theorem unwrap_eq_ok_iff : unwrap envelope b = .ok payload ↔ Honest envelope b payload := by
  constructor
  · intro h
    rcases Nat.lt_or_ge envelope.length minLength with hshort | hlong
    · rw [unwrap_of_short hshort] at h
      cases h
    · rcases honest_or_decryptionFailed hlong with ⟨payload', hhonest⟩ | hfailed
      · rw [unwrap_of_honest hhonest] at h
        cases h
        exact hhonest
      · rw [hfailed] at h
        cases h
  · exact unwrap_of_honest

theorem unwrap_eq_invalidInput_iff :
    (∃ detail, unwrap envelope b = .error (.invalidInput detail)) ↔ envelope.length < minLength := by
  constructor
  · rintro ⟨detail, h⟩
    by_contra hlong
    rcases honest_or_decryptionFailed (b := b) (Nat.le_of_not_lt hlong) with
      ⟨payload, hhonest⟩ | hfailed
    · rw [unwrap_of_honest hhonest] at h
      cases h
    · rw [hfailed] at h
      cases h
  · intro hshort
    exact ⟨_, unwrap_of_short hshort⟩

theorem unwrap_eq_decryptionFailed_iff :
    unwrap envelope b = .error .decryptionFailed ↔
      minLength ≤ envelope.length ∧ ∀ payload, ¬Honest envelope b payload := by
  constructor
  · intro h
    refine ⟨?_, fun payload hhonest => ?_⟩
    · by_contra hshort
      rw [unwrap_of_short (Nat.lt_of_not_le hshort)] at h
      cases h
    · rw [unwrap_of_honest hhonest] at h
      cases h
  · rintro ⟨hlong, hnone⟩
    rcases honest_or_decryptionFailed (b := b) hlong with ⟨payload, hhonest⟩ | hfailed
    · exact absurd hhonest (hnone payload)
    · exact hfailed

end Envelope

/-- **Exactly the honest envelopes open.**  Whatever byte string is opened with whatever key pair,
there are three cases: it is shorter than seventy-two bytes, which is an error of its own; it is an
honest envelope around a payload, and then the payload is what comes out; or decryption fails.  And
no two pairs of a sender and a recipient have the same binding, not even where two keys differ in
the one bit that their agreement leaves out. -/
theorem only_honest_envelopes_open :
    (∀ (envelope : Bytes) (b : KeyPair),
      ((∃ detail, Envelope.unwrap envelope b = .error (.invalidInput detail)) ↔
        envelope.length < 72) ∧
      (∀ payload, Envelope.unwrap envelope b = .ok payload ↔
        Envelope.Honest envelope b payload) ∧
      (Envelope.unwrap envelope b = .error .decryptionFailed ↔
        72 ≤ envelope.length ∧ ∀ payload, ¬Envelope.Honest envelope b payload)) ∧
      (∀ sender sender' recipient recipient' : PublicKey,
        Envelope.binding sender recipient = Envelope.binding sender' recipient' ↔
          sender = sender' ∧ recipient = recipient') ∧
      ∀ (secret : Octets 32) (sender recipient : PublicKey),
        X25519.agree secret sender.turnTop = X25519.agree secret sender ∧
        Envelope.binding sender.turnTop recipient ≠ Envelope.binding sender recipient := by
  refine ⟨fun envelope b => ⟨?_, fun payload => ?_, ?_⟩, fun _ _ _ _ => Envelope.binding_inj,
    fun secret sender recipient => ⟨X25519.agree_turnTop secret sender, fun hsame => ?_⟩⟩
  · exact Envelope.unwrap_eq_invalidInput_iff
  · exact Envelope.unwrap_eq_ok_iff
  · exact Envelope.unwrap_eq_decryptionFailed_iff
  · exact sender.turnTop_ne (Envelope.binding_inj.1 hsame).1

end Strongroom
