/-!
# Why cryptography fails

Bad input is told apart from data that is not authentic and from keys that cannot be used.
-/

namespace Strongroom

/-- Why a cryptographic operation fails. -/
inductive CryptoError where
  /-- The input has the wrong length or is empty. -/
  | invalidInput (detail : String)
  /-- The envelope is not authentic. -/
  | decryptionFailed
  /-- The operation cannot be carried out. -/
  | failure (detail : String)
  deriving DecidableEq, Repr

/-- An error in words. -/
def CryptoError.describe : CryptoError → String
  | invalidInput detail => "invalid input: " ++ detail
  | decryptionFailed => "decryption failed"
  | failure detail => "crypto failure: " ++ detail

end Strongroom
