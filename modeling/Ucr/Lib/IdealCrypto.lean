import Ucr.Lib.Encoding

-- Cryptography without its chances: what an attacker could only guess never happens.

-- Authenticated encryption with associated data. A ciphertext determines the plaintext it was made
-- from. Under a key that no one else has, nothing opens but what its holders have made.

structure Aead (Key Nonce : Type) (tagLen : ℕ) where
  encrypt : Key → Nonce → Bytes → Bytes → Bytes
  decrypt : Key → Nonce → Bytes → Bytes → Option Bytes
  decrypt_encrypt : ∀ key nonce aad plaintext,
    decrypt key nonce aad (encrypt key nonce aad plaintext) = some plaintext
  encrypt_decrypt : ∀ {key nonce aad ciphertext plaintext},
    decrypt key nonce aad ciphertext = some plaintext → encrypt key nonce aad plaintext = ciphertext
  length_encrypt  : ∀ key nonce aad plaintext,
    (encrypt key nonce aad plaintext).length = plaintext.length + tagLen

namespace Aead

variable {Key Nonce : Type} {tagLen : ℕ} {cipher : Aead Key Nonce tagLen} {key : Key} {nonce : Nonce}
  {aad ciphertext plaintext : Bytes}

-- A ciphertext with what it was made with.
structure Box (Key Nonce : Type) where
  key : Key
  nonce : Nonce
  aad : Bytes
  ciphertext : Bytes
deriving DecidableEq

-- Decryption when no one else has the key: `made` is everything its holders have encrypted.
def decryptMade [DecidableEq Key] [DecidableEq Nonce] (cipher : Aead Key Nonce tagLen)
    (made : List (Box Key Nonce)) (key : Key) (nonce : Nonce) (aad ciphertext : Bytes) :
    Option Bytes :=
  if ⟨key, nonce, aad, ciphertext⟩ ∈ made then cipher.decrypt key nonce aad ciphertext else none

theorem decrypt_eq_some : cipher.decrypt key nonce aad ciphertext = some plaintext ↔
    cipher.encrypt key nonce aad plaintext = ciphertext := by
  refine ⟨cipher.encrypt_decrypt, ?_⟩
  rintro rfl
  exact cipher.decrypt_encrypt ..

theorem encrypt_injective : Function.Injective (cipher.encrypt key nonce aad) := by
  intro p q h
  have hp := cipher.decrypt_encrypt key nonce aad p
  rw [h, cipher.decrypt_encrypt] at hp
  exact (Option.some.inj hp).symm

theorem decryptMade_eq_some [DecidableEq Key] [DecidableEq Nonce] :
    cipher.decryptMade made key nonce aad ciphertext = some plaintext ↔
      ⟨key, nonce, aad, ciphertext⟩ ∈ made ∧ cipher.encrypt key nonce aad plaintext = ciphertext := by
  unfold decryptMade
  split
  case isTrue h  => simp [h, decrypt_eq_some]
  case isFalse h => simp [h]

end Aead

-- Signatures. Whether a signature fits is the scheme's matter; that it was made is the signer's.
structure SignatureScheme (Key Text Signature : Type) where
  verify : Key → Text → Signature → Bool

namespace SignatureScheme

variable {Key Text Signature : Type} [DecidableEq Key] [DecidableEq Text]

-- Verification when signatures cannot be forged: `made` is everything that has been signed.
def verifyMade (scheme : SignatureScheme Key Text Signature) (made : List (Key × Text)) (key : Key)
    (text : Text) (signature : Signature) : Bool :=
  scheme.verify key text signature && (key, text) ∈ made

theorem mem_of_verifyMade {scheme : SignatureScheme Key Text Signature} {key}
    (h : scheme.verifyMade made key text signature) : (key, text) ∈ made := by
  simp only [verifyMade, Bool.and_eq_true, decide_eq_true_eq] at h
  exact h.2

end SignatureScheme
