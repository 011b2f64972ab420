import Ucr.Lib.IdealCrypto
import Ucr.Objects.Media
import Ucr.Protocol.Message

-- Encryption under a traffic key: the limits it keeps around the cipher.

namespace Ucr

open Except

def aeadTagLen : ℕ := 16
def maxAadLen : ℕ := 64 * 1024
def maxCiphertextLen : ℕ := defaultMaxPayloadLen
def maxPlaintextLen : ℕ := maxCiphertextLen - aeadTagLen

inductive AeadError
  | osRandomUnavailable
  | emptyAssociatedData
  | payloadTooLarge
  | associatedDataTooLarge
  | encryptionFailed
  | decryptionFailed

abbrev TrafficCipher (Key : Type) := Aead Key AeadNonce aeadTagLen

structure Ciphertext where
  nonce : AeadNonce
  bytes : Bytes

namespace TrafficKey

variable {Key : Type}

def validateAeadInputs (plaintextLen : ℕ) (aad : Bytes) : Except AeadError Unit := do
  rejectIf (aad = []) .emptyAssociatedData
  rejectIf (aad.length > maxAadLen) .associatedDataTooLarge
  rejectIf (plaintextLen > maxPlaintextLen) .payloadTooLarge

-- The nonce is what the operating system's generator answers.
def encrypt (cipher : TrafficCipher Key) (key : Key) (nonce : Option AeadNonce)
    (plaintext aad : Bytes) : Except AeadError Ciphertext := do
  validateAeadInputs plaintext.length aad
  let nonce ← nonce.okOr .osRandomUnavailable
  return ⟨nonce, cipher.encrypt key nonce aad plaintext⟩

-- `decrypt` is the cipher under the key.
def decrypt (decrypt : AeadNonce → Bytes → Bytes → Option Bytes) (ciphertext : Ciphertext)
    (aad : Bytes) : Except AeadError Bytes := do
  rejectIf (aad = []) .emptyAssociatedData
  rejectIf (aad.length > maxAadLen) .associatedDataTooLarge
  rejectIf (ciphertext.bytes.length > maxCiphertextLen) .payloadTooLarge
  (decrypt ciphertext.nonce aad ciphertext.bytes).okOr .decryptionFailed

theorem encrypt_eq_ok (h : encrypt cipher key nonce plaintext aad = .ok ciphertext) :
    nonce = some ciphertext.nonce ∧
      ciphertext.bytes = cipher.encrypt key ciphertext.nonce aad plaintext := by
  simp only [encrypt, ok_iff] at h
  obtain ⟨-, -, nonce, rfl, rfl⟩ := h
  exact ⟨rfl, rfl⟩

theorem decrypt_eq_ok {open_ : AeadNonce → Bytes → Bytes → Option Bytes}
    (h : decrypt open_ ciphertext aad = .ok plaintext) :
    open_ ciphertext.nonce aad ciphertext.bytes = some plaintext := by
  simp only [decrypt, ok_iff] at h
  obtain ⟨-, -, -, -, -, -, h⟩ := h
  exact h

end TrafficKey

end Ucr
