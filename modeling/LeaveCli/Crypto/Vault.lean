import LeaveCli.Crypto.Codec

/-!
# Sealed session state (`crates/leave-crypto/src/vault.rs`)

A sealed blob is the header, the nonce and the ciphertext. `Aead` stands for `XChaCha20Poly1305`;
the nonce that `seal_state` draws is an argument.
-/

namespace LeaveCli.Crypto

open Lib

/-- Length of a state key in bytes. -/
def stateKeyBytes : Nat := 32

/-- Length of the random nonce prefixed to every sealed blob. -/
def nonceBytes : Nat := 24

/-- A symmetric key protecting saved session state. -/
structure StateKey where
  bytes : Bytes
  length_eq : bytes.length = stateKeyBytes

/-- Rebuild a key from stored bytes. -/
def StateKey.fromBytes (bytes : Bytes) : Except CryptoError StateKey :=
  if h : bytes.length = stateKeyBytes then .ok ⟨bytes, h⟩
  else .error (.identity "stored state key is the wrong length")

/-- `[u8; NONCE_BYTES]` -/
structure Nonce where
  bytes : Bytes
  length_eq : bytes.length = nonceBytes

/-- An authenticated cipher: `encrypt` and `decrypt` take a key, a nonce and the text. -/
structure Aead where
  encrypt : Bytes → Bytes → Bytes → Option Bytes
  decrypt : Bytes → Bytes → Bytes → Option Bytes

/-- Encrypt session state for storage. -/
def sealState (cipher : Aead) (key : StateKey) (nonce : Nonce) (state : Bytes) :
    Except CryptoError Bytes :=
  (cipher.encrypt key.bytes nonce.bytes state).elim
    (.error (.seal_ "could not encrypt the saved session"))
    fun ciphertext => .ok (putBytes (putBytes (putHeader []) nonce.bytes) ciphertext)

/-- Decrypt session state read back from storage. -/
def openState (cipher : Aead) (key : StateKey) (blob : Bytes) : Except CryptoError Bytes := do
  let cursor ← takeHeader blob
  let (nonce, cursor) ← takeBytes cursor
  if nonce.length ≠ nonceBytes then .error (.open_ "saved session has a malformed nonce")
  else do
    let (ciphertext, _) ← takeBytes cursor
    (cipher.decrypt key.bytes nonce ciphertext).elim
      (.error (.open_ "saved session did not decrypt")) .ok

end LeaveCli.Crypto
