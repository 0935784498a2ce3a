import LeaveCli.Crypto.Session

/-!
# Adding a new phone to a workspace (`crates/leave-crypto/src/pairing.rs`)

A phone tags its key package with the pairing secret it scanned, and the host checks the tag
before it touches the group. `KeyedHash` stands for keyed `blake3`.
-/

namespace LeaveCli.Crypto

open Lib

/-- `blake3::Hasher::new_keyed(key).update(data).finalize()`. -/
abbrev KeyedHash := Bytes → Bytes → Bytes

/-- Length of a pairing secret in bytes. -/
def pairingSecretBytes : Nat := 32

/-- Frame kind carrying a device's request to join. -/
def kindRequest : UInt8 := 1

/-- Frame kind carrying the group's answer. -/
def kindWelcome : UInt8 := 2

/-- Domain separator so a pairing tag cannot be reused for anything else. -/
def tagContext : Str := "leave pairing tag v1"

/-- The one-time secret displayed by the host and scanned by the phone. -/
structure PairingSecret where
  bytes : Bytes
  length_eq : bytes.length = pairingSecretBytes

/-- Rebuild a secret the phone read out of a QR code. -/
def PairingSecret.fromBytes (bytes : Bytes) : Except CryptoError PairingSecret :=
  if h : bytes.length = pairingSecretBytes then .ok ⟨bytes, h⟩
  else .error (.identity "pairing secret is the wrong length")

/-- Authentication tag binding a key package to this secret. -/
def PairingSecret.tag (hash : KeyedHash) (secret : PairingSecret) (keyPackage : Bytes) : Bytes :=
  hash secret.bytes (tagContext.utf8 ++ keyPackage)

/-- `vault::subtle_eq`. -/
def subtleEq (left right : Bytes) : Bool :=
  if left.length ≠ right.length then false else left = right

/-- A phone's request to join, ready to publish to the relay. -/
def pairingRequest (hash : KeyedHash) (keyPackage : Bytes) (secret : PairingSecret) : Bytes :=
  putBytes (putBytes (putHeader [] ++ [kindRequest]) keyPackage) (secret.tag hash keyPackage)

/-- Accept a pairing request and produce the welcome that admits the device. -/
def acceptPairing {M : Mls} (hash : KeyedHash) (session : WorkspaceSession M) (request : Bytes)
    (secret : PairingSecret) : WorkspaceSession M × Except CryptoError Invitation :=
  match takeHeader request with
  | .error e => (session, .error e)
  | .ok [] => (session, .error (.keyPackage "pairing request is truncated"))
  | .ok (kind :: rest) =>
    if kind ≠ kindRequest then
      (session, .error (.keyPackage "that frame is not a pairing request"))
    else match takeBytes rest with
      | .error e => (session, .error e)
      | .ok (keyPackage, rest) => match takeBytes rest with
        | .error e => (session, .error e)
        | .ok (presented, _) =>
          if !subtleEq (secret.tag hash keyPackage) presented then
            (session, .error (.keyPackage "this device did not present the pairing secret"))
          else session.addDevice keyPackage

/-- Wrap a welcome for the relay. -/
def pairingWelcome (invitation : Invitation) : Bytes :=
  putBytes (putHeader [] ++ [kindWelcome]) invitation.welcome

/-- Read a welcome frame back out. -/
def readPairingWelcome (frame : Bytes) : Except CryptoError Bytes :=
  match takeHeader frame with
  | .error e => .error e
  | .ok [] => .error .unexpectedMessage
  | .ok (kind :: rest) =>
    if kind ≠ kindWelcome then .error .unexpectedMessage
    else match takeBytes rest with
      | .error e => .error e
      | .ok (welcome, _) => .ok welcome

/-- Whether a relay frame belongs to the pairing exchange rather than the group. -/
def isPairingFrame (frame : Bytes) : Bool :=
  match takeHeader frame with
  | .ok (kind :: _) => kind = kindRequest ∨ kind = kindWelcome
  | _ => false

/-- The frame carries a key package and a tag presented for it, as a request to join. -/
def Requests (frame keyPackage presented : Bytes) : Prop :=
  ∃ rest rest' rest'', takeHeader frame = .ok (kindRequest :: rest) ∧
    takeBytes rest = .ok (keyPackage, rest') ∧ takeBytes rest' = .ok (presented, rest'')

end LeaveCli.Crypto
