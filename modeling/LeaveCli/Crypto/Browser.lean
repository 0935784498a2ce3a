import LeaveCli.Crypto.Pairing

/-!
# Pairing in the browser (`crates/leave-crypto/src/browser.rs`)

`PendingPairing` is the phone between its request and the host's welcome. `complete` takes the
identity out before it looks at the frame. The request, which a getter returns, is left out.
-/

namespace LeaveCli.Crypto

open Lib

/-- What an error displays. -/
def CryptoError.message : CryptoError → Str
  | .identity detail => ("could not create device identity: " : Str) ++ detail
  | .keyPackage detail => ("could not use key package: " : Str) ++ detail
  | .group detail => ("could not update the workspace group: " : Str) ++ detail
  | .seal_ detail => ("could not encrypt the message: " : Str) ++ detail
  | .open_ detail => ("could not decrypt the message: " : Str) ++ detail
  | .unexpectedMessage => "unexpected message type on the workspace channel"
  | .unknownDevice => "device is not a member of this workspace"
  | .malformedIdentity => "device identity is not valid UTF-8"
  | .encode detail => ("could not encode an MLS structure: " : Str) ++ detail

/-- Turn an internal error into one a page can display. -/
def toJs {α : Type} (result : Except CryptoError α) : Except Str α :=
  result.mapError CryptoError.message

/-- A device that has asked to join a workspace and is waiting for the welcome. -/
structure PendingPairing (M : Mls) where
  identity : Option (DeviceIdentity M)

/-- Finish pairing with the welcome the host sent back. -/
def PendingPairing.complete {M : Mls} (pending : PendingPairing M) (welcomeFrame : Bytes) :
    PendingPairing M × Except Str (WorkspaceSession M) :=
  -- the identity is gone whatever comes of the frame
  ({ pending with identity := none },
    pending.identity.elim (.error "this pairing was already completed") fun identity => do
      let welcome ← toJs (readPairingWelcome welcomeFrame)
      toJs (WorkspaceSession.join identity welcome))

end LeaveCli.Crypto
