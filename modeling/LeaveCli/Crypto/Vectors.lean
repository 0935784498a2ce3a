import LeaveCli.Crypto.Devices
import LeaveCli.Crypto.SavedState

/-!
# Golden vectors (`crates/leave-crypto/src/vectors.rs`)

A vector is a saved session with a frame sealed for it, and what opening the frame has to give.
What a build of OpenMLS does to found a group, and to keep a session in its storage, is the
parameter `Build`.
-/

namespace LeaveCli.Crypto

open Lib

variable {M : Mls}

/-- The OpenMLS functions, as one build has them, that make groups and keep sessions. -/
structure Build (M : Mls) extends Devices M where
  /-- `MlsGroup::new_with_group_id`. -/
  newGroup : Draw → DeviceIdentity M → Bytes → Except Str M.Group
  /-- What `export_state` finds in a session. -/
  saved : WorkspaceSession M → SavedSession
  /-- `DeviceIdentity::from_storage` and `MlsGroup::load`. -/
  load : SavedSession → Except CryptoError (WorkspaceSession M)

namespace WorkspaceSession

variable (B : Build M)

/-- Create a new workspace group with this device as its only member. -/
def create (draw : B.Draw) (identity : DeviceIdentity M) (workspaceId : Str) :
    Except CryptoError (WorkspaceSession M) :=
  match B.newGroup draw identity workspaceId.utf8 with
  | .error e => .error (.group e)
  | .ok group => .ok ⟨identity, group⟩

/-- Resume a session previously written by `exportState`. -/
def restore (state : Bytes) : Except CryptoError (WorkspaceSession M) := do
  let parts ← SavedSession.restoreParts.run state
  B.load parts.1

end WorkspaceSession

/-- One interoperability vector. -/
structure InteropVector where
  /-- Saved session state for the receiving device. -/
  receiverState : Bytes
  /-- A frame sealed by the other member of that group. -/
  sealedFrame : Bytes
  /-- Plaintext the receiver must recover. -/
  expectedPlaintext : Bytes
  /-- Device identifier the receiver must authenticate as the sender. -/
  expectedSender : Str
  deriving DecidableEq

namespace InteropVector

/-- Produce a vector on this build, for the other build to check. -/
def produce (B : Build M) (senderDraw receiverDraw : B.Draw) (senderId receiverId : Str)
    (plaintext : Bytes) : Except CryptoError InteropVector := do
  let identity ← DeviceIdentity.generate B.toDevices senderDraw senderId
  let sender ← WorkspaceSession.create B senderDraw identity "interop-workspace"
  let receiver ← DeviceIdentity.generate B.toDevices receiverDraw receiverId
  let (receiver, keyPackage) := receiver.publishKeyPackage B.toDevices receiverDraw
  let (sender, invitation) := sender.addDevice (← keyPackage)
  let receiver ← WorkspaceSession.join receiver (← invitation).welcome
  let receiverState ← (B.saved receiver).exportState
  let sealedFrame ← (sender.sealFrame plaintext).2
  pure ⟨receiverState, sealedFrame, plaintext, senderId⟩

/-- Check this vector on the current build. -/
def verify (B : Build M) (vector : InteropVector) : Except CryptoError Unit := do
  let receiver ← WorkspaceSession.restore B vector.receiverState
  let opened ← (receiver.openFrame vector.sealedFrame).2
  if opened.plaintext ≠ vector.expectedPlaintext then
    throw (.open_ "the vector opened to different plaintext on this build")
  if opened.senderDeviceId ≠ vector.expectedSender then
    throw (.open_ "the vector authenticated a different sender on this build")

/-- Encode a vector so the other build can load it. -/
def encode (vector : InteropVector) : Bytes :=
  let buffer := putHeader []
  let buffer := putBytes buffer vector.receiverState
  let buffer := putBytes buffer vector.sealedFrame
  let buffer := putBytes buffer vector.expectedPlaintext
  putBytes buffer vector.expectedSender.utf8

/-- The fields of a vector, and what is behind them. -/
def take : Reader UInt8 CryptoError InteropVector := do
  takeHeaderUnit
  let receiverState ← takeBytes
  let sealedFrame ← takeBytes
  let expectedPlaintext ← takeBytes
  let expectedSender ← takeBytes
  let expectedSender ← (Str.fromUtf8 expectedSender).elim (throw .malformedIdentity) pure
  pure ⟨receiverState, sealedFrame, expectedPlaintext, expectedSender⟩

/-- Decode a vector produced by the other build. -/
def decode (bytes : Bytes) : Except CryptoError InteropVector := (take.run bytes).map Prod.fst

end InteropVector

end LeaveCli.Crypto
