import LeaveCli.Crypto.Codec
import LeaveCli.Lib.Reader
import Mathlib.Data.List.AList

/-!
# Saved session state (`crates/leave-crypto/src/provider.rs`, `session.rs`)

What a host writes to disk so that a workspace group outlives a restart: a header, the device
identifier, the group identifier, the public signing key, then every entry of the key storage. A
hash map is an association list without repeated keys, in the order the map would be iterated;
two such lists with the same entries are one map (`AList.toFinmap`). `restore` goes on to load the
key pair and the group out of that storage, which is OpenMLS; `restoreParts` is the part before.
-/

namespace LeaveCli.Crypto

open Lib

/-- `openmls_memory_storage::MemoryStorage`: a hash map behind a lock. -/
structure MemoryStorage where
  poisoned : Bool
  values : AList fun _ : Bytes => Bytes

namespace MemoryStorage

/-- `MemoryStorage::default`. -/
def default : MemoryStorage := ⟨false, ∅⟩

end MemoryStorage

/-- A provider whose key storage can be exported and restored. -/
structure LeaveProvider where
  storage : MemoryStorage

namespace LeaveProvider

/-- Read one entry and insert it. -/
def takeEntry (values : AList fun _ : Bytes => Bytes) :
    Reader UInt8 CryptoError (AList fun _ : Bytes => Bytes) := do
  let key ← takeBytes
  let value ← takeBytes
  pure (values.insert key value)

/-- Rebuild a provider from bytes produced by `export_`. -/
def restore : Reader UInt8 CryptoError LeaveProvider := do
  let storage := MemoryStorage.default
  if storage.poisoned then throw (.group "saved session storage is poisoned")
  let count ← takeCount
  let values ← Reader.times takeEntry count storage.values
  pure ⟨{ storage with values }⟩

/-- The entries in the order of `sort_by(|left, right| left.0.cmp(right.0))`. -/
def sortedEntries (values : AList fun _ : Bytes => Bytes) : List (Σ _ : Bytes, Bytes) :=
  values.entries.mergeSort fun left right => left.1 ≤ right.1

def putEntry (buffer : Bytes) (entry : Σ _ : Bytes, Bytes) : Bytes :=
  putBytes (putBytes buffer entry.1) entry.2

/-- Serialize every stored key and group secret. -/
def export_ (provider : LeaveProvider) (buffer : Bytes) : Except CryptoError Bytes :=
  if provider.storage.poisoned then .error (.encode "session storage is poisoned")
  else
    let values := provider.storage.values
    .ok ((sortedEntries values).foldl putEntry (putCount buffer values.entries.length))

end LeaveProvider

/-- What `export_state` reads out of a session. -/
structure SavedSession where
  deviceId : Str
  groupId : Bytes
  signaturePublicKey : Bytes
  provider : LeaveProvider

/-- `take_header(&mut cursor)?`. -/
def takeHeaderUnit : Reader UInt8 CryptoError Unit := fun cursor =>
  (takeHeader cursor).map (Prod.mk ())

namespace SavedSession

/-- Serialize everything needed to resume this session after a restart. -/
def exportState (session : SavedSession) : Except CryptoError Bytes :=
  let buffer := putHeader []
  let buffer := putBytes buffer session.deviceId.utf8
  let buffer := putBytes buffer session.groupId
  let buffer := putBytes buffer session.signaturePublicKey
  session.provider.export_ buffer

/-- `WorkspaceSession::restore` up to `DeviceIdentity::from_storage`. -/
def restoreParts : Reader UInt8 CryptoError SavedSession := do
  takeHeaderUnit
  let deviceId ← takeBytes
  let deviceId ← (Str.fromUtf8 deviceId).elim (throw .malformedIdentity) pure
  let groupId ← takeBytes
  let signaturePublicKey ← takeBytes
  let provider ← LeaveProvider.restore
  pure ⟨deviceId, groupId, signaturePublicKey, provider⟩

end SavedSession

end LeaveCli.Crypto
