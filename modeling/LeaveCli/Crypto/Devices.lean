import LeaveCli.Crypto.Browser

/-!
# Devices and the groups they talk in (`crates/leave-crypto/src/identity.rs`, `browser.rs`)

How a device comes to its identity and its key package, and what a browser publishes to join. The
key generation of OpenMLS is the parameter `Devices`; `Devices.Lawful` says that what a device
publishes is a key package for its identifier whose keys it keeps.
-/

namespace LeaveCli.Crypto

open Lib

variable {M : Mls}

/-- The OpenMLS functions that make keys. -/
structure Devices (M : Mls) where
  /-- What one call draws at random. -/
  Draw : Type
  /-- `SignatureKeyPair::new` for a device, stored in a provider of its own. -/
  newProvider : Draw → Str → Except Str M.Provider
  /-- `KeyPackage::builder().build` and `tls_serialize_detached`. The private keys go to the
  provider. -/
  buildKeyPackage : Draw → DeviceIdentity M → M.Provider × Except Str Bytes

variable (K : Devices M)

/-- Generate a fresh signing key and credential for one device. -/
def DeviceIdentity.generate (draw : K.Draw) (deviceId : Str) :
    Except CryptoError (DeviceIdentity M) :=
  match K.newProvider draw deviceId with
  | .error e => .error (.identity e)
  | .ok provider => .ok ⟨deviceId, provider⟩

/-- Produce a key package another member uses to invite this device. -/
def DeviceIdentity.publishKeyPackage (draw : K.Draw) (identity : DeviceIdentity M) :
    DeviceIdentity M × Except CryptoError Bytes :=
  ({ identity with provider := (K.buildKeyPackage draw identity).1 },
    (K.buildKeyPackage draw identity).2.mapError .keyPackage)

/-- Start pairing this browser with a workspace; the second part is the frame to publish. -/
def startPairing (hash : KeyedHash) (draw : K.Draw) (deviceId : Str) (pairingSecret : Bytes) :
    Except Str (PendingPairing M × Bytes) := do
  let secret ← toJs (PairingSecret.fromBytes pairingSecret)
  let identity ← toJs (DeviceIdentity.generate K draw deviceId)
  let (identity, keyPackage) := identity.publishKeyPackage K draw
  let keyPackage ← toJs keyPackage
  pure (⟨some identity⟩, pairingRequest hash keyPackage secret)

/-- What OpenMLS documents about the keys it makes. -/
structure Devices.Lawful (Holds : M.Provider → M.KeyPackage → Prop) : Prop where
  /-- A device publishes a key package for its identifier, and keeps the keys. -/
  publishes : ∀ {draw deviceId provider keyPackage}, K.newProvider draw deviceId = .ok provider →
    (K.buildKeyPackage draw ⟨deviceId, provider⟩).2 = .ok keyPackage →
    ∃ k, parseKeyPackage M keyPackage = .ok k ∧ M.credential k = .basic deviceId.utf8 ∧
      Holds (K.buildKeyPackage draw ⟨deviceId, provider⟩).1 k

/-- No message is taken for a pairing frame, which begins with the magic. -/
theorem not_isPairingFrame {frame : Bytes} (h : [0x00, 0x01] <+: frame) :
    isPairingFrame frame = false := by
  obtain ⟨rest, rfl⟩ := h
  unfold isPairingFrame
  split
  · rename_i hheader
    have hmagic := takeHeader_eq_ok.1 hheader
    cases hmagic
  · rfl

theorem generate_eq_ok {draw : K.Draw} {deviceId : Str} {identity : DeviceIdentity M} :
    DeviceIdentity.generate K draw deviceId = .ok identity ↔
      ∃ provider, K.newProvider draw deviceId = .ok provider ∧ identity = ⟨deviceId, provider⟩ := by
  unfold DeviceIdentity.generate
  cases K.newProvider draw deviceId with
  | error e => simp
  | ok provider => simp [eq_comm]

/-- What is behind a pairing that has started. -/
theorem startPairing_eq_ok {hash : KeyedHash} {draw : K.Draw} {deviceId : Str}
    {secret : PairingSecret} {pending : PendingPairing M} {request : Bytes}
    (h : startPairing K hash draw deviceId secret.bytes = .ok (pending, request)) :
    ∃ provider keyPackage, K.newProvider draw deviceId = .ok provider ∧
      (K.buildKeyPackage draw ⟨deviceId, provider⟩).2 = .ok keyPackage ∧
      pending = ⟨some ⟨deviceId, (K.buildKeyPackage draw ⟨deviceId, provider⟩).1⟩⟩ ∧
      request = pairingRequest hash keyPackage secret := by
  have hsecret : PairingSecret.fromBytes secret.bytes = .ok secret := dif_pos secret.length_eq
  rw [startPairing, hsecret] at h
  cases hgenerate : DeviceIdentity.generate K draw deviceId with
  | error e =>
    rw [hgenerate] at h
    cases h
  | ok identity =>
    obtain ⟨provider, hprovider, rfl⟩ := (generate_eq_ok K).1 hgenerate
    rw [hgenerate] at h
    cases hbuild : (K.buildKeyPackage draw ⟨deviceId, provider⟩).2 with
    | error e =>
      simp [toJs, DeviceIdentity.publishKeyPackage, hbuild, Except.mapError, bind, Except.bind] at h
    | ok keyPackage =>
      simp [toJs, DeviceIdentity.publishKeyPackage, hbuild, Except.mapError, bind, Except.bind,
        pure, Except.pure] at h
      exact ⟨provider, keyPackage, hprovider, hbuild, h.1.symm, h.2.symm⟩

end LeaveCli.Crypto
