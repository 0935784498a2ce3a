import LeaveCli.Lib.Text
import LeaveCli.Protocol.Authorize

/-!
# The host's connection to the relay (`crates/leave-transport/src/lib.rs`)

`RelayClient.send` wraps one encrypted frame in an envelope for the route. The envelope's random
message identifier is left out: nothing on this side reads it back.
-/

namespace LeaveCli.Transport

open Lib Protocol

/-- `PROTOCOL_VERSION`. -/
def protocolVersion : Nat := 1

/-- What the relay carries for one frame. -/
structure RelayEnvelope where
  protocolVersion : Nat
  routeId : Str
  ciphertext : Bytes
  deriving DecidableEq

/-- An attached relay route. -/
structure RelayClient where
  routeId : Str

/-- Publish one encrypted frame; `connected` says whether the socket takes the envelope. -/
def RelayClient.send (client : RelayClient) (connected : Bool) (ciphertext : Bytes) :
    Except Str RelayEnvelope :=
  if ciphertext = [] then .error "refusing to relay an empty frame"
  else if ciphertext.length > maxCiphertextBytes then .error "frame exceeds the relay's size limit"
  else if !connected then .error "could not publish to the relay"
  else .ok ⟨protocolVersion, client.routeId, ciphertext⟩

/-- What is sent fits the relay, and goes out as it is. -/
theorem RelayClient.send_eq_ok {client : RelayClient} {connected : Bool} {ciphertext : Bytes}
    {envelope : RelayEnvelope} (h : client.send connected ciphertext = .ok envelope) :
    envelope.ciphertext = ciphertext ∧ envelope.routeId = client.routeId ∧
      ciphertext.length ≤ maxCiphertextBytes ∧ connected = true := by
  unfold RelayClient.send at h
  split at h
  · cases h
  split at h
  · cases h
  rename_i hsize
  split at h
  · cases h
  rename_i hup
  cases h
  exact ⟨rfl, rfl, Nat.le_of_not_lt hsize, by simpa using hup⟩

end LeaveCli.Transport
