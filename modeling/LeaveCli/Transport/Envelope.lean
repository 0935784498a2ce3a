import LeaveCli.Core.EventStore
import LeaveCli.Transport.Client

/-!
# Envelopes on the wire (`crates/leave-protocol/src/lib.rs`, `crates/leave-transport/src/lib.rs`)

The whole `RelayEnvelope` as it crosses the relay, `validate_envelope`, and what `RelayClient`
writes and reads as WebSocket messages. The Protobuf encoding is generated by `prost` and the text
of a message identifier comes from the `uuid` crate: `EnvelopeWire` stands for both.
-/

namespace LeaveCli.Transport

open Lib Protocol LeaveCli.Core

/-- `wire::RelayEnvelope`. -/
structure Envelope where
  protocolVersion : Nat
  routeId : Str
  messageId : Str
  ciphertext : Bytes
  deriving DecidableEq, Repr

/-- `encode_to_vec` and `decode` of `prost`, `to_string` and `parse_str` of `uuid`. -/
structure EnvelopeWire where
  encode : Envelope → Bytes
  decode : Bytes → Option Envelope
  uuidText : Uuid → Str
  isUuid : Str → Bool

/-- What the two crates document: decoding undoes encoding, and an identifier's text parses. -/
structure EnvelopeWire.Lawful (W : EnvelopeWire) : Prop where
  decode_encode : ∀ envelope, envelope.protocolVersion < UInt32.size →
    W.decode (W.encode envelope) = some envelope
  isUuid_uuidText : ∀ uuid, W.isUuid (W.uuidText uuid) = true

/-- Errors detected before a relay envelope enters the routing layer. -/
inductive EnvelopeError
  | unsupportedVersion (version : Nat)
  | invalidRoute
  | invalidMessageId
  | ciphertextTooLarge
  | emptyCiphertext
  deriving DecidableEq, Repr

/-- Validate metadata visible to the blind relay without inspecting ciphertext. -/
def validateEnvelope (W : EnvelopeWire) (envelope : Envelope) : Except EnvelopeError Unit :=
  if envelope.protocolVersion ≠ protocolVersion then
    .error (.unsupportedVersion envelope.protocolVersion)
  else if envelope.routeId = [] ∨ envelope.routeId.utf8.length > 128 then .error .invalidRoute
  else if !W.isUuid envelope.messageId then .error .invalidMessageId
  else if envelope.ciphertext = [] then .error .emptyCiphertext
  else if envelope.ciphertext.length > maxCiphertextBytes then .error .ciphertextTooLarge
  else .ok ()

/-- A WebSocket message; a close frame carries its reason unless the code is normal. -/
inductive WsMessage
  | binary (frame : Bytes)
  | text
  | close (abnormal : Option Str)
  | ping
  | pong
  deriving DecidableEq, Repr

/-- The message `RelayClient.send` writes for a frame. -/
def RelayClient.publish (W : EnvelopeWire) (client : RelayClient) (messageId : Uuid)
    (ciphertext : Bytes) : Except Str WsMessage :=
  (client.send true ciphertext).map fun envelope => .binary (W.encode
    ⟨envelope.protocolVersion, envelope.routeId, W.uuidText messageId, envelope.ciphertext⟩)

/-- What `RelayClient::recv` does with the next message: return, or wait for another. -/
def RelayClient.handle (W : EnvelopeWire) (client : RelayClient) :
    WsMessage → Option (Except Str (Option Bytes))
  | .binary frame => (W.decode frame).elim
      (some (.error "the relay sent a frame Leave could not parse")) fun envelope =>
        if envelope.routeId ≠ client.routeId then none else some (.ok (some envelope.ciphertext))
  | .close none => some (.ok none)
  | .close (some reason) => some (.error (("the relay closed the route: " : Str) ++ reason))
  | .text => some (.error "the relay sent an unexpected text frame")
  | .ping => none
  | .pong => none

end LeaveCli.Transport
