import LeaveCli.Crypto.Pairing
import LeaveCli.Lib.Broadcast
import Mathlib.Data.List.AList

/-!
# Routes and their tokens (`apps/relay/src/routes.rs`)

A route is the hash of its token and the channel its endpoints share. A `broadcast::Sender` is a
handle to a channel that lives as long as some handle does, so a route holds the channel's number.
The token hash is `blake3`, a parameter.
-/

namespace LeaveCli.Relay

open Lib Crypto

/-- How many frames a route buffers for a slow endpoint before it is dropped. -/
def channelCapacity : Nat := 256

/-- A frame together with the endpoint that published it. -/
structure RoutedFrame where
  endpointId : Nat
  frame : Bytes
  deriving DecidableEq, Repr

/-- One workspace channel the relay is willing to route. -/
structure Route where
  /-- Hash of the token that authorizes attachment. -/
  tokenHash : Bytes
  /-- Fanout channel shared by every attached endpoint. -/
  sender : Nat
  deriving DecidableEq

/-- What the relay returns when a host registers a route. -/
structure RegisteredRoute where
  routeId : Str
  token : Str
  deriving DecidableEq, Repr

/-- Every route this relay currently serves. -/
structure RouteTable where
  routes : AList fun _ : Str => Route

namespace RouteTable

variable (hashToken : Str → Bytes) (table : RouteTable)

/-- Register a new route under the identifier and token drawn for it, with a new channel. -/
def register (registered : RegisteredRoute) (channel : Nat) : RouteTable :=
  ⟨table.routes.insert registered.routeId ⟨hashToken registered.token, channel⟩⟩

/-- Look up a route, checking the presented token in constant time. -/
def authorize (routeId token : Str) : Option Route :=
  (table.routes.lookup routeId).filter fun route => subtleEq route.tokenHash (hashToken token)

/-- Forget a route, and say whether it was there. -/
def revoke (routeId : Str) : RouteTable × Bool :=
  (⟨table.routes.erase routeId⟩, (table.routes.lookup routeId).isSome)

end RouteTable

end LeaveCli.Relay
