import LeaveCli.Lib.Replace
import LeaveCli.Lib.UrlParts
import LeaveCli.Transport.Client

/-!
# Attaching to a relay route (`crates/leave-transport/src/lib.rs`, `RelayClient::attach`)

`attach` derives the WebSocket endpoint from the relay's URL and dials it with the route's token.
Reading the endpoint as a URI and the token as a header value are `http`'s, and stay parameters.
-/

namespace LeaveCli.Transport

open Lib

/-- Header carrying the token that authorizes attaching to a route. -/
def routeTokenHeader : Str := "x-leave-route-token"

/-- `str::trim_end_matches('/')`. -/
def trimEndSlashes (s : Str) : Str := s.rdropWhile (· = '/')

/-- The endpoint `RelayClient::attach` dials. -/
def attachEndpoint (relayUrl routeId : Str) : Str :=
  replace ("http" : Str) ("ws" : Str) (trimEndSlashes relayUrl) ++ ("/api/v1/ws/" : Str) ++ routeId

/-- A WebSocket handshake. -/
structure Handshake where
  endpoint : Str
  headers : List (Str × Str)
  deriving DecidableEq

/-- The handshake `RelayClient::attach` starts. -/
def attach (isUri isHeaderValue : Str → Bool) (relayUrl routeId token : Str) :
    Except Str Handshake :=
  let endpoint := attachEndpoint relayUrl routeId
  if !isUri endpoint then .error "the relay address is not a valid WebSocket URL"
  else if !isHeaderValue token then
    .error "the route token contains characters a header cannot carry"
  else .ok ⟨endpoint, [(routeTokenHeader, token)]⟩

theorem attach_eq_ok {isUri isHeaderValue : Str → Bool} {relayUrl routeId token : Str}
    {handshake : Handshake}
    (h : attach isUri isHeaderValue relayUrl routeId token = .ok handshake) :
    handshake = ⟨attachEndpoint relayUrl routeId, [(routeTokenHeader, token)]⟩ := by
  simp only [attach] at h
  split at h
  · cases h
  split at h
  · cases h
  exact (Except.ok.inj h).symm

end LeaveCli.Transport
