import LeaveCli.Host.Main
import LeaveCli.Relay.Routes
import LeaveCli.Transport.Attach

/-!
# Opening a relay route (`apps/leave/src/relay_tunnel.rs`, `open_route`)

`openRoute` registers a route with the relay and then attaches to it; `Outbound` is what it sends
out. The answers, the workspace group and the crates that read a URI and a header value are fields
of `RelayNetwork`.
-/

namespace LeaveCli.Host

open Lib Relay Transport

/-- What `open_route` sends. -/
inductive Outbound
  | post (url : Str) (headers : List (Str × Str))
  | dial (handshake : Handshake)
  deriving DecidableEq

/-- What answers `open_route`. -/
structure RelayNetwork where
  /-- The answer to the registration, or the context of its error. -/
  registered : Except Str RegisteredRoute
  /-- This host's device identity and the workspace group. -/
  group : Except Str Unit
  isUri : Str → Bool
  isHeaderValue : Str → Bool
  /-- The relay takes the connection. -/
  connects : Bool

/-- Where `open_route` registers a route. -/
def registrationUrl (relayUrl : Str) : Str := trimEndSlashes relayUrl ++ ("/api/v1/routes" : Str)

/-- `open_route`, up to the attached client's route. -/
def openRoute (network : RelayNetwork) (relay : RelayAccess) : Traced Str Outbound Str := do
  .emit (.post (registrationUrl relay.url)
    [("x-leave-registration-secret", relay.registrationSecret)])
  let registered ← .lift network.registered
  .lift network.group
  let handshake ← .lift ((attach network.isUri network.isHeaderValue relay.url registered.routeId
    registered.token).mapError fun _ => "could not attach to the relay route")
  .emit (.dial handshake)
  .bailIf (!network.connects) "could not attach to the relay route"
  pure registered.routeId

theorem mem_openRoute {network : RelayNetwork} {relay : RelayAccess} {outbound : Outbound}
    (h : outbound ∈ (openRoute network relay).emitted) :
    outbound = .post (registrationUrl relay.url)
      [("x-leave-registration-secret", relay.registrationSecret)] ∨
    ∃ registered, network.registered = .ok registered ∧
      outbound = .dial ⟨attachEndpoint relay.url registered.routeId,
        [(routeTokenHeader, registered.token)]⟩ := by
  simp only [openRoute, Traced.mem_emitted_bind, Traced.emitted_emit, Traced.emitted_lift,
    Traced.emitted_bailIf, Traced.emitted_pure, Traced.result_lift, List.mem_singleton,
    List.not_mem_nil, false_or, or_false, and_false, exists_false] at h
  rcases h with hpost | ⟨_, -, registered, hregistered, _, -, handshake, hattach, hdial⟩
  · exact .inl hpost
  · refine .inr ⟨registered, hregistered, ?_⟩
    cases hresult : attach network.isUri network.isHeaderValue relay.url registered.routeId
        registered.token with
    | error e =>
      rw [hresult] at hattach
      cases hattach
    | ok sent =>
      rw [hresult] at hattach
      obtain rfl : sent = handshake := Except.ok.inj hattach
      rw [hdial, attach_eq_ok hresult]

end LeaveCli.Host
