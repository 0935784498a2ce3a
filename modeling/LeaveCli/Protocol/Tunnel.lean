import LeaveCli.Lib.Text
import LeaveCli.Protocol.Authorize
import Std.Data.TreeMap

/-!
# Tunnelled requests (`crates/leave-protocol/src/tunnel.rs`)

The request a remote device seals for the host and the answer it gets, the check
`TunnelRequest.validate`, and the classifier `actionFor` the host authorizes against. JSON is
`serde_json`'s: `Wire` is the parameter that stands for `decode` and `encode`.
-/

namespace LeaveCli.Protocol

open Lib

/-- Version of the tunnelled request and response encoding. -/
def tunnelVersion : UInt32 := 1

/-- Largest body Leave will carry in one tunnelled message. -/
def maxTunnelBodyBytes : Nat := 4 * 1024 * 1024

/-- A request a remote device makes of the host. -/
structure TunnelRequest where
  version : UInt32
  exchangeId : Str
  method : Str
  /-- Path and query. -/
  path : Str
  headers : Std.TreeMap Str Str
  body : Bytes

/-- The host's answer to one `TunnelRequest`. -/
structure TunnelResponse where
  version : UInt32
  exchangeId : Str
  status : Nat
  headers : Std.TreeMap Str Str
  body : Bytes

/-- Why a tunnelled message was refused. -/
inductive TunnelError
  | unsupportedVersion (version : UInt32)
  | unsupportedMethod
  | invalidPath
  | bodyTooLarge
  | malformed
  deriving DecidableEq, Repr

/-- The `#[error]` texts. -/
def TunnelError.message : TunnelError → Str
  | .unsupportedVersion v => ("unsupported tunnel version " : Str) ++ (toString v.toNat).toList
  | .unsupportedMethod => "unsupported method"
  | .invalidPath => "invalid request path"
  | .bodyTooLarge =>
    ("request body exceeds " : Str) ++ (toString maxTunnelBodyBytes).toList ++ (" bytes" : Str)
  | .malformed => "malformed tunnel message"

/-- The methods the local API accepts. -/
def tunnelMethods : List Str := ["GET", "POST", "PUT", "PATCH", "DELETE", "HEAD"]

/-- Check a decrypted request before the host acts on any part of it. -/
def TunnelRequest.validate (request : TunnelRequest) : Except TunnelError Unit :=
  if request.version ≠ tunnelVersion then .error (.unsupportedVersion request.version)
  else if request.method ∉ tunnelMethods then .error .unsupportedMethod
  else if ¬ ("/api/v1/local/" : Str) <+: request.path ∨ (".." : Str) <:+: request.path ∨
      ("://" : Str) <:+: request.path then .error .invalidPath
  else if request.body.length > maxTunnelBodyBytes then .error .bodyTooLarge
  else .ok ()

/-- Read one query parameter out of a request path: the first pair with that name. -/
def queryValue (path key : Str) : Option Str :=
  match Str.splitOnce '?' path with
  | none => none
  | some (_, query) =>
    (query.splitOn '&').findSome? fun pair =>
      match Str.splitOnce '=' pair with
      | none => none
      | some (name, value) => if name = key then some value else none

/-- The part of a request path before its first `?`. -/
def routeOf (path : Str) : Str := path.takeWhile (· ≠ '?')

/-- Decide which action a tunnelled request performs. -/
def actionFor (method path : Str) : Action :=
  let route := routeOf path
  let reading := method = "GET" ∨ method = "HEAD"
  -- even reading these surfaces is sensitive, so they come before `reading`
  if ("/api/v1/local/terminals" : Str) <+: route then .rawPty
  else if ("/api/v1/local/previews" : Str) <+: route then .persistentBrowserProfile
  else if ("/api/v1/local/customization" : Str) <+: route then
    if queryValue path "category" = some ("rules" : Str) ∨
        queryValue path "category" = some ("skills" : Str) then .projectCustomization
    else .globalCustomization
  else if reading then .view
  else if route = "/api/v1/local/file" then .editFiles
  else if ("/api/v1/local/git/" : Str) <+: route then
    if route = "/api/v1/local/git/status" ∨ route = "/api/v1/local/git/diff" ∨
        route = "/api/v1/local/git/worktrees" then .view
    else .gitWrite
  else if route = "/api/v1/local/sessions" then .prompt
  else if ("/api/v1/local/sessions/" : Str) <+: route then
    if ("/permissions" : Str) <:+ route ∨ ("/permissions/" : Str) <:+: route then .lowRiskApproval
    else .prompt
  else .editFiles

/-- `decode::<TunnelRequest>` and `encode::<TunnelResponse>`, which are `serde_json`'s. -/
structure Wire where
  decode : Bytes → Except TunnelError TunnelRequest
  encode : TunnelResponse → Except TunnelError Bytes

/-- A capability-gated surface is classified by the surface, whatever the method. -/
theorem actionFor_terminals {method path : Str}
    (h : ("/api/v1/local/terminals" : Str) <+: routeOf path) : actionFor method path = .rawPty := by
  unfold actionFor
  exact if_pos h

/-- The customization surface is project scope only for a first `category` of rules or skills. -/
theorem actionFor_customization {method path : Str}
    (ht : ¬ ("/api/v1/local/terminals" : Str) <+: routeOf path)
    (hp : ¬ ("/api/v1/local/previews" : Str) <+: routeOf path)
    (hc : ("/api/v1/local/customization" : Str) <+: routeOf path) :
    actionFor method path =
      if queryValue path "category" = some ("rules" : Str) ∨
          queryValue path "category" = some ("skills" : Str) then .projectCustomization
      else .globalCustomization := by
  unfold actionFor
  rw [if_neg ht, if_neg hp, if_pos hc]

end LeaveCli.Protocol
