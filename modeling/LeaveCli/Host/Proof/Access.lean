import LeaveCli.Host.LocalServer
import LeaveCli.Host.Proof.ServeStep
import LeaveCli.Host.SmallPlatform

/-!
# Who gets past the network boundary

`authorizeAccess` decides on two headers. `foreign_login_refused_iff` says when it refuses a request
that Tailscale attributed to another account, and `tunnel_access_independent_iff` says when two
tunnelled requests of one sender that differ in their headers alone fare alike.
-/

namespace LeaveCli.Host

open Lib Protocol Crypto

/-! ## Requests from the tailnet -/

/-- The host names that stand for this computer. -/
def loopbackNames : List Str := ["localhost", "127.0.0.1", "[::1]"]

/-- A `Host` header that names this computer, with or without a port. -/
def NamesLoopback (host : Str) : Prop :=
  ∃ name ∈ loopbackNames, host.toAsciiLowercase = name ∨
    ∃ port, host.toAsciiLowercase = name ++ ':' :: port

theorem isLocalHost_iff {host : Str} : isLocalHost host = true ↔ NamesLoopback host := by
  have hport : ∀ name : Str, (name ++ [':'] <+: host.toAsciiLowercase ↔
      ∃ port, host.toAsciiLowercase = name ++ ':' :: port) := fun name => by
    refine ⟨fun ⟨port, h⟩ => ⟨port, by rw [← h]; simp⟩, fun ⟨port, h⟩ => ⟨port, by rw [h]; simp⟩⟩
  have hlocal := hport "localhost"
  have hv4 := hport "127.0.0.1"
  have hv6 := hport "[::1]"
  have hcolon : ("localhost:" : Str) = ("localhost" : Str) ++ [':'] ∧
      ("127.0.0.1:" : Str) = ("127.0.0.1" : Str) ++ [':'] ∧
      ("[::1]:" : Str) = ("[::1]" : Str) ++ [':'] := by decide
  unfold isLocalHost NamesLoopback loopbackNames
  simp only [hcolon.1, hcolon.2.1, hcolon.2.2, hlocal, hv4, hv6, decide_eq_true_eq,
    List.mem_cons, List.not_mem_nil, or_false, exists_eq_or_imp, exists_eq_left, or_assoc]

/-- The access layer turns the request away, whatever is behind it. -/
def Refuses (access : HostAccess) (request : HttpRequest) : Prop :=
  ∀ (α : Type) (next : HttpRequest → α), authorizeAccess access request next =
    .error (.forbidden "this Leave host only accepts its owner's Tailscale identity")

theorem refuses_iff {access : HostAccess} {request : HttpRequest} : Refuses access request ↔
    accessAllowed access (hostHeader request) (loginHeader request) = false := by
  refine ⟨fun h => ?_, fun h α next => ?_⟩
  · by_contra hallowed
    have hrefused := h Unit fun _ => ()
    rw [authorizeAccess, if_neg (by simpa using hallowed)] at hrefused
    cases hrefused
  · rw [authorizeAccess, if_pos (by simpa using h)]

/-- A request that Tailscale attributed to another account is refused exactly when its `Host`
header, which the client writes, does not name this computer. -/
theorem foreign_login_refused_iff {ownerLogin url : Str} {request : HttpRequest} {value : Bytes}
    (hlogin : request.headers.get "tailscale-user-login" = some value)
    (hforeign : (headerToStr value).map Str.toAsciiLowercase ≠ some ownerLogin) :
    Refuses (.tailnet ownerLogin url) request ↔ ¬ NamesLoopback (hostHeader request) := by
  have hother : (loginHeader request).any (· = ownerLogin) = false := by
    rw [loginHeader, hlogin, Option.bind_some]
    cases hv : (headerToStr value).map Str.toAsciiLowercase with
    | none => rfl
    | some login => simpa [hv] using hforeign
  rw [refuses_iff, accessAllowed, hother, Bool.or_false, ← isLocalHost_iff, Bool.not_eq_true]

/-- A request of another account on the tailnet name of the host. -/
def foreignRequest (host : Str) : HttpRequest where
  method := "GET"
  uri := ⟨"/api/v1/local/status", none⟩
  headers := [("host", SmallPlatform.ascii host),
    ("tailscale-user-login", SmallPlatform.ascii "Guest@example.com")]
  body := []

theorem foreign_login_refused_iff_guest :
    Refuses (.tailnet "owner@example.com" "https://host.example.ts.net")
      (foreignRequest "host.example.ts.net") ↔
    ¬ NamesLoopback (hostHeader (foreignRequest "host.example.ts.net")) :=
  have hlogin : (foreignRequest "host.example.ts.net").headers.get "tailscale-user-login" =
      some (SmallPlatform.ascii "Guest@example.com") := by decide
  foreign_login_refused_iff hlogin (by decide)

/-- Another account gets in with `Host: localhost`. -/
theorem foreign_login_accepted : ¬ ∀ (ownerLogin url : Str) (request : HttpRequest) (value : Bytes),
    request.headers.get "tailscale-user-login" = some value →
    (headerToStr value).map Str.toAsciiLowercase ≠ some ownerLogin →
    Refuses (.tailnet ownerLogin url) request := by
  intro h
  have hrefused := h "owner@example.com" "https://host.example.ts.net" (foreignRequest "localhost")
    (SmallPlatform.ascii "Guest@example.com") (by decide) (by decide)
  exact absurd (refuses_iff.1 hrefused) (by decide)

/-! ## Requests from the tunnel -/

/-- The request of an opened frame is dispatched by `handle` and gets past `authorizeAccess`. -/
def ReachesHandler {D : Platform} (access : HostAccess) (router : D.Router)
    (registry : DeviceRegistry) (opened : OpenedMessage) : Prop :=
  ∃ httpRequest, (handle router registry opened : Handled D).dispatched = some httpRequest ∧
    ¬ Refuses access httpRequest

/-- The headers of a tunnelled request that the `http` crate takes. -/
def headersAccepted (http : Http) (request : TunnelRequest) : Bool :=
  http.acceptsHeaders (forwarded request.headers)

/-- The login a tunnelled request claims for itself. -/
def claimedLogin (request : TunnelRequest) : Option Str :=
  (((forwarded request.headers).find? fun header =>
    header.1.toAsciiLowercase = ("tailscale-user-login" : Str)).bind fun header =>
      headerToStr header.2.utf8).map Str.toAsciiLowercase

/-- The headers of a request let it in: they can be built, and on a tailnet host they claim to be
its owner. -/
def Admissible (http : Http) (access : HostAccess) (request : TunnelRequest) : Prop :=
  headersAccepted http request = true ∧
    match access with
    | .local_ => True
    | .tailnet ownerLogin _ => claimedLogin request = some ownerLogin

theorem get_map {headers : List (Str × Str)} {name : Str} :
    HeaderMap.get (headers.map fun header => (header.1.toAsciiLowercase, header.2.utf8)) name =
      (headers.find? fun header => header.1.toAsciiLowercase = name).map fun header =>
        header.2.utf8 := by
  rw [HeaderMap.get, List.find?_map, Option.map_map]
  rfl

/-- A tunnelled request carries no `Host` header: `dispatch` strips what a device calls so. -/
theorem hostHeader_buildRequest {http : Http} {request : TunnelRequest} {httpRequest : HttpRequest}
    (h : buildRequest http request = .ok httpRequest) : hostHeader httpRequest = [] := by
  unfold buildRequest at h
  split at h
  · cases h
    have hnone : ((forwarded request.headers).find? fun header =>
        header.1.toAsciiLowercase = ("host" : Str)) = none := by
      rw [List.find?_eq_none]
      intro header hheader
      have hkeep := (List.mem_filter.1 hheader).2
      simp only [decide_eq_true_eq] at hkeep ⊢
      intro hhost
      rw [hhost] at hkeep
      exact hkeep (by decide)
    rw [hostHeader, get_map, hnone]
    rfl
  · cases h

theorem loginHeader_buildRequest {http : Http} {request : TunnelRequest}
    {httpRequest : HttpRequest} (h : buildRequest http request = .ok httpRequest) :
    loginHeader httpRequest = claimedLogin request := by
  unfold buildRequest at h
  split at h
  · cases h
    rw [loginHeader, claimedLogin, get_map, Option.bind_map]
    rfl
  · cases h

theorem exists_buildRequest {http : Http} {request : TunnelRequest} :
    (∃ httpRequest, buildRequest http request = .ok httpRequest) ↔
      http.acceptsMethod request.method = true ∧ http.acceptsTarget request.path = true ∧
      headersAccepted http request = true := by
  unfold buildRequest
  split
  · rename_i h
    exact ⟨fun _ => h, fun _ => ⟨_, rfl⟩⟩
  · rename_i h
    exact ⟨by simp, fun h' => absurd h' h⟩

section
variable {D : Platform} {access : HostAccess} {router : D.Router} {registry : DeviceRegistry}

theorem reachesHandler_iff {opened : OpenedMessage} {request : TunnelRequest}
    (hdecode : D.wire.decode opened.plaintext = .ok request) (hvalid : request.validate = .ok ()) :
    ReachesHandler access router registry opened ↔
      permitted registry opened.senderDeviceId request.method request.path = true ∧
      (D.http.acceptsMethod request.method = true ∧ D.http.acceptsTarget request.path = true) ∧
      Admissible D.http access request := by
  have hallowed : ∀ httpRequest, buildRequest D.http request = .ok httpRequest →
      (¬ Refuses access httpRequest ↔ match access with
        | .local_ => True
        | .tailnet ownerLogin _ => claimedLogin request = some ownerLogin) := by
    intro httpRequest hb
    rw [refuses_iff, hostHeader_buildRequest hb, loginHeader_buildRequest hb, Bool.not_eq_false]
    cases access with
    | local_ => exact iff_of_true rfl trivial
    | tailnet ownerLogin url =>
      have hempty : isLocalHost [] = false := by decide
      simp [accessAllowed, hempty, Option.any_eq_true]
  unfold ReachesHandler
  simp only [handle_dispatched_iff, hdecode, Except.ok.injEq, exists_eq_left', hvalid, true_and]
  refine ⟨?_, ?_⟩
  · intro hcase
    obtain ⟨httpRequest, ⟨hperm, hb⟩, haccess⟩ := hcase
    obtain ⟨hmethod, htarget, hheaders⟩ := exists_buildRequest.1 ⟨httpRequest, hb⟩
    exact ⟨hperm, ⟨hmethod, htarget⟩, hheaders, (hallowed httpRequest hb).1 haccess⟩
  · intro hcase
    obtain ⟨hperm, ⟨hmethod, htarget⟩, hheaders, hlogin⟩ := hcase
    obtain ⟨httpRequest, hb⟩ := exists_buildRequest.2 ⟨hmethod, htarget, hheaders⟩
    exact ⟨httpRequest, ⟨hperm, hb⟩, (hallowed httpRequest hb).2 hlogin⟩

/-- Two valid requests of one sender for one method and path fare alike exactly when neither can
get as far as the access check, or their headers let both in or neither. -/
theorem tunnel_access_independent_iff {o₁ o₂ : OpenedMessage} {r₁ r₂ : TunnelRequest}
    (hsender : o₁.senderDeviceId = o₂.senderDeviceId)
    (hdecode₁ : D.wire.decode o₁.plaintext = .ok r₁)
    (hdecode₂ : D.wire.decode o₂.plaintext = .ok r₂) (hvalid₁ : r₁.validate = .ok ())
    (hvalid₂ : r₂.validate = .ok ()) (hmethod : r₁.method = r₂.method)
    (hpath : r₁.path = r₂.path) :
    (ReachesHandler access router registry o₁ ↔ ReachesHandler access router registry o₂) ↔
    permitted registry o₁.senderDeviceId r₁.method r₁.path = false ∨
      ¬ (D.http.acceptsMethod r₁.method = true ∧ D.http.acceptsTarget r₁.path = true) ∨
      (Admissible D.http access r₁ ↔ Admissible D.http access r₂) := by
  rw [reachesHandler_iff hdecode₁ hvalid₁, reachesHandler_iff hdecode₂ hvalid₂, ← hsender,
    ← hmethod, ← hpath, ← Bool.not_eq_true]
  tauto

end

section
open SmallPlatform

/-- A phone's request for the status. -/
def plainStatus : TunnelRequest := request "GET" "/api/v1/local/status"

/-- The same request, claiming to come from the owner. -/
def claimingStatus : TunnelRequest where
  version := tunnelVersion
  exchangeId := "1"
  method := "GET"
  path := "/api/v1/local/status"
  headers := (∅ : Std.TreeMap Str Str).insert "Tailscale-User-Login" "owner@example.com"
  body := []

def statusPlatform : Platform := platform [plainStatus, claimingStatus]

def idleRouter : statusPlatform.Router := ([] : List HttpRequest)

def phoneOnly : DeviceRegistry := (⟨∅⟩ : DeviceRegistry).set "phone" .newlyPaired

def ownersTailnet : HostAccess := .tailnet "owner@example.com" "https://host.example.ts.net"

theorem decode_plainStatus : statusPlatform.wire.decode (jsonRequest plainStatus) =
    .ok plainStatus := decode_head _ _

theorem decode_claimingStatus : statusPlatform.wire.decode (jsonRequest claimingStatus) =
    .ok claimingStatus := (decode_tail (by decide)).trans (decode_head _ _)

theorem valid_plainStatus : plainStatus.validate = .ok () := by decide

theorem valid_claimingStatus : claimingStatus.validate = .ok () := by decide

theorem tunnel_access_independent_iff_status :
    (ReachesHandler ownersTailnet idleRouter phoneOnly ⟨"phone", jsonRequest plainStatus⟩ ↔
      ReachesHandler ownersTailnet idleRouter phoneOnly ⟨"phone", jsonRequest claimingStatus⟩) ↔
    permitted phoneOnly "phone" plainStatus.method plainStatus.path = false ∨
      ¬ (statusPlatform.http.acceptsMethod plainStatus.method = true ∧
        statusPlatform.http.acceptsTarget plainStatus.path = true) ∨
      (Admissible statusPlatform.http ownersTailnet plainStatus ↔
        Admissible statusPlatform.http ownersTailnet claimingStatus) :=
  tunnel_access_independent_iff rfl decode_plainStatus decode_claimingStatus valid_plainStatus
    valid_claimingStatus rfl rfl

/-- On a tailnet host a phone gets through the relay by claiming the owner's login. -/
theorem tunnel_access_claimed : ¬ ∀ (access : HostAccess) (router : statusPlatform.Router)
    (registry : DeviceRegistry) (o₁ o₂ : OpenedMessage) (r₁ r₂ : TunnelRequest),
    o₁.senderDeviceId = o₂.senderDeviceId →
    statusPlatform.wire.decode o₁.plaintext = .ok r₁ →
    statusPlatform.wire.decode o₂.plaintext = .ok r₂ → r₁.validate = .ok () →
    r₂.validate = .ok () → r₁.method = r₂.method → r₁.path = r₂.path →
    (ReachesHandler access router registry o₁ ↔ ReachesHandler access router registry o₂) := by
  intro h
  have halike := h ownersTailnet idleRouter phoneOnly ⟨"phone", jsonRequest plainStatus⟩
    ⟨"phone", jsonRequest claimingStatus⟩ plainStatus claimingStatus rfl decode_plainStatus
    decode_claimingStatus valid_plainStatus valid_claimingStatus rfl rfl
  have hclaiming : ReachesHandler ownersTailnet idleRouter phoneOnly
      ⟨"phone", jsonRequest claimingStatus⟩ :=
    (reachesHandler_iff decode_claimingStatus valid_claimingStatus).2 ⟨by decide,
      by decide +kernel, by decide +kernel,
      show claimedLogin claimingStatus = some ("owner@example.com" : Str) by decide +kernel⟩
  have hplain := (reachesHandler_iff decode_plainStatus valid_plainStatus).1 (halike.2 hclaiming)
  have hclaimed : claimedLogin plainStatus = some ("owner@example.com" : Str) := hplain.2.2.2
  exact absurd hclaimed (by decide)

end

end LeaveCli.Host
