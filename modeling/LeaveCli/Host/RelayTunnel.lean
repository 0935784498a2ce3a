import LeaveCli.Crypto.Pairing
import LeaveCli.Host.Http
import LeaveCli.Lib.Run
import LeaveCli.Protocol.Tunnel
import LeaveCli.Transport.Client

/-!
# Serving the workspace API over the relay (`apps/leave/src/relay_tunnel.rs`)

A remote device seals a request in an MLS frame. `serveFrame` is one pass of the loop of
`serve_route`: a pairing frame goes to `servePairing`; any other frame is opened and is a revocation
(`revoke`) or a request (`handle`), whose answer `answerWith` seals and sends. `serveRoute` is the
loop as a machine over the frames the relay delivers; an `Outcome` with an error ends it.

The code outside this repository is the parameter `Platform`: OpenMLS, keyed `blake3`,
`serde_json`, the `http` crate, and the workspace router with everything behind it.
-/

namespace LeaveCli.Host

open Lib Protocol Crypto Transport

/-- The code the tunnel runs on. -/
structure Platform where
  mls : Mls
  hash : KeyedHash
  wire : Wire
  http : Http
  /-- The workspace router with the state behind it. -/
  Router : Type
  oneshot : Router → HttpRequest → Router × Except Str HttpResponse

/-! ## Grants -/

/-- What one paired device is allowed to do. -/
structure DeviceGrant where
  role : Role
  capabilities : Finset Capability
  deriving DecidableEq

/-- The grant a newly paired phone receives. -/
def DeviceGrant.newlyPaired : DeviceGrant := ⟨.operator, ∅⟩

/-- Roles and capabilities for every device paired with this host. -/
structure DeviceRegistry where
  grants : Std.TreeMap Str DeviceGrant

namespace DeviceRegistry

def set (registry : DeviceRegistry) (deviceId : Str) (grant : DeviceGrant) : DeviceRegistry :=
  ⟨registry.grants.insert deviceId grant⟩

/-- Forget a device, and say whether it was known. -/
def remove (registry : DeviceRegistry) (deviceId : Str) : DeviceRegistry × Bool :=
  (⟨registry.grants.erase deviceId⟩, registry.grants.contains deviceId)

def get (registry : DeviceRegistry) (deviceId : Str) : Option DeviceGrant :=
  registry.grants[deviceId]?

theorem get_set (registry : DeviceRegistry) (d d' : Str) (grant : DeviceGrant) :
    (registry.set d grant).get d' = if d = d' then some grant else registry.get d' := by
  simp only [get, set, Std.TreeMap.getElem?_insert, Std.LawfulEqCmp.compare_eq_iff_eq]

theorem get_remove (registry : DeviceRegistry) (d d' : Str) :
    (registry.remove d).1.get d' = if d = d' then none else registry.get d' := by
  simp only [get, remove, Std.TreeMap.getElem?_erase, Std.LawfulEqCmp.compare_eq_iff_eq]

end DeviceRegistry

/-- Decide whether a device may make one request. A device without an entry may not. -/
def permitted (registry : DeviceRegistry) (deviceId method path : Str) : Bool :=
  match registry.get deviceId with
  | none => false
  | some grant => authorize grant.role grant.capabilities (actionFor method path)

/-! ## Answers -/

/-- The text in double quotes, as `{:?}` writes it for printable ASCII. -/
def quoted (message : Str) : Str :=
  ('"' :: message.flatMap fun c => if c = '"' ∨ c = '\\' then ['\\', c] else [c]) ++ ['"']

def refusal (exchangeId : Str) (status : Nat) (message : Str) : TunnelResponse where
  version := tunnelVersion
  exchangeId := exchangeId
  status := status
  headers := (∅ : Std.TreeMap Str Str).insert "content-type" "application/json"
  body := Str.utf8 (("\x7b\"error\":\x7b\"message\":" : Str) ++ quoted message ++
    ("\x7d\x7d" : Str))

@[simp] theorem refusal_status (exchangeId message : Str) (status : Nat) :
    (refusal exchangeId status message).status = status := rfl

/-! ## Requests -/

/-- Hop-by-hop and transport headers, which belong to the loopback listener. -/
def hopByHop : List Str := ["host", "connection", "upgrade", "transfer-encoding", "content-length"]

/-- The headers `dispatch` copies into the request, in the order of the map. -/
def forwarded (headers : Std.TreeMap Str Str) : List (Str × Str) :=
  headers.toList.filter fun header => header.1.toAsciiLowercase ∉ hopByHop

/-- The request `dispatch` builds. -/
def buildRequest (http : Http) (request : TunnelRequest) : Except Str HttpRequest :=
  if http.acceptsMethod request.method ∧ http.acceptsTarget request.path ∧
      http.acceptsHeaders (forwarded request.headers) then
    .ok {
      method := request.method
      uri := Uri.ofTarget request.path
      headers := (forwarded request.headers).map fun header =>
        (header.1.toAsciiLowercase, header.2.utf8)
      body := request.body }
  else .error "could not build the tunnelled request"

/-- The response headers a tunnelled answer carries: those whose value is text. -/
def collectHeaders (headers : HeaderMap) : Std.TreeMap Str Str :=
  headers.foldl (fun collected header => match headerToStr header.2 with
    | some value => collected.insert header.1 value
    | none => collected) ∅

section
variable (D : Platform)

/-- What serving one request did: the router after it, the request the router got if there was
one, and the answer. -/
structure Handled where
  router : D.Router
  dispatched : Option HttpRequest
  response : TunnelResponse

variable {D}

/-- Call the workspace router in-process and collect its answer. -/
def dispatch (router : D.Router) (request : TunnelRequest) :
    D.Router × Option HttpRequest × Except Str TunnelResponse :=
  match buildRequest D.http request with
  | .error e => (router, none, .error e)
  | .ok httpRequest =>
    ((D.oneshot router httpRequest).1, some httpRequest,
      match (D.oneshot router httpRequest).2 with
      | .error _ => .error "the workspace router failed"
      | .ok response => match toBytes response.body maxTunnelBodyBytes with
        | .error _ => .error "the response body was too large to carry"
        | .ok body => .ok {
            version := tunnelVersion
            exchangeId := request.exchangeId
            status := response.status
            headers := collectHeaders response.headers
            body := body })

/-- Turn one decrypted request into the host's answer. -/
def handle (router : D.Router) (registry : DeviceRegistry) (opened : OpenedMessage) : Handled D :=
  match D.wire.decode opened.plaintext with
  | .error _ => ⟨router, none, refusal "unknown" 400 "malformed request"⟩
  | .ok request => match request.validate with
    | .error error => ⟨router, none, refusal request.exchangeId 400 error.message⟩
    | .ok () =>
      if !permitted registry opened.senderDeviceId request.method request.path then
        ⟨router, none, refusal request.exchangeId 403 "this device is not allowed to do that"⟩
      else match dispatch router request with
        | (router, dispatched, .ok response) => ⟨router, dispatched, response⟩
        | (router, dispatched, .error _) =>
          ⟨router, dispatched,
            refusal request.exchangeId 500 "the host could not complete that request"⟩

/-! ## Revocation -/

/-- The device a request asks to revoke, if that is what it is asking. -/
def revocationTarget (wire : Wire) (opened : OpenedMessage) : Option Str :=
  match wire.decode opened.plaintext with
  | .error _ => none
  | .ok request =>
    if request.method ≠ "DELETE" then none
    else match Str.stripPrefix "/api/v1/local/devices/" request.path with
      | none => none
      | some device => if device ≠ [] ∧ '/' ∉ device then some device else none

/-- Whether the sender's grant lets it manage members. -/
def managesMembers (registry : DeviceRegistry) (deviceId : Str) : Bool :=
  (registry.get deviceId).any fun grant => authorize grant.role grant.capabilities .manageMembers

/-- The exchange a revocation answers, empty when the request does not decode. -/
def exchangeIdOf (wire : Wire) (opened : OpenedMessage) : Str :=
  match wire.decode opened.plaintext with
  | .error _ => []
  | .ok request => request.exchangeId

/-- Remove a device from the workspace and rotate the group past it. -/
def revoke (session : WorkspaceSession D.mls) (registry : DeviceRegistry) (opened : OpenedMessage)
    (target : Str) : WorkspaceSession D.mls × DeviceRegistry × TunnelResponse :=
  let exchangeId := exchangeIdOf D.wire opened
  if !managesMembers registry opened.senderDeviceId then
    (session, registry, refusal exchangeId 403 "only a workspace owner may revoke a device")
  else if target = opened.senderDeviceId then
    (session, registry, refusal exchangeId 400 "a device cannot revoke itself")
  else match session.removeDevice target with
    -- the commit is dropped here
    | (session, .ok _) => (session, (registry.remove target).1, {
        version := tunnelVersion
        exchangeId := exchangeId
        status := 204
        headers := ∅
        body := [] })
    | (session, .error _) => (session, registry,
        refusal exchangeId 404 "that device is not a member of this workspace")

/-- The group member that holds no grant yet: the first in the order of the leaves. -/
def newestDevice {M : Mls} (session : WorkspaceSession M) (registry : DeviceRegistry) :
    Option Str :=
  match session.memberDeviceIds with
  | .error _ => none
  | .ok devices =>
    devices.find? fun device => device ≠ session.deviceId ∧ registry.get device = none

/-! ## The loop -/

variable (D)

/-- Everything one served relay route needs. -/
structure RouteService where
  client : RelayClient
  session : WorkspaceSession D.mls
  registry : DeviceRegistry
  router : D.Router
  /-- Secret from the pairing code, while an invitation is open. -/
  pairing : Option PairingSecret

/-- A frame from the relay, and whether the connection takes what is sent while it is served. -/
structure Incoming where
  frame : Bytes
  connected : Bool

/-- What one pass of the loop did. -/
structure Outcome where
  /-- The request the workspace router got. -/
  dispatched : Option HttpRequest := none
  /-- The answer to be sealed for the route. -/
  answer : Option TunnelResponse := none
  sent : Option RelayEnvelope := none
  /-- The error that ends the loop. -/
  failed : Option Str := none

variable {D}

/-- The grant registry after a pairing: the newest device gets the newly paired rights. -/
def registerPaired {M : Mls} (session : WorkspaceSession M) (registry : DeviceRegistry) :
    DeviceRegistry :=
  match newestDevice session registry with
  | some device => registry.set device .newlyPaired
  | none => registry

/-- The branch of a pairing frame. -/
def servePairing (s : RouteService D) (x : Incoming) : Outcome × RouteService D :=
  match s.pairing with
  | none => ({}, s)
  | some secret => match acceptPairing D.hash s.session x.frame secret with
    | (session, .error _) => ({}, { s with session })
    | (session, .ok invitation) =>
      match s.client.send x.connected (pairingWelcome invitation) with
      | .error e => ({ failed := some e }, { s with session })
      | .ok envelope =>
        -- a pairing code admits exactly one device, then closes
        ({ sent := some envelope },
          { s with session, registry := registerPaired session s.registry, pairing := none })

/-- Encode, seal and send an answer. -/
def answerWith (s : RouteService D) (x : Incoming) (dispatched : Option HttpRequest)
    (response : TunnelResponse) : Outcome × RouteService D :=
  match D.wire.encode response with
  | .error _ =>
    ({ dispatched, answer := some response, failed := some "could not encode the answer" }, s)
  | .ok payload => match s.session.sealFrame payload with
    | (session, .error _) =>
      ({ dispatched, answer := some response, failed := some "could not encrypt the answer" },
        { s with session })
    | (session, .ok sealed) => match s.client.send x.connected sealed with
      | .error e => ({ dispatched, answer := some response, failed := some e }, { s with session })
      | .ok envelope =>
        ({ dispatched, answer := some response, sent := some envelope }, { s with session })

/-- The branch of a revocation. -/
def serveRevocation (s : RouteService D) (x : Incoming) (opened : OpenedMessage) (target : Str) :
    Outcome × RouteService D :=
  match revoke s.session s.registry opened target with
  | (session, registry, response) => answerWith { s with session, registry } x none response

/-- The branch of every other request. -/
def serveRequest (s : RouteService D) (x : Incoming) (opened : OpenedMessage) :
    Outcome × RouteService D :=
  let handled := handle s.router s.registry opened
  answerWith { s with router := handled.router } x handled.dispatched handled.response

/-- One pass of the loop of `serve_route`. -/
def serveFrame (s : RouteService D) (x : Incoming) : Outcome × RouteService D :=
  if isPairingFrame x.frame then servePairing s x
  else match s.session.openFrame x.frame with
    -- a frame this host already processed, or one for another member
    | (session, .error _) => ({}, { s with session })
    | (session, .ok opened) => match revocationTarget D.wire opened with
      | some target => serveRevocation { s with session } x opened target
      | none => serveRequest { s with session } x opened

variable (D)

/-- `serve_route`: the loop over the frames the relay delivers, up to its first error. -/
def serveRoute : Machine (RouteService D) Incoming Outcome where
  step := serveFrame
  halts := fun o => o.failed.isSome

end

end LeaveCli.Host
