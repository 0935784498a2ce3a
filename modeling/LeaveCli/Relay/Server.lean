import LeaveCli.Host.Http
import LeaveCli.Lib.Run
import LeaveCli.Relay.Routes
import LeaveCli.Transport.Envelope

/-!
# The relay and its endpoints (`apps/relay/src/lib.rs`)

The handlers that register and revoke routes and attach endpoints, the two tasks of an attached
socket, and the `RelayClient` at its other end. `World.machine` takes one step of any of them at a
time. A connection lives from the moment `websocket` has taken its handles on the route: it is then
being upgraded, and `upgrade` runs `route_socket`. Messages between a client and the relay stay in
order.
-/

namespace LeaveCli.Relay

open Lib Crypto Transport LeaveCli.Host LeaveCli.Core

def maxFramesPerSecond : Nat := 100

/-- Header carrying the bearer token that authorizes attaching to a route. -/
def routeTokenHeader : Str := "x-leave-route-token"

/-- Header carrying the secret that authorizes registering a new route. -/
def registrationHeader : Str := "x-leave-registration-secret"

/-- Subprotocol a browser uses to pass its token, which cannot set headers. -/
def tokenSubprotocolPrefix : Str := "leave-token."

/-- Read the route token from either the header or the WebSocket subprotocol. -/
def presentedToken (headers : HeaderMap) : Str :=
  let header := (headers.get routeTokenHeader).bind headerToStr
  let subprotocol := ((headers.get "sec-websocket-protocol").bind headerToStr).bind fun value =>
    ((value.splitOn ',').map Str.trim).findSome? (Str.stripPrefix tokenSubprotocolPrefix)
  header.getD (subprotocol.getD [])

/-! ## The frame budget of a connection -/

/-- `window_started` and `frames`; times in nanoseconds. -/
structure FrameWindow where
  started : Nat
  frames : Nat

/-- Count a frame that arrives, and say whether it is within the budget. -/
def FrameWindow.allow (window : FrameWindow) (now : Nat) : FrameWindow × Bool :=
  let window := if now - window.started ≥ 1000000000 then ⟨now, 0⟩ else window
  let frames := min (window.frames + 1) 4294967295
  (⟨window.started, frames⟩, frames ≤ maxFramesPerSecond)

/-! ## Connections -/

/-- One WebSocket connection: the tasks of the relay and the client at the other end. -/
structure Connection where
  routeId : Str
  /-- The token it was let in with. -/
  token : Str
  /-- The channel its sender and its receiver belong to. -/
  sender : Nat
  /-- Where its receiver stood when it subscribed, and where it stands. -/
  since : Nat
  next : Nat
  /-- Claimed by `route_socket`. -/
  endpointId : Option Nat
  /-- The upgrade is pending or the loop of `route_socket` runs: its handles are held. -/
  reading : Bool
  /-- The writer task runs. -/
  writing : Bool
  window : FrameWindow
  /-- On their way from the client. -/
  outgoing : List WsMessage
  /-- On their way to the client. -/
  incoming : List WsMessage
  /-- `RelayClient::recv` has not returned the end of the route. -/
  listening : Bool
  /-- The frames `RelayClient::recv` returned. -/
  received : List Bytes
  /-- How many frames had been passed to `RelayClient::send` when it subscribed. -/
  sendsBefore : Nat

/-- The end of `route_socket`: the loop is left and the writer aborted. -/
def Connection.hungUp (c : Connection) : Connection := { c with reading := false, writing := false }

/-- The relay process and all connections. -/
structure World where
  registrationSecret : Option Str
  publicOrigin : Bytes
  table : RouteTable
  /-- Every answer of `register`; a route's channel is its index here. -/
  registered : List RegisteredRoute
  channels : Nat → Broadcast RoutedFrame
  /-- Routes whose revocation was authorized. -/
  revoking : List Str
  nextEndpoint : Nat
  /-- How many connections there have been. -/
  opened : Nat
  connections : Nat → Option Connection
  /-- Every frame a connection's client passed to `RelayClient::send`. -/
  sends : List (Nat × Bytes)

namespace World

def start (registrationSecret : Option Str) (publicOrigin : Bytes) : World :=
  ⟨registrationSecret, publicOrigin, ⟨∅⟩, [], fun _ => .new channelCapacity, [], 1, 0,
    fun _ => none, []⟩

inductive Output
  | quiet
  /-- A handler answered with an error status. -/
  | refused (status : Nat)
  | registered (route : RegisteredRoute)
  | attached (id : Nat)
  /-- `RouteTable::revoke` returned. -/
  | revoked (found : Bool)
  /-- A writer handed the frame at this position of the channel to its socket. -/
  | delivered (position : Nat) (frame : RoutedFrame)
  /-- A writer waits for a frame. -/
  | waits
  deriving DecidableEq, Repr

inductive Action
  /-- `register_route`, with the identifier and token that are drawn. -/
  | register (drawn : RegisteredRoute) (headers : HeaderMap)
  /-- The check of `revoke_route`. -/
  | authorizeRevoke (routeId : Str) (headers : HeaderMap)
  /-- The removal of `revoke_route`. -/
  | revoke (routeId : Str)
  | websocket (routeId : Str) (headers : HeaderMap)
  /-- `route_socket` starts on a connection. -/
  | upgrade (id : Nat) (now : Nat)
  /-- `RelayClient::send` -/
  | send (id : Nat) (messageId : Uuid) (ciphertext : Bytes)
  /-- `RelayClient::close` -/
  | close (id : Nat)
  /-- A client answers a ping. -/
  | pong (id : Nat)
  /-- The loop of `route_socket` takes the next message. -/
  | read (id : Nat) (now : Nat)
  /-- The stream of a connection ends. -/
  | hangUp (id : Nat)
  /-- The writer takes its next frame. -/
  | write (id : Nat)
  | heartbeat (id : Nat)
  /-- The sink of a connection fails. -/
  | writerFails (id : Nat)
  /-- `RelayClient::recv` takes the next message. -/
  | recv (id : Nat)

variable (W : EnvelopeWire) (hashToken : Str → Bytes) (s : World)

def withConnection (id : Nat) (c : Connection) : World :=
  { s with connections := Function.update s.connections id (some c) }

def registerRoute (drawn : RegisteredRoute) (headers : HeaderMap) : Output × World :=
  s.registrationSecret.elim (.refused 401, s) fun expected =>
    let presented := ((headers.get registrationHeader).bind headerToStr).getD []
    if !subtleEq expected.utf8 presented.utf8 then (.refused 401, s)
    else
      (.registered drawn, { s with
        table := s.table.register hashToken drawn s.registered.length
        registered := s.registered ++ [drawn] })

def authorizeRevoke (routeId : Str) (headers : HeaderMap) : Output × World :=
  (s.table.authorize hashToken routeId (presentedToken headers)).elim (.refused 401, s) fun _ =>
    (.quiet, { s with revoking := routeId :: s.revoking })

def revokeRoute (routeId : Str) : Output × World :=
  if routeId ∈ s.revoking then
    (.revoked (s.table.revoke routeId).2, { s with
      table := (s.table.revoke routeId).1
      revoking := s.revoking.erase routeId })
  else (.quiet, s)

/-- A connection that has just taken its handles on a route. -/
def subscribe (routeId token : Str) (route : Route) : Connection where
  routeId := routeId
  token := token
  sender := route.sender
  since := (s.channels route.sender).subscribe
  next := (s.channels route.sender).subscribe
  endpointId := none
  reading := true
  writing := true
  window := ⟨0, 0⟩
  outgoing := []
  incoming := []
  listening := true
  received := []
  sendsBefore := s.sends.length

def websocket (routeId : Str) (headers : HeaderMap) : Output × World :=
  if routeId = [] ∨ routeId.utf8.length > 128 then (.refused 400, s)
  else
    let token := presentedToken headers
    (s.table.authorize hashToken routeId token).elim (.refused 401, s) fun route =>
      if headers.any (fun header => header.1 = "origin") ∧
          headers.get "origin" ≠ some s.publicOrigin then (.refused 403, s)
      else
        (.attached s.opened, { s with
          opened := s.opened + 1
          connections :=
            Function.update s.connections s.opened (some (s.subscribe routeId token route)) })

/-- `route_socket` claims an endpoint identifier. -/
def upgrade (id now : Nat) (c : Connection) : World :=
  if c.endpointId = none ∧ c.reading then
    { s with
      nextEndpoint := s.nextEndpoint + 1
      connections := Function.update s.connections id
        (some { c with endpointId := some s.nextEndpoint, window := ⟨now, 0⟩ }) }
  else s

/-- `RelayClient::send` on a connection's client. -/
def send (id : Nat) (messageId : Uuid) (ciphertext : Bytes) (c : Connection) : World :=
  (RelayClient.publish W ⟨c.routeId⟩ messageId ciphertext).toOption.elim s fun message =>
    { s with
      sends := s.sends ++ [(id, ciphertext)]
      connections := Function.update s.connections id
        (some { c with outgoing := c.outgoing ++ [message] }) }

/-- The checks on a binary frame after the frame budget. -/
def routable (routeId : Str) (frame : Bytes) : Bool :=
  (W.decode frame).any fun envelope =>
    envelope.routeId = routeId ∧ (validateEnvelope W envelope).toBool

/-- One message in the loop of `route_socket`. -/
def read (id endpointId now : Nat) (c : Connection) : WsMessage → List WsMessage → World
  | .binary frame, rest =>
    let admitted := c.window.allow now
    if frame.length > Protocol.maxCiphertextBytes + 1024 ∨ !admitted.2 ∨
        !routable W c.routeId frame then s.withConnection id c.hungUp
    else
      { s with
        channels := Function.update s.channels c.sender
          ((s.channels c.sender).send ⟨endpointId, frame⟩)
        connections := Function.update s.connections id
          (some { c with window := admitted.1, outgoing := rest }) }
  | .close _, _ => s.withConnection id c.hungUp
  | .text, _ => s.withConnection id c.hungUp
  | .ping, rest => s.withConnection id { c with outgoing := rest }
  | .pong, rest => s.withConnection id { c with outgoing := rest }

/-- Some sender of the channel is left: the table's or that of a connection. -/
def sendersLeft (channel : Nat) : Prop :=
  (∃ entry ∈ s.table.routes.entries, entry.2.sender = channel) ∨
    ∃ id < s.opened, ∃ c ∈ s.connections id, c.reading ∧ c.sender = channel

instance (channel : Nat) : Decidable (s.sendersLeft channel) := inferInstanceAs (Decidable (_ ∨ _))

/-- One turn of the writer: it never echoes a frame back to the endpoint that sent it. -/
def write (id endpointId : Nat) (c : Connection) : Output × World :=
  match (s.channels c.sender).recv c.next with
  | (.value frame, next) =>
    if frame.endpointId = endpointId then (.quiet, s.withConnection id { c with next })
    else
      (.delivered c.next frame, s.withConnection id
        { c with next, incoming := c.incoming ++ [.binary frame.frame] })
  | (.lagged _, _) =>
    (.quiet, s.withConnection id
      { c with writing := false, incoming := c.incoming ++ [.close none] })
  | (.empty, _) =>
    if s.sendersLeft c.sender then (.waits, s)
    else (.quiet, s.withConnection id { c with writing := false })

/-- `RelayClient::recv` on the next message. -/
def recv (id : Nat) (c : Connection) (message : WsMessage) (rest : List WsMessage) : World :=
  s.withConnection id (match RelayClient.handle W ⟨c.routeId⟩ message with
    | none => { c with incoming := rest }
    | some (.ok (some ciphertext)) =>
      { c with incoming := rest, received := c.received ++ [ciphertext] }
    | some (.ok none) => { c with incoming := rest, listening := false }
    | some (.error _) => { c with incoming := rest, listening := false })

/-- A step on a connection that exists. -/
def onConnection (id : Nat) (f : Connection → Output × World) : Output × World :=
  (s.connections id).elim (.quiet, s) f

def step (s : World) : Action → Output × World
  | .register drawn headers => s.registerRoute hashToken drawn headers
  | .authorizeRevoke routeId headers => s.authorizeRevoke hashToken routeId headers
  | .revoke routeId => s.revokeRoute routeId
  | .websocket routeId headers => s.websocket hashToken routeId headers
  | .upgrade id now => s.onConnection id fun c => (.quiet, s.upgrade id now c)
  | .send id messageId ciphertext =>
    s.onConnection id fun c => (.quiet, s.send W id messageId ciphertext c)
  | .close id => s.onConnection id fun c =>
    (.quiet, s.withConnection id { c with outgoing := c.outgoing ++ [.close none] })
  | .pong id => s.onConnection id fun c =>
    (.quiet, s.withConnection id { c with outgoing := c.outgoing ++ [.pong] })
  | .read id now => s.onConnection id fun c =>
    match c.endpointId, c.outgoing with
    | some endpointId, message :: rest =>
      (.quiet, if c.reading then s.read W id endpointId now c message rest else s)
    | _, _ => (.quiet, s)
  | .hangUp id => s.onConnection id fun c =>
    (.quiet, s.withConnection id c.hungUp)
  | .write id => s.onConnection id fun c =>
    c.endpointId.elim (.quiet, s) fun endpointId =>
      if c.writing then s.write id endpointId c else (.quiet, s)
  | .heartbeat id => s.onConnection id fun c =>
    (.quiet, if c.endpointId.isSome ∧ c.writing then
      s.withConnection id { c with incoming := c.incoming ++ [.ping] } else s)
  | .writerFails id => s.onConnection id fun c =>
    (.quiet, s.withConnection id { c with writing := false })
  | .recv id => s.onConnection id fun c =>
    match c.incoming with
    | message :: rest => (.quiet, if c.listening then s.recv W id c message rest else s)
    | [] => (.quiet, s)

/-- The machine of all interleavings. -/
def machine : Machine World Action Output where
  step := step W hashToken
  halts _ := false

end World

end LeaveCli.Relay
