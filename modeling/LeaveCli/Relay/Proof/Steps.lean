import LeaveCli.Crypto.Proof.SessionSpec
import LeaveCli.Relay.Server

/-!
# What one step of the relay can do

`step_does` is the inversion lemma of `World.step`: a step changes the table of routes, opens a
connection, or works on one connection, and then it is a step of that connection alone (`Turn`) or
one of the three that others notice: claiming an endpoint identifier, a frame passed to `send` and a
frame that is forwarded. `Tabled` is the invariant of the table: a route's channel tells which
registration it came from.
-/

namespace LeaveCli.Relay

open Lib Crypto Transport LeaveCli.Host LeaveCli.Core

namespace World

/-- A step of one connection that leaves everything else as it is. -/
inductive Turn (W : EnvelopeWire) (channel : Broadcast RoutedFrame) (c : Connection) :
    Connection → Prop
  | hangUp : Turn W channel c c.hungUp
  /-- The client writes something that is not a frame. -/
  | say (message : WsMessage) (hmessage : ∀ frame, message ≠ .binary frame) :
    Turn W channel c { c with outgoing := c.outgoing ++ [message] }
  /-- The loop reads something that is not a frame. -/
  | pass (message : WsMessage) (rest : List WsMessage) (houtgoing : c.outgoing = message :: rest)
    (hmessage : ∀ frame, message ≠ .binary frame) : Turn W channel c { c with outgoing := rest }
  | skip (endpointId : Nat) (frame : RoutedFrame) (hendpoint : c.endpointId = some endpointId)
    (hframe : channel.sent[c.next]? = some frame) (hown : frame.endpointId = endpointId)
    (hkept : ¬ c.next + channel.capacity < channel.sent.length) :
    Turn W channel c { c with next := c.next + 1 }
  | deliver (endpointId : Nat) (frame : RoutedFrame) (hendpoint : c.endpointId = some endpointId)
    (hframe : channel.sent[c.next]? = some frame) (hother : frame.endpointId ≠ endpointId)
    (hkept : ¬ c.next + channel.capacity < channel.sent.length) :
    Turn W channel c
      { c with next := c.next + 1, incoming := c.incoming ++ [.binary frame.frame] }
  /-- The writer stops; when it lagged, it closes the socket. -/
  | stop (last : List WsMessage) (hlast : ∀ frame, .binary frame ∉ last) :
    Turn W channel c { c with writing := false, incoming := c.incoming ++ last }
  | ping : Turn W channel c { c with incoming := c.incoming ++ [.ping] }
  /-- `RelayClient::recv` goes on, or ends. -/
  | ignore (message : WsMessage) (rest : List WsMessage) (listening : Bool)
    (hincoming : c.incoming = message :: rest)
    (hhandle : ∀ ciphertext,
      RelayClient.handle W ⟨c.routeId⟩ message ≠ some (.ok (some ciphertext)))
    (hgoes : RelayClient.handle W ⟨c.routeId⟩ message = none → listening = c.listening) :
    Turn W channel c { c with incoming := rest, listening }
  | get (message : WsMessage) (rest : List WsMessage) (ciphertext : Bytes)
    (hincoming : c.incoming = message :: rest)
    (hhandle : RelayClient.handle W ⟨c.routeId⟩ message = some (.ok (some ciphertext))) :
    Turn W channel c { c with incoming := rest, received := c.received ++ [ciphertext] }

/-- What a step does to the relay and its connections. -/
inductive Does (W : EnvelopeWire) (hashToken : Str → Bytes) (s : World) : World → Prop
  | nothing : Does W hashToken s s
  | authorize (revoking : List Str) : Does W hashToken s { s with revoking }
  | register (drawn : RegisteredRoute) : Does W hashToken s { s with
      table := s.table.register hashToken drawn s.registered.length
      registered := s.registered ++ [drawn] }
  | revoke (routeId : Str) (revoking : List Str) : Does W hashToken s { s with
      table := (s.table.revoke routeId).1
      revoking }
  | opens (routeId token : Str) (route : Route)
    (hroute : s.table.authorize hashToken routeId token = some route) :
    Does W hashToken s { s with
      opened := s.opened + 1
      connections :=
        Function.update s.connections s.opened (some (s.subscribe routeId token route)) }
  | turn (id : Nat) (c c' : Connection) (hc : s.connections id = some c)
    (hturn : Turn W (s.channels c.sender) c c') : Does W hashToken s (s.withConnection id c')
  | upgrade (id now : Nat) (c : Connection) (hc : s.connections id = some c)
    (hnew : c.endpointId = none) : Does W hashToken s { s with
      nextEndpoint := s.nextEndpoint + 1
      connections := Function.update s.connections id
        (some { c with endpointId := some s.nextEndpoint, window := ⟨now, 0⟩ }) }
  | send (id : Nat) (messageId : Uuid) (ciphertext : Bytes) (c : Connection)
    (hc : s.connections id = some c) : Does W hashToken s { s with
      sends := s.sends ++ [(id, ciphertext)]
      connections := Function.update s.connections id (some { c with
        outgoing := c.outgoing ++ [.binary (W.encode
          ⟨protocolVersion, c.routeId, W.uuidText messageId, ciphertext⟩)] }) }
  | forward (id endpointId : Nat) (window : FrameWindow) (frame : Bytes) (rest : List WsMessage)
    (c : Connection) (hc : s.connections id = some c) (hendpoint : c.endpointId = some endpointId)
    (houtgoing : c.outgoing = .binary frame :: rest) (hroutable : routable W c.routeId frame) :
    Does W hashToken s { s with
      channels := Function.update s.channels c.sender
        ((s.channels c.sender).send ⟨endpointId, frame⟩)
      connections := Function.update s.connections id
        (some { c with window, outgoing := rest }) }

variable {W : EnvelopeWire} {hashToken : Str → Bytes} {s : World}

theorem publish_eq {client : RelayClient} {messageId : Uuid} {ciphertext : Bytes}
    {message : WsMessage} (h : RelayClient.publish W client messageId ciphertext = .ok message) :
    message = .binary (W.encode
      ⟨protocolVersion, client.routeId, W.uuidText messageId, ciphertext⟩) := by
  unfold RelayClient.publish RelayClient.send at h
  split at h
  · cases h
  split at h
  · cases h
  simp only [Bool.not_true, Bool.false_eq_true, if_false, Except.map, Except.ok.injEq] at h
  exact h.symm

theorem read_does {id endpointId now : Nat} {c : Connection} {message : WsMessage}
    {rest : List WsMessage} (hc : s.connections id = some c)
    (hendpoint : c.endpointId = some endpointId) (houtgoing : c.outgoing = message :: rest) :
    Does W hashToken s (s.read W id endpointId now c message rest) := by
  have hends : Does W hashToken s (s.withConnection id c.hungUp) := .turn id c _ hc .hangUp
  cases message with
  | binary frame =>
    show Does W hashToken s (if _ then _ else _)
    split
    · exact hends
    · rename_i hgood
      rw [not_or, not_or] at hgood
      exact .forward id endpointId _ frame rest c hc hendpoint houtgoing (by simpa using hgood.2.2)
  | close reason => exact hends
  | text => exact hends
  | ping => exact .turn id c _ hc (.pass .ping rest houtgoing (by simp))
  | pong => exact .turn id c _ hc (.pass .pong rest houtgoing (by simp))

theorem write_does {id endpointId : Nat} {c : Connection} (hc : s.connections id = some c)
    (hendpoint : c.endpointId = some endpointId) :
    Does W hashToken s (s.write id endpointId c).2 := by
  unfold write
  split
  · rename_i frame next hrecv
    obtain ⟨hframe, rfl⟩ := Broadcast.recv_value hrecv
    have hkept : ¬ c.next + (s.channels c.sender).capacity < (s.channels c.sender).sent.length := by
      intro hlags
      rw [Broadcast.recv, if_pos hlags] at hrecv
      cases hrecv
    split
    · rename_i hown
      exact .turn id c _ hc (.skip endpointId frame hendpoint hframe hown hkept)
    · rename_i hother
      exact .turn id c _ hc (.deliver endpointId frame hendpoint hframe hother hkept)
  · exact .turn id c _ hc (.stop [.close none] (by simp))
  · split
    · exact .nothing
    · have hstop : Turn W (s.channels c.sender) c
          { c with writing := false, incoming := c.incoming ++ [] } := .stop [] (by simp)
      rw [List.append_nil] at hstop
      exact .turn id c _ hc hstop

theorem recv_does {id : Nat} {c : Connection} {message : WsMessage} {rest : List WsMessage}
    (hc : s.connections id = some c) (hincoming : c.incoming = message :: rest) :
    Does W hashToken s (s.recv W id c message rest) := by
  unfold recv
  split
  · rename_i hhandle
    exact .turn id c _ hc (.ignore message rest c.listening hincoming (by simp [hhandle])
      fun _ => rfl)
  · rename_i ciphertext hhandle
    exact .turn id c _ hc (.get message rest ciphertext hincoming hhandle)
  · rename_i hhandle
    exact .turn id c _ hc (.ignore message rest false hincoming (by simp [hhandle])
      (by simp [hhandle]))
  · rename_i e hhandle
    exact .turn id c _ hc (.ignore message rest false hincoming (by simp [hhandle])
      (by simp [hhandle]))

/-- Without the value it asks for, a step does nothing. -/
theorem elim_does {α : Type*} {found : Option α} {output : Output} {f : α → Output × World}
    (h : ∀ x, found = some x → Does W hashToken s (f x).2) :
    Does W hashToken s (found.elim (output, s) f).2 := by
  cases found with
  | none => exact .nothing
  | some x => exact h x rfl

theorem onConnection_does {id : Nat} {f : Connection → Output × World}
    (h : ∀ c, s.connections id = some c → Does W hashToken s (f c).2) :
    Does W hashToken s (s.onConnection id f).2 :=
  elim_does h

theorem step_does (s : World) (action : Action) :
    Does W hashToken s (step W hashToken s action).2 := by
  cases action with
  | register drawn headers =>
    apply elim_does
    intro expected hexpected
    show Does W hashToken s (if _ then _ else _ : Output × World).2
    split
    · exact .nothing
    · exact .register drawn
  | authorizeRevoke routeId headers =>
    apply elim_does
    intro route hroute
    exact .authorize _
  | revoke routeId =>
    show Does W hashToken s (if _ then _ else _ : Output × World).2
    split
    · exact .revoke routeId _
    · exact .nothing
  | websocket routeId headers =>
    show Does W hashToken s (if _ then _ else _ : Output × World).2
    split
    · exact .nothing
    · apply elim_does
      intro route hroute
      show Does W hashToken s (if _ then _ else _ : Output × World).2
      split
      · exact .nothing
      · exact .opens routeId _ route hroute
  | upgrade id now =>
    apply onConnection_does
    intro c hc
    simp only [upgrade]
    split
    · rename_i hnew
      exact .upgrade id now c hc hnew.1
    · exact .nothing
  | send id messageId ciphertext =>
    apply onConnection_does
    intro c hc
    simp only [send]
    cases hpublish : RelayClient.publish W ⟨c.routeId⟩ messageId ciphertext with
    | error e => exact .nothing
    | ok message =>
      rw [publish_eq hpublish]
      exact .send id messageId ciphertext c hc
  | close id =>
    apply onConnection_does
    intro c hc
    exact .turn id c _ hc (.say (.close none) (by simp))
  | pong id =>
    apply onConnection_does
    intro c hc
    exact .turn id c _ hc (.say .pong (by simp))
  | read id now =>
    apply onConnection_does
    intro c hc
    split
    · rename_i endpointId message rest hendpoint houtgoing
      show Does W hashToken s (if _ then _ else _)
      split
      · exact read_does hc hendpoint houtgoing
      · exact .nothing
    · exact .nothing
  | hangUp id =>
    apply onConnection_does
    intro c hc
    exact .turn id c _ hc .hangUp
  | write id =>
    apply onConnection_does
    intro c hc
    cases hendpoint : c.endpointId with
    | none => exact .nothing
    | some endpointId =>
      simp only [Option.elim_some]
      split
      · exact write_does hc hendpoint
      · exact .nothing
  | heartbeat id =>
    apply onConnection_does
    intro c hc
    show Does W hashToken s (if _ then _ else _)
    split
    · exact .turn id c _ hc .ping
    · exact .nothing
  | writerFails id =>
    apply onConnection_does
    intro c hc
    have hstop : Turn W (s.channels c.sender) c
        { c with writing := false, incoming := c.incoming ++ [] } := .stop [] (by simp)
    rw [List.append_nil] at hstop
    exact .turn id c _ hc hstop
  | recv id =>
    apply onConnection_does
    intro c hc
    split
    · rename_i message rest hincoming
      show Does W hashToken s (if _ then _ else _)
      split
      · exact recv_does hc hincoming
      · exact .nothing
    · exact .nothing

/-! ## What holds in every state -/

/-- A route's channel tells which registration it came from. -/
def Tabled (hashToken : Str → Bytes) (table : RouteTable) (registered : List RegisteredRoute) :
    Prop :=
  ∀ routeId route, table.routes.lookup routeId = some route → ∃ token,
    registered[route.sender]? = some ⟨routeId, token⟩ ∧ route.tokenHash = hashToken token

/-- The handles of a connection are held while its writer runs. -/
structure Held (opened id : Nat) (c : Connection) : Prop where
  opened : id < opened
  reading : c.writing = true → c.reading = true

/-- Every connection satisfies `P`. -/
def Connected (connections : Nat → Option Connection) (P : Nat → Connection → Prop) : Prop :=
  ∀ id c, connections id = some c → P id c

structure Sound (hashToken : Str → Bytes) (s : World) : Prop where
  tabled : Tabled hashToken s.table s.registered
  capacity : ∀ channel, (s.channels channel).capacity = channelCapacity
  held : Connected s.connections (Held s.opened)

theorem Connected.mono {connections : Nat → Option Connection} {P Q : Nat → Connection → Prop}
    (h : Connected connections P) (himp : ∀ id c, P id c → Q id c) : Connected connections Q :=
  fun id c hc => himp id c (h id c hc)

theorem Connected.of_others {connections : Nat → Option Connection}
    {P : Nat → Connection → Prop} {id : Nat} {c : Connection}
    (hothers : ∀ other c', other ≠ id → connections other = some c' → P other c') (hc : P id c) :
    Connected (Function.update connections id (some c)) P := by
  intro other c' hc'
  by_cases hother : other = id
  · subst hother
    rw [Function.update_self, Option.some.injEq] at hc'
    rwa [← hc']
  · rw [Function.update_of_ne hother] at hc'
    exact hothers other c' hother hc'

theorem Connected.update {connections : Nat → Option Connection} {P : Nat → Connection → Prop}
    (h : Connected connections P) {id : Nat} {c : Connection} (hc : P id c) :
    Connected (Function.update connections id (some c)) P :=
  .of_others (fun other c' _ hc' => h other c' hc') hc

theorem tabled_register {table : RouteTable} {registered : List RegisteredRoute}
    (h : Tabled hashToken table registered) (drawn : RegisteredRoute) :
    Tabled hashToken (table.register hashToken drawn registered.length)
      (registered ++ [drawn]) := by
  intro routeId route hroute
  by_cases hdrawn : routeId = drawn.routeId
  · subst hdrawn
    simp only [RouteTable.register, AList.lookup_insert, Option.some.injEq] at hroute
    subst hroute
    exact ⟨drawn.token, by simp, rfl⟩
  · rw [RouteTable.register, AList.lookup_insert_ne hdrawn] at hroute
    obtain ⟨token, hregistered, hhash⟩ := h routeId route hroute
    have hlt := (List.getElem?_eq_some_iff.1 hregistered).1
    exact ⟨token, by rwa [List.getElem?_append_left hlt], hhash⟩

theorem lookup_revoke {table : RouteTable} {revoked routeId : Str} {route : Route}
    (h : (table.revoke revoked).1.routes.lookup routeId = some route) :
    routeId ≠ revoked ∧ table.routes.lookup routeId = some route := by
  by_cases hrevoked : routeId = revoked
  · rw [RouteTable.revoke, hrevoked, AList.lookup_erase] at h
    cases h
  · rw [RouteTable.revoke, AList.lookup_erase_ne hrevoked] at h
    exact ⟨hrevoked, h⟩

theorem Tabled.lt {table : RouteTable} {registered : List RegisteredRoute} {routeId : Str}
    {route : Route} (h : Tabled hashToken table registered)
    (hroute : table.routes.lookup routeId = some route) : route.sender < registered.length := by
  obtain ⟨token, hregistered, -⟩ := h routeId route hroute
  exact (List.getElem?_eq_some_iff.1 hregistered).1

/-- Routes with different identifiers have different channels. -/
theorem Tabled.sender_ne {table : RouteTable} {registered : List RegisteredRoute}
    {routeId other : Str} {route route' : Route} (h : Tabled hashToken table registered)
    (hroute : table.routes.lookup routeId = some route)
    (hroute' : table.routes.lookup other = some route') (hne : other ≠ routeId) :
    route'.sender ≠ route.sender := by
  intro hsender
  obtain ⟨token, hregistered, -⟩ := h routeId route hroute
  obtain ⟨token', hregistered', -⟩ := h other route' hroute'
  rw [hsender, hregistered, Option.some.injEq, RegisteredRoute.mk.injEq] at hregistered'
  exact hne hregistered'.1.symm

/-- What a step of one connection does not change. -/
structure Turn.Keeps (c c' : Connection) : Prop where
  routeId : c'.routeId = c.routeId
  token : c'.token = c.token
  sender : c'.sender = c.sender
  since : c'.since = c.since
  endpointId : c'.endpointId = c.endpointId
  sendsBefore : c'.sendsBefore = c.sendsBefore
  reading : (c.writing = true → c.reading = true) → c'.writing = true → c'.reading = true
  writing : c'.writing = true → c.writing = true

theorem Turn.keeps {channel : Broadcast RoutedFrame} {c c' : Connection}
    (h : Turn W channel c c') : Turn.Keeps c c' := by
  cases h <;> refine ⟨rfl, rfl, rfl, rfl, rfl, rfl, ?_, ?_⟩ <;>
    simp +contextual [Connection.hungUp]

theorem capacity_send {channels : Nat → Broadcast RoutedFrame}
    (h : ∀ channel, (channels channel).capacity = channelCapacity) (sender : Nat)
    (frame : RoutedFrame) (channel : Nat) :
    (Function.update channels sender ((channels sender).send frame) channel).capacity =
      channelCapacity := by
  by_cases hchannel : channel = sender
  · rw [hchannel, Function.update_self, Broadcast.send_capacity, h]
  · rw [Function.update_of_ne hchannel, h]

theorem Does.sound {s' : World} (h : Does W hashToken s s') (hs : Sound hashToken s) :
    Sound hashToken s' := by
  obtain ⟨htabled, hcapacity, hheld⟩ := hs
  cases h with
  | nothing => exact ⟨htabled, hcapacity, hheld⟩
  | authorize revoking => exact ⟨htabled, hcapacity, hheld⟩
  | register drawn => exact ⟨tabled_register htabled drawn, hcapacity, hheld⟩
  | revoke routeId revoking =>
    refine ⟨fun other route hroute => ?_, hcapacity, hheld⟩
    exact htabled other route (lookup_revoke hroute).2
  | opens routeId token route hroute =>
    refine ⟨htabled, hcapacity, Connected.update (hheld.mono ?_) ⟨Nat.lt_succ_self _, fun _ => rfl⟩⟩
    intro id c hc
    exact ⟨Nat.lt_succ_of_lt hc.opened, hc.reading⟩
  | turn id c c' hc hturn =>
    have hcheld := hheld id c hc
    exact ⟨htabled, hcapacity,
      hheld.update ⟨hcheld.opened, hturn.keeps.reading hcheld.reading⟩⟩
  | upgrade id now c hc hnew =>
    have hcheld := hheld id c hc
    exact ⟨htabled, hcapacity, hheld.update ⟨hcheld.opened, hcheld.reading⟩⟩
  | send id messageId ciphertext c hc =>
    have hcheld := hheld id c hc
    exact ⟨htabled, hcapacity, hheld.update ⟨hcheld.opened, hcheld.reading⟩⟩
  | forward id endpointId window frame rest c hc hendpoint houtgoing hroutable =>
    have hcheld := hheld id c hc
    exact ⟨htabled, capacity_send hcapacity c.sender _,
      hheld.update ⟨hcheld.opened, hcheld.reading⟩⟩

theorem sound_start (registrationSecret : Option Str) (publicOrigin : Bytes) :
    Sound hashToken (start registrationSecret publicOrigin) := by
  refine ⟨fun routeId route hroute => ?_, fun _ => rfl, fun id c hc => ?_⟩
  · simp [start] at hroute
  · cases hc

theorem sound_reachable {registrationSecret : Option Str} {publicOrigin : Bytes}
    (h : (machine W hashToken).Reachable (start registrationSecret publicOrigin) s) :
    Sound hashToken s :=
  h.invariant (fun s action hs => (step_does s action).sound hs) (sound_start _ _)

end World

end LeaveCli.Relay
