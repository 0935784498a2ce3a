import LeaveCli.Relay.Proof.Steps
import LeaveCli.Transport.Wire

/-!
# What the endpoints of a route get from each other

`Routed` is the invariant of every reachable state: `Linked` ties what a client has received to the
channel of its route and what is forwarded to what the clients passed to `RelayClient::send`, and
`Published` says of every frame on a channel who published it and for which route. One step keeps it
(`Does.routed`). The invariant says that nothing is lost; that the writer and the client of a
connection get to the end of what they have to take is `exists_taken` and `exists_heard`.
-/

namespace LeaveCli.Relay

open Lib Crypto Transport LeaveCli.Host LeaveCli.Core

namespace World

/-! ## Frames and what is in them -/

def ciphertext (W : EnvelopeWire) (frame : Bytes) : Bytes :=
  ((W.decode frame).map (·.ciphertext)).getD []

def ciphertexts (W : EnvelopeWire) (frames : List RoutedFrame) : List Bytes :=
  frames.map fun frame => ciphertext W frame.frame

def payload (W : EnvelopeWire) : WsMessage → Option Bytes
  | .binary frame => some (ciphertext W frame)
  | .text => none
  | .close _ => none
  | .ping => none
  | .pong => none

/-- What is in the frames that are on their way. -/
def payloads (W : EnvelopeWire) (messages : List WsMessage) : List Bytes :=
  messages.filterMap (payload W)

/-- The frames of all endpoints but one. -/
def ofOthers (endpointId : Nat) (frames : List RoutedFrame) : List RoutedFrame :=
  frames.filter (·.endpointId ≠ endpointId)

/-- The frames of one endpoint. -/
def ofOwn (endpointId : Nat) (frames : List RoutedFrame) : List RoutedFrame :=
  frames.filter (·.endpointId = endpointId)

/-- What the client of a connection passed to `RelayClient::send`. -/
def sentBy (sends : List (Nat × Bytes)) (id : Nat) : List Bytes :=
  (sends.filter (·.1 = id)).map (·.2)

variable {W : EnvelopeWire} {hashToken : Str → Bytes} {s : World}

theorem payload_of_not_binary {message : WsMessage} (h : ∀ frame, message ≠ .binary frame) :
    payload W message = none := by
  cases message with
  | binary frame => exact absurd rfl (h frame)
  | _ => rfl

theorem payloads_append (messages more : List WsMessage) :
    payloads W (messages ++ more) = payloads W messages ++ payloads W more :=
  List.filterMap_append

theorem payloads_of_not_binary {messages : List WsMessage}
    (h : ∀ frame, .binary frame ∉ messages) : payloads W messages = [] := by
  rw [payloads, List.filterMap_eq_nil_iff]
  intro message hmem
  apply payload_of_not_binary
  intro frame hframe
  exact h frame (hframe ▸ hmem)

theorem ciphertexts_append (frames more : List RoutedFrame) :
    ciphertexts W (frames ++ more) = ciphertexts W frames ++ ciphertexts W more :=
  List.map_append

theorem ofOthers_append (endpointId : Nat) (frames more : List RoutedFrame) :
    ofOthers endpointId (frames ++ more) = ofOthers endpointId frames ++ ofOthers endpointId more :=
  List.filter_append ..

theorem ofOwn_append_other {endpointId : Nat} {frame : RoutedFrame}
    (h : frame.endpointId ≠ endpointId) (frames : List RoutedFrame) :
    ofOwn endpointId (frames ++ [frame]) = ofOwn endpointId frames := by
  simp [ofOwn, List.filter_append, h]

theorem sentBy_append_other {id other : Nat} (h : other ≠ id) (sends : List (Nat × Bytes))
    (ciphertext : Bytes) : sentBy (sends ++ [(id, ciphertext)]) other = sentBy sends other := by
  simp [sentBy, List.filter_append, h.symm]

theorem sentBy_append_self (id : Nat) (sends : List (Nat × Bytes)) (ciphertext : Bytes) :
    sentBy (sends ++ [(id, ciphertext)]) id = sentBy sends id ++ [ciphertext] := by
  simp [sentBy, List.filter_append]

/-- A client gets the ciphertext of a frame that the relay forwarded for its route. -/
theorem handle_routable {routeId : Str} {frame : Bytes} (h : routable W routeId frame = true) :
    RelayClient.handle W ⟨routeId⟩ (.binary frame) = some (.ok (some (ciphertext W frame))) := by
  rw [routable, Option.any_eq_true] at h
  obtain ⟨envelope, hdecode, hgood⟩ := h
  rw [decide_eq_true_eq] at hgood
  simp [RelayClient.handle, ciphertext, hdecode, hgood.1]

theorem handle_eq_frame {client : RelayClient} {message : WsMessage} {ciphertext : Bytes}
    (h : RelayClient.handle W client message = some (.ok (some ciphertext))) :
    ∃ frame, message = .binary frame := by
  cases message with
  | binary frame => exact ⟨frame, rfl⟩
  | close abnormal => cases abnormal <;> simp [RelayClient.handle] at h
  | _ => simp [RelayClient.handle] at h

/-! ## The invariant -/

/-- What ties a connection to the frames of its channel and to what clients passed to `send`. -/
structure Linked (W : EnvelopeWire) (registered : List RegisteredRoute) (frames : List RoutedFrame)
    (sends : List (Nat × Bytes)) (nextEndpoint id : Nat) (c : Connection) : Prop where
  registered : registered[c.sender]? = some ⟨c.routeId, c.token⟩
  since_le : c.since ≤ c.next
  next_le : c.next ≤ frames.length
  endpoint_lt : ∀ endpointId, c.endpointId = some endpointId → endpointId < nextEndpoint
  idle : c.endpointId = none →
    c.next = c.since ∧ c.received = [] ∧ payloads W c.incoming = []
  incoming : ∀ frame, .binary frame ∈ c.incoming → routable W c.routeId frame = true
  streams : c.writing = true → c.listening = true ∧
    ∀ message ∈ c.incoming, message = .ping ∨ ∃ frame, message = .binary frame
  receives : ∀ endpointId, c.endpointId = some endpointId →
    c.received ++ payloads W c.incoming =
      ciphertexts W (ofOthers endpointId (Broadcast.segment c.since c.next frames))
  unsent : c.endpointId = none → payloads W c.outgoing = sentBy sends id
  forwards : ∀ endpointId, c.endpointId = some endpointId →
    ciphertexts W (ofOwn endpointId frames) ++ payloads W c.outgoing = sentBy sends id

/-- A frame on a channel has a publisher attached to the route that the channel belongs to. -/
structure Published (W : EnvelopeWire) (registered : List RegisteredRoute) (nextEndpoint : Nat)
    (connections : Nat → Option Connection) (sender : Nat) (frame : RoutedFrame) : Prop where
  endpoint_lt : frame.endpointId < nextEndpoint
  routable : ∃ drawn, registered[sender]? = some drawn ∧
    routable W drawn.routeId frame.frame = true
  publisher : ∃ id c, connections id = some c ∧ c.endpointId = some frame.endpointId ∧
    c.sender = sender

/-- No two connections have the same endpoint identifier. -/
def Distinct (connections : Nat → Option Connection) : Prop :=
  ∀ id c other c' endpointId, connections id = some c → connections other = some c' →
    c.endpointId = some endpointId → c'.endpointId = some endpointId → id = other

structure Routed (W : EnvelopeWire) (hashToken : Str → Bytes) (s : World) : Prop where
  sound : Sound hashToken s
  linked : Connected s.connections fun id c =>
    Linked W s.registered (s.channels c.sender).sent s.sends s.nextEndpoint id c
  published : ∀ sender, ∀ frame ∈ (s.channels sender).sent,
    Published W s.registered s.nextEndpoint s.connections sender frame
  distinct : Distinct s.connections
  opened : ∀ entry ∈ s.sends, entry.1 < s.opened

/-! ## One connection -/

variable {registered : List RegisteredRoute} {sends : List (Nat × Bytes)} {nextEndpoint id : Nat}

theorem Linked.said {c : Connection} {frames : List RoutedFrame} {outgoing : List WsMessage}
    (h : Linked W registered frames sends nextEndpoint id c)
    (hsame : payloads W outgoing = payloads W c.outgoing) :
    Linked W registered frames sends nextEndpoint id { c with outgoing } :=
  { h with
    unsent := fun hnone => hsame.trans (h.unsent hnone)
    forwards := fun endpointId hendpoint =>
      (congrArg (_ ++ ·) hsame).trans (h.forwards endpointId hendpoint) }

theorem Linked.told {c : Connection} {frames : List RoutedFrame} {last : List WsMessage}
    (h : Linked W registered frames sends nextEndpoint id c)
    (hlast : ∀ frame, .binary frame ∉ last) {writing : Bool}
    (hwriting : writing = true → c.writing = true ∧ last = [.ping]) :
    Linked W registered frames sends nextEndpoint id
      { c with writing, incoming := c.incoming ++ last } := by
  have hsame : payloads W (c.incoming ++ last) = payloads W c.incoming := by
    rw [payloads_append, payloads_of_not_binary hlast, List.append_nil]
  refine { h with
    idle := fun hnone => ?_
    incoming := fun frame hframe => ?_
    streams := fun htrue => ?_
    receives := fun endpointId hendpoint => ?_ }
  · obtain ⟨hnext, hreceived, hincoming⟩ := h.idle hnone
    exact ⟨hnext, hreceived, hsame.trans hincoming⟩
  · rcases List.mem_append.1 hframe with hframe | hframe
    · exact h.incoming frame hframe
    · exact absurd hframe (hlast frame)
  · obtain ⟨hbefore, rfl⟩ := hwriting htrue
    refine ⟨(h.streams hbefore).1, fun message hmessage => ?_⟩
    rcases List.mem_append.1 hmessage with hmessage | hmessage
    · exact (h.streams hbefore).2 message hmessage
    · exact .inl (List.mem_singleton.1 hmessage)
  · exact (congrArg (_ ++ ·) hsame).trans (h.receives endpointId hendpoint)

/-- What `RelayClient::recv` does not return is no frame of the route. -/
theorem Linked.heard {c : Connection} {frames : List RoutedFrame} {message : WsMessage}
    {rest : List WsMessage} {received : List Bytes}
    (h : Linked W registered frames sends nextEndpoint id c)
    (hincoming : c.incoming = message :: rest) {listening : Bool}
    (hlistening : c.writing = true → listening = true)
    (hreceived : received = c.received ++ payloads W [message]) :
    Linked W registered frames sends nextEndpoint id
      { c with incoming := rest, listening, received } := by
  have hsame : received ++ payloads W rest = c.received ++ payloads W c.incoming := by
    rw [hreceived, hincoming, List.append_assoc, ← payloads_append, List.singleton_append]
  refine { h with
    idle := fun hnone => ?_
    incoming := fun frame hframe => ?_
    streams := fun htrue => ⟨hlistening htrue, fun message hmessage => ?_⟩
    receives := fun endpointId hendpoint => hsame.trans (h.receives endpointId hendpoint) }
  · obtain ⟨hnext, hnothing, hnone'⟩ := h.idle hnone
    rw [hnothing, hnone', List.append_nil, List.append_eq_nil_iff] at hsame
    exact ⟨hnext, hsame⟩
  · exact h.incoming frame (by rw [hincoming]; exact List.mem_cons_of_mem _ hframe)
  · exact (h.streams htrue).2 message (by rw [hincoming]; exact List.mem_cons_of_mem _ hmessage)

theorem Turn.linked {channel : Broadcast RoutedFrame} {c c' : Connection}
    (hturn : Turn W channel c c')
    (hroutable : ∀ frame ∈ channel.sent, routable W c.routeId frame.frame = true)
    (h : Linked W registered channel.sent sends nextEndpoint id c) :
    Linked W registered channel.sent sends nextEndpoint id c' := by
  cases hturn with
  | hangUp => exact { h with streams := fun hwriting => by cases hwriting }
  | say message hmessage =>
    apply h.said
    have hmore : ∀ frame, WsMessage.binary frame ∉ [message] := by
      intro frame hmem
      exact hmessage frame (List.mem_singleton.1 hmem).symm
    rw [payloads_append, payloads_of_not_binary hmore, List.append_nil]
  | pass message rest houtgoing hmessage =>
    apply h.said
    rw [houtgoing, payloads, payloads, List.filterMap_cons_none (payload_of_not_binary hmessage)]
  | skip endpointId frame hendpoint hframe hown hkept =>
    have hlt := (List.getElem?_eq_some_iff.1 hframe).1
    refine { h with
      since_le := Nat.le_succ_of_le h.since_le
      next_le := hlt
      idle := fun hnone => absurd (hnone.symm.trans hendpoint) (by simp)
      receives := fun other hother => ?_ }
    obtain rfl : other = endpointId := Option.some.inj (hother.symm.trans hendpoint)
    rw [Broadcast.segment_succ h.since_le hframe, ofOthers_append, ciphertexts_append,
      ← h.receives other hother]
    simp [ofOthers, ciphertexts, hown]
  | deliver endpointId frame hendpoint hframe hother hkept =>
    have hlt := (List.getElem?_eq_some_iff.1 hframe).1
    refine { h with
      since_le := Nat.le_succ_of_le h.since_le
      next_le := hlt
      idle := fun hnone => absurd (hnone.symm.trans hendpoint) (by simp)
      incoming := fun bytes hbytes => ?_
      streams := fun hwriting => ⟨(h.streams hwriting).1, fun message hmessage => ?_⟩
      receives := fun other hother' => ?_ }
    · rcases List.mem_append.1 hbytes with hbytes | hbytes
      · exact h.incoming bytes hbytes
      · rw [List.mem_singleton, WsMessage.binary.injEq] at hbytes
        rw [hbytes]
        exact hroutable frame (List.mem_of_getElem? hframe)
    · rcases List.mem_append.1 hmessage with hmessage | hmessage
      · exact (h.streams hwriting).2 message hmessage
      · exact .inr ⟨_, List.mem_singleton.1 hmessage⟩
    · obtain rfl : other = endpointId := Option.some.inj (hother'.symm.trans hendpoint)
      rw [Broadcast.segment_succ h.since_le hframe, ofOthers_append, ciphertexts_append,
        ← h.receives other hother', payloads_append, List.append_assoc]
      simp [ofOthers, ciphertexts, payloads, payload, hother]
  | stop last hlast => exact h.told hlast fun hwriting => by cases hwriting
  | ping => exact h.told (by simp) fun hwriting => ⟨hwriting, rfl⟩
  | ignore message rest listening hincoming hhandle hgoes =>
    refine h.heard hincoming (fun hwriting => ?_) ?_
    · obtain ⟨hlistening, hmessages⟩ := h.streams hwriting
      rw [← hlistening]
      refine hgoes ?_
      rcases hmessages message (by rw [hincoming]; exact List.mem_cons_self) with rfl | ⟨frame, rfl⟩
      · rfl
      · have hroutes := h.incoming frame (by rw [hincoming]; exact List.mem_cons_self)
        exact absurd (handle_routable hroutes) (hhandle _)
    have hmessage : ∀ frame, WsMessage.binary frame ∉ [message] := by
      intro frame hmem
      have hbinary : WsMessage.binary frame ∈ c.incoming := by
        rw [hincoming, List.mem_singleton.1 hmem]
        exact List.mem_cons_self
      rw [← List.mem_singleton.1 hmem] at hhandle
      exact hhandle _ (handle_routable (h.incoming frame hbinary))
    rw [payloads_of_not_binary hmessage, List.append_nil]
  | get message rest ciphertext hincoming hhandle =>
    refine h.heard hincoming (fun hwriting => (h.streams hwriting).1) ?_
    obtain ⟨frame, rfl⟩ : ∃ frame, message = .binary frame := handle_eq_frame hhandle
    have hbinary : WsMessage.binary frame ∈ c.incoming := by
      rw [hincoming]
      exact List.mem_cons_self
    rw [handle_routable (h.incoming frame hbinary)] at hhandle
    simp only [Option.some.injEq, Except.ok.injEq] at hhandle
    rw [← hhandle]
    rfl

/-! ## One step of the relay -/

/-- Registrations, other endpoints and what other clients send leave a connection as it is. -/
theorem Linked.mono {c : Connection} {frames : List RoutedFrame}
    (h : Linked W registered frames sends nextEndpoint id c) {registered' : List RegisteredRoute}
    {sends' : List (Nat × Bytes)} {nextEndpoint' : Nat} (hregistered : registered <+: registered')
    (hsends : sentBy sends' id = sentBy sends id) (hnext : nextEndpoint ≤ nextEndpoint') :
    Linked W registered' frames sends' nextEndpoint' id c := by
  obtain ⟨more, rfl⟩ := hregistered
  have hlt := (List.getElem?_eq_some_iff.1 h.registered).1
  refine { h with
    registered := ?_
    endpoint_lt := fun endpointId hendpoint =>
      Nat.lt_of_lt_of_le (h.endpoint_lt endpointId hendpoint) hnext
    unsent := fun hnone => (h.unsent hnone).trans hsends.symm
    forwards := fun endpointId hendpoint => (h.forwards endpointId hendpoint).trans hsends.symm }
  rw [List.getElem?_append_left hlt]
  exact h.registered

/-- A frame of another endpoint changes neither what a connection has read nor what it published. -/
theorem Linked.append {c : Connection} {frames : List RoutedFrame} {frame : RoutedFrame}
    (h : Linked W registered frames sends nextEndpoint id c)
    (hother : c.endpointId ≠ some frame.endpointId) :
    Linked W registered (frames ++ [frame]) sends nextEndpoint id c := by
  refine { h with
    next_le := ?_
    receives := fun endpointId hendpoint => ?_
    forwards := fun endpointId hendpoint => ?_ }
  · rw [List.length_append]
    exact Nat.le_add_right_of_le h.next_le
  · rw [Broadcast.segment_append h.next_le]
    exact h.receives endpointId hendpoint
  · have hne : frame.endpointId ≠ endpointId := by
      intro hsame
      exact hother (hsame ▸ hendpoint)
    rw [ofOwn_append_other hne]
    exact h.forwards endpointId hendpoint

/-- A frame that is forwarded moves from what is on its way to the channel. -/
theorem Linked.forward {c : Connection} {frames : List RoutedFrame} {endpointId : Nat}
    {frame : Bytes} {rest : List WsMessage}
    (h : Linked W registered frames sends nextEndpoint id c)
    (hendpoint : c.endpointId = some endpointId) (houtgoing : c.outgoing = .binary frame :: rest)
    (window : FrameWindow) :
    Linked W registered (frames ++ [⟨endpointId, frame⟩]) sends nextEndpoint id
      { c with window, outgoing := rest } := by
  refine { h with
    next_le := ?_
    receives := fun other hother => ?_
    unsent := fun hnone => absurd (hnone.symm.trans hendpoint) (by simp)
    forwards := fun other hother => ?_ }
  · rw [List.length_append]
    exact Nat.le_add_right_of_le h.next_le
  · rw [Broadcast.segment_append h.next_le]
    exact h.receives other hother
  · obtain rfl : other = endpointId := Option.some.inj (hother.symm.trans hendpoint)
    have hall := h.forwards other hother
    rw [houtgoing] at hall
    rw [← hall]
    simp [ofOwn, ciphertexts, payloads, payload, List.filter_append]

/-- An endpoint starts with an identifier that no frame of its channel carries. -/
theorem Linked.upgraded {c : Connection} {frames : List RoutedFrame}
    (h : Linked W registered frames sends nextEndpoint id c) (hnone : c.endpointId = none)
    (hlt : ∀ frame ∈ frames, frame.endpointId < nextEndpoint) (now : Nat) :
    Linked W registered frames sends (nextEndpoint + 1) id
      { c with endpointId := some nextEndpoint, window := ⟨now, 0⟩ } := by
  obtain ⟨hnext, hreceived, hincoming⟩ := h.idle hnone
  refine { h with
    endpoint_lt := fun endpointId hendpoint => ?_
    idle := fun hnone => by cases hnone
    receives := fun endpointId hendpoint => ?_
    unsent := fun hnone => by cases hnone
    forwards := fun endpointId hendpoint => ?_ }
  · rw [← Option.some.inj hendpoint]
    exact Nat.lt_succ_self _
  · show c.received ++ payloads W c.incoming = _
    rw [hreceived, hincoming, hnext, Broadcast.segment_self]
    rfl
  · have hown : ofOwn endpointId frames = [] := by
      rw [ofOwn, List.filter_eq_nil_iff]
      intro frame hframe
      have hbefore := hlt frame hframe
      rw [← Option.some.inj hendpoint, decide_eq_true_eq]
      omega
    rw [hown]
    exact h.unsent hnone

/-- What a client passes to `send` is on its way. -/
theorem Linked.sent (hW : W.Lawful) {c : Connection} {frames : List RoutedFrame}
    (h : Linked W registered frames sends nextEndpoint id c) (messageId : Uuid)
    (ciphertext : Bytes) :
    Linked W registered frames (sends ++ [(id, ciphertext)]) nextEndpoint id
      { c with outgoing := c.outgoing ++ [.binary (W.encode
        ⟨protocolVersion, c.routeId, W.uuidText messageId, ciphertext⟩)] } := by
  have hpayload : payloads W (c.outgoing ++ [.binary (W.encode
      ⟨protocolVersion, c.routeId, W.uuidText messageId, ciphertext⟩)]) =
      payloads W c.outgoing ++ [ciphertext] := by
    have hdecode := hW.decode_encode
      ⟨protocolVersion, c.routeId, W.uuidText messageId, ciphertext⟩
      (show 1 < UInt32.size by decide)
    simp [payloads, payload, World.ciphertext, hdecode]
  refine { h with
    unsent := fun hnone => ?_
    forwards := fun endpointId hendpoint => ?_ }
  · rw [hpayload, sentBy_append_self, h.unsent hnone]
  · rw [hpayload, sentBy_append_self, ← List.append_assoc, h.forwards endpointId hendpoint]

theorem Published.mono {connections connections' : Nat → Option Connection} {sender : Nat}
    {frame : RoutedFrame} (h : Published W registered nextEndpoint connections sender frame)
    {registered' : List RegisteredRoute} {nextEndpoint' : Nat}
    (hregistered : registered <+: registered') (hnext : nextEndpoint ≤ nextEndpoint')
    (hkeeps : ∀ id c, connections id = some c → c.endpointId ≠ none → ∃ c',
      connections' id = some c' ∧ c'.endpointId = c.endpointId ∧ c'.sender = c.sender) :
    Published W registered' nextEndpoint' connections' sender frame := by
  obtain ⟨more, rfl⟩ := hregistered
  obtain ⟨hlt, ⟨drawn, hdrawn, hroutable⟩, id, c, hc, hendpoint, hsender⟩ := h
  refine ⟨Nat.lt_of_lt_of_le hlt hnext, ⟨drawn, ?_, hroutable⟩, ?_⟩
  · rw [List.getElem?_append_left (List.getElem?_eq_some_iff.1 hdrawn).1]
    exact hdrawn
  · obtain ⟨c', hc', hendpoint', hsender'⟩ := hkeeps id c hc (by simp [hendpoint])
    exact ⟨id, c', hc', hendpoint'.trans hendpoint, hsender'.trans hsender⟩

/-- A connection that is updated keeps its endpoint identifier and its channel. -/
theorem keeps_update {connections : Nat → Option Connection} {id : Nat} {c : Connection}
    (c' : Connection) (hc : connections id = some c)
    (hendpoint : c.endpointId ≠ none → c'.endpointId = c.endpointId)
    (hsender : c'.sender = c.sender) (other : Nat) (d : Connection)
    (hd : connections other = some d) (hsome : d.endpointId ≠ none) :
    ∃ d', Function.update connections id (some c') other = some d' ∧
      d'.endpointId = d.endpointId ∧ d'.sender = d.sender := by
  by_cases hother : other = id
  · subst hother
    obtain rfl : d = c := Option.some.inj (hd.symm.trans hc)
    exact ⟨c', Function.update_self .., hendpoint hsome, hsender⟩
  · exact ⟨d, (Function.update_of_ne hother ..).trans hd, rfl, rfl⟩

theorem Distinct.update {connections : Nat → Option Connection} {id : Nat} {c' : Connection}
    (h : Distinct connections)
    (hnew : ∀ other d endpointId, other ≠ id → connections other = some d →
      c'.endpointId = some endpointId → d.endpointId ≠ some endpointId) :
    Distinct (Function.update connections id (some c')) := by
  intro one d two d' endpointId hd hd' hendpoint hendpoint'
  by_cases hone : one = id
  · by_cases htwo : two = id
    · exact hone.trans htwo.symm
    · subst hone
      rw [Function.update_self, Option.some.injEq] at hd
      rw [Function.update_of_ne htwo] at hd'
      exact absurd hendpoint' (hnew two d' endpointId htwo hd' (hd ▸ hendpoint))
  · rw [Function.update_of_ne hone] at hd
    by_cases htwo : two = id
    · subst htwo
      rw [Function.update_self, Option.some.injEq] at hd'
      exact absurd hendpoint (hnew one d endpointId hone hd (hd' ▸ hendpoint'))
    · rw [Function.update_of_ne htwo] at hd'
      exact h one d two d' endpointId hd hd' hendpoint hendpoint'

/-- An update that keeps the endpoint identifier keeps the identifiers distinct. -/
theorem Distinct.update_same {connections : Nat → Option Connection} {id : Nat} {c c' : Connection}
    (h : Distinct connections) (hc : connections id = some c)
    (hendpoint : c'.endpointId = c.endpointId) :
    Distinct (Function.update connections id (some c')) := by
  apply h.update
  intro other d endpointId hother hd hc' hd'
  exact hother (h other d id c endpointId hd hc hd' (hendpoint.symm.trans hc'))

theorem Routed.routable_of_linked {c : Connection} (h : Routed W hashToken s)
    (hlinked : s.registered[c.sender]? = some ⟨c.routeId, c.token⟩) :
    ∀ frame ∈ (s.channels c.sender).sent, routable W c.routeId frame.frame = true := by
  intro frame hframe
  obtain ⟨drawn, hdrawn, hroutable⟩ := (h.published c.sender frame hframe).routable
  rw [hlinked, Option.some.injEq] at hdrawn
  rwa [← hdrawn] at hroutable

/-- An endpoint is let in with the token of the registration its channel comes from. -/
theorem registered_of_authorize (hinjective : Function.Injective hashToken)
    (hs : Sound hashToken s) {routeId token : Str} {route : Route}
    (hroute : s.table.authorize hashToken routeId token = some route) :
    s.registered[route.sender]? = some ⟨routeId, token⟩ := by
  obtain ⟨hlookup, heq⟩ := Option.filter_eq_some_iff.1 hroute
  obtain ⟨registeredToken, hregistered, hhash⟩ := hs.tabled routeId route hlookup
  rw [subtleEq_iff, hhash] at heq
  rw [hregistered, hinjective heq]

/-- A connection that has just been opened has been told nothing and has sent nothing. -/
theorem Linked.subscribed {routeId token : Str} {route : Route}
    (hregistered : s.registered[route.sender]? = some ⟨routeId, token⟩)
    (hunsent : sentBy s.sends id = []) :
    Linked W s.registered (s.channels route.sender).sent s.sends s.nextEndpoint id
      (s.subscribe routeId token route) where
  registered := hregistered
  since_le := Nat.le_refl _
  next_le := Nat.le_refl _
  endpoint_lt := fun endpointId hendpoint => by cases hendpoint
  idle := fun _ => ⟨rfl, rfl, rfl⟩
  incoming := fun frame hframe => by cases hframe
  streams := fun _ => ⟨rfl, fun message hmessage => by cases hmessage⟩
  receives := fun endpointId hendpoint => by cases hendpoint
  unsent := fun _ => hunsent.symm
  forwards := fun endpointId hendpoint => by cases hendpoint

theorem Sound.not_opened (hs : Sound hashToken s) : s.connections s.opened = none := by
  cases hc : s.connections s.opened with
  | none => rfl
  | some c => exact absurd (hs.held s.opened c hc).opened (Nat.lt_irrefl _)

theorem Routed.sentBy_opened (h : Routed W hashToken s) : sentBy s.sends s.opened = [] := by
  rw [sentBy, List.map_eq_nil_iff, List.filter_eq_nil_iff]
  intro entry hentry
  have hlt := h.opened entry hentry
  simp only [decide_eq_true_eq]
  omega

theorem update_send_self (channels : Nat → Broadcast RoutedFrame) (sender : Nat)
    (frame : RoutedFrame) :
    (Function.update channels sender ((channels sender).send frame) sender).sent =
      (channels sender).sent ++ [frame] := by
  rw [Function.update_self, Broadcast.send_sent]

theorem update_send_other (channels : Nat → Broadcast RoutedFrame) {sender other : Nat}
    (h : other ≠ sender) (frame : RoutedFrame) :
    (Function.update channels sender ((channels sender).send frame) other).sent =
      (channels other).sent := by
  rw [Function.update_of_ne h]

/-- What one connection forwards is for the others a frame of another endpoint, or of another
channel. -/
theorem Routed.forward_other (h : Routed W hashToken s) {endpointId other : Nat} {c d : Connection}
    (hc : s.connections id = some c) (hendpoint : c.endpointId = some endpointId)
    (hother : other ≠ id) (hd : s.connections other = some d) (frame : Bytes) :
    Linked W s.registered (Function.update s.channels c.sender
      ((s.channels c.sender).send ⟨endpointId, frame⟩) d.sender).sent s.sends s.nextEndpoint
      other d := by
  have hlinked : Linked W s.registered (s.channels d.sender).sent s.sends s.nextEndpoint other d :=
    h.linked other d hd
  by_cases hsender : d.sender = c.sender
  · have hne : d.endpointId ≠ some endpointId := by
      intro hclaimed
      exact hother (h.distinct other d id c endpointId hd hc hclaimed hendpoint)
    rw [hsender, update_send_self, ← hsender]
    exact hlinked.append hne
  · rw [update_send_other s.channels hsender]
    exact hlinked

theorem Does.routed (hW : W.Lawful) (hinjective : Function.Injective hashToken) {s' : World}
    (hdoes : Does W hashToken s s') (h : Routed W hashToken s) : Routed W hashToken s' := by
  have hsound := hdoes.sound h.sound
  cases hdoes with
  | nothing => exact h
  | authorize revoking => exact { h with sound := hsound }
  | revoke routeId revoking => exact { h with sound := hsound }
  | register drawn =>
    refine ⟨hsound, ?_, ?_, h.distinct, h.opened⟩
    · exact h.linked.mono fun id c hc => hc.mono (List.prefix_append _ _) rfl (Nat.le_refl _)
    · intro sender frame hframe
      exact (h.published sender frame hframe).mono (List.prefix_append _ _) (Nat.le_refl _)
        fun id c hc _ => ⟨c, hc, rfl, rfl⟩
  | opens routeId token route hroute =>
    have hregistered := registered_of_authorize hinjective h.sound hroute
    refine ⟨hsound, h.linked.update ?_, fun sender frame hframe => ?_, ?_, ?_⟩
    · exact .subscribed hregistered h.sentBy_opened
    · apply (h.published sender frame hframe).mono (List.prefix_refl _) (Nat.le_refl _)
      intro id c hc hsome
      have hne : id ≠ s.opened := by
        intro heq
        subst heq
        rw [h.sound.not_opened] at hc
        cases hc
      exact ⟨c, (Function.update_of_ne hne ..).trans hc, rfl, rfl⟩
    · exact h.distinct.update fun other d endpointId _ _ hnone => by cases hnone
    · intro entry hentry
      exact Nat.lt_succ_of_lt (h.opened entry hentry)
  | turn id c c' hc hturn =>
    have hkeeps := hturn.keeps
    have hlinked := h.linked id c hc
    refine ⟨hsound, h.linked.update ?_, fun sender frame hframe => ?_, ?_, h.opened⟩
    · rw [hkeeps.sender]
      exact hturn.linked (h.routable_of_linked hlinked.registered) hlinked
    · exact (h.published sender frame hframe).mono (List.prefix_refl _) (Nat.le_refl _)
        (keeps_update _ hc (fun _ => hkeeps.endpointId) hkeeps.sender)
    · exact h.distinct.update_same hc hkeeps.endpointId
  | upgrade id now c hc hnone =>
    have hlinked := h.linked id c hc
    have hsame : ∀ endpointId, some s.nextEndpoint = some endpointId →
        endpointId = s.nextEndpoint := by
      intro endpointId hendpoint
      exact (Option.some.inj hendpoint).symm
    refine ⟨hsound, Connected.update ?_ (hlinked.upgraded hnone ?_ now),
      fun sender frame hframe => ?_, ?_, h.opened⟩
    · exact h.linked.mono fun id c hc => hc.mono (List.prefix_refl _) rfl (Nat.le_succ _)
    · intro frame hframe
      exact (h.published c.sender frame hframe).endpoint_lt
    · exact (h.published sender frame hframe).mono (List.prefix_refl _) (Nat.le_succ _)
        (keeps_update _ hc (fun hsome => absurd hnone hsome) rfl)
    · apply h.distinct.update
      intro other d endpointId _ hd hendpoint hclaimed
      have hlt := (h.linked other d hd).endpoint_lt endpointId hclaimed
      rw [hsame endpointId hendpoint] at hlt
      exact Nat.lt_irrefl _ hlt
  | send id messageId ciphertext c hc =>
    have hlinked := h.linked id c hc
    refine ⟨hsound, Connected.of_others ?_ (hlinked.sent hW messageId ciphertext),
      fun sender frame hframe => ?_, ?_, ?_⟩
    · intro other d hother hd
      exact (h.linked other d hd).mono (List.prefix_refl _) (sentBy_append_other hother _ _)
        (Nat.le_refl _)
    · exact (h.published sender frame hframe).mono (List.prefix_refl _) (Nat.le_refl _)
        (keeps_update _ hc (fun _ => rfl) rfl)
    · exact h.distinct.update_same hc rfl
    · intro entry hentry
      rcases List.mem_append.1 hentry with hentry | hentry
      · exact h.opened entry hentry
      · rw [List.mem_singleton.1 hentry]
        exact (h.sound.held id c hc).opened
  | forward id endpointId window frame rest c hc hendpoint houtgoing hroutable =>
    have hlinked := h.linked id c hc
    refine ⟨hsound, Connected.of_others ?_ ?_, fun sender routed hrouted => ?_, ?_, h.opened⟩
    · intro other d hother hd
      exact h.forward_other hc hendpoint hother hd frame
    · exact (update_send_self ..).symm ▸ hlinked.forward hendpoint houtgoing window
    · have hkeeps := keeps_update { c with window, outgoing := rest } hc (fun _ => rfl) rfl
      by_cases hsender : sender = c.sender
      · subst hsender
        rw [update_send_self] at hrouted
        rcases List.mem_append.1 hrouted with hold | hnew
        · exact (h.published c.sender routed hold).mono (List.prefix_refl _) (Nat.le_refl _) hkeeps
        · rw [List.mem_singleton.1 hnew]
          exact ⟨hlinked.endpoint_lt endpointId hendpoint, ⟨_, hlinked.registered, hroutable⟩,
            id, _, Function.update_self .., hendpoint, rfl⟩
      · rw [update_send_other s.channels hsender] at hrouted
        exact (h.published sender routed hrouted).mono (List.prefix_refl _) (Nat.le_refl _) hkeeps
    · exact h.distinct.update_same hc rfl

theorem routed_start (registrationSecret : Option Str) (publicOrigin : Bytes) :
    Routed W hashToken (start registrationSecret publicOrigin) := by
  refine ⟨sound_start _ _, ?_, ?_, ?_, ?_⟩
  · intro id c hc
    cases hc
  · intro sender frame hframe
    cases hframe
  · intro id c other c' endpointId hc
    cases hc
  · intro entry hentry
    cases hentry

theorem routed_reachable (hW : W.Lawful) (hinjective : Function.Injective hashToken)
    {registrationSecret : Option Str} {publicOrigin : Bytes}
    (h : (machine W hashToken).Reachable (start registrationSecret publicOrigin) s) :
    Routed W hashToken s :=
  h.invariant (fun s action hs => (step_does s action).routed hW hinjective hs) (routed_start _ _)

/-! ## The writer and the client run -/

/-- Connection `id` went from `c` to `c'` by turns of its writer and its client alone. -/
structure Runs (s : World) (id : Nat) (c : Connection) (s' : World) (c' : Connection) : Prop where
  connection : s'.connections id = some c'
  channels : s'.channels = s.channels
  registered : s'.registered = s.registered
  sender : c'.sender = c.sender
  since : c'.since = c.since
  endpointId : c'.endpointId = c.endpointId
  writing : c'.writing = c.writing

theorem Runs.trans {s₁ s₂ : World} {c c₁ c₂ : Connection} (h : Runs s id c s₁ c₁)
    (h' : Runs s₁ id c₁ s₂ c₂) : Runs s id c s₂ c₂ where
  connection := h'.connection
  channels := h'.channels.trans h.channels
  registered := h'.registered.trans h.registered
  sender := h'.sender.trans h.sender
  since := h'.since.trans h.since
  endpointId := h'.endpointId.trans h.endpointId
  writing := h'.writing.trans h.writing

theorem Runs.cons {s₁ : World} {c c₁ c₂ : Connection} {action : Action} {actions : List Action}
    (hstep : (step W hashToken s action).2 = s₁) (h : Runs s id c s₁ c₁)
    (hrest : Runs s₁ id c₁ ((machine W hashToken).final s₁ actions) c₂) :
    Runs s id c ((machine W hashToken).final s (action :: actions)) c₂ := by
  subst hstep
  exact h.trans hrest

/-- The receiver of a connection has not lagged. -/
def Keeping (s : World) (c : Connection) : Prop :=
  ¬ c.next + (s.channels c.sender).capacity < (s.channels c.sender).sent.length

instance (s : World) (c : Connection) : Decidable (Keeping s c) := inferInstanceAs (Decidable (¬ _))

section
variable {c : Connection} {endpointId : Nat}

variable (W hashToken) in
/-- The turn of a writer that has a frame to take. -/
theorem write_takes (hc : s.connections id = some c) (hendpoint : c.endpointId = some endpointId)
    (hwriting : c.writing = true) (hkeeping : Keeping s c) {frame : RoutedFrame}
    (hframe : (s.channels c.sender).sent[c.next]? = some frame) :
    step W hashToken s (.write id) =
      if frame.endpointId = endpointId then
        (.quiet, s.withConnection id { c with next := c.next + 1 })
      else (.delivered c.next frame, s.withConnection id
        { c with next := c.next + 1, incoming := c.incoming ++ [.binary frame.frame] }) := by
  have hrecv : (s.channels c.sender).recv c.next = (.value frame, c.next + 1) := by
    rw [Broadcast.recv, if_neg hkeeping, hframe]
    rfl
  simp only [step, onConnection, hc, Option.elim_some, hendpoint, hwriting, if_true, write, hrecv]

variable (hashToken) in
/-- The turn of a client whose connection is written to. -/
theorem recv_takes
    (hlinked : Linked W registered (s.channels c.sender).sent sends nextEndpoint id c)
    (hc : s.connections id = some c) (hwriting : c.writing = true) {message : WsMessage}
    {rest : List WsMessage} (hincoming : c.incoming = message :: rest) :
    ∃ received, step W hashToken s (.recv id) =
      (.quiet, s.withConnection id { c with incoming := rest, received }) := by
  obtain ⟨hlistening, hmessages⟩ := hlinked.streams hwriting
  have hmem : message ∈ c.incoming := by
    rw [hincoming]
    exact List.mem_cons_self
  simp only [step, onConnection, hc, Option.elim_some, hincoming, hlistening, if_true, recv]
  rcases hmessages message hmem with rfl | ⟨frame, rfl⟩
  · exact ⟨c.received, rfl⟩
  · rw [handle_routable (hlinked.incoming frame hmem)]
    exact ⟨_, rfl⟩

variable (W hashToken) in
/-- The writer takes what is left. -/
theorem exists_taken (hc : s.connections id = some c) (hendpoint : c.endpointId = some endpointId)
    (hwriting : c.writing = true) (hkeeping : Keeping s c)
    (hle : c.next ≤ (s.channels c.sender).sent.length) :
    ∃ actions, (∀ action ∈ actions, action = .write id) ∧ ∃ c',
      Runs s id c ((machine W hashToken).final s actions) c' ∧
        c'.next = (s.channels c.sender).sent.length := by
  generalize hleft : (s.channels c.sender).sent.length - c.next = left
  induction left generalizing s c with
  | zero =>
    exact ⟨[], by simp, c, ⟨hc, rfl, rfl, rfl, rfl, rfl, rfl⟩, by omega⟩
  | succ left ih =>
    have hlt : c.next < (s.channels c.sender).sent.length := by omega
    obtain ⟨c₁, hstep, hnext, hruns⟩ : ∃ c₁, (step W hashToken s (.write id)).2 =
        s.withConnection id c₁ ∧ c₁.next = c.next + 1 ∧
          Runs s id c (s.withConnection id c₁) c₁ := by
      have hturn := write_takes W hashToken hc hendpoint hwriting hkeeping
        (List.getElem?_eq_getElem hlt)
      split at hturn
      · exact ⟨_, congrArg Prod.snd hturn, rfl,
          ⟨Function.update_self .., rfl, rfl, rfl, rfl, rfl, rfl⟩⟩
      · exact ⟨_, congrArg Prod.snd hturn, rfl,
          ⟨Function.update_self .., rfl, rfl, rfl, rfl, rfl, rfl⟩⟩
    have hsent : ((s.withConnection id c₁).channels c₁.sender).sent =
        (s.channels c.sender).sent := by
      rw [hruns.channels, hruns.sender]
    obtain ⟨actions, hactions, c', hrest, hend⟩ := ih hruns.connection
      (hruns.endpointId.trans hendpoint) (hruns.writing.trans hwriting)
      (by
        rw [Keeping, hsent, hruns.channels, hruns.sender, hnext]
        exact fun hlags => hkeeping (by omega))
      (by rw [hsent]; omega) (by rw [hsent]; omega)
    exact ⟨.write id :: actions, List.forall_mem_cons.2 ⟨rfl, hactions⟩, c',
      hruns.cons hstep hrest, hend.trans (congrArg List.length hsent)⟩

/-- The client takes what is on its way. -/
theorem exists_heard (hW : W.Lawful) (hinjective : Function.Injective hashToken)
    (h : Routed W hashToken s) (hc : s.connections id = some c) (hwriting : c.writing = true) :
    ∃ actions, (∀ action ∈ actions, action = .recv id) ∧ ∃ c',
      Runs s id c ((machine W hashToken).final s actions) c' ∧ c'.incoming = [] ∧
        c'.next = c.next := by
  generalize hleft : c.incoming = left
  induction left generalizing s c with
  | nil => exact ⟨[], by simp, c, ⟨hc, rfl, rfl, rfl, rfl, rfl, rfl⟩, hleft, rfl⟩
  | cons message left ih =>
    obtain ⟨received, hturn⟩ := recv_takes hashToken (h.linked id c hc) hc hwriting hleft
    have hruns : Runs s id c (s.withConnection id { c with incoming := left, received })
        { c with incoming := left, received } :=
      ⟨Function.update_self .., rfl, rfl, rfl, rfl, rfl, rfl⟩
    have hnext :
        Routed W hashToken (s.withConnection id { c with incoming := left, received }) := by
      have hrouted := (step_does s (.recv id)).routed hW hinjective h
      rwa [congrArg Prod.snd hturn] at hrouted
    obtain ⟨actions, hactions, c', hrest, hend, hstays⟩ := ih hnext hruns.connection hwriting rfl
    exact ⟨.recv id :: actions, List.forall_mem_cons.2 ⟨rfl, hactions⟩, c',
      hruns.cons (congrArg Prod.snd hturn) hrest, hend, hstays⟩

end

/-! ## Delivery -/

/-- What an attached endpoint gets from its route, whose frames are `frames`. -/
structure Delivers (W : EnvelopeWire) (s : World) (frames : List RoutedFrame) (id : Nat)
    (c : Connection) (endpointId : Nat) : Prop where
  /-- What its client has received, what is on its way to it and what its writer has yet to take are
  the frames of others since it attached. -/
  receives : c.received ++ payloads W c.incoming ++
      ciphertexts W (ofOthers endpointId (frames.drop c.next)) =
    ciphertexts W (ofOthers endpointId (frames.drop c.since))
  /-- Every frame was published by an endpoint of the route, its own by itself. -/
  published : ∀ frame ∈ frames, ∃ other c', s.connections other = some c' ∧
    c'.routeId = c.routeId ∧ c'.endpointId = some frame.endpointId ∧
      (frame.endpointId = endpointId ↔ other = id)
  /-- The frames an endpoint of the route published, and those on their way to the relay, are what
  its client passed to `RelayClient::send`. -/
  sent : ∀ other c' endpointId', s.connections other = some c' → c'.routeId = c.routeId →
    c'.endpointId = some endpointId' →
      ciphertexts W (ofOwn endpointId' frames) ++ payloads W c'.outgoing = sentBy s.sends other

/-- What the writer and the client of an attached endpoint come to, as long as the writer runs and
its receiver has not lagged. -/
structure Progresses (W : EnvelopeWire) (hashToken : Str → Bytes) (s : World)
    (frames : List RoutedFrame) (id : Nat) (c : Connection) (endpointId : Nat) : Prop where
  /-- A writer that waits has nothing left to take. -/
  waits : (step W hashToken s (.write id)).1 = .waits → frames.drop c.next = []
  /-- A writer with frames to take hands over the first of them, or skips it when it is its own. -/
  writes : ∀ frame rest, frames.drop c.next = frame :: rest →
    step W hashToken s (.write id) =
      if frame.endpointId = endpointId then
        (.quiet, s.withConnection id { c with next := c.next + 1 })
      else (.delivered c.next frame, s.withConnection id
        { c with next := c.next + 1, incoming := c.incoming ++ [.binary frame.frame] })
  /-- When its writer and its client have run, the client has received every frame of others since
  it attached. -/
  receives : ∃ actions, (∀ action ∈ actions, action = .write id ∨ action = .recv id) ∧
    ∃ c', ((machine W hashToken).final s actions).connections id = some c' ∧
      c'.received = ciphertexts W (ofOthers endpointId (frames.drop c.since))

/-- Route identifiers are unique: one registration, and one channel, for each. -/
theorem eq_of_routeId {registered : List RegisteredRoute} {i j : Nat} {one two : RegisteredRoute}
    (h : (registered.map (·.routeId)).Nodup) (hone : registered[i]? = some one)
    (htwo : registered[j]? = some two) (hid : one.routeId = two.routeId) : i = j := by
  have hone' : (registered.map (·.routeId))[i]? = some one.routeId := by
    rw [List.getElem?_map, hone, Option.map_some]
  have htwo' : (registered.map (·.routeId))[j]? = some one.routeId := by
    rw [List.getElem?_map, htwo, Option.map_some, hid]
  exact (List.getElem?_inj (List.getElem?_eq_some_iff.1 hone').1 h).1 (hone'.trans htwo'.symm)

theorem Routed.delivers (h : Routed W hashToken s)
    (hfresh : (s.registered.map (·.routeId)).Nodup) {id endpointId : Nat} {c : Connection}
    (hc : s.connections id = some c) (hendpoint : c.endpointId = some endpointId) :
    Delivers W s (s.channels c.sender).sent id c endpointId := by
  have hlinked := h.linked id c hc
  refine ⟨?_, fun frame hframe => ?_, fun other c' endpointId' hc' hroute hendpoint' => ?_⟩
  · rw [Broadcast.drop_eq_segment_append hlinked.since_le, ofOthers_append, ciphertexts_append,
      hlinked.receives endpointId hendpoint]
  · obtain ⟨-, -, other, c', hc', hendpoint', hsender⟩ := h.published c.sender frame hframe
    have hregistered := (h.linked other c' hc').registered
    rw [hsender, hlinked.registered, Option.some.injEq, RegisteredRoute.mk.injEq] at hregistered
    refine ⟨other, c', hc', hregistered.1.symm, hendpoint', fun hown => ?_, fun hself => ?_⟩
    · exact h.distinct other c' id c endpointId hc' hc (hown ▸ hendpoint') hendpoint
    · subst hself
      obtain rfl : c' = c := Option.some.inj (hc'.symm.trans hc)
      exact Option.some.inj (hendpoint'.symm.trans hendpoint)
  · have hlinked' := h.linked other c' hc'
    have hsender : c'.sender = c.sender :=
      eq_of_routeId hfresh hlinked'.registered hlinked.registered hroute
    rw [← hsender]
    exact hlinked'.forwards endpointId' hendpoint'

theorem Routed.progresses (hW : W.Lawful) (hinjective : Function.Injective hashToken)
    (h : Routed W hashToken s) (hfresh : (s.registered.map (·.routeId)).Nodup) {id endpointId : Nat}
    {c : Connection} (hc : s.connections id = some c) (hendpoint : c.endpointId = some endpointId)
    (hwriting : c.writing = true) (hkeeping : Keeping s c) :
    Progresses W hashToken s (s.channels c.sender).sent id c endpointId := by
  have hle := (h.linked id c hc).next_le
  have hfinal (actions : List Action) :
      Routed W hashToken ((machine W hashToken).final s actions) :=
    Machine.final_invariant (fun s action hs => (step_does s action).routed hW hinjective hs) h _
  constructor
  · intro hwaits
    by_contra hleft
    obtain ⟨frame, rest, hdrop⟩ := List.exists_cons_of_ne_nil hleft
    have hframe : (s.channels c.sender).sent[c.next]? = some frame := by
      rw [← List.head?_drop, hdrop, List.head?_cons]
    rw [write_takes W hashToken hc hendpoint hwriting hkeeping hframe] at hwaits
    split at hwaits <;> cases hwaits
  · intro frame rest hdrop
    have hframe : (s.channels c.sender).sent[c.next]? = some frame := by
      rw [← List.head?_drop, hdrop, List.head?_cons]
    exact write_takes W hashToken hc hendpoint hwriting hkeeping hframe
  · obtain ⟨writes, hwrites, c₁, htaken, hend⟩ :=
      exists_taken W hashToken hc hendpoint hwriting hkeeping hle
    obtain ⟨recvs, hrecvs, c₂, hheard, hincoming, hnext⟩ := exists_heard hW hinjective
      (hfinal writes) htaken.connection (htaken.writing.trans hwriting)
    have hruns : Runs s id c ((machine W hashToken).final s (writes ++ recvs)) c₂ := by
      rw [Machine.final_append fun _ => rfl]
      exact htaken.trans hheard
    refine ⟨writes ++ recvs, fun action haction => ?_, c₂, hruns.connection, ?_⟩
    · exact (List.mem_append.1 haction).imp (hwrites action) (hrecvs action)
    · have hall := ((hfinal (writes ++ recvs)).delivers (by rwa [hruns.registered]) hruns.connection
        (hruns.endpointId.trans hendpoint)).receives
      rw [hruns.channels, hruns.sender, hruns.since, hincoming, hnext, hend,
        List.drop_length] at hall
      simpa [payloads, ofOthers, ciphertexts] using hall

/-- An endpoint attaches with the token that was registered for its route, and gets exactly what the
other endpoints of the route publish: in every state nothing is lost, and from every state its
writer and its client get to the end. -/
theorem delivers_exactly (W : EnvelopeWire) (hW : W.Lawful) (hashToken : Str → Bytes)
    (hinjective : Function.Injective hashToken) {registrationSecret : Option Str}
    {publicOrigin : Bytes} {s : World}
    (hs : (machine W hashToken).Reachable (start registrationSecret publicOrigin) s)
    (hfresh : (s.registered.map (·.routeId)).Nodup) {id : Nat} {c : Connection}
    (hc : s.connections id = some c) :
    (⟨c.routeId, c.token⟩ ∈ s.registered ∧
        ∀ drawn ∈ s.registered, drawn.routeId = c.routeId → drawn.token = c.token) ∧
      ∀ endpointId, c.endpointId = some endpointId →
        Delivers W s (s.channels c.sender).sent id c endpointId ∧
        (c.writing = true → Keeping s c →
          Progresses W hashToken s (s.channels c.sender).sent id c endpointId) := by
  have hrouted := routed_reachable hW hinjective hs
  have hregistered := (hrouted.linked id c hc).registered
  refine ⟨⟨List.mem_of_getElem? hregistered, fun drawn hdrawn hid => ?_⟩,
    fun endpointId hendpoint => ⟨hrouted.delivers hfresh hc hendpoint, fun hwriting hkeeping =>
      hrouted.progresses hW hinjective hfresh hc hendpoint hwriting hkeeping⟩⟩
  obtain ⟨i, hi⟩ := List.mem_iff_getElem?.1 hdrawn
  have hsame := eq_of_routeId hfresh hi hregistered hid
  rw [hsame, hregistered, Option.some.injEq] at hi
  rw [← hi]

/-- The first endpoint passed a frame to `send` before the second attached, and the relay forwarded
it after. -/
def lateEndpoint : World := (machine wire Str.utf8).final (start (some "secret") []) [
  .register ⟨"route", "token"⟩ [(registrationHeader, Str.utf8 "secret")],
  .websocket "route" [(routeTokenHeader, Str.utf8 "token")], .upgrade 0 0, .send 0 7 [1, 2, 3],
  .websocket "route" [(routeTokenHeader, Str.utf8 "token")], .upgrade 1 0, .read 0 0, .write 1,
  .recv 1]

theorem reachable_lateEndpoint :
    (machine wire Str.utf8).Reachable (start (some "secret") []) lateEndpoint :=
  Machine.reachable_final _ _

theorem delivers_exactly_late : ∃ c, lateEndpoint.connections 1 = some c ∧
    ⟨c.routeId, c.token⟩ ∈ lateEndpoint.registered ∧ c.received = [[1, 2, 3]] ∧
      Delivers wire lateEndpoint (lateEndpoint.channels c.sender).sent 1 c 2 ∧
      Progresses wire Str.utf8 lateEndpoint (lateEndpoint.channels c.sender).sent 1 c 2 := by
  obtain ⟨c, hc, hendpoint, hreceived, hwriting, hkeeping⟩ : ∃ c ∈ lateEndpoint.connections 1,
      c.endpointId = some 2 ∧ c.received = [[1, 2, 3]] ∧ c.writing = true ∧
        Keeping lateEndpoint c := by
    decide +kernel
  obtain ⟨⟨htoken, -⟩, hdelivers⟩ := delivers_exactly wire wire_lawful Str.utf8 Str.utf8_injective
    reachable_lateEndpoint (by decide +kernel) hc
  exact ⟨c, hc, htoken, hreceived, (hdelivers 2 hendpoint).1,
    (hdelivers 2 hendpoint).2 hwriting hkeeping⟩

/-- The second endpoint got a frame that nobody passed to `send` after it attached. -/
theorem earlier_frame_received :
    (machine wire Str.utf8).Reachable (start (some "secret") []) lateEndpoint ∧
      ∃ c ∈ lateEndpoint.connections 1, c.received = [[1, 2, 3]] ∧
        lateEndpoint.sends.drop c.sendsBefore = [] :=
  ⟨reachable_lateEndpoint, by decide +kernel⟩

end World

end LeaveCli.Relay
