import LeaveCli.Host.RelayTunnel
import LeaveCli.Lib.Exchange

/-!
# A host and a browser across the relay

The loop of `serve_route` (`apps/leave/src/relay_tunnel.rs`) and one browser session
(`crates/leave-crypto/src/browser.rs`) with a relay between them that keeps the order of what it
carries, may lose it, and may hand either side frames of its own or frames that have arrived before.
`channel` is what the two make of it: the same host asked in the clear by a device it knows, over
`Exchange.machine`.
-/

namespace LeaveCli.Host

open Lib Protocol Crypto Transport

/-- One direction of the relay. -/
structure Lane where
  /-- How many frames were lost since one arrived. -/
  lost : Nat := 0
  queue : List Bytes := []
  /-- The frames that have arrived. -/
  arrived : List Bytes := []

namespace Lane

def send (lane : Lane) (frames : List Bytes) : Lane := { lane with queue := lane.queue ++ frames }

def lose (lane : Lane) : Lane :=
  match lane.queue with
  | [] => lane
  | _ :: queue => { lane with lost := lane.lost + 1, queue }

/-- The next frame arrives. -/
def next (lane : Lane) : Option (Bytes × Lane) :=
  match lane.queue with
  | [] => none
  | frame :: queue => some (frame, ⟨0, queue, lane.arrived ++ [frame]⟩)

end Lane

/-- Both sides, and the frames under way. -/
structure Conversation (D : Platform) where
  host : RouteService D
  browser : WorkspaceSession D.mls
  toHost : Lane := {}
  toBrowser : Lane := {}

inductive Turn
  /-- The page seals a request. -/
  | ask (payload : Bytes)
  /-- The host takes the next frame. -/
  | serve (connected : Bool)
  /-- The page opens the next frame. -/
  | hear
  | loseRequest
  | loseAnswer
  /-- A frame of the relay's own, for the host. -/
  | intrude (incoming : Incoming)
  /-- A frame of the relay's own, for the page. -/
  | mislead (frame : Bytes)

/-- What one turn shows. -/
structure Said where
  asked : Option Bytes := none
  outcome : Option Outcome := none
  heard : Option OpenedMessage := none

namespace Conversation

variable {D : Platform}

/-- The host takes a frame; what it sends is on its way to the browser. -/
def take (c : Conversation D) (incoming : Incoming) : Said × Conversation D :=
  let served := serveFrame c.host incoming
  ({ outcome := some served.1 }, { c with
    host := served.2
    toBrowser := c.toBrowser.send (served.1.sent.toList.map RelayEnvelope.ciphertext) })

/-- The page opens a frame. -/
def open_ (c : Conversation D) (frame : Bytes) : Said × Conversation D :=
  let opened := c.browser.openFrame frame
  ({ heard := opened.2.toOption }, { c with browser := opened.1 })

def turn (c : Conversation D) : Turn → Said × Conversation D
  | .ask payload =>
    match c.browser.sealFrame payload with
    | (browser, .error _) => ({}, { c with browser })
    | (browser, .ok frame) =>
      ({ asked := some payload }, { c with browser, toHost := c.toHost.send [frame] })
  | .serve connected =>
    match c.toHost.next with
    | none => ({}, c)
    | some (frame, toHost) => { c with toHost }.take ⟨frame, connected⟩
  | .hear =>
    match c.toBrowser.next with
    | none => ({}, c)
    | some (frame, toBrowser) => { c with toBrowser }.open_ frame
  | .loseRequest => ({}, { c with toHost := c.toHost.lose })
  | .loseAnswer => ({}, { c with toBrowser := c.toBrowser.lose })
  | .intrude incoming => c.take incoming
  | .mislead frame => c.open_ frame

variable (D) in
/-- The conversation, up to the first error of the host's loop. -/
def machine : Machine (Conversation D) Turn Said where
  step := turn
  halts said := said.outcome.any fun outcome => outcome.failed.isSome

end Conversation

/-! ## In the clear -/

/-- What the host does for a device it knows, by what the device asks. -/
abbrev Answer := Option HttpRequest × TunnelResponse

/-- The answer to a device that manages no members. -/
def answerDevice {D : Platform} (registry : DeviceRegistry) (deviceId : Str) (router : D.Router)
    (payload : Bytes) : D.Router × Answer :=
  let opened : OpenedMessage := ⟨deviceId, payload⟩
  match revocationTarget D.wire opened with
  | some _ => (router, none,
      refusal (exchangeIdOf D.wire opened) 403 "only a workspace owner may revoke a device")
  | none =>
    let handled : Handled D := handle router registry opened
    (handled.router, handled.dispatched, handled.response)

/-- The host asked in the clear. -/
def channel (D : Platform) (registry : DeviceRegistry) (deviceId : Str) :
    Machine (Exchange.Link D.Router Bytes Answer) (Exchange.Move Bytes)
      (Exchange.Event Bytes Answer) :=
  Exchange.machine (answerDevice registry deviceId)

/-- What a turn is on the link; the relay's own frames are nothing. -/
def Turn.move : Turn → Exchange.Move Bytes
  | .ask payload => .ask payload
  | .serve _ => .serve
  | .hear => .hear
  | .loseRequest => .loseRequest
  | .loseAnswer => .loseAnswer
  | .intrude _ => .idle
  | .mislead _ => .idle

end LeaveCli.Host
