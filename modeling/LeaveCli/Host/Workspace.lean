import LeaveCli.Host.RelayTunnel

/-!
# A workspace and its devices

The host's loop together with the other members' sessions (`crates/leave-crypto/src/session.rs`,
`browser.rs`). After each pass of the loop every member takes what the host sent, and the device
that asked to join reads its welcome. What members seal themselves moves nobody to another epoch
and is left out.
-/

namespace LeaveCli.Host

open Lib Protocol Crypto Transport

variable {D : Platform} {Holds : D.mls.Provider → D.mls.KeyPackage → Prop}

/-- A frame from the relay. A key package in it was published by the joiner, who keeps its keys. -/
structure Arrival (D : Platform) (Holds : D.mls.Provider → D.mls.KeyPackage → Prop) where
  incoming : Incoming
  joiner : DeviceIdentity D.mls
  holds : ∀ keyPackage presented k, Requests incoming.frame keyPackage presented →
    parseKeyPackage D.mls keyPackage = .ok k → Holds joiner.provider k

/-- The host, and the session of the member at each leaf. -/
structure Workspace (D : Platform) where
  host : RouteService D
  devices : Nat → Option (WorkspaceSession D.mls)

/-- A member takes a frame of the route: it applies a commit, and opens a message. -/
def receive {M : Mls} (device : WorkspaceSession M) (frame : Bytes) : WorkspaceSession M :=
  if isPairingFrame frame then device else (device.applyCommit frame).1

/-- `PendingPairing::complete`: the device that asked to join reads the welcome. -/
def complete {M : Mls} (joiner : DeviceIdentity M) (frame : Bytes) :
    Except CryptoError (WorkspaceSession M) :=
  match readPairingWelcome frame with
  | .error e => .error e
  | .ok welcome => WorkspaceSession.join joiner welcome

namespace Workspace

/-- The devices once the frame the host sent has been taken. -/
def deliver (w : Workspace D) (a : Arrival D Holds) (frame : Bytes) :
    Nat → Option (WorkspaceSession D.mls) :=
  let devices := fun leaf => (w.devices leaf).map fun device => receive device frame
  if isPairingFrame a.incoming.frame then
    match complete a.joiner frame with
    | .error _ => devices
    | .ok device => Function.update devices (D.mls.ownLeaf device.group) (some device)
  else devices

/-- One pass of the loop, and what the devices make of it. -/
def serve (w : Workspace D) (a : Arrival D Holds) : Outcome × Workspace D :=
  ((serveFrame w.host a.incoming).1, {
    host := (serveFrame w.host a.incoming).2
    devices := match (serveFrame w.host a.incoming).1.sent with
      | none => w.devices
      | some envelope => w.deliver a envelope.ciphertext })

variable (D Holds) in
/-- The host's loop with its devices, up to the first error of the loop. -/
def route : Machine (Workspace D) (Arrival D Holds) Outcome where
  step := serve
  halts := fun o => o.failed.isSome

end Workspace

end LeaveCli.Host
