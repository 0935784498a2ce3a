import LeaveCli.Core.EventStore
import LeaveCli.Lib.Run
import Mathlib.Data.Finmap

/-!
# Permission requests (`apps/leave/src/acp.rs`)

Everything that touches `pending_permissions`: for each `RequestPermissionRequest` its handler and
then the task the handler spawns, any number of `decide_permission` calls, and `cancel_session` in
the command loop. The runtime has several threads, so an `Action` is one indivisible operation:
what is done under one lock of the map, one use of a oneshot channel, one event, one answer to the
agent. Nothing is said about their order, and an action that does not fit the state changes nothing.

A oneshot sender is moved around and used once. Its place is the entry in `pending`, then the call
in `deciding` or the `Cancel` that took the entry.
-/

namespace LeaveCli.Acp

open Lib LeaveCli.Core

namespace Permissions

/-- What the handler reads of a `RequestPermissionRequest`. -/
structure PermissionRequest where
  sessionId : Str
  optionIds : List Str
  deriving DecidableEq

/-- `RequestPermissionOutcome`. -/
inductive Outcome
  | cancelled
  | selected (optionId : Str)
  deriving DecidableEq

def outcome (selected : Option Str) : Outcome := selected.elim .cancelled .selected

/-- An entry of `pending_permissions`. Its `decision_tx` belongs to the request it stands under. -/
structure PendingPermission where
  sessionId : Str
  optionIds : List Str
  deriving DecidableEq

/-! ## The handler of a request and its task -/

/-- The oneshot channel of a request. -/
inductive Channel
  | empty
  | sent (decision : Option Str)
  /-- `decision_rx` has read its value or is gone. -/
  | closed
  deriving DecidableEq

inductive Phase
  /-- About to publish `permission_requested`. -/
  | publishing
  /-- About to respond `Cancelled`, since the request could not be encoded or published. -/
  | denying
  /-- The event is out, the entry is not in the map yet. -/
  | registering
  | spawning
  /-- The task polls `timeout(PERMISSION_TIMEOUT, decision_rx)`. -/
  | waiting
  /-- A poll found the channel empty and then the timer run out; `decision_rx` is not dropped
  yet. -/
  | elapsed
  | removing (selected : Option Str)
  | responding (selected : Option Str)
  | recording (selected : Option Str)
  | over
  deriving DecidableEq

structure Handling where
  request : PermissionRequest
  phase : Phase
  channel : Channel
  deriving DecidableEq

/-- The handler or the task ends, and drops what it holds. -/
def Handling.ended (a : Handling) : Handling := { a with phase := .over, channel := .closed }

/-! ## The command loop -/

inductive CancelStage
  /-- About to send the `CancelNotification`. -/
  | notifying
  | collecting
  /-- The loop over the `request_ids` that are left. -/
  | removing (requestIds : List Uuid)
  /-- The entry is removed, its sender is about to send `None`. -/
  | sending (requestId : Uuid) (requestIds : List Uuid)
  | updating
  | recording
  | replying
  deriving DecidableEq

/-- A `cancel_session` under way. -/
structure Cancel where
  sessionId : Str
  stage : CancelStage
  deriving DecidableEq

/-! ## The machine -/

/-- `Some error` in a `fault` is the error of the call that fails. -/
inductive Action
  /-- The agent asks, and `Uuid::now_v7` gives the request an identifier. -/
  | request (requestId : Uuid) (request : PermissionRequest) (fault : Option Str)
  /-- The handler or the task of a request makes its next step. -/
  | proceed (requestId : Uuid) (elapsed : Bool) (fault : Option Str)
  /-- A client calls `decide_permission`. -/
  | decide (requestId : Uuid) (optionId : Option Str)
  /-- A call of `decide_permission` that holds a sender sends. -/
  | send (requestId : Uuid) (optionId : Option Str)
  /-- The command loop takes a `WorkerCommand::Cancel`. -/
  | cancel (sessionId : Str)
  /-- `cancel_session` makes its next step. -/
  | pursue (requestIds : List Uuid) (fault : Option Str)
  deriving DecidableEq

inductive Output
  | none
  | broadcast (sessionId : Str) (payload : Payload)
  | respond (requestId : Uuid) (outcome : Outcome)
  /-- A `decide_permission` call returns. -/
  | decided (requestId : Uuid) (optionId : Option Str) (result : Except Str Unit)
  /-- `cancel_session` returns. -/
  | cancelled (sessionId : Str) (result : Except Str Unit)
  deriving DecidableEq

end Permissions

open Permissions

structure Permissions where
  /-- The requests of the agent. -/
  requests : Finmap fun _ : Uuid => Handling
  /-- `pending_permissions`. -/
  pending : Finmap fun _ : Uuid => PendingPermission
  /-- The calls of `decide_permission` that hold a sender. -/
  deciding : Multiset (Uuid × Option Str)
  cancelling : Option Cancel

namespace Permissions

def set (h : Permissions) (requestId : Uuid) (a : Handling) : Permissions :=
  { h with requests := h.requests.insert requestId a }

/-- A request comes in: it gets an identifier of its own, and is encoded. -/
def ask (h : Permissions) (requestId : Uuid) (request : PermissionRequest) (fault : Option Str) :
    Output × Permissions :=
  if requestId ∈ h.requests then (.none, h)
  else match fault with
    | some _ => (.none, h.set requestId ⟨request, .denying, .empty⟩)
    | none => (.none, h.set requestId ⟨request, .publishing, .empty⟩)

/-- The next step of the handler or the task of a request. -/
def advance (h : Permissions) (requestId : Uuid) (a : Handling) (elapsed : Bool)
    (fault : Option Str) : Output × Permissions :=
  match a.phase with
  | .publishing =>
    match fault with
    | some _ => (.none, h.set requestId { a with phase := .denying })
    | none => (.broadcast a.request.sessionId (.permissionRequested requestId),
        h.set requestId { a with phase := .registering })
  | .denying =>
    (if fault.isSome then .none else .respond requestId .cancelled, h.set requestId a.ended)
  | .registering =>
    (.none, { h.set requestId { a with phase := .spawning } with
      pending := h.pending.insert requestId ⟨a.request.sessionId, a.request.optionIds⟩ })
  | .spawning =>
    match fault with
    | some _ => (.none, h.set requestId a.ended)
    | none => (.none, h.set requestId { a with phase := .waiting })
  | .waiting =>
    -- `timeout` polls the channel first and looks at the timer when it is empty.
    match a.channel with
    | .sent decision =>
      (.none, h.set requestId { a with phase := .removing decision, channel := .closed })
    | _ => if elapsed then (.none, h.set requestId { a with phase := .elapsed }) else (.none, h)
  | .elapsed => (.none, h.set requestId { a with phase := .removing none, channel := .closed })
  | .removing selected =>
    (.none, { h.set requestId { a with phase := .responding selected } with
      pending := h.pending.erase requestId })
  | .responding selected =>
    match fault with
    | some _ => (.none, h.set requestId a.ended)
    | none => (.respond requestId (outcome selected),
        h.set requestId { a with phase := .recording selected })
  | .recording selected =>
    (if fault.isSome then .none
      else .broadcast a.request.sessionId (.permissionResolved requestId selected),
      h.set requestId a.ended)
  | .over => (.none, h)

/-- `oneshot::Sender::send`: whether the value went into the channel. -/
def deliver (h : Permissions) (requestId : Uuid) (decision : Option Str) : Bool × Permissions :=
  match h.requests.lookup requestId with
  | some a =>
    match a.channel with
    | .empty => (true, h.set requestId { a with channel := .sent decision })
    | _ => (false, h)
  | none => (false, h)

/-- `decide_permission` up to `drop(permissions)`. -/
def decide (h : Permissions) (requestId : Uuid) (optionId : Option Str) : Output × Permissions :=
  match h.pending.lookup requestId with
  | none => (.decided requestId optionId (.error "permission request is no longer pending"), h)
  | some permission =>
    if optionId.any fun optionId => optionId ∉ permission.optionIds then
      (.decided requestId optionId (.error "permission option is not valid for this request"), h)
    else
      (.none, { h with
        pending := h.pending.erase requestId
        deciding := (requestId, optionId) ::ₘ h.deciding })

/-- The end of `decide_permission`. -/
def send (h : Permissions) (requestId : Uuid) (optionId : Option Str) : Output × Permissions :=
  if (requestId, optionId) ∈ h.deciding then
    match deliver { h with deciding := h.deciding.erase (requestId, optionId) } requestId
      optionId with
    | (true, h) => (.decided requestId optionId (.ok ()), h)
    | (false, h) =>
      (.decided requestId optionId (.error "permission request has already expired"), h)
  else (.none, h)

/-- The requests of a session that are pending. -/
def pendingOf (h : Permissions) (sessionId : Str) : Finset Uuid :=
  h.pending.keys.filter fun requestId =>
    (h.pending.lookup requestId).any fun pending => pending.sessionId = sessionId

def toStage (h : Permissions) (c : Cancel) (stage : CancelStage) : Permissions :=
  { h with cancelling := some { c with stage } }

/-- The next step of `cancel_session`; a `HashMap` is iterated in any order. -/
def cancelSession (h : Permissions) (c : Cancel) (requestIds : List Uuid) (fault : Option Str) :
    Output × Permissions :=
  match c.stage with
  | .notifying =>
    match fault with
    | some _ => (.cancelled c.sessionId (.error "could not send ACP cancellation"),
        { h with cancelling := none })
    | none => (.none, h.toStage c .collecting)
  | .collecting =>
    if ↑requestIds = (h.pendingOf c.sessionId).val then (.none, h.toStage c (.removing requestIds))
    else (.none, h)
  | .removing [] => (.none, h.toStage c .updating)
  | .removing (requestId :: requestIds) =>
    if requestId ∈ h.pending then
      (.none, { h.toStage c (.sending requestId requestIds) with
        pending := h.pending.erase requestId })
    else (.none, h.toStage c (.removing requestIds))
  | .sending requestId requestIds =>
    (.none, ((h.toStage c (.removing requestIds)).deliver requestId none).2)
  | .updating =>
    match fault with
    | some error => (.cancelled c.sessionId (.error error), { h with cancelling := none })
    | none => (.none, h.toStage c .recording)
  | .recording =>
    match fault with
    | some error => (.cancelled c.sessionId (.error error), { h with cancelling := none })
    | none => (.broadcast c.sessionId (.sessionCancelled c.sessionId), h.toStage c .replying)
  | .replying => (.cancelled c.sessionId (.ok ()), { h with cancelling := none })

def step (h : Permissions) : Action → Output × Permissions
  | .request requestId request fault => h.ask requestId request fault
  | .proceed requestId elapsed fault =>
    match h.requests.lookup requestId with
    | some a => h.advance requestId a elapsed fault
    | none => (.none, h)
  | .decide requestId optionId => h.decide requestId optionId
  | .send requestId optionId => h.send requestId optionId
  | .cancel sessionId =>
    match h.cancelling with
    | none => (.none, { h with cancelling := some ⟨sessionId, .notifying⟩ })
    | some _ => (.none, h)
  | .pursue requestIds fault =>
    match h.cancelling with
    | some c => h.cancelSession c requestIds fault
    | none => (.none, h)

/-- No request, no call. -/
def fresh : Permissions := ⟨∅, ∅, 0, none⟩

end Permissions

/-- Every interleaving: runs of this machine. -/
def permissions : Machine Permissions Action Output where
  step := Permissions.step
  halts := fun _ => false

end LeaveCli.Acp
