import LeaveCli.Lib.Text
import Mathlib.Data.Finset.Insert

/-!
# The host's database (`crates/leave-core/src/event_store.rs`, `migrations/host.sql`)

The tables the ACP worker reads and writes: sessions by their identifier, claimed command
identifiers, and the event log. Each operation is one SQL statement, which SQLite runs whole or
not at all; that a statement can fail is the caller's business. Timestamps and event identifiers
are left out, and a payload is the JSON value behind its bytes.
-/

namespace LeaveCli.Core

open Lib

/-- A `Uuid`. -/
abbrev Uuid := BitVec 128

/-- One locally registered workspace. -/
structure WorkspaceRecord where
  id : Uuid
  name : Str
  /-- Canonical host path which bounds all file operations. -/
  canonicalPath : Str
  exposeHistory : Bool
  exposeProjectCustomization : Bool
  exposeGlobalCustomization : Bool
  deriving DecidableEq

/-- The host-observed lifecycle state of a session. -/
inductive SessionState
  | idle | working | offline
  deriving DecidableEq, Repr

/-- One Devin session known to the local Leave host. -/
structure SessionRecord where
  /-- Opaque identifier issued by the ACP agent. -/
  sessionId : Str
  workspaceId : Uuid
  title : Str
  state : SessionState
  deriving DecidableEq

/-- The body of an event; the constructor is the event's kind. -/
inductive Payload
  | acpReady
  | hostError (message : Str)
  | sessionUpdate
  | permissionRequested (requestId : Uuid)
  | permissionResolved (requestId : Uuid) (optionId : Option Str)
  | sessionCreated (session : SessionRecord)
  | sessionResumed (sessionId : Str)
  | sessionCancelled (sessionId : Str)
  | userPrompt (commandId : Uuid) (text : Str)
  | promptCompleted
  | promptFailed (message : Str)
  deriving DecidableEq

/-- The event discriminator in the `kind` column. -/
def Payload.kind : Payload → Str
  | .acpReady => "acp_ready"
  | .hostError _ => "host_error"
  | .sessionUpdate => "session_update"
  | .permissionRequested _ => "permission_requested"
  | .permissionResolved _ _ => "permission_resolved"
  | .sessionCreated _ => "session_created"
  | .sessionResumed _ => "session_resumed"
  | .sessionCancelled _ => "session_cancelled"
  | .userPrompt _ _ => "user_prompt"
  | .promptCompleted => "prompt_completed"
  | .promptFailed _ => "prompt_failed"

/-- The `commandId` of a `user_prompt`. -/
def Payload.commandId : Payload → Option Uuid
  | .userPrompt commandId _ => some commandId
  | _ => none

/-- A durable host event appended before network fanout. -/
structure EventRecord where
  /-- Host-local monotonic replay position. -/
  sequence : Nat
  workspaceId : Uuid
  sessionId : Option Str
  payload : Payload
  deriving DecidableEq

/-- Result of claiming an at-least-once command ID. -/
inductive CommandClaim
  | new | duplicate
  deriving DecidableEq, Repr

/-- SQLite-backed authoritative local event and workspace store. -/
structure EventStore where
  /-- `sessions`, by its primary key. -/
  sessions : Str → Option SessionRecord
  /-- `command_deduplication`. -/
  claimed : Finset Uuid
  /-- `events`, oldest first. -/
  events : List EventRecord

namespace EventStore

/-- A database that was just created. -/
def empty : EventStore := ⟨fun _ => none, ∅, []⟩

def upsertSession (store : EventStore) (session : SessionRecord) : EventStore :=
  { store with sessions := Function.update store.sessions session.sessionId (some session) }

/-- Return one session when it belongs to the requested workspace. -/
def getSession (store : EventStore) (workspaceId : Uuid) (sessionId : Str) :
    Option SessionRecord :=
  (store.sessions sessionId).filter fun session => session.workspaceId = workspaceId

/-- Update the state of one session, and say whether it has a row. -/
def updateSessionState (store : EventStore) (sessionId : Str) (state : SessionState) :
    EventStore × Bool :=
  match store.sessions sessionId with
  | none => (store, false)
  | some session => (store.upsertSession { session with sessionId, state }, true)

/-- Mark all persisted sessions in a workspace as needing ACP resume. -/
def markWorkspaceSessionsOffline (store : EventStore) (workspaceId : Uuid) : EventStore :=
  { store with
    sessions := fun sessionId => (store.sessions sessionId).map fun session =>
      if session.workspaceId = workspaceId then { session with state := .offline } else session }

/-- `INSERT OR IGNORE`: remember a command ID, and say whether it was unknown. -/
def claimCommand (store : EventStore) (commandId : Uuid) : EventStore × CommandClaim :=
  if commandId ∈ store.claimed then (store, .duplicate)
  else ({ store with claimed := insert commandId store.claimed }, .new)

/-- Append an event and return its record: `AUTOINCREMENT` gives it the next sequence. -/
def appendEvent (store : EventStore) (workspaceId : Uuid) (sessionId : Option Str)
    (payload : Payload) : EventStore × EventRecord :=
  let event := ⟨store.events.length + 1, workspaceId, sessionId, payload⟩
  ({ store with events := store.events ++ [event] }, event)

/-- The state of a session that has a row. -/
def stateOf (store : EventStore) (sessionId : Str) : Option SessionState :=
  (store.sessions sessionId).map (·.state)

/-- The `user_prompt` events of a command. -/
def promptEvents (store : EventStore) (commandId : Uuid) : List EventRecord :=
  store.events.filter fun event => event.payload.commandId = some commandId

/-! ## What each statement touches -/

variable (store : EventStore)

@[simp] theorem upsertSession_claimed (session : SessionRecord) :
    (store.upsertSession session).claimed = store.claimed := rfl

@[simp] theorem upsertSession_events (session : SessionRecord) :
    (store.upsertSession session).events = store.events := rfl

@[simp] theorem updateSessionState_claimed (sessionId : Str) (state : SessionState) :
    (store.updateSessionState sessionId state).1.claimed = store.claimed := by
  unfold updateSessionState
  split <;> rfl

@[simp] theorem updateSessionState_events (sessionId : Str) (state : SessionState) :
    (store.updateSessionState sessionId state).1.events = store.events := by
  unfold updateSessionState
  split <;> rfl

@[simp] theorem markWorkspaceSessionsOffline_claimed (workspaceId : Uuid) :
    (store.markWorkspaceSessionsOffline workspaceId).claimed = store.claimed := rfl

@[simp] theorem markWorkspaceSessionsOffline_events (workspaceId : Uuid) :
    (store.markWorkspaceSessionsOffline workspaceId).events = store.events := rfl

@[simp] theorem appendEvent_claimed (workspaceId : Uuid) (sessionId : Option Str)
    (payload : Payload) : (store.appendEvent workspaceId sessionId payload).1.claimed =
      store.claimed := rfl

@[simp] theorem appendEvent_sessions (workspaceId : Uuid) (sessionId : Option Str)
    (payload : Payload) : (store.appendEvent workspaceId sessionId payload).1.sessions =
      store.sessions := rfl

@[simp] theorem upsertSession_promptEvents (session : SessionRecord) (commandId : Uuid) :
    (store.upsertSession session).promptEvents commandId = store.promptEvents commandId := rfl

@[simp] theorem updateSessionState_promptEvents (sessionId : Str) (state : SessionState)
    (commandId : Uuid) : (store.updateSessionState sessionId state).1.promptEvents commandId =
      store.promptEvents commandId := by
  simp [promptEvents]

@[simp] theorem markWorkspaceSessionsOffline_promptEvents (workspaceId commandId : Uuid) :
    (store.markWorkspaceSessionsOffline workspaceId).promptEvents commandId =
      store.promptEvents commandId := rfl

theorem promptEvents_appendEvent (workspaceId : Uuid) (sessionId : Option Str) (payload : Payload)
    (commandId : Uuid) :
    (store.appendEvent workspaceId sessionId payload).1.promptEvents commandId =
      store.promptEvents commandId ++ if payload.commandId = some commandId then
        [⟨store.events.length + 1, workspaceId, sessionId, payload⟩] else [] := by
  simp only [promptEvents, appendEvent, List.filter_append, List.filter_singleton]
  simp

/-! ## Session states -/

theorem stateOf_upsertSession (session : SessionRecord) (sessionId : Str) :
    (store.upsertSession session).stateOf sessionId =
      if sessionId = session.sessionId then some session.state else store.stateOf sessionId := by
  simp only [stateOf, upsertSession, Function.update_apply]
  split <;> rfl

/-- An update sets the state of the session that has a row, and of no other. -/
theorem stateOf_updateSessionState (sessionId : Str) (state : SessionState) (other : Str) :
    (store.updateSessionState sessionId state).1.stateOf other =
      if other = sessionId then (store.stateOf sessionId).map fun _ => state
      else store.stateOf other := by
  cases h : store.sessions sessionId with
  | none =>
    have hst : store.stateOf sessionId = none := by simp [stateOf, h]
    have hup : store.updateSessionState sessionId state = (store, false) := by
      simp [updateSessionState, h]
    by_cases hother : other = sessionId
    · simp [hup, hother, hst]
    · simp [hup, hother]
  | some session =>
    have hst : store.stateOf sessionId = some session.state := by simp [stateOf, h]
    simp [updateSessionState, h, stateOf_upsertSession, hst]

theorem stateOf_markWorkspaceSessionsOffline (workspaceId : Uuid) (sessionId : Str) :
    (store.markWorkspaceSessionsOffline workspaceId).stateOf sessionId =
      (store.sessions sessionId).map fun session =>
        if session.workspaceId = workspaceId then .offline else session.state := by
  simp only [stateOf, markWorkspaceSessionsOffline, Option.map_map]
  refine congrArg (fun f => (store.sessions sessionId).map f) (funext fun session => ?_)
  show SessionRecord.state (if _ then _ else _) = _
  split <;> rfl

theorem updateSessionState_sessions (sessionId : Str) (state : SessionState) (other : Str) :
    (store.updateSessionState sessionId state).1.sessions other =
      if other = sessionId then (store.sessions sessionId).map fun session =>
        { session with sessionId, state }
      else store.sessions other := by
  cases h : store.sessions sessionId with
  | none =>
    by_cases hother : other = sessionId
    · simp [updateSessionState, h, hother]
    · simp [updateSessionState, h, hother]
  | some session => simp [updateSessionState, h, upsertSession, Function.update_apply]

theorem updateSessionState_snd (sessionId : Str) (state : SessionState) :
    (store.updateSessionState sessionId state).2 = (store.stateOf sessionId).isSome := by
  unfold updateSessionState stateOf
  cases store.sessions sessionId <;> rfl

variable {store} in
theorem getSession_eq_some {workspaceId : Uuid} {sessionId : Str} {session : SessionRecord} :
    store.getSession workspaceId sessionId = some session ↔
      store.sessions sessionId = some session ∧ session.workspaceId = workspaceId := by
  simp [getSession, Option.filter_eq_some_iff]

end EventStore

end LeaveCli.Core
