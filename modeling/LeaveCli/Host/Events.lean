import LeaveCli.Core.Database
import LeaveCli.Host.LocalServer

/-!
# The event pages (`apps/leave/src/local_server.rs`, `apps/leave/src/acp.rs`)

`workspaceEvents` and `sessionEvents` answer a client that replays the log from its cursor. A
payload stays the bytes of its JSON value; `LocalEvent.fromRecord` parses it, which no cursor
depends on.
-/

namespace LeaveCli.Host

open Lib LeaveCli.Core

/-- Browser-safe representation of one durably appended host event. -/
structure LocalEvent where
  sequence : Int
  eventId : Uuid
  workspaceId : Uuid
  sessionId : Option Str
  kind : Str
  occurredAtUnixMs : Int
  payload : Bytes
  deriving DecidableEq, Repr

def LocalEvent.fromRecord (record : EventRow) : LocalEvent :=
  ⟨record.sequence, record.eventId, record.workspaceId, record.sessionId, record.kind,
    record.occurredAtUnixMs, record.payload⟩

structure EventQuery where
  after : Int
  limit : Nat

/-- `#[serde(default)]` and `default_event_limit`. -/
def EventQuery.default : EventQuery := ⟨0, 500⟩

structure EventPage where
  events : List LocalEvent
  nextCursor : Int
  deriving DecidableEq, Repr

def eventPage (records : List EventRow) : EventPage :=
  let events := records.map LocalEvent.fromRecord
  ⟨events, events.getLast?.elim 0 LocalEvent.sequence⟩

def ApiError.notFound (message : Str) : ApiError := ⟨404, message⟩

/-- The part of `LocalServerState` the event handlers read. -/
structure EventServer where
  store : Tables
  workspaceId : Uuid

namespace EventServer

variable (state : EventServer)

def requireSession (sessionId : Str) : Except ApiError SessionRow :=
  (state.store.getSession state.workspaceId sessionId).elim
    (.error (.notFound "session was not found in this workspace")) .ok

def workspaceEvents (query : EventQuery) : Except ApiError EventPage :=
  .ok (eventPage (state.store.eventsAfter state.workspaceId (max query.after 0) query.limit))

def sessionEvents (sessionId : Str) (query : EventQuery) : Except ApiError EventPage := do
  let _ ← state.requireSession sessionId
  .ok (eventPage
    (state.store.sessionEventsAfter state.workspaceId sessionId (max query.after 0) query.limit))

end EventServer

/-- Which log a client follows: the workspace's or one session's. -/
inductive EventScope
  | workspace
  | session (sessionId : Str)

namespace EventScope

/-- The request a client of this scope makes. -/
def events (scope : EventScope) (state : EventServer) (query : EventQuery) :
    Except ApiError EventPage :=
  match scope with
  | .workspace => state.workspaceEvents query
  | .session sessionId => state.sessionEvents sessionId query

/-- The events that belong to the scope. -/
def includes (scope : EventScope) (workspaceId : Uuid) (row : EventRow) : Bool :=
  match scope with
  | .workspace => row.workspaceId = workspaceId
  | .session sessionId => row.workspaceId = workspaceId ∧ row.sessionId = some sessionId

/-- All events of the scope, in the order they were appended. -/
def log (scope : EventScope) (state : EventServer) : List LocalEvent :=
  (state.store.events.filter (scope.includes state.workspaceId)).map LocalEvent.fromRecord

/-- The server answers the scope's requests with a page. -/
def Known (scope : EventScope) (state : EventServer) : Prop :=
  match scope with
  | .workspace => True
  | .session sessionId => (state.store.getSession state.workspaceId sessionId).isSome

end EventScope

end LeaveCli.Host
