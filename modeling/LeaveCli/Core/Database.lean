import LeaveCli.Core.EventStore
import LeaveCli.Lib.Table
import Mathlib.Data.List.Sort
import Mathlib.Data.List.Lex
import Mathlib.Data.Char

/-!
# The tables behind the event store (`crates/leave-core/src/event_store.rs`, `migrations/host.sql`)

`EventStore` keeps what the ACP worker asks about. Here are the tables themselves, with every
column, the constraints of the schema and the statements that can break them. A statement that
violates a constraint fails and changes nothing. `Tables.Valid` is what the schema enforces: unique
keys, foreign keys, and event sequences that `AUTOINCREMENT` never reuses.
-/

namespace LeaveCli.Core

open Lib

/-- A row of `sessions`. -/
structure SessionRow where
  sessionId : Str
  workspaceId : Uuid
  title : Str
  state : Str
  createdAtUnixMs : Int
  updatedAtUnixMs : Int
  deriving DecidableEq, Repr

/-- A row of `events`. -/
structure EventRow where
  /-- Host-local monotonic replay position. -/
  sequence : Int
  eventId : Uuid
  workspaceId : Uuid
  sessionId : Option Str
  kind : Str
  occurredAtUnixMs : Int
  payload : Bytes
  deriving DecidableEq, Repr

/-- Why SQLite refuses a statement. -/
inductive SqlError
  | foreignKey | unique | full
  deriving DecidableEq, Repr

structure Tables where
  workspaces : List WorkspaceRecord
  /-- `command_deduplication`: identifier and time of the claim. -/
  commands : List (Uuid × Int)
  events : List EventRow
  sessions : List SessionRow
  /-- The largest sequence ever given out (`sqlite_sequence`). -/
  lastSequence : Int

namespace Tables

/-- A database that was just migrated. -/
def empty : Tables := ⟨[], [], [], [], 0⟩

variable (t : Tables)

/-- The row of a workspace. -/
def workspace (id : Uuid) : Option WorkspaceRecord := t.workspaces.find? fun row => row.id = id

/-- What a foreign key on `workspaces(id)` asks for. -/
def registered (id : Uuid) : Bool := t.workspaces.any fun row => row.id = id

/-- Insert or replace owner-controlled workspace metadata. -/
def upsertWorkspace (workspace : WorkspaceRecord) : Except SqlError Tables :=
  if t.workspaces.any fun row =>
      row.id ≠ workspace.id ∧ row.canonicalPath = workspace.canonicalPath then .error .unique
  else .ok { t with
    workspaces := Table.upsert WorkspaceRecord.id (fun _ => workspace) workspace t.workspaces }

/-- Remove one registered workspace without deleting its files; its rows cascade. -/
def removeWorkspace (id : Uuid) : Tables × Bool :=
  ({ t with
    workspaces := t.workspaces.filter fun row => row.id ≠ id
    events := t.events.filter fun row => row.workspaceId ≠ id
    sessions := t.sessions.filter fun row => row.workspaceId ≠ id }, t.registered id)

/-- `DO UPDATE SET`: every column but the key and the time of creation. -/
def excludedSession (session row : SessionRow) : SessionRow :=
  { session with createdAtUnixMs := row.createdAtUnixMs }

/-- Insert or update locally known session metadata. -/
def upsertSession (session : SessionRow) : Except SqlError Tables :=
  if t.registered session.workspaceId then
    .ok { t with
      sessions :=
        Table.upsert SessionRow.sessionId (excludedSession session) session t.sessions }
  else .error .foreignKey

/-- Return sessions for a workspace, newest activity first. -/
def listSessions (workspaceId : Uuid) : List SessionRow :=
  (t.sessions.filter fun row => row.workspaceId = workspaceId).insertionSort fun a b =>
    b.updatedAtUnixMs < a.updatedAtUnixMs ∨
      a.updatedAtUnixMs = b.updatedAtUnixMs ∧ a.sessionId ≤ b.sessionId

/-- Return one session when it belongs to the requested workspace. -/
def getSession (workspaceId : Uuid) (sessionId : Str) : Option SessionRow :=
  t.sessions.find? fun row => row.workspaceId = workspaceId ∧ row.sessionId = sessionId

/-- Update the lifecycle state and activity timestamp for one session. -/
def updateSessionState (sessionId state : Str) (now : Int) : Tables × Bool :=
  ({ t with
    sessions := t.sessions.map fun row =>
      if row.sessionId = sessionId then { row with state, updatedAtUnixMs := now } else row },
    t.sessions.any fun row => row.sessionId = sessionId)

/-- Mark all persisted sessions in a workspace as needing ACP resume, and count them. -/
def markWorkspaceSessionsOffline (workspaceId : Uuid) : Tables × Nat :=
  ({ t with
    sessions := t.sessions.map fun row =>
      if row.workspaceId = workspaceId then { row with state := "offline" } else row },
    t.sessions.countP fun row => row.workspaceId = workspaceId)

/-- Atomically remember a command ID before performing its side effect. -/
def claimCommand (commandId : Uuid) (now : Int) : Tables × CommandClaim :=
  if t.commands.any fun row => row.1 = commandId then (t, .duplicate)
  else ({ t with commands := t.commands ++ [(commandId, now)] }, .new)

/-- `i64::MAX`, the last rowid there is. -/
def maxSequence : Int := 9223372036854775807

/-- Append an event and return its local sequence. -/
def appendEvent (eventId : Uuid) (occurredAtUnixMs : Int) (workspaceId : Uuid)
    (sessionId : Option Str) (kind : Str) (payload : Bytes) : Except SqlError (Tables × EventRow) :=
  if t.lastSequence = maxSequence then .error .full
  else if t.events.any fun row => row.eventId = eventId then .error .unique
  else if t.registered workspaceId then
    let row := ⟨t.lastSequence + 1, eventId, workspaceId, sessionId, kind, occurredAtUnixMs,
      payload⟩
    .ok ({ t with events := t.events ++ [row], lastSequence := row.sequence }, row)
  else .error .foreignKey

/-- `ORDER BY sequence ASC LIMIT ?`, the limit capped. -/
def page (limit : Nat) (rows : List EventRow) : List EventRow :=
  (rows.insertionSort fun a b => a.sequence ≤ b.sequence).take (min limit 1000)

/-- Replay events after a client cursor. -/
def eventsAfter (workspaceId : Uuid) (afterSequence : Int) (limit : Nat) : List EventRow :=
  page limit (t.events.filter fun row =>
    row.workspaceId = workspaceId ∧ afterSequence < row.sequence)

/-- Replay events for one session after a client cursor. -/
def sessionEventsAfter (workspaceId : Uuid) (sessionId : Str) (afterSequence : Int)
    (limit : Nat) : List EventRow :=
  page limit (t.events.filter fun row =>
    row.workspaceId = workspaceId ∧ row.sessionId = some sessionId ∧ afterSequence < row.sequence)

/-! ## What the schema enforces -/

/-- The constraints of the schema. -/
structure Valid : Prop where
  ids : (t.workspaces.map WorkspaceRecord.id).Nodup
  paths : (t.workspaces.map WorkspaceRecord.canonicalPath).Nodup
  commandIds : (t.commands.map Prod.fst).Nodup
  sessionIds : (t.sessions.map SessionRow.sessionId).Nodup
  eventIds : (t.events.map EventRow.eventId).Nodup
  increasing : t.events.Pairwise fun a b => a.sequence < b.sequence
  positive : ∀ row ∈ t.events, 0 < row.sequence
  bounded : ∀ row ∈ t.events, row.sequence ≤ t.lastSequence
  counted : 0 ≤ t.lastSequence
  eventWorkspace : ∀ row ∈ t.events, t.registered row.workspaceId
  sessionWorkspace : ∀ row ∈ t.sessions, t.registered row.workspaceId

/-- A statement that changes the tables. -/
inductive Statement
  | upsertWorkspace (workspace : WorkspaceRecord)
  | removeWorkspace (id : Uuid)
  | upsertSession (session : SessionRow)
  | updateSessionState (sessionId state : Str) (now : Int)
  | markWorkspaceSessionsOffline (workspaceId : Uuid)
  | claimCommand (commandId : Uuid) (now : Int)
  | appendEvent (eventId : Uuid) (occurredAtUnixMs : Int) (workspaceId : Uuid)
      (sessionId : Option Str) (kind : Str) (payload : Bytes)

/-- The tables after a statement, which a failed one leaves as they were. -/
def run : Statement → Tables
  | .upsertWorkspace workspace => (t.upsertWorkspace workspace).toOption.getD t
  | .removeWorkspace id => (t.removeWorkspace id).1
  | .upsertSession session => (t.upsertSession session).toOption.getD t
  | .updateSessionState sessionId state now => (t.updateSessionState sessionId state now).1
  | .markWorkspaceSessionsOffline workspaceId => (t.markWorkspaceSessionsOffline workspaceId).1
  | .claimCommand commandId now => (t.claimCommand commandId now).1
  | .appendEvent eventId occurredAtUnixMs workspaceId sessionId kind payload =>
    ((t.appendEvent eventId occurredAtUnixMs workspaceId sessionId kind payload).toOption.map
      Prod.fst).getD t

end Tables

end LeaveCli.Core
