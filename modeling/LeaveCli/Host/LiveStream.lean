import LeaveCli.Host.Events
import LeaveCli.Lib.Broadcast
import LeaveCli.Lib.Run

/-!
# The live event stream (`apps/leave/src/acp.rs`, `apps/leave/src/local_server.rs`)

`publish_event` appends an event to the store and then sends it to the broadcast channel every
socket of `/api/events` reads. These are two steps of a task, and the tasks of the notification
handler, the permissions, the prompts and the command loop take theirs in any order. `LiveStream`
is the machine of these steps and of the socket tasks; a task may also be dropped between its two
steps. `unsent` are the events whose second step is still to come.
-/

namespace LeaveCli.Host

open Lib LeaveCli.Core

/-- A message to the device. -/
inductive SocketMessage
  | event (event : LocalEvent)
  | replayRequired (skipped : Nat)
  deriving DecidableEq, Repr

def SocketMessage.event? : SocketMessage → Option LocalEvent
  | .event e => some e
  | .replayRequired _ => none

/-- A socket task, and what its device got. -/
structure EventSocket where
  /-- Position of its receiver. -/
  next : Nat
  messages : List SocketMessage
  connected : Bool
  /-- The last sequence given out when it subscribed. -/
  since : Int

namespace EventSocket

/-- The events the device received. -/
def events (socket : EventSocket) : List LocalEvent :=
  socket.messages.filterMap SocketMessage.event?

/-- The device was told that it lagged. -/
def Lagged (socket : EventSocket) : Prop := ∃ skipped, .replayRequired skipped ∈ socket.messages

end EventSocket

/-- `broadcast::channel(512)` -/
def eventCapacity : Nat := 512

structure LiveStream where
  server : EventServer
  channel : Broadcast LocalEvent
  /-- Appended, and not sent yet. -/
  unsent : List EventRow
  /-- Sequences whose task was dropped before it sent. -/
  dropped : List Int
  sockets : Nat → Option EventSocket

namespace LiveStream

/-- A host that has just started over a store. -/
def start (server : EventServer) : LiveStream :=
  ⟨server, .new eventCapacity, [], [], fun _ => none⟩

inductive Action
  /-- `append_event` of a `publish_event` call. -/
  | append (eventId : Uuid) (now : Int) (sessionId : Option Str) (kind : Str) (payload : Bytes)
  /-- Another host writes an event of its own workspace to the same store. -/
  | appendElsewhere (eventId : Uuid) (now : Int) (workspaceId : Uuid) (sessionId : Option Str)
      (kind : Str) (payload : Bytes)
  /-- `event_tx.send` of the call that appended this sequence. -/
  | send (sequence : Int)
  /-- The task of the call that appended this sequence is dropped. -/
  | drop (sequence : Int)
  /-- A device connects, and its task subscribes. -/
  | subscribe (id : Nat)
  /-- A socket's task takes its next event. -/
  | receive (id : Nat)
  /-- A device disconnects. -/
  | disconnect (id : Nat)

/-- A socket's task takes what its receiver has next. -/
def receiveNext (channel : Broadcast LocalEvent) (socket : EventSocket) : EventSocket :=
  match channel.recv socket.next with
  | (.value event, next) => { socket with next, messages := socket.messages ++ [.event event] }
  | (.lagged skipped, next) =>
    { socket with next, messages := socket.messages ++ [.replayRequired skipped] }
  | (.empty, _) => socket

variable (s : LiveStream)

def withSocket (id : Nat) (socket : Option EventSocket) : LiveStream :=
  { s with sockets := Function.update s.sockets id socket }

def step (s : LiveStream) : Action → LiveStream
  | .append eventId now sessionId kind payload =>
    (s.server.store.appendEvent eventId now s.server.workspaceId sessionId kind
      payload).toOption.elim s fun result =>
        { s with
          server := { s.server with store := result.1 }
          unsent := s.unsent ++ [result.2] }
  | .appendElsewhere eventId now workspaceId sessionId kind payload =>
    if workspaceId = s.server.workspaceId then s
    else
      { s with
        server := { s.server with
          store := s.server.store.run
            (.appendEvent eventId now workspaceId sessionId kind payload) } }
  | .send sequence =>
    if sequence ∈ s.dropped then s
    else
      (s.unsent.find? fun row => row.sequence = sequence).elim s fun row =>
        { s with
          channel := s.channel.send (.fromRecord row)
          unsent := s.unsent.erase row }
  | .drop sequence => { s with dropped := sequence :: s.dropped }
  | .subscribe id =>
    (s.sockets id).elim
      (s.withSocket id (some ⟨s.channel.subscribe, [], true, s.server.store.lastSequence⟩))
      fun _ => s
  | .receive id =>
    (s.sockets id).elim s fun socket =>
      if socket.connected then s.withSocket id (some (receiveNext s.channel socket)) else s
  | .disconnect id =>
    (s.sockets id).elim s fun socket => s.withSocket id (some { socket with connected := false })

/-- The machine of all interleavings. -/
def machine : Machine LiveStream Action Unit where
  step s action := ((), s.step action)
  halts _ := false

/-- A device's replay: it asks for the page after its cursor, `requests` times at most, and goes on
from the last event of the page. -/
def replay (server : EventServer) (limit : Nat) : Nat → Int → List LocalEvent
  | 0, _ => []
  | requests + 1, cursor =>
    let page := (server.workspaceEvents ⟨cursor, limit⟩).toOption.elim [] EventPage.events
    page.getLast?.elim [] fun last => page ++ replay server limit requests last.sequence

end LiveStream

end LeaveCli.Host
