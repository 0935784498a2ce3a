import LeaveCli.Web.SessionView
import Mathlib.Algebra.Ring.Nat

/-!
# The events connection (`apps/web/src/lib/api.ts`)

`connectLocalEvents` keeps the session screen connected to the host: it makes a socket, and when
that closes it sets a timer to make the next one, until the screen is left. `LiveScreen` is the
machine of the screen with all the sockets and timers it ever made: the browser opens and closes
any socket, and timers go off, whenever it likes. What the browser promises is in the steps: a
socket opens once at most, has messages only while it is open and closes once, and a timer that was
cleared does not go off.
-/

namespace LeaveCli.Web

open Lib LeaveCli.Core LeaveCli.Host

/-! ## The browser -/

/-- `readyState` of a socket. -/
inductive ReadyState
  | connecting
  | open_
  | closing
  | closed
  deriving DecidableEq

structure WebSocket where
  readyState : ReadyState
  /-- It has been open. -/
  opened : Bool
  /-- The host's task has subscribed. -/
  subscribed : Bool
  /-- What the host has sent, or will send, and the screen has not got yet. -/
  wire : List SocketMessage

namespace WebSocket

/-- `new WebSocket` -/
def new : WebSocket := ⟨.connecting, false, false, []⟩

variable (socket : WebSocket)

/-- Connecting or open. -/
def live : Bool := socket.readyState = .connecting || socket.readyState = .open_

/-- `close()` -/
def close : WebSocket := if socket.live then { socket with readyState := .closing } else socket

/-- It opens. -/
def opens : Option WebSocket :=
  if socket.readyState = .connecting then
    some { socket with readyState := .open_, opened := true }
  else none

/-- Its next message. -/
def next : Option (SocketMessage × WebSocket) :=
  if socket.readyState = .open_ then
    socket.wire.head?.map fun message => (message, { socket with wire := socket.wire.tail })
  else none

/-- It closes, whoever asked for it. -/
def closes : Option WebSocket :=
  if socket.readyState = .closed then none else some { socket with readyState := .closed }

/-- The host's end takes a turn, which does not depend on the browser's. -/
def atHost (turn : EventsSocket → EventsSocket) : WebSocket :=
  let ended := turn ⟨.open_, socket.subscribed, socket.wire⟩
  { socket with subscribed := ended.subscribed, wire := ended.wire }

end WebSocket

structure Timer where
  id : Nat
  delay : Nat
  deriving DecidableEq

/-! ## The connection -/

/-- The variables of `connectLocalEvents`. -/
structure EventsConnection where
  stopped : Bool
  /-- Which of the sockets it is. -/
  socket : Option Nat
  retryTimer : Option Nat
  retryCount : Nat

def retryDelay (retryCount : Nat) : Nat := min 10000 (500 * 2 ^ min retryCount 5)

/-- The screen, the host and the browser between them. -/
structure LiveScreen where
  server : EventServer
  query : HistoryQuery
  connection : EventsConnection
  /-- All that were made. -/
  sockets : List WebSocket
  /-- The timers that have not gone off. -/
  timers : List Timer
  /-- How many timers were set. -/
  timersSet : Nat
  /-- The last of `onStateChange`. -/
  socketState : SocketState

inductive ScreenAction
  /-- The host appends an event, of this session or another, and broadcasts it. -/
  | append (eventId : Uuid) (now : Int) (sessionId : Option Str) (kind : Str) (payload : Bytes)
  | answer
  | arrive
  | giveUp
  | invalidate
  | refetch
  /-- The host's task for a socket subscribes. -/
  | subscribe (socket : Nat)
  /-- The host's task for a socket falls behind. -/
  | lag (socket sent skipped : Nat)
  | opened (socket : Nat)
  | message (socket : Nat)
  | closed (socket : Nat)
  | timeout (timer : Nat)
  /-- The screen is left. -/
  | leave

namespace LiveScreen

variable (cancels : HistoryQuery → Bool) (sessionId : Str) (s : LiveScreen)

def connect : LiveScreen :=
  if s.connection.stopped then s
  else
    { s with
      socketState := .connecting
      sockets := s.sockets ++ [.new]
      connection := { s.connection with socket := some s.sockets.length } }

/-- The `open` listener. -/
def onOpen : LiveScreen :=
  { s with connection := { s.connection with retryCount := 0 }, socketState := .open_ }

/-- The `close` listener. -/
def onClose : LiveScreen :=
  let s := { s with socketState := .closed }
  if s.connection.stopped then s
  else
    { s with
      timers := s.timers ++ [⟨s.timersSet, retryDelay s.connection.retryCount⟩]
      timersSet := s.timersSet + 1
      connection := { s.connection with
        retryCount := s.connection.retryCount + 1
        retryTimer := some s.timersSet } }

/-- The function `connectLocalEvents` returns. -/
def stop : LiveScreen :=
  let connection := { s.connection with stopped := true }
  let timers := connection.retryTimer.elim s.timers fun timer =>
    s.timers.filter fun other => other.id ≠ timer
  let sockets := connection.socket.elim s.sockets fun socket => s.sockets.modify socket .close
  { s with connection, timers, sockets }

/-- The `message` listener. -/
def onMessage (message : SocketMessage) : LiveScreen :=
  let view : SessionView := ⟨s.server, s.query, .closed⟩
  { s with query := (view.onMessage cancels sessionId message).query }

/-- The browser changes a socket and calls the listener. -/
def dispatch (socket : Nat) (turn : WebSocket → Option WebSocket)
    (listener : LiveScreen → LiveScreen) : LiveScreen :=
  (s.sockets[socket]?.bind turn).elim s fun turned =>
    listener { s with sockets := s.sockets.set socket turned }

def step : ScreenAction → LiveScreen
  | .append eventId now session kind payload =>
    (s.server.store.appendEvent eventId now s.server.workspaceId session kind
      payload).toOption.elim s fun result =>
        { s with
          server := { s.server with store := result.1 }
          sockets := s.sockets.map (·.atHost (·.broadcast (.fromRecord result.2))) }
  | .answer => { s with query := s.query.answer (getSessionEvents s.server sessionId 0) }
  | .arrive => { s with query := s.query.arrive }
  | .giveUp => { s with query := s.query.giveUp }
  | .invalidate => { s with query := s.query.invalidate cancels }
  | .refetch => { s with query := s.query.refetch }
  | .subscribe socket => { s with
      sockets := s.sockets.modify socket (·.atHost ({ · with subscribed := true })) }
  | .lag socket sent skipped => { s with
      sockets := s.sockets.modify socket (·.atHost (·.lag sent skipped)) }
  | .opened socket => s.dispatch socket WebSocket.opens onOpen
  | .message socket =>
    (s.sockets[socket]?.bind WebSocket.next).elim s fun (message, turned) =>
      { s with sockets := s.sockets.set socket turned }.onMessage cancels sessionId message
  | .closed socket => s.dispatch socket WebSocket.closes onClose
  | .timeout timer =>
    if s.timers.any fun other => other.id = timer then
      { s with timers := s.timers.filter fun other => other.id ≠ timer }.connect
    else s
  | .leave => s.stop

def machine : Machine LiveScreen ScreenAction Unit where
  step s action := ((), s.step cancels sessionId action)
  halts _ := false

/-- The screen is opened on a host. -/
def start (server : EventServer) : LiveScreen :=
  connect ⟨server, .mounted, ⟨false, none, none, 0⟩, [], [], 0, .connecting⟩

end LiveScreen

end LeaveCli.Web
