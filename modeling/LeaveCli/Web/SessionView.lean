import LeaveCli.Host.LiveStream
import Mathlib.Data.List.Sort

/-!
# The session screen (`apps/web/src/lib/api.ts`, `apps/web/src/screens/session-screen.tsx`)

The screen shows one `EventPage`: the history query reads it with one request, and live events from
the socket are put into it. `HistoryQuery` is what `useQuery` keeps for the screen: an answer that
arrives replaces the page, also one that live events have reached since, and invalidating the query
asks again; `cancels` says for the query library when that takes the place of a request that is
under way. `SessionView` is the machine of the screen and the host it is connected to. The host
sends every event in order while its task is subscribed; `lag` is where its channel drops some and
says so.
-/

namespace LeaveCli.Web

open Lib LeaveCli.Core LeaveCli.Host

/-! ## The page -/

/-- The one request for the history. -/
def getSessionEvents (server : EventServer) (sessionId : Str) (after : Int) :
    Except ApiError EventPage :=
  server.sessionEvents sessionId ⟨after, 1000⟩

def appendLiveEvent (page : Option EventPage) (event : LocalEvent) : EventPage :=
  page.elim ⟨[event], event.sequence⟩ fun page =>
    if page.events.any fun existing => existing.eventId = event.eventId then page
    else
      { events := (page.events ++ [event]).insertionSort fun left right =>
          left.sequence ≤ right.sequence
        nextCursor := max page.nextCursor event.sequence }

/-! ## The query -/

inductive HistoryRequest
  | idle
  | asked
  /-- The host has answered. -/
  | answered (page : EventPage)
  deriving DecidableEq

structure HistoryQuery where
  data : Option EventPage
  request : HistoryRequest
  /-- An answer has arrived. -/
  resolved : Bool

namespace HistoryQuery

variable (query : HistoryQuery)

/-- The screen is mounted: the query fetches. -/
def mounted : HistoryQuery := ⟨none, .asked, false⟩

def setQueryData (update : Option EventPage → EventPage) : HistoryQuery :=
  { query with data := some (update query.data) }

/-- Whatever fetches without cancelling: mounting again, or being online again. -/
def refetch : HistoryQuery :=
  if query.request = .idle then { query with request := .asked } else query

def invalidate (cancels : HistoryQuery → Bool) : HistoryQuery :=
  if cancels query then { query with request := .asked } else query.refetch

/-- The host answers a request; one that it refuses is asked again. -/
def answer (result : Except ApiError EventPage) : HistoryQuery :=
  if query.request = .asked then
    { query with request := result.toOption.elim .asked .answered }
  else query

def arrive : HistoryQuery :=
  match query.request with
  | .idle => query
  | .asked => query
  | .answered page => ⟨some page, .idle, true⟩

/-- The query gives up. -/
def giveUp : HistoryQuery := { query with request := .idle }

end HistoryQuery

/-! ## The socket -/

inductive SocketState
  | connecting
  | open_
  | closed
  deriving DecidableEq

structure EventsSocket where
  state : SocketState
  /-- The host's task has subscribed. -/
  subscribed : Bool
  /-- What the host has sent, or will send, and the screen has not got yet. -/
  wire : List SocketMessage

namespace EventsSocket

def connecting : EventsSocket := ⟨.connecting, false, []⟩

def closed : EventsSocket := ⟨.closed, false, []⟩

/-- The host broadcasts an event. -/
def broadcast (socket : EventsSocket) (event : LocalEvent) : EventsSocket :=
  if socket.subscribed then { socket with wire := socket.wire ++ [.event event] } else socket

/-- The host's task falls behind, and skips events that it has not sent yet. -/
def lag (socket : EventsSocket) (sent skipped : Nat) : EventsSocket :=
  if ((socket.wire.drop sent).take skipped).all (·.event?.isSome) then
    { socket with wire :=
        socket.wire.take sent ++ .replayRequired skipped :: socket.wire.drop (sent + skipped) }
  else socket

end EventsSocket

/-! ## The screen -/

structure SessionView where
  server : EventServer
  query : HistoryQuery
  socket : EventsSocket

inductive ViewAction
  /-- The host appends an event, of this session or another, and broadcasts it. -/
  | append (eventId : Uuid) (now : Int) (sessionId : Option Str) (kind : Str) (payload : Bytes)
  | answer
  | arrive
  | giveUp
  /-- A prompt was sent, a turn cancelled or a session resumed. -/
  | invalidate
  | refetch
  | connect
  | subscribe
  | opened
  | lag (sent skipped : Nat)
  | receive
  | close

namespace SessionView

variable (cancels : HistoryQuery → Bool) (sessionId : Str) (view : SessionView)

def onEvent (event : LocalEvent) : SessionView :=
  if event.sessionId ≠ some sessionId then view
  else { view with query := view.query.setQueryData fun page => appendLiveEvent page event }

def onReplayRequired : SessionView := { view with query := view.query.invalidate cancels }

def onMessage : SocketMessage → SessionView
  | .event event => view.onEvent sessionId event
  | .replayRequired _ => view.onReplayRequired cancels

/-- The screen takes the next message. -/
def receive : SessionView :=
  if view.socket.state = .open_ then
    view.socket.wire.head?.elim view fun message =>
      { view with socket := { view.socket with wire := view.socket.wire.tail } }.onMessage
        cancels sessionId message
  else view

def step : ViewAction → SessionView
  | .append eventId now session kind payload =>
    (view.server.store.appendEvent eventId now view.server.workspaceId session kind
      payload).toOption.elim view fun result =>
        { view with
          server := { view.server with store := result.1 }
          socket := view.socket.broadcast (.fromRecord result.2) }
  | .answer => { view with
      query := view.query.answer (getSessionEvents view.server sessionId 0) }
  | .arrive => { view with query := view.query.arrive }
  | .giveUp => { view with query := view.query.giveUp }
  | .invalidate => { view with query := view.query.invalidate cancels }
  | .refetch => { view with query := view.query.refetch }
  | .connect =>
    if view.socket.state = .closed then { view with socket := .connecting } else view
  | .subscribe =>
    if view.socket.state = .closed then view
    else { view with socket := { view.socket with subscribed := true } }
  | .opened =>
    if view.socket.state = .connecting then
      { view with socket := { view.socket with state := .open_ } }
    else view
  | .lag sent skipped => { view with socket := view.socket.lag sent skipped }
  | .receive => view.receive cancels sessionId
  | .close => { view with socket := .closed }

def machine : Machine SessionView ViewAction Unit where
  step view action := ((), view.step cancels sessionId action)
  halts _ := false

/-- The screen is opened on a host. -/
def start (server : EventServer) : SessionView := ⟨server, .mounted, .connecting⟩

end SessionView

end LeaveCli.Web
