import LeaveCli.Core.EventStore
import LeaveCli.Host.LocalServer
import LeaveCli.Lib.JsonTree
import LeaveCli.Lib.Run
import LeaveCli.Lib.Subscriber

/-!
# Managed previews (`apps/leave/src/preview.rs`)

A preview is a headless browser that may only talk to the loopback origin it was created at: the
host answers every request the browser pauses, navigates it and takes screenshots of it over the
browser's DevTools socket. `Previews` is the machine of the manager, the browser tasks of
`launch_browser` and the sockets of `/previews/{id}/ws`, in any order of their steps. Reading a URL
is the parameter `parse` (`Url::parse`), numbers of JSON are in `ν`; how the browser starts is
left out, only whether it does.
-/

namespace LeaveCli.Host

open Lib LeaveCli.Core

/-! ## URLs -/

/-- `url::Host` -/
inductive UrlHost
  | ipv4 (address : BitVec 32)
  | ipv6 (address : BitVec 128)
  | domain (name : Str)
  deriving DecidableEq

/-- What is read of a `url::Url`. -/
structure Url where
  scheme : Str
  username : Str
  password : Option Str
  host : Option UrlHost
  hostStr : Option Str
  portOrKnownDefault : Option UInt16
  fragment : Option Str
  asStr : Str
  deriving DecidableEq

/-- `is_loopback` of the standard library's addresses; a domain is compared by the code. -/
def UrlHost.isLoopback : UrlHost → Bool
  | .ipv4 address => address.toNat / 2 ^ 24 = 127
  | .ipv6 address => address = 1
  | .domain name => name.toAsciiLowercase = "localhost"

def validateLoopbackUrl (parse : Str → Option Url) (value : Str) : Except Str Url :=
  (parse value).elim (.error "preview URL is invalid") fun url =>
    if url.scheme ≠ "http" ∨ url.host.isNone ∨ url.username ≠ [] ∨ url.password.isSome ∨
        url.fragment.isSome then
      .error "preview URL must be a credential-free HTTP loopback URL"
    else if !url.host.any UrlHost.isLoopback then
      .error "preview navigation is restricted to loopback origins"
    else .ok url

def origin (url : Url) : Str :=
  url.scheme ++ ("://" : Str) ++ (url.hostStr.getD []).toAsciiLowercase ++ (":" : Str) ++
    (url.portOrKnownDefault.getD 80).toNat.repr.toList

/-! ## One preview -/

/-- Browser input accepted from the preview tab. -/
inductive PreviewControl (ν : Type)
  /-- Navigate within the already-approved origin. -/
  | navigate (url : Str)
  /-- Dispatch a mouse click at CSS viewport coordinates. -/
  | click (x y : ν)
  /-- Insert text into the focused element. -/
  | text (text : Str)

/-- A message to the browser: `{"id": …, "method": …, "params": …}`. -/
structure DevToolsCommand (ν : Type) where
  id : Nat
  method : Str
  params : Option (Json ν)

structure PreviewSession (ν : Type) where
  approvedOrigin : Str
  /-- The controls that wait in the channel. -/
  controls : List (PreviewControl ν)
  frames : Broadcast Str
  nextId : Nat
  /-- The JSON values the browser has sent. -/
  received : List (Json ν)
  /-- What was sent to the browser. -/
  sent : List (DevToolsCommand ν)
  /-- The browser task is in its loop. -/
  running : Bool

/-- A message from the browser. -/
inductive DevToolsMessage (ν : Type)
  | value (value : Json ν)
  /-- A frame that is no JSON text, or an error. -/
  | other
  /-- The end of the socket. -/
  | closed

/-- `next_id += 1` on a `u64`. -/
def increment (nextId : Nat) : Nat := (nextId + 1) % 2 ^ 64

section

variable {ν : Type} (number : Nat → ν)

def controlMessages : PreviewControl ν → Nat → List (DevToolsCommand ν) × Nat
  | .navigate url, nextId =>
    let nextId := increment nextId
    ([⟨nextId, "Page.navigate", some (.object [("url", .string url)])⟩], nextId)
  | .click x y, nextId =>
    let event (id : Nat) (kind : Str) : DevToolsCommand ν :=
      ⟨id, "Input.dispatchMouseEvent", some (.object [("type", .string kind), ("x", .number x),
        ("y", .number y), ("button", .string "left"), ("clickCount", .number (number 1))])⟩
    ([event (increment nextId) "mousePressed",
      event (increment (increment nextId)) "mouseReleased"], increment (increment nextId))
  | .text text, nextId =>
    let nextId := increment nextId
    ([⟨nextId, "Input.insertText", some (.object [("text", .string text)])⟩], nextId)

/-- The screenshot a message of the browser brings. -/
def screenshot (value : Json ν) : Option Str := (value.pointer "/result/data").bind Json.asStr

/-- The request a message of the browser says is paused: its identifier and its URL. -/
def pausedRequest (value : Json ν) : Option (Str × Str) :=
  if (value.get "method").bind Json.asStr = some "Fetch.requestPaused" then
    ((value.pointer "/params/requestId").bind Json.asStr).bind fun requestId =>
      ((value.pointer "/params/request/url").bind Json.asStr).map (requestId, ·)
  else none

/-- Whether the browser may go on with a request to `url`. -/
def requestAllowed (parse : Str → Option Url) (taskOrigin url : Str) : Bool :=
  (parse url).any fun url => origin url = taskOrigin

def requestAnswer (parse : Str → Option Url) (taskOrigin : Str) (id : Nat) (request : Str × Str) :
    DevToolsCommand ν :=
  if requestAllowed parse taskOrigin request.2 then
    ⟨id, "Fetch.continueRequest", some (.object [("requestId", .string request.1)])⟩
  else
    ⟨id, "Fetch.failRequest", some (.object [("requestId", .string request.1),
      ("errorReason", .string "BlockedByClient")])⟩

namespace PreviewSession

/-- What `launch_browser` sends before the loop. -/
def firstCommands (approved : Url) : List (DevToolsCommand ν) := [
  ⟨1, "Page.enable", none⟩,
  ⟨2, "Runtime.enable", none⟩,
  ⟨3, "Fetch.enable", some (.object [("patterns", .array [.object [("urlPattern", .string "*"),
    ("requestStage", .string "Request")]])])⟩,
  ⟨4, "Page.navigate", some (.object [("url", .string approved.asStr)])⟩]

/-- A session whose browser has started. -/
def launched (approved : Url) : PreviewSession ν :=
  ⟨origin approved, [], .new 8, 10, [], firstCommands approved, true⟩

/-- `control_rx` holds 64 controls. -/
def controlCapacity : Nat := 64

variable (session : PreviewSession ν)

/-- Send a command; the loop ends when it cannot be sent. -/
def sendOrStop (command : DevToolsCommand ν) (sends : Bool) : PreviewSession ν :=
  if sends then { session with sent := session.sent ++ [command] }
  else { session with running := false }

/-- `capture.tick()` -/
def captureTick (sends : Bool) : PreviewSession ν :=
  let nextId := increment session.nextId
  { session with nextId }.sendOrStop ⟨nextId, "Page.captureScreenshot", some (.object [
    ("format", .string "jpeg"), ("quality", .number (number 72)), ("fromSurface", .bool true)])⟩
    sends

/-- `control_rx.recv()`; the first `sends` messages can be sent. -/
def takeControl (sends : Nat) : PreviewSession ν :=
  match session.controls with
  | [] => session
  | control :: controls =>
    let (messages, nextId) := controlMessages number control session.nextId
    -- the `break` on an error only leaves the inner loop
    { session with controls, nextId, sent := session.sent ++ messages.take sends }

def publish (data : Option Str) : PreviewSession ν :=
  data.elim session fun data => { session with frames := session.frames.send data }

def answerPaused (parse : Str → Option Url) (request : Option (Str × Str)) (sends : Bool) :
    PreviewSession ν :=
  request.elim session fun request =>
    let nextId := increment session.nextId
    { session with nextId }.sendOrStop (requestAnswer parse session.approvedOrigin nextId request)
      sends

/-- `socket.next()` -/
def receive (parse : Str → Option Url) (sends : Bool) : DevToolsMessage ν → PreviewSession ν
  | .closed => { session with running := false }
  | .other => session
  | .value value =>
    ({ session with received := session.received ++ [value] }.publish
      (screenshot value)).answerPaused parse (pausedRequest value) sends

end PreviewSession

end

/-! ## All previews -/

structure PreviewView where
  previewId : Uuid
  url : Str
  deriving DecidableEq

/-- A socket of `/previews/{id}/ws`. -/
structure PreviewSocket where
  previewId : Uuid
  frames : Subscriber Str
  connected : Bool

/-- The manager, with the sockets that watch its previews. -/
structure Previews (ν : Type) where
  enabled : Bool
  /-- A browser was found. -/
  chrome : Bool
  sessions : Uuid → Option (PreviewSession ν)
  sockets : Nat → Option PreviewSocket

namespace Previews

variable {ν : Type}

def new (enabled chrome : Bool) : Previews ν := ⟨enabled, chrome, fun _ => none, fun _ => none⟩

inductive Action (ν : Type)
  /-- `create`; `launch` is how `launch_browser` ends, `previewId` the new identifier. -/
  | create (previewId : Uuid) (url : Str) (width height : UInt16) (launch : Except Str Unit)
  /-- `control`, of a request or of a socket's message. -/
  | control (previewId : Uuid) (control : PreviewControl ν)
  | captureTick (previewId : Uuid) (sends : Bool)
  | takeControl (previewId : Uuid) (sends : Nat)
  | receive (previewId : Uuid) (message : DevToolsMessage ν) (sends : Bool)
  /-- A device opens a socket for a preview. -/
  | subscribe (socket : Nat) (previewId : Uuid) (headers : HeaderMap)
  /-- A socket's task takes its next frame. -/
  | frame (socket : Nat)
  /-- A device disconnects, or a frame cannot be sent to it. -/
  | disconnect (socket : Nat)

inductive Answer
  | created (result : Except Str PreviewView)
  | controlled (result : Except Str Unit)
  | subscribed (result : Except ApiError Unit)
  /-- The call waits for room in the channel. -/
  | waits
  | none

variable (s : Previews ν)

def withSession (previewId : Uuid) (session : PreviewSession ν) : Previews ν :=
  { s with sessions := Function.update s.sessions previewId (some session) }

def withSocket (id : Nat) (socket : PreviewSocket) : Previews ν :=
  { s with sockets := Function.update s.sockets id (some socket) }

section

variable (number : Nat → ν) (parse : Str → Option Url)

/-- The URL a preview is created at, when nothing speaks against it. -/
def approve (url : Str) (width height : UInt16) : Except Str Url :=
  if !s.enabled then .error "preview access is off; restart Leave with --grant-preview"
  else if !s.chrome then .error "Chrome for Testing or Chromium was not found"
  else (validateLoopbackUrl parse url).bind fun approved =>
    if ¬(320 ≤ width ∧ width ≤ 2560) ∨ ¬(320 ≤ height ∧ height ≤ 2560) then
      .error "preview dimensions must be between 320 and 2560 pixels"
    else .ok approved

def create (previewId : Uuid) (url : Str) (width height : UInt16) (launch : Except Str Unit) :
    Except Str PreviewView × Previews ν :=
  match s.approve parse url width height with
  | .error e => (.error e, s)
  | .ok approved =>
    match launch with
    | .error e => (.error e, s)
    | .ok _ => (.ok ⟨previewId, approved.asStr⟩, s.withSession previewId (.launched approved))

/-- Why a control is refused before it is sent to the browser task. -/
def controlRefused (session : PreviewSession ν) : PreviewControl ν → Option Str
  | .navigate url =>
    match validateLoopbackUrl parse url with
    | .error e => some e
    | .ok target =>
      if origin target ≠ session.approvedOrigin then
        some "preview navigation must stay on its approved loopback origin"
      else none
  | _ => none

def control (previewId : Uuid) (control : PreviewControl ν) : Answer × Previews ν :=
  match s.sessions previewId with
  | none => (.controlled (.error "preview was not found or has expired"), s)
  | some session =>
    match controlRefused parse session control with
    | some e => (.controlled (.error e), s)
    | none =>
      if !session.running then (.controlled (.error "preview browser stopped"), s)
      else if session.controls.length ≥ PreviewSession.controlCapacity then (.waits, s)
      else
        (.controlled (.ok ()), s.withSession previewId
          { session with controls := session.controls ++ [control] })

/-- A turn of the browser task's loop. -/
def taskStep (previewId : Uuid) (turn : PreviewSession ν → PreviewSession ν) : Previews ν :=
  (s.sessions previewId).elim s fun session =>
    if session.running then s.withSession previewId (turn session) else s

def subscribe (socket : Nat) (previewId : Uuid) (headers : HeaderMap) :
    Except ApiError Unit × Previews ν :=
  match requireSameOrigin headers with
  | .error e => (.error e, s)
  | .ok _ =>
    match s.sessions previewId with
    | none => (.error ⟨404, "preview was not found or has expired"⟩, s)
    | some session =>
      (.ok (), s.withSocket socket ⟨previewId, .subscribe session.frames, true⟩)

/-- The frame a socket's task reads next. A receiver that lagged goes on. -/
def frame (socket : Nat) : Previews ν :=
  (s.sockets socket).elim s fun watcher => (s.sessions watcher.previewId).elim s fun session =>
    if watcher.connected then
      s.withSocket socket { watcher with frames := watcher.frames.receive session.frames }
    else s

def step (s : Previews ν) : Action ν → Answer × Previews ν
  | .create previewId url width height launch =>
    -- `now_v7` gives an identifier that is not in use
    if (s.sessions previewId).isSome then (.none, s)
    else
      let (result, next) := s.create parse previewId url width height launch
      (.created result, next)
  | .control previewId control => s.control parse previewId control
  | .captureTick previewId sends =>
    (.none, s.taskStep previewId fun session => session.captureTick number sends)
  | .takeControl previewId sends =>
    (.none, s.taskStep previewId fun session => session.takeControl number sends)
  | .receive previewId message sends =>
    (.none, s.taskStep previewId fun session => session.receive parse sends message)
  | .subscribe socket previewId headers =>
    if (s.sockets socket).isSome then (.none, s)
    else
      let (result, next) := s.subscribe socket previewId headers
      (.subscribed result, next)
  | .frame socket => (.none, s.frame socket)
  | .disconnect socket =>
    (.none, (s.sockets socket).elim s fun watcher =>
      s.withSocket socket { watcher with connected := false })

/-- The machine of all interleavings. -/
def machine : Machine (Previews ν) (Action ν) Answer where
  step s action := s.step number parse action
  halts _ := false

end

end Previews

end LeaveCli.Host
