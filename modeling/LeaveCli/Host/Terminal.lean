import LeaveCli.Core.EventStore
import LeaveCli.Host.LocalServer
import LeaveCli.Lib.JsonTree
import LeaveCli.Lib.Run
import LeaveCli.Lib.Subscriber

/-!
# Host terminals (`apps/leave/src/terminal.rs`)

A terminal is a shell on a PTY: a thread copies what it prints to a broadcast channel, and the
sockets of `/terminals/{id}/ws` read that channel and write what their devices type to the PTY.
`Terminals` is the machine of the manager, the reader threads and the socket tasks, in any order of
their steps. What the system does (whether a PTY can be opened, what is read from it, whether a
write goes through) comes with the steps; numbers of JSON are in `ν`.
-/

namespace LeaveCli.Host

open Lib LeaveCli.Core

structure PtySize where
  rows : UInt16
  cols : UInt16
  deriving DecidableEq

/-- `(2..=500).contains` for both. -/
def PtySize.acceptable (size : PtySize) : Bool :=
  (2 ≤ size.rows ∧ size.rows ≤ 500) ∧ (2 ≤ size.cols ∧ size.cols ≤ 500)

structure TerminalView where
  terminalId : Uuid
  shell : Str
  deriving DecidableEq

structure TerminalSession where
  shell : Str
  /-- Where the shell was started. -/
  cwd : Str
  size : PtySize
  /-- What was written to the PTY, and by which socket. -/
  input : List (Nat × Bytes)
  /-- What was read from the PTY. -/
  printed : Bytes
  output : Broadcast Bytes
  /-- The reader thread is in its loop. -/
  reading : Bool

/-- A socket of `/terminals/{id}/ws`. -/
structure TerminalSocket where
  terminalId : Uuid
  /-- What its terminal had printed when it subscribed. -/
  since : Bytes
  output : Subscriber Bytes
  /-- The binary frames of its device. -/
  typed : List Bytes
  connected : Bool

/-- `SHELL`, when it is the absolute path of a file. -/
def defaultShell (shell : Option Str) (isFile : Str → Bool) : Str :=
  (shell.filter fun shell => shell.head? = some '/' && isFile shell).getD "/bin/sh"

def terminalChannelCapacity : Nat := 512

/-- The manager, with the sockets that are attached to its terminals. -/
structure Terminals where
  root : Str
  enabled : Bool
  sessions : Uuid → Option TerminalSession
  sockets : Nat → Option TerminalSocket

namespace Terminals

def new (root : Str) (enabled : Bool) : Terminals := ⟨root, enabled, fun _ => none, fun _ => none⟩

/-- What a frame of a device's socket is. -/
inductive Frame (ν : Type)
  | binary (bytes : Bytes)
  /-- A text, as JSON when it is. -/
  | text (value : Option (Json ν))
  /-- The close frame, an error or the end of the stream. -/
  | close
  | other

inductive Action (ν : Type)
  /-- `create`, with `SHELL` and the host's files; `spawn` is how opening the PTY ends, `terminalId`
  the new identifier. -/
  | create (terminalId : Uuid) (size : PtySize) (shell : Option Str) (isFile : Str → Bool)
      (spawn : Except Str Unit)
  /-- A device opens a socket for a terminal. -/
  | subscribe (socket : Nat) (terminalId : Uuid) (headers : HeaderMap)
  /-- A socket's task takes a frame; a write or a resize fails after `fails` bytes. -/
  | frame (socket : Nat) (frame : Frame ν) (fails : Option Nat)
  /-- A socket's task takes its next output. -/
  | output (socket : Nat)
  /-- A chunk cannot be sent to the device. -/
  | disconnect (socket : Nat)
  /-- The reader thread reads up to 16 KiB; nothing, or an error, ends its loop. -/
  | read (terminalId : Uuid) (chunk : Bytes)

inductive Answer
  | created (result : Except Str TerminalView)
  | subscribed (result : Except ApiError Unit)
  | none

variable {ν : Type} (s : Terminals)

def withSession (terminalId : Uuid) (session : TerminalSession) : Terminals :=
  { s with sessions := Function.update s.sessions terminalId (some session) }

def withSocket (id : Nat) (socket : TerminalSocket) : Terminals :=
  { s with sockets := Function.update s.sockets id (some socket) }

def create (terminalId : Uuid) (size : PtySize) (shell : Option Str) (isFile : Str → Bool)
    (spawn : Except Str Unit) : Except Str TerminalView × Terminals :=
  let shell := defaultShell shell isFile
  if !s.enabled then
    (.error "terminal access is off; restart Leave with --grant-terminal", s)
  else if !size.acceptable then (.error "terminal dimensions must be between 2 and 500", s)
  else
    match spawn with
    | .error e => (.error e, s)
    | .ok _ =>
      (.ok ⟨terminalId, shell⟩, s.withSession terminalId
        ⟨shell, s.root, size, [], [], .new terminalChannelCapacity, true⟩)

def subscribe (socket : Nat) (terminalId : Uuid) (headers : HeaderMap) :
    Except ApiError Unit × Terminals :=
  match requireSameOrigin headers with
  | .error e => (.error e, s)
  | .ok _ =>
    match s.sessions terminalId with
    | none => (.error ⟨404, "terminal was not found or has expired"⟩, s)
    | some session =>
      (.ok (), s.withSocket socket
        ⟨terminalId, session.printed, .subscribe session.output, [], true⟩)

/-- `TerminalManager::write`, for a socket: whether it succeeds. -/
def write (socket : Nat) (terminalId : Uuid) (bytes : Bytes) (fails : Option Nat) :
    Bool × Terminals :=
  if bytes.length > 64 * 1024 then (false, s)
  else
    (s.sessions terminalId).elim (false, s) fun session =>
      -- a `write_all` that fails may have written the front of the bytes
      let written := fails.elim bytes fun count => bytes.take count
      (fails.isNone, s.withSession terminalId
        { session with input := session.input ++ [(socket, written)] })

/-- `TerminalManager::resize`; the handler does not look at how it ends. -/
def resize (terminalId : Uuid) (size : PtySize) (fails : Option Nat) : Terminals :=
  if !size.acceptable then s
  else
    (s.sessions terminalId).elim s fun session =>
      if fails.isSome then s else s.withSession terminalId { session with size }

/-- The size a text frame asks for. -/
def resizeRequest (asU64 : ν → Option Nat) (value : Json ν) : Option PtySize :=
  let field (key : Str) : Option UInt16 :=
    (((value.get key).bind Json.asNumber).bind asU64).bind fun n =>
      if n < 2 ^ 16 then some (UInt16.ofNat n) else none
  if (value.get "type").bind Json.asStr = some "resize" then
    (field "rows").bind fun rows => (field "cols").map fun cols => ⟨rows, cols⟩
  else none

def disconnect (id : Nat) : Terminals :=
  (s.sockets id).elim s fun socket => s.withSocket id { socket with connected := false }

/-- `receiver.next()` in a socket's task. -/
def takeFrame (asU64 : ν → Option Nat) (id : Nat) (socket : TerminalSocket) (frame : Frame ν)
    (fails : Option Nat) : Terminals :=
  match frame with
  | .binary bytes =>
    let (ok, next) := s.write id socket.terminalId bytes fails
    next.withSocket id { socket with typed := socket.typed ++ [bytes], connected := ok }
  | .text value =>
    ((value.bind (resizeRequest asU64)).elim s fun size => s.resize socket.terminalId size fails)
  | .close => s.disconnect id
  | .other => s

/-- `output.recv()` in a socket's task. -/
def takeOutput (id : Nat) (socket : TerminalSocket) : Terminals :=
  (s.sessions socket.terminalId).elim s fun session =>
    let output := socket.output.receive session.output
    -- the task of a receiver that lagged closes the socket
    s.withSocket id { socket with output, connected := !output.lagged }

/-- A turn of `copy_output`. -/
def read (terminalId : Uuid) (chunk : Bytes) : Terminals :=
  (s.sessions terminalId).elim s fun session =>
    if session.reading ∧ chunk.length ≤ 16 * 1024 then
      if chunk = [] then s.withSession terminalId { session with reading := false }
      else s.withSession terminalId
        { session with
          printed := session.printed ++ chunk
          output := session.output.send chunk }
    else s

def step (asU64 : ν → Option Nat) (s : Terminals) : Action ν → Answer × Terminals
  | .create terminalId size shell isFile spawn =>
    -- `now_v7` gives an identifier that is not in use
    if (s.sessions terminalId).isSome then (.none, s)
    else
      let (result, next) := s.create terminalId size shell isFile spawn
      (.created result, next)
  | .subscribe socket terminalId headers =>
    if (s.sockets socket).isSome then (.none, s)
    else
      let (result, next) := s.subscribe socket terminalId headers
      (.subscribed result, next)
  | .frame id frame fails =>
    (.none, (s.sockets id).elim s fun socket =>
      if socket.connected then s.takeFrame asU64 id socket frame fails else s)
  | .output id =>
    (.none, (s.sockets id).elim s fun socket =>
      if socket.connected then s.takeOutput id socket else s)
  | .disconnect id => (.none, s.disconnect id)
  | .read terminalId chunk => (.none, s.read terminalId chunk)

/-- The machine of all interleavings. -/
def machine (asU64 : ν → Option Nat) : Machine Terminals (Action ν) Answer where
  step s action := s.step asU64 action
  halts _ := false

end Terminals

end LeaveCli.Host
