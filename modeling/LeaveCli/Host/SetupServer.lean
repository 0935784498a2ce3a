import LeaveCli.Lib.Run
import LeaveCli.Lib.Text
import Mathlib.Logic.Function.Basic

/-!
# The processes of the setup server (`apps/leave/src/setup_server.rs`)

`launch` starts a foreground workspace host and puts it in the slot `child`; `tailscale_connect`
does the same with `tailscale up` and `tailscale_login`; the shutdown of `serve` takes both out and
kills them. `SetupServer` is the machine of these requests, their processes and the shutdown; a step
is what one of them does under one lock, or the start of a process. A host is known by the launch
that started it.
-/

namespace LeaveCli.Host

open Lib

/-- `LaunchRequest`, as far as `launch` reads it. -/
structure LaunchRequest where
  port : Nat
  away : Bool
  background : Bool
  preview : Bool

/-- What `launch` finds before it reads the slot. -/
structure LaunchChecks where
  setupPort : Nat
  /-- `WorkspaceRoot::register` -/
  registered : Bool
  devinReady : Bool
  tailscaleReady : Bool
  browserReady : Bool

/-- The errors of `launch` before it reads the slot. -/
def LaunchChecks.refusal (checks : LaunchChecks) (request : LaunchRequest) : Option Str :=
  if request.port = 0 || request.port = checks.setupPort then
    some "Choose a workspace host port other than the setup port."
  else if !checks.registered then
    some "Choose an existing workspace folder"
  else if !checks.devinReady then
    some "Connect Devin before starting the workspace."
  else if request.away && !checks.tailscaleReady then
    some "Phone access needs Tailscale connected on this computer. Go back to Check this computer and choose Connect Tailscale."
  else if request.preview && !checks.browserReady then
    some "Browser preview needs Chromium or Chrome for Testing on this computer. Turn the option off or install Chromium, then try again."
  else none

def alreadyLaunched : Str :=
  "A foreground workspace host is already running from this setup window."

def alreadyWaiting : Str :=
  "A Tailscale sign-in is already waiting. Finish it in your browser, then choose Check again."

/-- Where a launch is. -/
inductive LaunchStage
  /-- It has read the slot and goes on to start its host. -/
  | checked
  /-- Its host has been started, and is not in the slot yet. -/
  | started
  /-- It has read the slot and installs the background host. -/
  | installing
  /-- `wait_for_workspace`, with this many looks to come. -/
  | waiting (looks : Nat)
  | ended
  deriving DecidableEq, Repr

/-- A foreground launch between its check of the slot and its store. -/
def LaunchStage.inFlight : LaunchStage → Bool
  | .checked => true
  | .started => true
  | _ => false

/-- Where `tailscale_connect` is: it reads the output of its process until there is a link or the
deadline, or the output has ended. -/
inductive ConnectStage
  | reading
  | ended
  deriving DecidableEq, Repr

/-- Where the shutdown of `serve` is. -/
inductive ShutdownStage
  | serving
  /-- It has taken what was in the slot `child`. -/
  | holding (host : Option Nat)
  | down
  deriving DecidableEq, Repr

structure SetupServer where
  child : Option Nat
  tailscaleLogin : Option Nat
  launches : Nat → Option LaunchStage
  connects : Nat → Option ConnectStage
  /-- The foreground host of a launch runs. -/
  hostRuns : Nat → Bool
  /-- The process of a `tailscale_connect` runs. -/
  loginRuns : Nat → Bool
  shutdown : ShutdownStage

inductive SetupAction
  /-- `launch` reads the slot. -/
  | launch (id : Nat) (checks : LaunchChecks) (request : LaunchRequest)
  /-- Its command cannot be prepared or run. -/
  | launchFails (id : Nat)
  | startHost (id : Nat)
  | storeHost (id : Nat)
  /-- The background host is installed. -/
  | installed (id : Nat)
  /-- `wait_for_workspace`: the workspace answers, or the launch looks at the slot; `try_wait` may
  fail. -/
  | look (id : Nat) (answers fails : Bool)
  | hostExits (id : Nat)
  /-- `tailscale_connect` reads the slot and starts its process. -/
  | connect (id : Nat)
  /-- There is a link, or the deadline has come. -/
  | storeLogin (id : Nat)
  /-- The output of the process has ended. -/
  | loginEnds (id : Nat)
  | loginExits (id : Nat)
  | shutdownTakes
  | shutdownKills
  | shutdownKillsLogin

inductive SetupReply
  | silent
  | refused (error : Str)
  deriving DecidableEq, Repr

namespace SetupServer

def start : SetupServer :=
  ⟨none, none, fun _ => none, fun _ => none, fun _ => false, fun _ => false, .serving⟩

variable (s : SetupServer) (id : Nat)

def withLaunch (stage : LaunchStage) : SetupServer :=
  { s with launches := Function.update s.launches id (some stage) }

def withConnect (stage : ConnectStage) : SetupServer :=
  { s with connects := Function.update s.connects id (some stage) }

def withHost (runs : Bool) : SetupServer := { s with hostRuns := Function.update s.hostRuns id runs }

def withLogin (runs : Bool) : SetupServer :=
  { s with loginRuns := Function.update s.loginRuns id runs }

def launch (checks : LaunchChecks) (request : LaunchRequest) : SetupReply × SetupServer :=
  match checks.refusal request with
  | some error => (.refused error, s)
  | none =>
    if s.child.isSome then (.refused alreadyLaunched, s)
    else (.silent, s.withLaunch id (if request.background then .installing else .checked))

/-- One round of `wait_for_workspace`. -/
def look (looks : Nat) (answers fails : Bool) : SetupServer :=
  if answers then s.withLaunch id .ended
  else if s.child.any fun host => fails || !s.hostRuns host then
    { s with child := if fails then s.child else none }.withLaunch id .ended
  else s.withLaunch id (if looks = 0 then .ended else .waiting looks)

/-- Rounds of `wait_for_workspace`. -/
def lookCount : Nat := 100

def connect : SetupReply × SetupServer :=
  if s.tailscaleLogin.isSome then (.refused alreadyWaiting, s)
  else (.silent, (s.withLogin id true).withConnect id .reading)

def step (s : SetupServer) : SetupAction → SetupReply × SetupServer
  | .launch id checks request =>
    match s.launches id with
    | none => s.launch id checks request
    | some _ => (.silent, s)
  | .launchFails id =>
    match s.launches id with
    | some .checked => (.silent, s.withLaunch id .ended)
    | some .installing => (.silent, s.withLaunch id .ended)
    | _ => (.silent, s)
  | .startHost id =>
    match s.launches id with
    | some .checked => (.silent, (s.withHost id true).withLaunch id .started)
    | _ => (.silent, s)
  | .storeHost id =>
    -- a host that is overwritten runs on: it is not killed on drop
    match s.launches id with
    | some .started => (.silent, { s with child := some id }.withLaunch id (.waiting lookCount))
    | _ => (.silent, s)
  | .installed id =>
    match s.launches id with
    | some .installing => (.silent, s.withLaunch id (.waiting lookCount))
    | _ => (.silent, s)
  | .look id answers fails =>
    match s.launches id with
    | some (.waiting (looks + 1)) => (.silent, s.look id looks answers fails)
    | _ => (.silent, s)
  | .hostExits id => (.silent, s.withHost id false)
  | .connect id =>
    match s.connects id with
    | none => s.connect id
    | some _ => (.silent, s)
  | .storeLogin id =>
    match s.connects id with
    | some .reading => (.silent, { s with tailscaleLogin := some id }.withConnect id .ended)
    | _ => (.silent, s)
  | .loginEnds id =>
    match s.connects id with
    | some .reading => (.silent, s.withConnect id .ended)
    | _ => (.silent, s)
  | .loginExits id => (.silent, s.withLogin id false)
  | .shutdownTakes =>
    match s.shutdown with
    | .serving => (.silent, { s with child := none, shutdown := .holding s.child })
    | _ => (.silent, s)
  | .shutdownKills =>
    match s.shutdown with
    | .holding host => (.silent, { host.elim s (s.withHost · false) with shutdown := .down })
    | _ => (.silent, s)
  | .shutdownKillsLogin =>
    match s.shutdown with
    | .down =>
      (.silent, { s.tailscaleLogin.elim s (s.withLogin · false) with tailscaleLogin := none })
    | _ => (.silent, s)

/-- The machine of all interleavings. -/
def machine : Machine SetupServer SetupAction SetupReply where
  step s action := s.step action
  halts _ := false

end SetupServer

end LeaveCli.Host
