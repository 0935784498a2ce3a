import LeaveCli.Lib.Run
import LeaveCli.Lib.Text
import Mathlib.Data.List.DropRight
import Mathlib.Logic.Function.Basic

/-!
# The guided Devin sign-in (`apps/leave/src/setup_server.rs`)

`auth_login` starts `devin auth login`, replaces the report, puts the process in the slot and starts
two tasks: `stream_devin_login` reads the output into the report, `stop_stale_devin_login` waits for
ten minutes and stops what still runs. `DevinLogin` is the machine of the requests, these tasks and
the processes; a step is what one of them does under one lock. `setup_status` and the polls of
`await_devin_login_link` look at the slot, and empty it when its process has exited.
-/

namespace LeaveCli.Host

open Lib

/-- `str::find`, cut there. -/
def findFrom (pattern : Str) : Str → Option Str
  | [] => if pattern = [] then some [] else none
  | c :: cs => if pattern <+: c :: cs then some (c :: cs) else findFrom pattern cs

/-- `devin_login_url` -/
def devinLoginUrl (line : Str) : Option Str := do
  let start ← (findFrom "https://" line).or (findFrom "http://" line)
  let url := start.takeWhile fun c => !Str.isWhiteSpace c
  pure (url.rdropWhile fun c => c ∈ ['.', ',', ')', '\''])

/-- `DevinLoginReport` -/
structure DevinLoginReport where
  /-- Counts the attempts. -/
  generation : Nat
  url : Option Str
  transcript : Str
  finished : Bool
  deriving DecidableEq, Repr

/-- `DevinLoginReport { generation, ..Default::default() }` -/
def DevinLoginReport.ofGeneration (generation : Nat) : DevinLoginReport :=
  ⟨generation, none, [], false⟩

/-- Where `stream_devin_login` is. -/
inductive StreamStage
  | reading
  /-- It has seen a URL and goes on to write it. -/
  | found (url : Str)
  | ended
  deriving DecidableEq, Repr

/-- Where `stop_stale_devin_login` is. -/
inductive WatchdogStage
  | sleeping
  /-- It has found its attempt still running. -/
  | passed
  /-- It has taken the process of this attempt out of the slot. -/
  | holding (attempt : Nat)
  | stopped
  | done
  deriving DecidableEq, Repr

/-- Where `auth_login` and its tasks are. -/
inductive LoginStage
  | spawned
  | replaced (generation : Nat)
  | stored (generation : Nat) (stream : StreamStage) (watchdog : WatchdogStage)
  deriving DecidableEq, Repr

namespace LoginStage

/-- The generation the report got from the attempt. -/
def generation? : LoginStage → Option Nat
  | .spawned => none
  | .replaced generation => some generation
  | .stored generation _ _ => some generation

/-- The attempt has replaced the report, and its output has not ended. -/
def OutputOpen : LoginStage → Prop
  | .spawned => False
  | .replaced _ => True
  | .stored _ stream _ => stream ≠ .ended

/-- Its watchdog is between its check and the slot. -/
def Passed : LoginStage → Prop
  | .spawned => False
  | .replaced _ => False
  | .stored _ _ watchdog => watchdog = .passed

instance (stage : LoginStage) : Decidable stage.OutputOpen := by
  cases stage <;> unfold OutputOpen <;> infer_instance

instance (stage : LoginStage) : Decidable stage.Passed := by
  cases stage <;> unfold Passed <;> infer_instance

end LoginStage

structure DevinLogin where
  report : DevinLoginReport
  /-- The attempt whose process is in the slot. -/
  slot : Option Nat
  attempts : Nat → Option LoginStage
  /-- The process of an attempt has ended. -/
  exited : Nat → Bool

inductive LoginAction
  /-- `auth_login` reads the slot, and starts a process when it may; `try_wait` fails or not. No
  other task sees the process before it is stored. -/
  | request (id : Nat) (fails : Bool)
  | replace (id : Nat)
  | store (id : Nat)
  /-- `setup_status` or a poll of `await_devin_login_link` reads the slot. -/
  | look (fails : Bool)
  /-- The process of an attempt exits. -/
  | exit (id : Nat)
  /-- The stream of an attempt gets a line. -/
  | line (id : Nat) (line : Str)
  | writeUrl (id : Nat)
  | endOfOutput (id : Nat)
  /-- The watchdog of an attempt wakes up. -/
  | timer (id : Nat)
  | take (id : Nat)
  | kill (id : Nat)
  | finish (id : Nat)
  /-- Leave takes the process out of the slot and kills it. -/
  | shutdown

/-- The attempt whose stream takes the step. -/
def LoginAction.stream? : LoginAction → Option Nat
  | .line id _ => some id
  | .writeUrl id => some id
  | .endOfOutput id => some id
  | _ => none

inductive LoginReply
  | silent
  | refused (error : Str)
  /-- A watchdog has killed the running process of this attempt. -/
  | killed (attempt : Nat)
  deriving DecidableEq, Repr

namespace DevinLogin

def start : DevinLogin := ⟨.ofGeneration 0, none, fun _ => none, fun _ => false⟩

def alreadyRunning : Str :=
  "A Devin sign-in is already running. Finish it in your browser, then choose Check again."

def stoppedNote : Str := "(Leave stopped the sign-in after ten minutes.)\n"

variable (s : DevinLogin) (id : Nat)

def withStage (stage : LoginStage) : DevinLogin :=
  { s with attempts := Function.update s.attempts id (some stage) }

def ends : DevinLogin := { s with exited := Function.update s.exited id true }

/-- The process in the slot is dropped, and with it killed. -/
def dropSlot : DevinLogin := { s.slot.elim s s.ends with slot := none }

/-- `try_wait` says that the process in the slot is running. -/
def busy (fails : Bool) : Bool := s.slot.any fun attempt => !s.exited attempt && !fails

def request (fails : Bool) : LoginReply × DevinLogin :=
  if s.busy fails then (.refused alreadyRunning, s) else (.silent, s.dropSlot.withStage id .spawned)

def replace : DevinLogin :=
  { s with report := .ofGeneration (s.report.generation + 1) }.withStage id
    (.replaced (s.report.generation + 1))

/-- The process is stored, and the two tasks start. -/
def store (generation : Nat) : DevinLogin :=
  { s.dropSlot with slot := some id }.withStage id (.stored generation .reading .sleeping)

section Stream

variable (generation : Nat) (watchdog : WatchdogStage)

def pushLine (line : Str) : DevinLogin :=
  let found := if s.report.url.isNone then devinLoginUrl line else none
  { s with
    report := { s.report with transcript := s.report.transcript ++ line ++ ['\n'] } }.withStage id
      (.stored generation (found.elim .reading .found) watchdog)

def writeUrl (url : Str) : DevinLogin :=
  { s with report := { s.report with url := some url } }.withStage id
    (.stored generation .reading watchdog)

def endOfOutput : DevinLogin :=
  { s with report := { s.report with finished := true } }.withStage id
    (.stored generation .ended watchdog)

end Stream

section Watchdog

variable (generation : Nat) (stream : StreamStage)

def timer : DevinLogin :=
  s.withStage id (.stored generation stream
    (if s.report.generation = generation && !s.report.finished then .passed else .done))

def take : DevinLogin :=
  { s with slot := none }.withStage id (.stored generation stream (s.slot.elim .stopped .holding))

def kill (attempt : Nat) : LoginReply × DevinLogin :=
  (if s.exited attempt then .silent else .killed attempt,
    (s.ends attempt).withStage id (.stored generation stream .stopped))

def finish : DevinLogin :=
  let report := if s.report.generation = generation then
      { s.report with finished := true, transcript := s.report.transcript ++ stoppedNote }
    else s.report
  { s with report }.withStage id (.stored generation stream .done)

end Watchdog

def step (s : DevinLogin) : LoginAction → LoginReply × DevinLogin
  | .request id fails =>
    match s.attempts id with
    | none => s.request id fails
    | some _ => (.silent, s)
  | .replace id =>
    match s.attempts id with
    | some .spawned => (.silent, s.replace id)
    | _ => (.silent, s)
  | .store id =>
    match s.attempts id with
    | some (.replaced generation) => (.silent, s.store id generation)
    | _ => (.silent, s)
  | .look fails => (.silent, if s.busy fails then s else s.dropSlot)
  | .exit id => (.silent, s.ends id)
  | .line id line =>
    match s.attempts id with
    | some (.stored generation .reading watchdog) =>
      (.silent, s.pushLine id generation watchdog line)
    | _ => (.silent, s)
  | .writeUrl id =>
    match s.attempts id with
    | some (.stored generation (.found url) watchdog) =>
      (.silent, s.writeUrl id generation watchdog url)
    | _ => (.silent, s)
  | .endOfOutput id =>
    match s.attempts id with
    | some (.stored generation .reading watchdog) => (.silent, s.endOfOutput id generation watchdog)
    | _ => (.silent, s)
  | .timer id =>
    match s.attempts id with
    | some (.stored generation stream .sleeping) => (.silent, s.timer id generation stream)
    | _ => (.silent, s)
  | .take id =>
    match s.attempts id with
    | some (.stored generation stream .passed) => (.silent, s.take id generation stream)
    | _ => (.silent, s)
  | .kill id =>
    match s.attempts id with
    | some (.stored generation stream (.holding attempt)) => s.kill id generation stream attempt
    | _ => (.silent, s)
  | .finish id =>
    match s.attempts id with
    | some (.stored generation stream .stopped) => (.silent, s.finish id generation stream)
    | _ => (.silent, s)
  | .shutdown => (.silent, s.dropSlot)

/-- The machine of all interleavings. -/
def machine : Machine DevinLogin LoginAction LoginReply where
  step s action := s.step action
  halts _ := false

end DevinLogin

end LeaveCli.Host
