import LeaveCli.Core.EventStore
import LeaveCli.Lib.Run

/-!
# The ACP worker (`apps/leave/src/acp.rs`)

A `Host` is the database and, while the process runs, its worker. The worker starts up, then takes
commands one at a time; a command is a `Handler` that makes one call at each step, a statement of
the store or a message to the agent. `accept_prompt` leaves a `Task` behind that sends the prompt,
waits for the end of the turn and resets the session, each at its own time.

An `Action` is what may happen next: the process starts or dies, the connection ends, the loop takes
a command, the handler or a task makes its call (which may fail), the agent answers. Nothing is
said about the order, and an action that does not fit the state changes nothing. Pending
permissions, workspace removal and other processes on the same database are left out.
-/

namespace LeaveCli.Acp

open Lib LeaveCli.Core

/-! ## Commands -/

/-- What `WorkerCommand::Prompt` carries. -/
structure Prompt where
  sessionId : Str
  text : Str
  commandId : Uuid
  deriving DecidableEq

inductive WorkerCommand
  | createSession (title : Str)
  | resumeSession (sessionId : Str)
  | prompt (p : Prompt)
  | cancel (sessionId : Str)

inductive Reply
  | created (session : SessionRecord)
  | resumed
  /-- `PromptAccepted`. -/
  | accepted (commandId : Uuid) (duplicate : Bool)
  | cancelled
  deriving DecidableEq

/-- A command under way, by the call it makes next. -/
inductive Handler
  /-- `create_session` waits for the agent's `NewSessionRequest`. -/
  | creating (title : Str)
  | registering (sessionId title : Str)
  | recordingCreated (sessionId title : Str)
  /-- `resume_session` waits for the agent's `ResumeSessionRequest`. -/
  | resuming (sessionId : Str)
  | resumed (sessionId : Str)
  | recordingResumed (sessionId : Str)
  /-- `accept_prompt` is about to read the session. -/
  | prompting (p : Prompt)
  | claiming (p : Prompt)
  | marking (p : Prompt)
  | recording (p : Prompt)
  | launching (p : Prompt)
  /-- `cancel_session` is about to send the `CancelNotification`. -/
  | notifying (sessionId : Str)
  | cancelling (sessionId : Str)
  | recordingCancelled (sessionId : Str)
  deriving DecidableEq

def WorkerCommand.handler : WorkerCommand → Handler
  | .createSession title => .creating title
  | .resumeSession sessionId => .resuming sessionId
  | .prompt p => .prompting p
  | .cancel sessionId => .notifying sessionId

/-- `normalize_title`. -/
def normalizeTitle (title : Str) : Str :=
  let title := title.trim
  if title.isEmpty then "New Devin session" else title.take 120

/-- The row of a session the agent created. -/
def newSession (workspace : WorkspaceRecord) (sessionId title : Str) : SessionRecord :=
  ⟨sessionId, workspace.id, normalizeTitle title, .idle⟩

/-- What a step of a handler leaves: the store, the next call or the reply, and the prompt whose
task it spawned. -/
structure Effect where
  store : EventStore
  next : Option Handler
  reply : Option (Except Str Reply)
  launched : Option Prompt

namespace Effect

def andThen (store : EventStore) (next : Handler) : Effect := ⟨store, some next, none, none⟩

def done (store : EventStore) (reply : Reply) : Effect := ⟨store, none, some (.ok reply), none⟩

def bail (store : EventStore) (error : Str) : Effect := ⟨store, none, some (.error error), none⟩

/-- `?` on a call: a call that fails has changed nothing. -/
def attempt (store : EventStore) (fault : Option Str) (effect : Effect) : Effect :=
  match fault with
  | some error => bail store error
  | none => effect

end Effect

namespace Handler

/-- The handler makes its call; `none` while it waits for the agent. -/
def proceed (workspace : WorkspaceRecord) (store : EventStore) (fault : Option Str) :
    Handler → Option Effect
  | creating _ | resuming _ => none
  | registering sessionId title =>
    some (.attempt store fault (.andThen
      (store.upsertSession (newSession workspace sessionId title))
      (recordingCreated sessionId title)))
  | recordingCreated sessionId title =>
    let session := newSession workspace sessionId title
    some (.attempt store fault (.done (store.appendEvent workspace.id (some session.sessionId)
      (.sessionCreated session)).1 (.created session)))
  | resumed sessionId =>
    some (.attempt store fault (.andThen (store.updateSessionState sessionId .idle).1
      (recordingResumed sessionId)))
  | recordingResumed sessionId =>
    some (.attempt store fault (.done (store.appendEvent workspace.id (some sessionId)
      (.sessionResumed sessionId)).1 .resumed))
  | prompting p =>
    if p.text.trim.isEmpty then some (.bail store "prompt cannot be empty")
    else some (.attempt store fault (match store.getSession workspace.id p.sessionId with
      | none => .bail store "session is not registered in this workspace"
      | some session =>
        if session.state = .working then .bail store "this session already has an active Devin turn"
        else .andThen store (claiming p)))
  | claiming p =>
    some (.attempt store fault (match store.claimCommand p.commandId with
      | (store, .duplicate) => .done store (.accepted p.commandId true)
      | (store, .new) => .andThen store (marking p)))
  | marking p =>
    some (.attempt store fault (match store.updateSessionState p.sessionId .working with
      | (store, false) => .bail store "session disappeared before the prompt was accepted"
      | (store, true) => .andThen store (recording p)))
  | recording p =>
    some (.attempt store fault (.andThen (store.appendEvent workspace.id (some p.sessionId)
      (.userPrompt p.commandId p.text)).1 (launching p)))
  | launching p =>
    some (.attempt store fault ⟨store, none, some (.ok (.accepted p.commandId false)), some p⟩)
  | notifying sessionId =>
    some (.attempt store (fault.map fun _ => "could not send ACP cancellation")
      (.andThen store (cancelling sessionId)))
  | cancelling sessionId =>
    some (.attempt store fault (.andThen (store.updateSessionState sessionId .idle).1
      (recordingCancelled sessionId)))
  | recordingCancelled sessionId =>
    some (.attempt store fault (.done (store.appendEvent workspace.id (some sessionId)
      (.sessionCancelled sessionId)).1 .cancelled))

/-- The agent answers the request the handler waits for, a new session with its identifier. -/
def answer (store : EventStore) (result : Except Str Str) : Handler → Option Effect
  | creating title =>
    match result with
    | .error _ => some (.bail store "Devin rejected session creation")
    | .ok sessionId => some (.andThen store (registering sessionId title))
  | resuming sessionId =>
    match result with
    | .error _ => some (.bail store "Devin could not resume this session")
    | .ok _ => some (.andThen store (resumed sessionId))
  | _ => none

/-- The session the agent attaches with its answer. -/
def attaches (result : Except Str Str) : Handler → Option Str
  | creating _ => result.toOption
  | resuming sessionId => result.toOption.map fun _ => sessionId
  | _ => none

end Handler

/-! ## Turns -/

/-- `publish_event` where an error is only logged. -/
def publish (store : EventStore) (workspaceId : Uuid) (sessionId : Option Str) (payload : Payload)
    (fault : Option Str) : EventStore :=
  if fault.isSome then store else (store.appendEvent workspaceId sessionId payload).1

/-- A turn's task, by the call it makes next; `result` is how its `PromptRequest` ended. -/
inductive Phase
  | sending
  | waiting
  | resetting (result : Except Str Unit)
  | recording (result : Except Str Unit)
  deriving DecidableEq

def turnPayload : Except Str Unit → Payload
  | .ok () => .promptCompleted
  | .error message => .promptFailed message

/-- The task `accept_prompt` spawns. -/
structure Task where
  prompt : Prompt
  phase : Phase
  deriving DecidableEq

/-- What a step of a task leaves. A task goes on when a call fails, with a log line. -/
structure TaskEffect where
  store : EventStore
  next : Option Task
  sent : Option Prompt

namespace Task

/-- The task makes its call; `none` while it waits for the agent. -/
def progress (workspace : WorkspaceRecord) (store : EventStore) (fault : Option Str) (task : Task) :
    Option TaskEffect :=
  match task.phase with
  | .sending =>
    match fault with
    | some error => some ⟨store, some ⟨task.prompt, .resetting (.error error)⟩, none⟩
    | none => some ⟨store, some ⟨task.prompt, .waiting⟩, some task.prompt⟩
  | .waiting => none
  | .resetting result =>
    let store := if fault.isSome then store
      else (store.updateSessionState task.prompt.sessionId .idle).1
    some ⟨store, some ⟨task.prompt, .recording result⟩, none⟩
  | .recording result =>
    some ⟨publish store workspace.id (some task.prompt.sessionId) (turnPayload result) fault,
      none, none⟩

/-- The agent ends the turn. -/
def complete (result : Except Str Unit) (task : Task) : Option Task :=
  match task.phase with
  | .waiting => some ⟨task.prompt, .resetting result⟩
  | _ => none

end Task

/-! ## The worker -/

inductive Stage
  /-- `AcpHandle::start` is about to mark the sessions offline. -/
  | marking
  | connecting
  /-- The agent is initialized, the event is not recorded yet. -/
  | announcing
  /-- `command_loop`, with the command under way. -/
  | serving (handler : Option Handler)
  /-- `run_worker` has failed, the event is not recorded yet. -/
  | failing (message : Str)
  | stopped
  deriving DecidableEq

structure Worker where
  workspace : WorkspaceRecord
  stage : Stage
  /-- The tasks on the connection, in no order. -/
  tasks : List Task
  /-- The sessions the agent created or resumed on this connection. -/
  attached : Finset Str

/-- The database, and the worker while the process runs. -/
structure Host where
  store : EventStore
  worker : Option Worker

/-- What the notification and permission handlers publish. -/
inductive Notice
  | sessionUpdate
  | permissionRequested (requestId : Uuid)
  | permissionResolved (requestId : Uuid) (optionId : Option Str)

def Notice.payload : Notice → Payload
  | sessionUpdate => .sessionUpdate
  | permissionRequested requestId => .permissionRequested requestId
  | permissionResolved requestId optionId => .permissionResolved requestId optionId

/-- What may happen next; `some error` is the error of a call that fails. -/
inductive Action
  | start (workspace : WorkspaceRecord)
  /-- The process dies, between any two calls. -/
  | crash
  | startup (fault : Option Str)
  /-- The connection to the agent ends. -/
  | stop (message : Str)
  | receive (command : WorkerCommand)
  | proceed (fault : Option Str)
  | answer (result : Except Str Str)
  | progress (i : Nat) (fault : Option Str)
  | complete (i : Nat) (result : Except Str Unit)
  | observe (sessionId : Str) (notice : Notice) (fault : Option Str)

/-- What an action lets out: a reply to the client, a `PromptRequest` to the agent. -/
structure Output where
  reply : Option (Except Str Reply)
  sent : Option Prompt
  deriving DecidableEq

def Output.none : Output := ⟨.none, .none⟩

namespace Worker

/-- `AcpHandle::start`. -/
def start (workspace : WorkspaceRecord) : Worker := ⟨workspace, .marking, [], ∅⟩

/-- The next step before the loop, or after it failed. -/
def startup (w : Worker) (store : EventStore) (fault : Option Str) : EventStore × Stage :=
  match w.stage with
  | .marking =>
    (if fault.isSome then store else store.markWorkspaceSessionsOffline w.workspace.id, .connecting)
  | .connecting =>
    match fault with
    | some error => (store, .failing error)
    | none => (store, .announcing)
  | .announcing => (publish store w.workspace.id none .acpReady fault, .serving none)
  | .failing message => (publish store w.workspace.id none (.hostError message) fault, .stopped)
  | stage => (store, stage)

/-- The worker after a step of its handler. -/
def handled (w : Worker) (effect : Effect) (attached : Option Str) : Worker :=
  { w with
    stage := .serving effect.next
    tasks := (effect.launched.map fun p => ⟨p, .sending⟩).toList ++ w.tasks
    attached := attached.elim w.attached fun sessionId => insert sessionId w.attached }

/-- The worker after a step of its task `i`. -/
def worked (w : Worker) (i : Nat) (next : Option Task) : Worker :=
  { w with tasks := next.toList ++ w.tasks.eraseIdx i }

/-- The command under way. -/
def handler (w : Worker) : Option Handler :=
  match w.stage with
  | .serving handler => handler
  | _ => none

end Worker

namespace Host

/-- The command under way. -/
def handler (h : Host) : Option Handler := h.worker.bind Worker.handler

/-- The sessions the agent created or resumed on the current connection. -/
def attached (h : Host) : Finset Str := h.worker.elim ∅ Worker.attached

/-- A step of the handler, when it fits. -/
def handle (h : Host) (w : Worker) (effect : Option Effect) (attached : Option Str) :
    Output × Host :=
  match effect with
  | none => (.none, h)
  | some effect => (⟨effect.reply, none⟩, ⟨effect.store, some (w.handled effect attached)⟩)

/-- One action of the worker. -/
def act (h : Host) (w : Worker) : Action → Output × Host
  | .start _ => (.none, h)
  | .crash => (.none, ⟨h.store, none⟩)
  | .startup fault =>
    let (store, stage) := w.startup h.store fault
    (.none, ⟨store, some { w with stage }⟩)
  | .stop message =>
    match w.stage with
    | .connecting | .announcing | .serving _ =>
      (.none, ⟨h.store, some { w with stage := .failing message, tasks := [] }⟩)
    | _ => (.none, h)
  | .receive command =>
    match w.stage with
    | .serving none => (.none, ⟨h.store, some { w with stage := .serving (some command.handler) }⟩)
    | _ => (.none, h)
  | .proceed fault =>
    h.handle w (w.handler.bind fun handler => handler.proceed w.workspace h.store fault) none
  | .answer result =>
    h.handle w (w.handler.bind fun handler => handler.answer h.store result)
      (w.handler.bind fun handler => handler.attaches result)
  | .progress i fault =>
    match w.tasks[i]?.bind fun task => task.progress w.workspace h.store fault with
    | none => (.none, h)
    | some effect => (⟨none, effect.sent⟩, ⟨effect.store, some (w.worked i effect.next)⟩)
  | .complete i result =>
    match w.tasks[i]?.bind fun task => task.complete result with
    | none => (.none, h)
    | some task => (.none, ⟨h.store, some (w.worked i (some task))⟩)
  | .observe sessionId notice fault =>
    match w.stage with
    | .connecting | .announcing | .serving _ => (.none,
        ⟨publish h.store w.workspace.id (some sessionId) notice.payload fault, some w⟩)
    | _ => (.none, h)

def step (h : Host) (a : Action) : Output × Host :=
  match h.worker with
  | some w => h.act w a
  | none =>
    match a with
    | .start workspace => (.none, ⟨h.store, some (.start workspace)⟩)
    | _ => (.none, h)

/-- The database that was just created, before the first start. -/
def fresh : Host := ⟨.empty, none⟩

end Host

/-- Every history of the host: runs of this machine. -/
def host : Machine Host Action Output where
  step := Host.step
  halts := fun _ => false

end LeaveCli.Acp
