import LeaveCli.Lib.JsonTree

/-!
# The timeline (`apps/web/src/screens/session-screen.tsx`)

`buildTimeline` makes the messages of the session screen out of its events. Payloads are JSON, and
`String` is the language's own conversion; a call of it, or of the browser's formatter of times,
that throws makes the whole timeline throw. `readEvent` is what the code reads of one event before
it looks at the messages. Ids are texts, fields of events that the timeline does not read are left
out.
-/

namespace LeaveCli.Web.Timeline

open Lib

/-- A `TypeError` of `String`, or what the formatter throws. -/
inductive JsError
  | typeError
  | rangeError
  deriving DecidableEq

/-- The parts of the browser that texts come from. -/
structure Browser (ν : Type) where
  /-- The text of a number. -/
  numberText : ν → Str
  /-- `formatTime`. -/
  formatTime : Int → Except JsError Str

structure LocalEvent (ν : Type) where
  eventId : Str
  kind : Str
  occurredAtUnixMs : Int
  payload : List (Str × Json ν)

inductive MessageKind
  | user
  | agent
  | thought
  | tool
  | approval
  | system
  deriving DecidableEq

def MessageKind.text : MessageKind → Str
  | .user => "user"
  | .agent => "agent"
  | .thought => "thought"
  | .tool => "tool"
  | .approval => "approval"
  | .system => "system"

structure PermissionOption where
  optionId : Str
  name : Str
  kind : Str
  deriving DecidableEq

structure TimelineMessage where
  id : Str
  kind : MessageKind
  author : Str
  body : Str
  «meta» : Option Str
  requestId : Option Str
  options : Option (List PermissionOption)
  resolution : Option Str
  deriving DecidableEq

/-! ## Payloads -/

variable {ν : Type} (browser : Browser ν)

/-- A property of an object. -/
def field (fields : List (Str × Json ν)) (key : Str) : Option (Json ν) := fields.lookup key

def record : Option (Json ν) → List (Str × Json ν)
  | some (.object fields) => fields
  | _ => []

def array : Option (Json ν) → List (Json ν)
  | some (.array items) => items
  | _ => []

/-- `String(value ?? otherwise)`. -/
def stringOr (value : Option (Json ν)) (otherwise : Except JsError Str) : Except JsError Str :=
  match value with
  | none | some .null => otherwise
  | some value =>
    match value.text browser.numberText with
    | some text => .ok text
    | none => .error .typeError

/-- `messages.push` of the kinds that have no request. -/
def plainMessage (id : Str) (kind : MessageKind) (author body «meta» : Str) : TimelineMessage :=
  ⟨id, kind, author, body, some «meta», none, none, none⟩

/-- `resolutions`: a later resolution of the same request comes first. -/
def resolutions (events : List (LocalEvent ν)) : Except JsError (List (Str × Str)) :=
  events.foldlM (fun resolutions event =>
    if event.kind = ("permission_resolved" : Str) then do
      let requestId ← stringOr browser (field event.payload "requestId") (.ok [])
      let status ← stringOr browser (field event.payload "status") (.ok ("resolved" : Str))
      pure ((requestId, status) :: resolutions)
    else pure resolutions) []

def permissionOption (value : Json ν) : Except JsError PermissionOption := do
  let option := record (some value)
  let optionId ← stringOr browser (field option "optionId") (.ok [])
  let name ← stringOr browser (field option "name") (.ok ("Choose" : Str))
  let kind ← stringOr browser (field option "kind") (.ok ("allow_once" : Str))
  pure { optionId, name, kind }

/-! ## Events -/

/-- A chunk of streamed text; the message id is empty where there is none. -/
structure Chunk where
  kind : MessageKind
  messageId : Str
  text : Str
  deriving DecidableEq

/-- What an event is for the timeline. -/
inductive Entry
  | message (message : TimelineMessage)
  | chunk (chunk : Chunk)
  | nothing
  deriving DecidableEq

/-- The event's own message: a prompt, an approval, a failure or a cancellation. -/
def readMessage (resolutions : List (Str × Str)) (event : LocalEvent ν) : Except JsError Entry :=
  if event.kind = ("user_prompt" : Str) then do
    let body ← stringOr browser (field event.payload "text") (.ok [])
    let time ← browser.formatTime event.occurredAtUnixMs
    pure (.message (plainMessage event.eventId .user "You" body time))
  else if event.kind = ("permission_requested" : Str) then do
    let request := record (field event.payload "request")
    let toolCall := record (field request "toolCall")
    let requestId ← stringOr browser (field event.payload "requestId") (.ok event.eventId)
    let body ← stringOr browser (field toolCall "title")
      (.ok ("Devin requested a protected operation." : Str))
    let time ← browser.formatTime event.occurredAtUnixMs
    let options ← (array (field request "options")).mapM (permissionOption browser)
    pure (.message {
      id := event.eventId
      kind := .approval
      author := "Permission"
      body
      «meta» := some time
      requestId := some requestId
      options := some (options.filter fun option => option.optionId ≠ [])
      resolution := resolutions.lookup requestId })
  else if event.kind = ("prompt_failed" : Str) then do
    let body ← stringOr browser (field event.payload "message")
      (.ok ("The Devin turn failed." : Str))
    let time ← browser.formatTime event.occurredAtUnixMs
    pure (.message (plainMessage event.eventId .system "Leave" body time))
  else if event.kind = ("session_cancelled" : Str) then do
    let time ← browser.formatTime event.occurredAtUnixMs
    pure (.message (plainMessage event.eventId .system "Leave"
      "The current Devin turn was cancelled." time))
  else pure .nothing

/-- What `appendSessionUpdate` reads of the event. -/
def readUpdate (event : LocalEvent ν) : Except JsError Entry := do
  let update := record (field event.payload "update")
  let kind ← stringOr browser (field update "sessionUpdate") (.ok [])
  if kind ∈ [("agent_message_chunk" : Str), "agent_thought_chunk", "user_message_chunk"] then
    let content := record (field update "content")
    let text ← stringOr browser (field content "text") (.ok [])
    if text = [] then pure .nothing
    else
      let messageKind : MessageKind :=
        if kind = ("agent_message_chunk" : Str) then .agent
        else if kind = ("user_message_chunk" : Str) then .user
        else .thought
      let messageId ← stringOr browser (field update "messageId") (.ok [])
      pure (.chunk ⟨messageKind, messageId, text⟩)
  else if kind = ("tool_call" : Str) ∨ kind = ("tool_call_update" : Str) then
    let body ← stringOr browser (field update "title") do
      let toolCallId ← stringOr browser (field update "toolCallId") (.ok ("update" : Str))
      pure (("Tool " : Str) ++ toolCallId)
    let status ← stringOr browser (field update "status")
      (.ok (if kind = ("tool_call" : Str) then "started" else "updated"))
    pure (.message (plainMessage event.eventId .tool "Devin tool" body status))
  else pure .nothing

def readEvent (resolutions : List (Str × Str)) (event : LocalEvent ν) : Except JsError Entry :=
  if event.kind = ("session_update" : Str) then readUpdate browser event
  else readMessage browser resolutions event

/-! ## Messages -/

def authorFor : MessageKind → Str
  | .user => "You"
  | .thought => "Devin thought"
  | _ => "Devin"

def chunkId (messageId : Str) (kind : MessageKind) : Str :=
  ("chunk:" : Str) ++ messageId ++ ([':'] ++ kind.text)

def autoId (eventId : Str) : Str := ("chunk:auto:" : Str) ++ eventId

/-- `body += text` of the message at one place. -/
def extend (messages : List TimelineMessage) (index : Nat) (text : Str) : List TimelineMessage :=
  messages.modify index fun message => { message with body := message.body ++ text }

/-- `messages.push` of a chunk's own message. -/
def pushChunk (messages : List TimelineMessage) (event : LocalEvent ν) (id : Str) (chunk : Chunk) :
    Except JsError (List TimelineMessage) := do
  let time ← browser.formatTime event.occurredAtUnixMs
  pure (messages ++ [plainMessage id chunk.kind (authorFor chunk.kind) chunk.text time])

def appendChunk (messages : List TimelineMessage) (event : LocalEvent ν) (chunk : Chunk) :
    Except JsError (List TimelineMessage) :=
  if chunk.messageId ≠ [] then
    let id := chunkId chunk.messageId chunk.kind
    match messages.findIdx? fun message => message.id = id with
    | some existing => .ok (extend messages existing chunk.text)
    | none => pushChunk browser messages event id chunk
  else
    -- without an id the message that grows is the last one, if it is of chunks of that kind
    match messages.getLast? with
    | some previous =>
      if previous.kind = chunk.kind ∧ ("chunk:" : Str) <+: previous.id then
        .ok (extend messages (messages.length - 1) chunk.text)
      else pushChunk browser messages event (autoId event.eventId) chunk
    | none => pushChunk browser messages event (autoId event.eventId) chunk

/-- One round of the second loop. -/
def appendEvent (resolutions : List (Str × Str)) (messages : List TimelineMessage)
    (event : LocalEvent ν) : Except JsError (List TimelineMessage) := do
  match ← readEvent browser resolutions event with
  | .message message => pure (messages ++ [message])
  | .chunk chunk => appendChunk browser messages event chunk
  | .nothing => pure messages

def buildTimeline (events : List (LocalEvent ν)) : Except JsError (List TimelineMessage) := do
  let resolutions ← resolutions browser events
  events.foldlM (appendEvent browser resolutions) []

end LeaveCli.Web.Timeline
