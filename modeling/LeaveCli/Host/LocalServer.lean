import LeaveCli.Host.Http
import LeaveCli.Protocol.Authorize

/-!
# The workspace API (`apps/leave/src/local_server.rs`)

Two parts of the local HTTP server. `authorizeAccess` is the outermost layer, the network boundary
`HostAccess` sets; `requireSameOrigin` is the first check of the WebSocket handlers. `buildRouter`
is the table of routes; `dispatchRoute` is how `axum` reads it: the template that matches the path,
then the handler its `MethodRouter` has for the method. What is not in the table goes to the static
files, which are no handler. `Handler.performs` says which action a handler performs.
-/

namespace LeaveCli.Host

open Lib Protocol

/-! ## Access -/

/-- Network boundary enforced by the local HTTP server. -/
inductive HostAccess
  /-- Requests are only expected from localhost. -/
  | local_
  /-- Requests may arrive through Tailscale Serve for this exact owner. -/
  | tailnet (ownerLogin url : Str)

structure ApiError where
  status : Nat
  message : Str
  deriving DecidableEq, Repr

def ApiError.forbidden (message : Str) : ApiError := ⟨403, message⟩

def ApiError.badRequest (message : Str) : ApiError := ⟨400, message⟩

def isLocalHost (host : Str) : Bool :=
  let host := host.toAsciiLowercase
  host = "localhost" ∨ ("localhost:" : Str) <+: host ∨
    host = "127.0.0.1" ∨ ("127.0.0.1:" : Str) <+: host ∨
    host = "[::1]" ∨ ("[::1]:" : Str) <+: host

def accessAllowed (access : HostAccess) (host : Str) (login : Option Str) : Bool :=
  match access with
  | .local_ => true
  | .tailnet ownerLogin _ => isLocalHost host || login.any (· = ownerLogin)

/-- The `host` header as `authorize_access` reads it: empty when it is missing or not text. -/
def hostHeader (request : HttpRequest) : Str :=
  ((request.headers.get "host").bind headerToStr).getD []

/-- The `tailscale-user-login` header as `authorize_access` reads it, in lower case. -/
def loginHeader (request : HttpRequest) : Option Str :=
  ((request.headers.get "tailscale-user-login").bind headerToStr).map Str.toAsciiLowercase

/-- The layer around the whole router; `next` is the rest of the stack. -/
def authorizeAccess {α : Type} (access : HostAccess) (request : HttpRequest)
    (next : HttpRequest → α) : Except ApiError α :=
  if !accessAllowed access (hostHeader request) (loginHeader request) then
    .error (.forbidden "this Leave host only accepts its owner's Tailscale identity")
  else .ok (next request)

/-- What a WebSocket handler checks first: the `origin` header is of this host. -/
def requireSameOrigin (headers : HeaderMap) : Except ApiError Unit :=
  match (headers.get "host").bind headerToStr with
  | none => .error (.forbidden "WebSocket Host header is missing")
  | some host =>
    match (headers.get "origin").bind headerToStr with
    | none => .error (.forbidden "WebSocket Origin header is missing")
    | some origin =>
      if origin = ("http://" : Str) ++ host ∨ origin = ("https://" : Str) ++ host then .ok ()
      else .error (.forbidden "cross-origin WebSocket denied")

/-! ## Routes -/

/-- The handlers of the workspace API. -/
inductive Handler
  | status | localOpenapi | workspaces | sessions | createSession | session | sessionEvents
  | resumeSession | prompt | cancel | decidePermission | workspaceEvents | websocket | listFiles
  | readFile | writeFile | gitStatus | gitDiff | gitBranches | gitSwitch | gitWorktrees | gitStage
  | gitUnstage | gitCommit | gitPush | customizationRead | customizationMutate | createTerminal
  | terminalWebsocket | createPreview | previewControl | previewWebsocket
  deriving DecidableEq, Repr

/-- The handlers of one route by method. -/
abbrev MethodRouter := List (Str × Handler)

/-- `axum` answers `HEAD` with the handler for `GET`. -/
def get (handler : Handler) : MethodRouter := [("GET", handler), ("HEAD", handler)]

def post (handler : Handler) : MethodRouter := [("POST", handler)]

def put (handler : Handler) : MethodRouter := [("PUT", handler)]

/-- The routes of `build_router`. -/
def buildRouter : List (Str × MethodRouter) := [
  ("/api/v1/local/status", get .status),
  ("/api/v1/local/openapi.json", get .localOpenapi),
  ("/api/v1/local/workspaces", get .workspaces),
  ("/api/v1/local/sessions", get .sessions ++ post .createSession),
  ("/api/v1/local/sessions/{session_id}", get .session),
  ("/api/v1/local/sessions/{session_id}/events", get .sessionEvents),
  ("/api/v1/local/sessions/{session_id}/resume", post .resumeSession),
  ("/api/v1/local/sessions/{session_id}/prompts", post .prompt),
  ("/api/v1/local/sessions/{session_id}/cancel", post .cancel),
  ("/api/v1/local/permissions/{request_id}", post .decidePermission),
  ("/api/v1/local/events", get .workspaceEvents),
  ("/api/v1/local/ws", get .websocket),
  ("/api/v1/local/files", get .listFiles),
  ("/api/v1/local/file", get .readFile ++ put .writeFile),
  ("/api/v1/local/git/status", get .gitStatus),
  ("/api/v1/local/git/diff", get .gitDiff),
  ("/api/v1/local/git/branches", get .gitBranches ++ post .gitSwitch),
  ("/api/v1/local/git/worktrees", get .gitWorktrees),
  ("/api/v1/local/git/stage", post .gitStage),
  ("/api/v1/local/git/unstage", post .gitUnstage),
  ("/api/v1/local/git/commit", post .gitCommit),
  ("/api/v1/local/git/push", post .gitPush),
  ("/api/v1/local/customization", get .customizationRead ++ post .customizationMutate),
  ("/api/v1/local/terminals", post .createTerminal),
  ("/api/v1/local/terminals/{terminal_id}/ws", get .terminalWebsocket),
  ("/api/v1/local/previews", post .createPreview),
  ("/api/v1/local/previews/{preview_id}/control", put .previewControl),
  ("/api/v1/local/previews/{preview_id}/ws", get .previewWebsocket)]

/-- One segment of a template against one of a path. A parameter takes any text; the last one of a
template takes no empty text, since the path then ends before it. -/
def segmentMatches (template segment : Str) (last : Bool) : Bool :=
  if template.head? = some '{' then !last || segment ≠ [] else template = segment

def segmentsMatch : List Str → List Str → Bool
  | [], [] => true
  | t :: ts, s :: ss => segmentMatches t s ts.isEmpty && segmentsMatch ts ss
  | _, _ => false

/-- Whether a path is an instance of a route's template, segment by segment. -/
def matchesTemplate (template path : Str) : Bool :=
  segmentsMatch (template.splitOn '/') (path.splitOn '/')

/-- The handler a request reaches, when it reaches one. -/
def dispatchRoute (method path : Str) : Option Handler :=
  (buildRouter.find? fun route => matchesTemplate route.1 path).bind fun route =>
    route.2.lookup method

-- A session's events are served for the empty identifier too, a session is not.
example : dispatchRoute "GET" "/api/v1/local/sessions//events" = some .sessionEvents ∧
    dispatchRoute "GET" "/api/v1/local/sessions/" = none := by decide +kernel

/-- The action a handler performs. The customization handlers are left out: what they do depends
on more than the route. -/
def Handler.performs : Handler → Option Action
  | .decidePermission => some .lowRiskApproval
  | .createSession | .resumeSession | .prompt | .cancel => some .prompt
  | .writeFile => some .editFiles
  | .gitStage | .gitUnstage | .gitCommit | .gitPush | .gitSwitch => some .gitWrite
  | .createTerminal | .terminalWebsocket => some .rawPty
  | .createPreview | .previewControl | .previewWebsocket => some .persistentBrowserProfile
  | .customizationRead | .customizationMutate => none
  | _ => some .view

end LeaveCli.Host
