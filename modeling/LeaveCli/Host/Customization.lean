import LeaveCli.Host.LocalServer

/-!
# Devin customization (`apps/leave/src/customization.rs` and its handlers in `local_server.rs`)

`list`, `show` and `mutate` check a request and then run one documented Devin command, or answer
from the project's own skill directories. `Ran` is what they end in: the model stops where the
command is started. `customizationRead` and `customizationMutate` are the handlers, over what
`Query` and `Json` extract from the request. `IsGlobal` says which commands read or change
user-global configuration.

`Forms` stands for the decoders outside this repository: `form_urlencoded`, `serde_json` behind
`axum::Json`, and `url::Url::parse`.
-/

namespace LeaveCli.Host

open Lib

/-- One reviewed customization mutation; a missing field is empty. -/
structure CustomizationMutation where
  /-- Resource kind: `plugin` or `mcp`. -/
  kind : Str
  action : Str
  /-- Plugin source/name or MCP server name. -/
  name : Str
  /-- MCP scope: local, project, or user. -/
  scope : Str
  url : Str
  transport : Str
  command : Str
  arguments : List Str
  /-- Exact typed phrase required for executable or destructive changes. -/
  confirmation : Str

/-- The parts of a parsed URL the checks read, and the password, which none of them reads. -/
structure ParsedUrl where
  scheme : Str
  hostStr : Option Str
  username : Str
  password : Option Str

structure Forms where
  /-- `form_urlencoded`'s decoding of one key or value. -/
  decode : Str → Str
  /-- `Json<CustomizationMutation>` over a whole request. -/
  json : HttpRequest → Except ApiError CustomizationMutation
  parseUrl : Str → Option ParsedUrl

/-- What a customization call does once its checks pass. -/
inductive Ran
  /-- A fixed text of Leave's own. -/
  | output (text : Str)
  | projectSkills
  | projectSkill (name : Str)
  /-- `run`: the Devin binary in the workspace, with these arguments. -/
  | devin (arguments : List Str)
  deriving DecidableEq

/-! ## Checks -/

def validateName (value : Str) : Except Str Unit :=
  if value.trim = [] ∨ value.utf8.length > 500 ∨ '\x00' ∈ value ∨ value.head? = some '-' ∨
      '\r' ∈ value ∨ '\n' ∈ value then .error "customization name is invalid"
  else .ok ()

/-- The characters of a GitHub label. -/
def isLabelChar (c : Char) : Bool := c.isAlphanum || c = '-' || c = '_' || c = '.'

def validatePluginSource (parseUrl : Str → Option ParsedUrl) (value : Str) : Except Str Unit :=
  let githubLabel := value.takeWhile (· ≠ '#')
  let ownerRepo := githubLabel.splitOn '/'
  let validGithubLabel := ownerRepo.length = 2 ∧
    ∀ part ∈ ownerRepo, part ≠ [] ∧ part.all isLabelChar
  let validHttps := (parseUrl value).any fun url =>
    url.scheme = ("https" : Str) ∧ url.hostStr.isSome ∧ url.username = []
  if ¬ validGithubLabel ∧ !validHttps then
    .error "away installation accepts a GitHub owner/repo label or HTTPS Git URL"
  else .ok ()

def requireConfirmation (actual expected : Str) : Except Str Unit :=
  if actual ≠ expected then
    .error (("type the exact confirmation phrase: " : Str) ++ expected)
  else .ok ()

def checkedScope (scope : Str) (allowGlobal : Bool) : Except Str Str :=
  let scope := if scope = [] then ("local" : Str) else scope
  if scope ∉ (["local", "project", "user"] : List Str) then
    .error "MCP scope must be local, project, or user"
  else if scope = "user" ∧ !allowGlobal then
    .error "user-level MCP configuration is not granted for this workspace"
  else .ok scope

/-! ## The calls -/

/-- List a documented Devin customization category. -/
def list (category : Str) (allowGlobal : Bool) : Except Str Ran :=
  if category = "skills" ∧ !allowGlobal then .ok .projectSkills
  else if category = "plugins" ∧ !allowGlobal then
    .error "plugin inventory is global; reconnect with --expose-global-customization"
  else if category = "mcp" ∧ !allowGlobal then
    .ok (.output (("Project/local MCP mutations are enabled. Devin's aggregate list also " : Str) ++
      ("includes user-global servers, so Leave hides it until global customization is " : Str) ++
      ("granted." : Str)))
  else if category = "rules" then .ok (.devin ["rules", "list"])
  else if category = "skills" then .ok (.devin ["skills", "list"])
  else if category = "plugins" then .ok (.devin ["plugins", "list"])
  else if category = "mcp" then .ok (.devin ["mcp", "list"])
  else .error "unknown customization category"

/-- Show one documented rule, skill, plugin, or MCP server. -/
def show_ (category name : Str) (allowGlobal : Bool) : Except Str Ran := do
  validateName name
  if category = "skills" ∧ !allowGlobal then .ok (.projectSkill name)
  else if (category = "plugins" ∨ category = "mcp") ∧ !allowGlobal then
    .error (("this aggregate detail can include global configuration; " : Str) ++
      ("reconnect with --expose-global-customization" : Str))
  else if category = "rules" then .ok (.devin ["rules", "show", name])
  else if category = "skills" then .ok (.devin ["skills", "show", name])
  else if category = "plugins" then .ok (.devin ["plugins", "info", name])
  else if category = "mcp" then .ok (.devin ["mcp", "get", name])
  else .error "unknown customization category"

/-- The `match` of `add_mcp`: the arguments that say how the server is reached. -/
def transportArguments (parseUrl : Str → Option ParsedUrl) (mutation : CustomizationMutation) :
    Except Str (List Str) :=
  if mutation.transport = "http" ∨ mutation.transport = "sse" then
    match parseUrl mutation.url with
    | none => .error "MCP URL is invalid"
    | some url =>
      if url.scheme ≠ "http" ∧ url.scheme ≠ "https" then
        .error "HTTP MCP URLs must use http or https"
      else
        let arguments : List Str := ["--transport", mutation.transport, "--url", mutation.url]
        .ok arguments
  else if mutation.transport = "stdio" then
    if mutation.command.trim = [] ∨ '\x00' ∈ mutation.command then
      .error "stdio MCP command is invalid"
    else if mutation.arguments.length > 100 ∨
        mutation.arguments.any fun argument => '\x00' ∈ argument ∨ argument.utf8.length > 8192 then
      .error "stdio MCP arguments exceed Leave limits"
    else
      let arguments : List Str := ["--transport", "stdio", "--command", mutation.command]
      .ok (arguments ++ if mutation.arguments = [] then [] else ("--" : Str) :: mutation.arguments)
  else .error "MCP transport must be http, sse, or stdio"

def addMcp (parseUrl : Str → Option ParsedUrl) (mutation : CustomizationMutation)
    (allowGlobal : Bool) : Except Str Ran := do
  let scope ← checkedScope mutation.scope allowGlobal
  requireConfirmation mutation.confirmation (("ADD MCP " : Str) ++ mutation.name)
  let transport ← transportArguments parseUrl mutation
  let arguments : List Str := ["mcp", "add", "--scope", scope, mutation.name]
  .ok (.devin (arguments ++ transport))

/-- Apply a mutation using only documented Devin CLI arguments. -/
def mutate (parseUrl : Str → Option ParsedUrl) (mutation : CustomizationMutation)
    (allowGlobal : Bool) : Except Str Ran := do
  validateName mutation.name
  if mutation.kind = "plugin" ∧ !allowGlobal then
    .error "plugin management requires --expose-global-customization"
  else if mutation.kind = "plugin" ∧ mutation.action = "install" then do
    validatePluginSource parseUrl mutation.name
    requireConfirmation mutation.confirmation (("INSTALL PLUGIN " : Str) ++ mutation.name)
    .ok (.devin ["plugins", "install", "--yes", "--local", mutation.name])
  else if mutation.kind = "plugin" ∧ mutation.action = "remove" then do
    requireConfirmation mutation.confirmation (("REMOVE PLUGIN " : Str) ++ mutation.name)
    .ok (.devin ["plugins", "remove", "--yes", "--local", mutation.name])
  else if mutation.kind = "plugin" ∧ mutation.action = "update" then do
    requireConfirmation mutation.confirmation (("UPDATE PLUGIN " : Str) ++ mutation.name)
    .ok (.devin ["plugins", "update", mutation.name])
  else if mutation.kind = "mcp" ∧
      mutation.action ∈ (["enable", "disable", "remove"] : List Str) then do
    let scope ← checkedScope mutation.scope allowGlobal
    requireConfirmation mutation.confirmation
      (mutation.action.map Char.toUpper ++ (" MCP " : Str) ++ mutation.name)
    .ok (.devin ["mcp", mutation.action, "--scope", scope, mutation.name])
  else if mutation.kind = "mcp" ∧ mutation.action = "add" then
    addMcp parseUrl mutation allowGlobal
  else .error "unsupported customization mutation"

/-- A Devin command that reads or changes user-global configuration: every plugin command, the
aggregate MCP list and detail, and an MCP change at user scope. -/
def IsGlobal (arguments : List Str) : Prop :=
  arguments.head? = some ("plugins" : Str) ∨
    arguments.take 2 = (["mcp", "list"] : List Str) ∨
    arguments.take 2 = (["mcp", "get"] : List Str) ∨
    (arguments.head? = some ("mcp" : Str) ∧
      (arguments.drop 2).take 2 = (["--scope", "user"] : List Str))

instance (arguments : List Str) : Decidable (IsGlobal arguments) := by
  unfold IsGlobal
  infer_instance

/-! ## The handlers -/

structure CustomizationQuery where
  category : Str
  name : Option Str

/-- `form_urlencoded::parse`. -/
def queryPairs (decode : Str → Str) (query : Str) : List (Str × Str) :=
  ((query.splitOn '&').filter (· ≠ [])).map fun pair =>
    match Str.splitOnce '=' pair with
    | none => (decode pair, decode [])
    | some (name, value) => (decode name, decode value)

/-- The derived `Deserialize`: a field is given at most once, and `category` is given. -/
def CustomizationQuery.ofPairs (pairs : List (Str × Str)) : Option CustomizationQuery :=
  match pairs.filter fun p => p.1 = ("category" : Str),
      pairs.filter fun p => p.1 = ("name" : Str) with
  | [(_, category)], [] => some ⟨category, none⟩
  | [(_, category)], [(_, name)] => some ⟨category, some name⟩
  | _, _ => none

/-- What the host owner exposes of a workspace's customization. -/
structure Exposure where
  projectCustomization : Bool
  globalCustomization : Bool

/-- Both switches on. -/
def Exposure.all : Exposure := ⟨true, true⟩

def customizationRead (forms : Forms) (expose : Exposure) (request : HttpRequest) :
    Except ApiError Ran :=
  match CustomizationQuery.ofPairs (queryPairs forms.decode (request.uri.query.getD [])) with
  | none => .error (.badRequest "Failed to deserialize query string")
  | some query =>
    if !expose.projectCustomization then
      .error (.forbidden "project customization is not granted for this workspace")
    else
      let result := match query.name with
        | some name => show_ query.category name expose.globalCustomization
        | none => list query.category expose.globalCustomization
      result.mapError .badRequest

def customizationMutate (forms : Forms) (expose : Exposure) (request : HttpRequest) :
    Except ApiError Ran :=
  match forms.json request with
  | .error e => .error e
  | .ok body =>
    if !expose.projectCustomization then
      .error (.forbidden "project customization is not granted for this workspace")
    else (mutate forms.parseUrl body expose.globalCustomization).mapError .badRequest

end LeaveCli.Host
