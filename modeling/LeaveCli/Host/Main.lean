import LeaveCli.Core.EventStore
import LeaveCli.Crypto.Release
import LeaveCli.Host.LocalServer
import LeaveCli.Lib.Lossy
import LeaveCli.Lib.Traced
import LeaveCli.Lib.UnixPath

/-!
# The command line (`apps/leave/src/main.rs`, `service.rs`, `serve_local` of `local_server.rs`)

How `leave connect`, `leave serve` and the installed service start a host. Reading the arguments
and the environment is `clap`'s and stays a parameter of `main`; the subcommands that start no host
are left out. A `World` is what the calls out of the program return in one run, one field for each
call; an `Effect` is what a run does that the release gate is about.
-/

namespace LeaveCli.Host

open Lib LeaveCli.Core Crypto

/-! ## Arguments -/

structure ConnectArgs where
  /-- Repository or workspace directory to approve. -/
  path : Str
  /-- Also serve this workspace through a relay, for access outside a tailnet. -/
  relay : Option Str
  /-- Secret the relay requires to register a route. -/
  relayRegistrationSecret : Option Str
  name : Option Str
  away : Bool
  background : Bool
  port : UInt16
  webDir : Option OsStr
  grantTerminal : Bool
  grantPreview : Bool
  exposeGlobalCustomization : Bool

structure ServeArgs where
  workspace : Uuid
  /-- Request internet-routed operation. -/
  remote : Bool
  away : Bool
  relay : Option Str
  relayRegistrationSecret : Option Str
  port : UInt16
  webDir : Option OsStr
  acpCommand : Option Str
  devinBinary : Option OsStr
  grantTerminal : Bool
  grantPreview : Bool
  chromeBinary : Option OsStr

inductive ServiceCommand
  | install (workspace : Uuid) (away grantTerminal grantPreview : Bool) (port : UInt16)
      (webDir : Option OsStr)
  | status
  | uninstall

inductive CommandName
  | login
  | pair
  | connect (args : ConnectArgs)
  | serve (args : ServeArgs)
  | service (command : ServiceCommand)

structure Cli where
  command : CommandName
  dataDir : Option OsStr

/-! ## The outside -/

/-- Options persisted into the per-user Leave host service. -/
structure ServiceInstall where
  workspace : Uuid
  webDir : OsStr
  dataDir : OsStr
  devinBinary : OsStr
  chromeBinary : Option OsStr
  port : UInt16
  away : Bool
  terminal : Bool
  preview : Bool

structure AwayAccess where
  ownerLogin : Str
  url : Str

/-- What the calls out of the program return. -/
structure World where
  /-- `AppPaths::discover` and `create_dir_all`. -/
  dataDir : Option OsStr → Except Str OsStr
  openStore : OsStr → Except Str Unit
  isFile : OsStr → Bool
  discoverDevinBinary : Option OsStr
  discoverChromeBinary : Option OsStr
  discoverWebDirectory : OsStr
  /-- `devin auth status` succeeds, before any login. -/
  devinAuthCheck : OsStr → Bool
  /-- `devin auth login` could be started, and succeeded. -/
  devinAuthLogin : OsStr → Except Str Bool
  /-- `devin auth status` succeeds after the login. -/
  devinAuthCheckAgain : OsStr → Bool
  /-- `WorkspaceRoot::register`: the canonical path of a directory. -/
  registerRoot : Str → Except Str Str
  fileName : Str → Option Str
  newId : Uuid
  /-- `list_workspaces` in `connect`. -/
  knownWorkspaces : Except Str (List WorkspaceRecord)
  upsertWorkspace : WorkspaceRecord → Except Str Unit
  /-- `list_workspaces` in `serve`. -/
  workspaces : Except Str (List WorkspaceRecord)
  enableAway : UInt16 → Except Str AwayAccess
  canonicalize : OsStr → Except Str OsStr
  /-- The operating system took the service and started it. -/
  installService : Except Str Str
  /-- `uuid::Uuid::to_string`. -/
  uuidText : Uuid → Str
  /-- `serde_json` of `{"command": …, "args": ["acp"]}`. -/
  acpCommandText : Str → Str
  /-- The listener was bound, and served until the program was stopped. -/
  bind : Except Str Unit

structure RelayAccess where
  url : Str
  registrationSecret : Str
  deriving DecidableEq

/-- What a run does. -/
inductive Effect
  /-- `require_remote_release` returned. -/
  | gate (result : Except CryptoGateError Unit)
  | startAcp (workspace : WorkspaceRecord) (acpCommand : Str)
  /-- `open_route` was entered. -/
  | openRoute (relay : RelayAccess) (workspaceId : Str)
  /-- A service that runs `leave` with these arguments was handed to the operating system. -/
  | installService (arguments : List Str)

/-- A part of a run: what it does, and the text of its error. -/
abbrev Main := Traced Str Effect

/-! ## `serve_local` -/

structure SocketAddr where
  ip : Nat × Nat × Nat × Nat
  port : UInt16

/-- `Ipv4Addr::LOCALHOST`. -/
def localhost : Nat × Nat × Nat × Nat := (127, 0, 0, 1)

def SocketAddr.isLoopback (listen : SocketAddr) : Bool := listen.ip.1 = 127

structure LocalServeConfig where
  access : HostAccess
  terminalGranted : Bool
  previewGranted : Bool
  chromeBinary : Option OsStr
  relay : Option RelayAccess

/-- Losing the relay is only logged. -/
def attachRelay (world : World) (workspace : WorkspaceRecord) : Option RelayAccess → Main Unit
  | some relay => .emit (.openRoute relay (world.uuidText workspace.id))
  | none => pure ()

/-- The route is attached before the listener is bound. -/
def serveLocal (world : World) (workspace : WorkspaceRecord) (listen : SocketAddr)
    (webDir : OsStr) (acpCommand : Str) (config : LocalServeConfig) : Main Unit := do
  .bailIf (!listen.isLoopback) "the local alpha may only listen on a loopback address"
  let index := joinPath webDir (Str.utf8 "index.html")
  .bailIf (!world.isFile index) (("PWA build not found at " : Str) ++ Str.fromUtf8Lossy index ++
    ("; run `pnpm --filter @leave/web build` first" : Str))
  let _ ← .lift (world.registerRoot workspace.canonicalPath)
  .emit (.startAcp workspace acpCommand)
  attachRelay world workspace config.relay
  .lift world.bind

/-! ## Commands -/

/-- The gate, which only `--remote` asks. -/
def releaseGate (args : ServeArgs) : Main Unit :=
  if args.remote then do
    .emit (.gate requireRemoteRelease)
    .lift (requireRemoteRelease.mapError CryptoGateError.text)
  else pure ()

def hostAccess (world : World) (args : ServeArgs) : Main HostAccess :=
  if args.away then do
    let away ← .lift (world.enableAway args.port)
    pure (.tailnet away.ownerLogin away.url)
  else pure .local_

def relayAccess (args : ServeArgs) : Main (Option RelayAccess) :=
  match args.relay, args.relayRegistrationSecret with
  | some url, some registrationSecret => pure (some ⟨url, registrationSecret⟩)
  | some _, none => .bail ("--relay needs --relay-registration-secret, or " ++
      "LEAVE_RELAY_REGISTRATION_SECRET in the environment")
  | none, _ => pure none

def serve (world : World) (args : ServeArgs) : Main Unit := do
  releaseGate args
  let workspaces ← .lift world.workspaces
  let workspace ← .context (workspaces.find? fun workspace => workspace.id = args.workspace)
    "workspace is not registered"
  .bailIf (args.remote && args.away)
    "--remote and --away are different transports and cannot be combined"
  let devinBinary ← .context ((args.devinBinary.filter world.isFile) <|> world.discoverDevinBinary)
    "Devin CLI was not found; install Devin Desktop or set LEAVE_DEVIN_BIN"
  let acpCommand := args.acpCommand.getD (world.acpCommandText (Str.fromUtf8Lossy devinBinary))
  let listen := ⟨localhost, args.port⟩
  let access ← hostAccess world args
  let chromeBinary := (args.chromeBinary.filter world.isFile) <|> world.discoverChromeBinary
  .bailIf (args.grantPreview && chromeBinary.isNone)
    "preview was granted but Chromium was not found; set LEAVE_CHROME_BIN"
  let relay ← relayAccess args
  serveLocal world workspace listen (args.webDir.getD world.discoverWebDirectory) acpCommand
    ⟨access, args.grantTerminal, args.grantPreview, chromeBinary, relay⟩

/-- Devin signs in, in its own login flow when it has to. -/
def authenticate (world : World) (devin : OsStr) : Main Unit :=
  if world.devinAuthCheck devin then pure ()
  else do
    let success ← .lift ((world.devinAuthLogin devin).mapError fun _ =>
      "could not start Devin authentication")
    .bailIf (!success || !world.devinAuthCheckAgain devin)
      "Devin authentication did not complete; run `devin auth login` and try again"

/-- A workspace as `connect` adds it. -/
def addedWorkspace (world : World) (args : ConnectArgs) (root : Str) : WorkspaceRecord where
  id := world.newId
  name := args.name.getD ((world.fileName root).getD "workspace")
  canonicalPath := root
  exposeHistory := false
  exposeProjectCustomization := true
  exposeGlobalCustomization := args.exposeGlobalCustomization

def writeWorkspace (world : World) (workspace : WorkspaceRecord) : Main WorkspaceRecord := do
  .lift (world.upsertWorkspace workspace)
  pure workspace

/-- The workspace `connect` serves: the one registered at this root, or a new one. -/
def registerWorkspace (world : World) (args : ConnectArgs) : Main WorkspaceRecord := do
  let root ← .lift (world.registerRoot args.path)
  let workspaces ← .lift world.knownWorkspaces
  match workspaces.find? fun workspace => workspace.canonicalPath = root with
  | some workspace =>
    if args.exposeGlobalCustomization && !workspace.exposeGlobalCustomization then
      writeWorkspace world { workspace with exposeGlobalCustomization := true }
    else pure workspace
  | none => writeWorkspace world (addedWorkspace world args root)

/-- The command line of the installed service, after the program's name. -/
def serviceArguments (world : World) (options : ServiceInstall) : List Str :=
  [("--data-dir" : Str), Str.fromUtf8Lossy options.dataDir, ("serve" : Str),
    ("--workspace" : Str), world.uuidText options.workspace,
    ("--port" : Str), (toString options.port.toNat).toList,
    ("--web-dir" : Str), Str.fromUtf8Lossy options.webDir,
    ("--devin-binary" : Str), Str.fromUtf8Lossy options.devinBinary] ++
  (if options.away then [("--away" : Str)] else []) ++
  (if options.terminal then [("--grant-terminal" : Str)] else []) ++
  if options.preview then
    ("--grant-preview" : Str) :: match options.chromeBinary with
      | some chromeBinary => [("--chrome-binary" : Str), Str.fromUtf8Lossy chromeBinary]
      | none => []
  else []

/-- `service::install`. -/
def install (world : World) (options : ServiceInstall) : Main Str := do
  let webDir ← .lift ((world.canonicalize options.webDir).mapError fun _ =>
    "the production PWA directory does not exist; run `pnpm build` first")
  let dataDir ← .lift ((world.canonicalize options.dataDir).mapError fun _ =>
    "could not resolve the Leave data directory")
  let options := { options with webDir, dataDir }
  .emit (.installService (serviceArguments world options))
  .lift world.installService

/-- The browser a preview needs: looked for only when it was granted. -/
def chromeForService (world : World) (grantPreview : Bool) : Main (Option OsStr) := do
  let chromeBinary := if grantPreview then world.discoverChromeBinary else none
  .bailIf (grantPreview && chromeBinary.isNone)
    "preview was granted but Chromium was not found; set LEAVE_CHROME_BIN"
  pure chromeBinary

/-- The arguments `connect` hands to `serve`. -/
def ConnectArgs.serveArgs (args : ConnectArgs) (workspace : Uuid) (devin : OsStr) : ServeArgs where
  workspace := workspace
  remote := false
  away := args.away
  relay := args.relay
  relayRegistrationSecret := args.relayRegistrationSecret
  port := args.port
  webDir := args.webDir
  acpCommand := none
  devinBinary := some devin
  grantTerminal := args.grantTerminal
  grantPreview := args.grantPreview
  chromeBinary := none

def connect (world : World) (args : ConnectArgs) (dataDir : OsStr) : Main Unit := do
  let devin ← .context world.discoverDevinBinary
    "Devin CLI was not found; install Devin Desktop or set LEAVE_DEVIN_BIN"
  authenticate world devin
  let workspace ← registerWorkspace world args
  if args.background then
    let chromeBinary ← chromeForService world args.grantPreview
    let _ ← install world {
      workspace := workspace.id
      webDir := args.webDir.getD world.discoverWebDirectory
      dataDir, devinBinary := devin, chromeBinary
      port := args.port
      away := args.away
      terminal := args.grantTerminal
      preview := args.grantPreview }
  else
    serve world (args.serveArgs workspace.id devin)

def serviceCommand (world : World) (command : ServiceCommand) (dataDir : OsStr) : Main Unit := do
  match command with
  | .install workspace away grantTerminal grantPreview port webDir =>
    let devinBinary ← .context world.discoverDevinBinary
      "Devin CLI was not found; install Devin Desktop or set LEAVE_DEVIN_BIN"
    let chromeBinary ← chromeForService world grantPreview
    let _ ← install world {
      workspace, dataDir, devinBinary, chromeBinary, port, away
      webDir := webDir.getD world.discoverWebDirectory
      terminal := grantTerminal
      preview := grantPreview }
  | .status | .uninstall => pure ()

def runCommand (world : World) (command : CommandName) (dataDir : OsStr) : Main Unit :=
  match command with
  | .login | .pair => .bail ("hosted accounts and device pairing are not implemented yet; " ++
      "use `leave connect --away` for private phone access over your own Tailscale network")
  | .connect args => connect world args dataDir
  | .serve args => serve world args
  | .service command => serviceCommand world command dataDir

/-- A run of `leave`: the command line and the environment, read by `parse`. -/
def main (parse : List Str → (Str → Option Str) → Except Str Cli) (world : World)
    (argv : List Str) (env : Str → Option Str) : Main Unit := do
  let cli ← .lift (parse argv env)
  let dataDir ← .lift (world.dataDir cli.dataDir)
  .lift (world.openStore dataDir)
  runCommand world cli.command dataDir

end LeaveCli.Host
