import LeaveCli.Host.Main

/-!
# The release gate

`main_gated_iff`: a run attaches a relay only behind the gate exactly when it does not serve a relay
at all. Only `--remote` asks the gate, and it has no evidence to pass on; `--relay` asks nothing and
reaches `open_route` once the other checks pass (`ServesRelay`), from `leave connect` as from
`leave serve`, which is also what the installed service runs.
-/

namespace LeaveCli.Host

open Lib LeaveCli.Core Crypto

/-- The gate returned `Ok`. -/
def Effect.Grants : Effect → Prop
  | .gate result => result = .ok ()
  | _ => False

/-- A relay route is registered or attached. -/
def Effect.AttachesRelay : Effect → Prop
  | .openRoute _ _ => True
  | _ => False

/-! ## When a relay is served -/

/-- `serve` is asked for a relay, not for `--remote`, and every other check passes. -/
structure ServesRelay (world : World) (args : ServeArgs) : Prop where
  remote : args.remote = false
  relay : args.relay.isSome
  secret : args.relayRegistrationSecret.isSome
  workspace : ∃ rows row root, world.workspaces = .ok rows ∧
    rows.find? (fun workspace => workspace.id = args.workspace) = some row ∧
    world.registerRoot row.canonicalPath = .ok root
  devin : (args.devinBinary.filter world.isFile <|> world.discoverDevinBinary).isSome
  away : args.away → ∃ away, world.enableAway args.port = .ok away
  preview : args.grantPreview →
    (args.chromeBinary.filter world.isFile <|> world.discoverChromeBinary).isSome
  index : world.isFile
    (joinPath (args.webDir.getD world.discoverWebDirectory) (Str.utf8 "index.html"))

/-- Devin is signed in, or signs in when it is asked to. -/
def SignsIn (world : World) (devin : OsStr) : Prop :=
  world.devinAuthCheck devin ∨
    world.devinAuthLogin devin = .ok true ∧ world.devinAuthCheckAgain devin

/-- `connect` has the workspace `row` to serve: registered as it stands, or written first. -/
def Registers (world : World) (args : ConnectArgs) (row : WorkspaceRecord) : Prop :=
  ∃ root, world.registerRoot args.path = .ok root ∧ ∃ rows, world.knownWorkspaces = .ok rows ∧
    match rows.find? fun workspace => workspace.canonicalPath = root with
    | some workspace =>
      if args.exposeGlobalCustomization ∧ ¬ workspace.exposeGlobalCustomization then
        row = { workspace with exposeGlobalCustomization := true } ∧
          world.upsertWorkspace row = .ok ()
      else row = workspace
    | none => row = addedWorkspace world args root ∧ world.upsertWorkspace row = .ok ()

/-- The command is `leave serve` or a foreground `leave connect`, and serves a relay. -/
def CommandServesRelay (world : World) : CommandName → Prop
  | .serve args => ServesRelay world args
  | .connect args => ¬ args.background ∧ ∃ devin row,
      world.discoverDevinBinary = some devin ∧ SignsIn world devin ∧
        Registers world args row ∧ ServesRelay world (args.serveArgs row.id devin)
  | _ => False

/-- The database opens, and the command serves a relay. -/
def RunServesRelay (world : World) (cli : Cli) : Prop :=
  ∃ dataDir, world.dataDir cli.dataDir = .ok dataDir ∧ world.openStore dataDir = .ok () ∧
    CommandServesRelay world cli.command

/-! ## The parts of a run -/

section

variable {world : World} {e : Effect}

/-- The gate never passes: no check has its evidence. -/
theorem result_releaseGate {args : ServeArgs} {u : Unit} :
    (releaseGate args).result = .ok u ↔ args.remote = false := by
  unfold releaseGate
  split
  · rename_i hremote
    simp [hremote, requireRemoteRelease_eq, Except.mapError]
  · rename_i hremote
    simpa using hremote

theorem mem_releaseGate {args : ServeArgs} (h : e ∈ (releaseGate args).emitted) :
    e = .gate (.error (.blocked .current)) := by
  unfold releaseGate at h
  split at h
  · simpa [requireRemoteRelease_eq] using h
  · simp at h

@[simp] theorem emitted_hostAccess {args : ServeArgs} : e ∉ (hostAccess world args).emitted := by
  unfold hostAccess
  split <;> simp

theorem result_hostAccess {args : ServeArgs} :
    (∃ access, (hostAccess world args).result = .ok access) ↔
      (args.away → ∃ away, world.enableAway args.port = .ok away) := by
  unfold hostAccess
  split
  · rename_i haway
    simp [haway]
  · rename_i haway
    simp [haway]

@[simp] theorem emitted_relayAccess {args : ServeArgs} : e ∉ (relayAccess args).emitted := by
  unfold relayAccess
  split <;> simp

theorem result_relayAccess {args : ServeArgs} {relay : RelayAccess} :
    (relayAccess args).result = .ok (some relay) ↔
      args.relay = some relay.url ∧
        args.relayRegistrationSecret = some relay.registrationSecret := by
  unfold relayAccess
  obtain ⟨url, secret⟩ := relay
  cases args.relay <;> cases args.relayRegistrationSecret <;> simp

theorem mem_attachRelay {workspace : WorkspaceRecord} {relay : Option RelayAccess} :
    e ∈ (attachRelay world workspace relay).emitted ↔
      ∃ r, relay = some r ∧ e = .openRoute r (world.uuidText workspace.id) := by
  cases relay <;> simp [attachRelay]

/-! ## Whole commands -/

/-- Past its checks, `serve_local` hands the relay it was given to `open_route`. -/
theorem mem_serveLocal {workspace : WorkspaceRecord} {port : UInt16} {webDir : OsStr}
    {acpCommand : Str}
    {config : LocalServeConfig} (he : e.AttachesRelay) :
    e ∈ (serveLocal world workspace ⟨localhost, port⟩ webDir acpCommand config).emitted ↔
      world.isFile (joinPath webDir (Str.utf8 "index.html")) ∧
        (∃ root, world.registerRoot workspace.canonicalPath = .ok root) ∧
        ∃ relay, config.relay = some relay ∧
          e = .openRoute relay (world.uuidText workspace.id) := by
  have hacp : e ≠ .startAcp workspace acpCommand := by
    intro heq
    subst heq
    exact he
  unfold serveLocal
  simp [hacp, mem_attachRelay, SocketAddr.isLoopback, localhost]

theorem granted_and_isNone {α : Type} {granted : Bool} {o : Option α} :
    (granted && o.isNone) = false ↔ (granted → o.isSome) := by
  cases granted <;> cases o <;> simp

/-- `serve` reaches `open_route` when nothing stops it before. -/
theorem mem_serve {args : ServeArgs} (he : e.AttachesRelay) :
    e ∈ (serve world args).emitted ↔ args.remote = false ∧
      ∃ rows, world.workspaces = .ok rows ∧
      ∃ row, rows.find? (fun workspace => workspace.id = args.workspace) = some row ∧
      (args.remote && args.away) = false ∧
      ∃ devin, (args.devinBinary.filter world.isFile <|> world.discoverDevinBinary) = some devin ∧
      ∃ access, (hostAccess world args).result = .ok access ∧
      (args.grantPreview →
        (args.chromeBinary.filter world.isFile <|> world.discoverChromeBinary).isSome) ∧
      ∃ relay, (relayAccess args).result = .ok relay ∧
      world.isFile
        (joinPath (args.webDir.getD world.discoverWebDirectory) (Str.utf8 "index.html")) ∧
      (∃ root, world.registerRoot row.canonicalPath = .ok root) ∧
      ∃ r, relay = some r ∧ e = .openRoute r (world.uuidText row.id) := by
  have hgate : e ∉ (releaseGate args).emitted := by
    intro h
    rw [mem_releaseGate h] at he
    exact he
  simp only [serve, Traced.mem_emitted_bind, hgate, result_releaseGate, Traced.emitted_lift,
    Traced.emitted_context, Traced.emitted_bailIf, emitted_hostAccess, emitted_relayAccess,
    List.not_mem_nil, false_or, exists_const, Traced.result_lift, Traced.result_context,
    Traced.result_bailIf, mem_serveLocal he, granted_and_isNone]

theorem serve_attaches_iff {args : ServeArgs} :
    (∃ e ∈ (serve world args).emitted, e.AttachesRelay) ↔ ServesRelay world args := by
  constructor
  · intro hcase
    obtain ⟨e, hmem, he⟩ := hcase
    obtain ⟨hremote, rows, hrows, row, hrow, -, devin, hdevin, access, haccess, hpreview, relay,
      hrelay, hindex, ⟨root, hroot⟩, r, rfl, -⟩ := (mem_serve he).1 hmem
    obtain ⟨hurl, hsecret⟩ := result_relayAccess.1 hrelay
    exact {
      remote := hremote
      relay := by simp [hurl]
      secret := by simp [hsecret]
      workspace := ⟨rows, row, root, hrows, hrow, hroot⟩
      devin := by simp [hdevin]
      away := result_hostAccess.1 ⟨access, haccess⟩
      preview := hpreview
      index := hindex }
  · intro h
    obtain ⟨url, hurl⟩ := Option.isSome_iff_exists.1 h.relay
    obtain ⟨secret, hsecret⟩ := Option.isSome_iff_exists.1 h.secret
    obtain ⟨rows, row, root, hrows, hrow, hroot⟩ := h.workspace
    obtain ⟨devin, hdevin⟩ := Option.isSome_iff_exists.1 h.devin
    obtain ⟨access, haccess⟩ := result_hostAccess.2 h.away
    refine ⟨.openRoute ⟨url, secret⟩ (world.uuidText row.id), ?_, trivial⟩
    rw [mem_serve (by exact trivial)]
    exact ⟨h.remote, rows, hrows, row, hrow, by simp [h.remote], devin, hdevin, access, haccess,
      h.preview, _, result_relayAccess.2 ⟨hurl, hsecret⟩, h.index, ⟨root, hroot⟩, _, rfl, rfl⟩

/-! ## `connect` -/

@[simp] theorem emitted_authenticate {devin : OsStr} : e ∉ (authenticate world devin).emitted := by
  unfold authenticate
  split <;> simp

theorem result_authenticate {devin : OsStr} {u : Unit} :
    (authenticate world devin).result = .ok u ↔ SignsIn world devin := by
  unfold authenticate SignsIn
  split
  · rename_i hauth
    simp [hauth]
  · rename_i hauth
    cases world.devinAuthLogin devin with
    | error message => simp [hauth, Except.mapError]
    | ok success => cases success <;> simp [hauth, Except.mapError]

@[simp] theorem emitted_writeWorkspace {row : WorkspaceRecord} :
    e ∉ (writeWorkspace world row).emitted := by
  simp [writeWorkspace]

theorem result_writeWorkspace {workspace row : WorkspaceRecord} :
    (writeWorkspace world workspace).result = .ok row ↔
      row = workspace ∧ world.upsertWorkspace row = .ok () := by
  unfold writeWorkspace
  simp only [Traced.result_bind_eq_ok, Traced.result_lift, Traced.result_pure, Except.ok.injEq]
  constructor
  · intro hcase
    obtain ⟨_, hwritten, rfl⟩ := hcase
    exact ⟨rfl, hwritten⟩
  · intro hcase
    obtain ⟨rfl, hwritten⟩ := hcase
    exact ⟨(), hwritten, rfl⟩

@[simp] theorem emitted_registerWorkspace {args : ConnectArgs} :
    e ∉ (registerWorkspace world args).emitted := by
  simp only [registerWorkspace, Traced.mem_emitted_bind, Traced.emitted_lift, List.not_mem_nil,
    false_or, not_exists, not_and]
  intro root hroot rows hrows
  split
  · split <;> simp
  · simp

theorem result_registerWorkspace {args : ConnectArgs} {row : WorkspaceRecord} :
    (registerWorkspace world args).result = .ok row ↔ Registers world args row := by
  simp only [registerWorkspace, Traced.result_bind_eq_ok, Traced.result_lift, Registers]
  refine exists_congr fun root => and_congr_right fun _ => exists_congr fun rows =>
    and_congr_right fun _ => ?_
  cases rows.find? fun workspace => workspace.canonicalPath = root with
  | none => exact result_writeWorkspace
  | some workspace =>
    by_cases hexpose : args.exposeGlobalCustomization ∧ ¬ workspace.exposeGlobalCustomization
    · simp only [hexpose, if_true, Bool.true_and, Bool.not_eq_true']
      exact result_writeWorkspace
    · simp only [hexpose, if_false]
      rw [if_neg (by simpa using hexpose)]
      simp [eq_comm]

/-! ## The service -/

@[simp] theorem emitted_chromeForService {grantPreview : Bool} :
    e ∉ (chromeForService world grantPreview).emitted := by
  simp [chromeForService]

/-- Installing the service starts no host in this run. -/
theorem not_mem_install {grantPreview : Bool} {options : Option OsStr → ServiceInstall}
    (he : ∀ arguments, e ≠ .installService arguments) :
    e ∉ (do
      let chromeBinary ← chromeForService world grantPreview
      let _ ← install world (options chromeBinary)
      pure () : Main Unit).emitted := by
  simp only [install, Traced.mem_emitted_bind, emitted_chromeForService, Traced.emitted_lift,
    Traced.emitted_emit, Traced.emitted_pure, List.not_mem_nil, false_or, or_false,
    List.mem_singleton, and_false, exists_false]
  intro hcase
  obtain ⟨chromeBinary, -, webDir, -, dataDir, -, h⟩ := hcase
  exact he _ h

theorem Effect.AttachesRelay.ne_install (he : e.AttachesRelay) (arguments : List Str) :
    e ≠ .installService arguments := by
  intro heq
  subst heq
  exact he

/-! ## Runs -/

theorem connect_attaches_iff {args : ConnectArgs} {dataDir : OsStr} :
    (∃ e ∈ (connect world args dataDir).emitted, e.AttachesRelay) ↔
      ¬ args.background ∧ ∃ devin row, world.discoverDevinBinary = some devin ∧
        SignsIn world devin ∧ Registers world args row ∧
          ServesRelay world (args.serveArgs row.id devin) := by
  simp only [connect, Traced.mem_emitted_bind, Traced.emitted_context, Traced.result_context,
    emitted_authenticate, result_authenticate, emitted_registerWorkspace, result_registerWorkspace,
    List.not_mem_nil, false_or, exists_const, ← serve_attaches_iff]
  constructor
  · intro hcase
    obtain ⟨e, ⟨devin, hdevin, hsigned, row, hrow, hmem⟩, he⟩ := hcase
    split at hmem
    · exact absurd hmem (not_mem_install he.ne_install)
    · rename_i hforeground
      exact ⟨hforeground, devin, row, hdevin, hsigned, hrow, e, hmem, he⟩
  · intro hcase
    obtain ⟨hforeground, devin, row, hdevin, hsigned, hrow, e, hmem, he⟩ := hcase
    refine ⟨e, ⟨devin, hdevin, hsigned, row, hrow, ?_⟩, he⟩
    rw [if_neg hforeground]
    exact hmem

theorem not_mem_serviceCommand {command : ServiceCommand} {dataDir : OsStr}
    (he : ∀ arguments, e ≠ .installService arguments) :
    e ∉ (serviceCommand world command dataDir).emitted := by
  cases command with
  | install workspace away grantTerminal grantPreview port webDir =>
    simp only [serviceCommand, Traced.mem_emitted_bind (x := Traced.context _ _),
      Traced.emitted_context, Traced.result_context, List.not_mem_nil, false_or]
    intro hcase
    obtain ⟨devin, -, hmem⟩ := hcase
    exact not_mem_install he hmem
  | status => simp [serviceCommand]
  | uninstall => simp [serviceCommand]

theorem runCommand_attaches_iff {command : CommandName} {dataDir : OsStr} :
    (∃ e ∈ (runCommand world command dataDir).emitted, e.AttachesRelay) ↔
      CommandServesRelay world command := by
  cases command with
  | connect args => exact connect_attaches_iff
  | serve args => exact serve_attaches_iff
  | service command =>
    simp only [CommandServesRelay, iff_false]
    intro hcase
    obtain ⟨e, hmem, he⟩ := hcase
    exact not_mem_serviceCommand he.ne_install hmem
  | login => simp [runCommand, CommandServesRelay]
  | pair => simp [runCommand, CommandServesRelay]

theorem main_attaches_iff {parse : List Str → (Str → Option Str) → Except Str Cli}
    {argv : List Str} {env : Str → Option Str} :
    (∃ e ∈ (main parse world argv env).emitted, e.AttachesRelay) ↔
      ∃ cli, parse argv env = .ok cli ∧ RunServesRelay world cli := by
  simp only [main, Traced.mem_emitted_bind, Traced.emitted_lift, Traced.result_lift,
    List.not_mem_nil, false_or]
  constructor
  · intro hcase
    obtain ⟨e, ⟨cli, hcli, dataDir, hdir, _, hopen, hmem⟩, he⟩ := hcase
    exact ⟨cli, hcli, dataDir, hdir, hopen, runCommand_attaches_iff.1 ⟨e, hmem, he⟩⟩
  · intro hcase
    obtain ⟨cli, hcli, dataDir, hdir, hopen, hserves⟩ := hcase
    obtain ⟨e, hmem, he⟩ := runCommand_attaches_iff.2 hserves
    exact ⟨e, ⟨cli, hcli, dataDir, hdir, (), hopen, hmem⟩, he⟩

/-! ## The gate -/

theorem gate_mem_serve {args : ServeArgs} {r : Except CryptoGateError Unit}
    (h : .gate r ∈ (serve world args).emitted) : r = .error (.blocked .current) := by
  simp only [serve, serveLocal, Traced.mem_emitted_bind, Traced.emitted_lift,
    Traced.emitted_context, Traced.emitted_bailIf, emitted_hostAccess, emitted_relayAccess,
    Traced.emitted_emit, mem_attachRelay, List.mem_singleton, List.not_mem_nil, reduceCtorEq,
    and_false, exists_false, or_false] at h
  injection mem_releaseGate h

theorem gate_mem_runCommand {command : CommandName} {dataDir : OsStr}
    {r : Except CryptoGateError Unit} (h : .gate r ∈ (runCommand world command dataDir).emitted) :
    r = .error (.blocked .current) := by
  cases command with
  | login => simp [runCommand] at h
  | pair => simp [runCommand] at h
  | serve args => exact gate_mem_serve h
  | service command =>
    exact absurd h (not_mem_serviceCommand (by simp))
  | connect args =>
    simp only [runCommand, connect, Traced.mem_emitted_bind, Traced.emitted_context,
      emitted_authenticate, emitted_registerWorkspace, List.not_mem_nil, false_or] at h
    obtain ⟨devin, -, -, -, row, -, hmem⟩ := h
    split at hmem
    · exact absurd hmem (not_mem_install (by simp))
    · exact gate_mem_serve hmem

/-- No run has the gate's `Ok`. -/
theorem main_never_granted {parse : List Str → (Str → Option Str) → Except Str Cli}
    {argv : List Str} {env : Str → Option Str} (h : e ∈ (main parse world argv env).emitted) :
    ¬ e.Grants := by
  simp only [main, Traced.mem_emitted_bind, Traced.emitted_lift, List.not_mem_nil, false_or] at h
  obtain ⟨cli, -, dataDir, -, -, -, hmem⟩ := h
  cases e with
  | gate r =>
    intro hgranted
    have hok : r = .ok () := hgranted
    rw [gate_mem_runCommand hmem] at hok
    cases hok
  | startAcp workspace acpCommand => exact not_false
  | openRoute relay workspaceId => exact not_false
  | installService arguments => exact not_false

end

/-- A relay is attached only behind the gate, in every run but those that serve one. -/
theorem main_gated_iff (parse : List Str → (Str → Option Str) → Except Str Cli) (world : World)
    (argv : List Str) (env : Str → Option Str) :
    Traced.Guarded Effect.Grants Effect.AttachesRelay (main parse world argv env).emitted ↔
      ¬ ∃ cli, parse argv env = .ok cli ∧ RunServesRelay world cli := by
  rw [Traced.guarded_iff_of_no_grant fun e => main_never_granted, ← main_attaches_iff]
  simp

/-! ## A relay in one command -/

/-- `leave connect PATH --relay URL --relay-registration-secret SECRET`, as it is read. -/
def relayArgs (path url registrationSecret : Str) (webDir : Option OsStr) : ConnectArgs where
  path := path
  relay := some url
  relayRegistrationSecret := some registrationSecret
  name := none
  away := false
  background := false
  port := 8788
  webDir := webDir
  grantTerminal := false
  grantPreview := false
  exposeGlobalCustomization := false

def parseConnect (argv : List Str) (env : Str → Option Str) : Except Str Cli :=
  match argv with
  | [_, command, path, relay, url, secret, registrationSecret] =>
    if command = "connect" ∧ relay = "--relay" ∧ secret = "--relay-registration-secret" then
      .ok ⟨.connect (relayArgs path url registrationSecret ((env "LEAVE_WEB_DIR").map Str.utf8)),
        (env "LEAVE_DATA_DIR").map Str.utf8⟩
    else .error "unexpected argument"
  | _ => .error "unexpected argument"

/-- A computer with Devin signed in and the PWA installed, whose owner adds `/repo`. -/
def installedWorld : World where
  dataDir _ := .ok (Str.utf8 "/data")
  openStore _ := .ok ()
  isFile path := path = Str.utf8 "/web/index.html" || path = Str.utf8 "/bin/devin"
  discoverDevinBinary := some (Str.utf8 "/bin/devin")
  discoverChromeBinary := none
  discoverWebDirectory := Str.utf8 "/web"
  devinAuthCheck _ := true
  devinAuthLogin _ := .ok true
  devinAuthCheckAgain _ := true
  registerRoot path := .ok path
  fileName _ := some "repo"
  newId := 7
  knownWorkspaces := .ok []
  upsertWorkspace _ := .ok ()
  workspaces := .ok [⟨7, "repo", "/repo", false, true, false⟩]
  enableAway _ := .error "Tailscale is not installed; install and sign in to Tailscale first"
  canonicalize path := .ok path
  installService := .ok []
  uuidText _ := "00000000-0000-0000-0000-000000000007"
  acpCommandText path := path
  bind := .ok ()

def connectRelay : List Str := ["leave", "connect", "/repo", "--relay", "https://relay.example",
  "--relay-registration-secret", "s3cret"]

/-- `leave connect /repo --relay …` asks no gate. -/
theorem connect_relay_ungated :
    ¬ Traced.Guarded Effect.Grants Effect.AttachesRelay
      (main parseConnect installedWorld connectRelay fun _ => none).emitted := by
  rw [Traced.guarded_iff_of_no_grant fun e => main_never_granted]
  intro hnone
  have hparse : parseConnect connectRelay (fun _ => none) =
      .ok ⟨.connect (relayArgs "/repo" "https://relay.example" "s3cret" none), none⟩ := rfl
  have hserves : ServesRelay installedWorld
      ((relayArgs "/repo" "https://relay.example" "s3cret" none).serveArgs 7
        (Str.utf8 "/bin/devin")) := {
    remote := rfl
    relay := rfl
    secret := rfl
    workspace := ⟨_, _, "/repo", rfl, rfl, rfl⟩
    devin := by decide +kernel
    away := Bool.false_ne_true.elim
    preview := Bool.false_ne_true.elim
    index := by decide +kernel }
  have hregisters : Registers installedWorld
      (relayArgs "/repo" "https://relay.example" "s3cret" none)
      (addedWorkspace installedWorld (relayArgs "/repo" "https://relay.example" "s3cret" none)
        "/repo") := ⟨"/repo", rfl, [], rfl, rfl, rfl⟩
  obtain ⟨e, hmem, he⟩ := main_attaches_iff.2 ⟨_, hparse, Str.utf8 "/data", rfl, rfl,
    Bool.false_ne_true, Str.utf8 "/bin/devin", _, rfl, .inl rfl, hregisters, hserves⟩
  exact hnone e hmem he

end LeaveCli.Host
