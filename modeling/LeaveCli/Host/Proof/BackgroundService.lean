import LeaveCli.Host.Proof.ReleaseGate
import LeaveCli.Host.ServeCommand
import LeaveCli.Lib.Results
import LeaveCli.Lib.Utf8

/-!
# What the installed service is told

`connect --background` hands its options to the operating system as a command line of `leave serve`.
`serviceArguments_eq` reads that as a list of options; `ServiceInstall` has no field for the relay
and its secret, so `leave serve` takes both from the environment of the service.
`background_agrees_iff` says when it serves what the foreground would have.
-/

namespace LeaveCli.Host

open Lib Options LeaveCli.Core

variable {world : World} {args : ConnectArgs} {options : ServiceInstall} {env : Str → Option Str}

/-- The two serve the same workspace in the same way. -/
structure SameHost (served foreground : ServeArgs) : Prop where
  workspace : served.workspace = foreground.workspace
  port : served.port = foreground.port
  away : served.away = foreground.away
  relay : served.relay = foreground.relay
  relayRegistrationSecret : served.relayRegistrationSecret = foreground.relayRegistrationSecret
  devinBinary : served.devinBinary = foreground.devinBinary
  grantTerminal : served.grantTerminal = foreground.grantTerminal
  grantPreview : served.grantPreview = foreground.grantPreview

/-- A path that is read as the value of an option. -/
def PathValue (text : Str) : Prop := (text.head? ≠ some '-' ∨ text = ['-']) ∧ text ≠ []

/-- The options after `serve`. -/
def serviceItems (world : World) (options : ServiceInstall) : List OptionItem :=
  [.valued "workspace" (world.uuidText options.workspace),
    .valued "port" (toString options.port.toNat).toList,
    .valued "web-dir" (Str.fromUtf8Lossy options.webDir),
    .valued "devin-binary" (Str.fromUtf8Lossy options.devinBinary)] ++
  (if options.away then [.flag "away"] else []) ++
  (if options.terminal then [.flag "grant-terminal"] else []) ++
  if options.preview then
    .flag "grant-preview" :: options.chromeBinary.elim []
      fun chromeBinary => [.valued "chrome-binary" (Str.fromUtf8Lossy chromeBinary)]
  else []

theorem serviceArguments_eq (world : World) (options : ServiceInstall) :
    serviceArguments world options =
      tokens [.valued "data-dir" (Str.fromUtf8Lossy options.dataDir)] ++
        ("serve" : Str) :: tokens (serviceItems world options) := by
  obtain ⟨workspace, webDir, dataDir, devinBinary, chromeBinary, port, away, terminal, preview⟩ :=
    options
  cases away <;> cases terminal <;> cases preview <;> cases chromeBinary <;> rfl

/-- What `connect --background` installs. -/
theorem mem_connect_install {dataDir : OsStr} {arguments : List Str}
    (hbackground : args.background = true)
    (h : .installService arguments ∈ (connect world args dataDir).emitted) :
    ∃ devin workspace chromeBinary webDir dataDir', world.discoverDevinBinary = some devin ∧
      (registerWorkspace world args).result = .ok workspace ∧
      chromeBinary = (if args.grantPreview then world.discoverChromeBinary else none) ∧
      (args.grantPreview = true → chromeBinary.isSome = true) ∧
      world.canonicalize (args.webDir.getD world.discoverWebDirectory) = .ok webDir ∧
      world.canonicalize dataDir = .ok dataDir' ∧
      arguments = serviceArguments world ⟨workspace.id, webDir, dataDir', devin, chromeBinary,
        args.port, args.away, args.grantTerminal, args.grantPreview⟩ := by
  simp only [connect, hbackground, if_true, Traced.mem_emitted_bind, Traced.emitted_context,
    Traced.result_context, emitted_authenticate, emitted_registerWorkspace,
    emitted_chromeForService, install, Traced.emitted_lift, Traced.emitted_emit,
    Traced.emitted_pure, Traced.result_lift, List.not_mem_nil, List.mem_singleton, false_or,
    or_false, and_false, exists_false, Effect.installService.injEq] at h
  obtain ⟨devin, hdevin, -, -, workspace, hworkspace, chromeBinary, hchrome, webDir, hweb, dataDir',
    hdata, harguments⟩ := h
  simp only [chromeForService, Traced.result_bind_eq_ok, Traced.result_bailIf, Traced.result_pure]
    at hchrome
  obtain ⟨-, hfound, hchrome⟩ := hchrome
  refine ⟨devin, workspace, chromeBinary, webDir, dataDir', hdevin, hworkspace,
    (Except.ok.inj hchrome).symm, ?_, ?_, ?_, harguments⟩
  · intro hpreview
    rw [← Except.ok.inj hchrome]
    simpa [hpreview] using hfound
  · exact mapError_eq_ok.1 hweb
  · exact mapError_eq_ok.1 hdata

/-! ## What `leave serve` reads -/

/-- The text of an absolute path is a value. -/
theorem pathValue_of_absolute {path : OsStr} (h : path.head? = some slash) :
    PathValue (Str.fromUtf8Lossy path) := by
  cases path with
  | nil => cases h
  | cons first rest =>
    cases h
    have htext : Str.fromUtf8Lossy (slash :: rest) =
        '/' :: Str.lossyWith rest.length ((slash :: rest).drop 1) := rfl
    rw [htext]
    exact ⟨.inl (by simp), List.cons_ne_nil _ _⟩

/-- A list of one given path. -/
theorem readable_dataDir {text : Str} (h : PathValue text) :
    Readable cliSpec [.valued "data-dir" text] env where
  declared := List.forall_mem_singleton.2 rfl
  admitted := List.forall_mem_singleton.2 ((admits_valued rfl).trans ((admits_path rfl).2 h))
  once := List.nodup_singleton _
  required spec hspec hrequired := by
    have hnone : ∀ spec ∈ cliSpec, spec.required = false := by decide
    exact absurd ((hnone spec hspec).symm.trans hrequired) Bool.false_ne_true
  envs spec hspec hkind hgiven := by
    have hpath : ∀ spec ∈ cliSpec, spec.kind = .path → spec.name = "data-dir" := by decide
    rw [hpath spec hspec hkind] at hgiven
    cases hgiven

theorem forall_serviceItems {P : OptionItem → Prop} :
    (∀ item ∈ serviceItems world options, P item) ↔
      P (.valued "workspace" (world.uuidText options.workspace)) ∧
      P (.valued "port" (toString options.port.toNat).toList) ∧
      P (.valued "web-dir" (Str.fromUtf8Lossy options.webDir)) ∧
      P (.valued "devin-binary" (Str.fromUtf8Lossy options.devinBinary)) ∧
      (options.away = true → P (.flag "away")) ∧
      (options.terminal = true → P (.flag "grant-terminal")) ∧
      (options.preview = true → P (.flag "grant-preview") ∧
        ∀ chromeBinary ∈ options.chromeBinary,
          P (.valued "chrome-binary" (Str.fromUtf8Lossy chromeBinary))) := by
  obtain ⟨workspace, webDir, dataDir, devinBinary, chromeBinary, port, away, terminal, preview⟩ :=
    options
  cases away <;> cases terminal <;> cases preview <;> cases chromeBinary <;> simp [serviceItems]

theorem given_chrome : given (serviceItems world options) "chrome-binary" =
    if options.preview then options.chromeBinary.map Str.fromUtf8Lossy else none := by
  obtain ⟨workspace, webDir, dataDir, devinBinary, chromeBinary, port, away, terminal, preview⟩ :=
    options
  cases away <;> cases terminal <;> cases preview <;> cases chromeBinary <;> rfl

theorem declares_serviceItems :
    ∀ item ∈ serviceItems world options, declares serveSpec item = true :=
  forall_serviceItems.2
    ⟨rfl, rfl, rfl, rfl, fun _ => rfl, fun _ => rfl, fun _ => ⟨rfl, fun _ _ => rfl⟩⟩

/-- A number is not taken for an option. -/
theorem head_toString_ne (n : Nat) : (toString n).toList.head? ≠ some '-' := by
  intro hhead
  have hdigit := Str.isDigit_of_mem_repr (n := n) (List.mem_of_head? hhead)
  exact absurd hdigit (by decide)

theorem admits_serviceItems_iff
    (huuid : (world.uuidText options.workspace).head? ≠ some '-')
    (hweb : PathValue (Str.fromUtf8Lossy options.webDir)) :
    (∀ item ∈ serviceItems world options, admits serveSpec item = true) ↔
      PathValue (Str.fromUtf8Lossy options.devinBinary) ∧
      (options.preview = true → ∀ chromeBinary ∈ options.chromeBinary,
        PathValue (Str.fromUtf8Lossy chromeBinary)) := by
  have hpath : ∀ {name text : Str} {spec : OptionSpec}, find serveSpec name = some spec →
      spec.kind = .path → (admits serveSpec (.valued name text) = true ↔ PathValue text) := by
    intro name text spec hfind hkind
    rw [admits_valued hfind]
    exact admits_path hkind
  have htext : ∀ {name text : Str} {spec : OptionSpec}, find serveSpec name = some spec →
      spec.kind ≠ .path → text.head? ≠ some '-' → admits serveSpec (.valued name text) = true := by
    intro name text spec hfind hkind hhead
    rw [admits_valued hfind]
    exact (admits_text hkind).2 (.inl hhead)
  rw [forall_serviceItems]
  constructor
  · intro h
    obtain ⟨-, -, -, hdevin, -, -, hpreview⟩ := h
    exact ⟨(hpath rfl rfl).1 hdevin, fun hgranted chromeBinary hchrome =>
      (hpath rfl rfl).1 ((hpreview hgranted).2 chromeBinary hchrome)⟩
  · intro h
    obtain ⟨hdevin, hchrome⟩ := h
    exact ⟨htext rfl (by decide) huuid, htext rfl (by decide) (head_toString_ne _),
      (hpath rfl rfl).2 hweb, (hpath rfl rfl).2 hdevin, fun _ => rfl, fun _ => rfl,
      fun hgranted => ⟨rfl, fun chromeBinary hmem =>
        (hpath rfl rfl).2 (hchrome hgranted chromeBinary hmem)⟩⟩

theorem readable_serviceItems_iff (options : ServiceInstall) (env : Str → Option Str)
    (huuid : (world.uuidText options.workspace).head? ≠ some '-')
    (hweb : PathValue (Str.fromUtf8Lossy options.webDir))
    (hchrome : options.preview = true → options.chromeBinary.isSome = true) :
    Readable serveSpec (serviceItems world options) env ↔
      PathValue (Str.fromUtf8Lossy options.devinBinary) ∧
      (options.preview = true → ∀ chromeBinary ∈ options.chromeBinary,
        PathValue (Str.fromUtf8Lossy chromeBinary)) ∧
      (options.preview = false → env "LEAVE_CHROME_BIN" ≠ some []) := by
  have hadmits := admits_serviceItems_iff huuid hweb
  constructor
  · intro h
    obtain ⟨hdevin, hbrowser⟩ := hadmits.1 h.admitted
    refine ⟨hdevin, hbrowser, fun hpreview => ?_⟩
    apply h.envs ⟨"chrome-binary", .path, false, some "LEAVE_CHROME_BIN", none⟩ (by decide) rfl
    show given (serviceItems world options) "chrome-binary" = none
    rw [given_chrome, hpreview]
    rfl
  · intro h
    obtain ⟨hdevin, hbrowser, hvariable⟩ := h
    exact {
      declared := declares_serviceItems
      admitted := hadmits.2 ⟨hdevin, hbrowser⟩
      once := by
        obtain ⟨workspace, webDir, dataDir, devinBinary, chromeBinary, port, away, terminal,
          preview⟩ := options
        cases away <;> cases terminal <;> cases preview <;> cases chromeBinary <;>
          simp [serviceItems, OptionItem.name]
      required spec hspec hrequired := by
        have hworkspace : ∀ spec ∈ serveSpec, spec.required = true → spec.name = "workspace" := by
          decide
        rw [hworkspace spec hspec hrequired]
        exact List.mem_map_of_mem List.mem_cons_self
      envs spec hspec hkind hgiven := by
        have hpaths : ∀ spec ∈ serveSpec, spec.kind = .path → spec.name = "web-dir" ∨
            spec.name = "devin-binary" ∨
            spec = ⟨"chrome-binary", .path, false, some "LEAVE_CHROME_BIN", none⟩ := by decide
        rcases hpaths spec hspec hkind with hname | hname | rfl
        · rw [hname] at hgiven
          cases hgiven
        · rw [hname] at hgiven
          cases hgiven
        · apply hvariable
          cases hpreview : options.preview with
          | false => rfl
          | true =>
            rw [given_chrome, hpreview, if_pos rfl, Option.map_eq_none_iff] at hgiven
            have hsome := hchrome hpreview
            rw [hgiven] at hsome
            cases hsome }

/-- An option that only the environment may set. -/
theorem value_of_env {name key dataDir : Str} (kind : OptionKind)
    (hgiven : given (.valued "data-dir" dataDir :: serviceItems world options) name = none)
    (hfind : find (cliSpec ++ serveSpec) name = some ⟨name, kind, false, some key, none⟩) :
    (matched (cliSpec ++ serveSpec) (.valued "data-dir" dataDir :: serviceItems world options)
      env).value name = env key := by
  show (given _ name).or ((find _ name).bind _) = env key
  rw [hgiven, hfind]
  exact Option.or_none

/-- What `leave serve` makes of the options, when it can read them. -/
theorem ofMatches_serviceItems (options : ServiceInstall) (env : Str → Option Str)
    {parseUuid : Str → Option Uuid}
    (huuid : parseUuid (world.uuidText options.workspace) = some options.workspace)
    (dataDir : Str) :
    ∃ served, ServeArgs.ofMatches parseUuid (matched (cliSpec ++ serveSpec)
        (.valued "data-dir" dataDir :: serviceItems world options) env) = some served ∧
      served.workspace = options.workspace ∧ served.port = options.port ∧
      served.away = options.away ∧ served.relay = env "LEAVE_RELAY_URL" ∧
      served.relayRegistrationSecret = env "LEAVE_RELAY_REGISTRATION_SECRET" ∧
      served.devinBinary = some (Str.fromUtf8Lossy options.devinBinary).utf8 ∧
      served.grantTerminal = options.terminal ∧ served.grantPreview = options.preview := by
  set items := OptionItem.valued "data-dir" dataDir :: serviceItems world options with hitems
  have hrelay : (matched (cliSpec ++ serveSpec) items env).value "relay" =
      env "LEAVE_RELAY_URL" := by
    refine value_of_env .text ?_ rfl
    obtain ⟨workspace, webDir, dataDir, devinBinary, chromeBinary, port, away, terminal, preview⟩ :=
      options
    cases away <;> cases terminal <;> cases preview <;> cases chromeBinary <;> rfl
  have hsecret : (matched (cliSpec ++ serveSpec) items env).value "relay-registration-secret" =
      env "LEAVE_RELAY_REGISTRATION_SECRET" := by
    refine value_of_env .text ?_ rfl
    obtain ⟨workspace, webDir, dataDir, devinBinary, chromeBinary, port, away, terminal, preview⟩ :=
      options
    cases away <;> cases terminal <;> cases preview <;> cases chromeBinary <;> rfl
  have hflags : (matched (cliSpec ++ serveSpec) items env).flag "away" = options.away ∧
      (matched (cliSpec ++ serveSpec) items env).flag "grant-terminal" = options.terminal ∧
      (matched (cliSpec ++ serveSpec) items env).flag "grant-preview" = options.preview := by
    obtain ⟨workspace, webDir, dataDir, devinBinary, chromeBinary, port, away, terminal, preview⟩ :=
      options
    cases away <;> cases terminal <;> cases preview <;> cases chromeBinary <;> exact ⟨rfl, rfl, rfl⟩
  have hworkspace : (matched (cliSpec ++ serveSpec) items env).value "workspace" =
      some (world.uuidText options.workspace) := rfl
  have hport : (matched (cliSpec ++ serveSpec) items env).value "port" =
      some (toString options.port.toNat).toList := rfl
  have hdevin : (matched (cliSpec ++ serveSpec) items env).value "devin-binary" =
      some (Str.fromUtf8Lossy options.devinBinary) := rfl
  refine ⟨.ofFound (matched (cliSpec ++ serveSpec) items env) options.workspace options.port,
    ?_, ?_⟩
  · rw [ServeArgs.ofMatches, hworkspace, hport, Option.bind_some, huuid, Option.bind_some,
      parseU16_toString]
    rfl
  · exact ⟨rfl, rfl, hflags.1, hrelay, hsecret, congrArg (Option.map Str.utf8) hdevin,
      hflags.2.1, hflags.2.2⟩

/-- When the service is told what the foreground is: it has no relay but that of its environment,
and paths come through as text that is no option. -/
structure Carried (world : World) (args : ConnectArgs) (env : Str → Option Str) (devin : OsStr) :
    Prop where
  relay : args.relay = env "LEAVE_RELAY_URL"
  relayRegistrationSecret :
    args.relayRegistrationSecret = env "LEAVE_RELAY_REGISTRATION_SECRET"
  devin : ∃ text : Str, devin = text.utf8 ∧ PathValue text
  chrome : args.grantPreview = true → ∀ chromeBinary ∈ world.discoverChromeBinary,
    PathValue (Str.fromUtf8Lossy chromeBinary)
  chromeVariable : args.grantPreview = false → env "LEAVE_CHROME_BIN" ≠ some []

/-- The command line that `connect --background` installs is read as the arguments that `connect`
hands to `serve` in the foreground exactly when they are carried. -/
theorem background_agrees_iff {read : Reader} (hread : Lawful read)
    {parseUuid : Str → Option Uuid} (huuid : ∀ id, parseUuid (world.uuidText id) = some id)
    (hplain : ∀ id, (world.uuidText id).head? ≠ some '-')
    (habsolute : ∀ path canonical, world.canonicalize path = .ok canonical →
      canonical.head? = some slash)
    (env : Str → Option Str) {dataDir : OsStr} {arguments : List Str}
    (hbackground : args.background = true)
    (h : .installService arguments ∈ (connect world args dataDir).emitted) :
    ∃ devin workspace, world.discoverDevinBinary = some devin ∧
      (registerWorkspace world args).result = .ok workspace ∧
      ((∃ served, parseServe read parseUuid arguments env = some served ∧
          SameHost served (args.serveArgs workspace.id devin)) ↔
        Carried world args env devin) := by
  obtain ⟨devin, workspace, chromeBinary, webDir, dataDir', hdevin, hworkspace, hchrome, hfound,
    hweb, hdata, rfl⟩ := mem_connect_install hbackground h
  refine ⟨devin, workspace, hdevin, hworkspace, ?_⟩
  set options : ServiceInstall := ⟨workspace.id, webDir, dataDir', devin, chromeBinary, args.port,
    args.away, args.grantTerminal, args.grantPreview⟩ with hoptions
  have hcli : Readable cliSpec [.valued "data-dir" (Str.fromUtf8Lossy dataDir')] env :=
    readable_dataDir (pathValue_of_absolute (habsolute _ _ hdata))
  have hreadable := readable_serviceItems_iff options env (hplain workspace.id)
    (pathValue_of_absolute (habsolute _ _ hweb)) hfound
  obtain ⟨served, hserved, hsame⟩ := ofMatches_serviceItems options env (huuid workspace.id)
    (Str.fromUtf8Lossy dataDir')
  have hparse : Readable serveSpec (serviceItems world options) env →
      parseServe read parseUuid (serviceArguments world options) env = some served := by
    intro hitems
    rw [parseServe, serviceArguments_eq, hread.reads (by decide) hcli hitems, Option.bind_some]
    exact hserved
  obtain ⟨hworkspace', hport, haway, hrelay, hsecret, hbinary, hterminal, hpreview⟩ := hsame
  constructor
  · intro hagrees
    obtain ⟨served', hserved', hsame⟩ := hagrees
    have hitems : Readable serveSpec (serviceItems world options) env := by
      rw [parseServe, serviceArguments_eq] at hserved'
      obtain ⟨found, hfound, -⟩ := Option.bind_eq_some_iff.1 hserved'
      exact hread.refuses (by decide) hcli declares_serviceItems hfound
    cases (hparse hitems).symm.trans hserved'
    obtain ⟨hpath, hbrowser, hvariable⟩ := hreadable.1 hitems
    have hlossy := Option.some.inj (hbinary.symm.trans hsame.devinBinary)
    exact {
      relay := hsame.relay.symm.trans hrelay
      relayRegistrationSecret := hsame.relayRegistrationSecret.symm.trans hsecret
      devin := ⟨_, hlossy.symm, hpath⟩
      chrome hgranted browser hbrowserMem := by
        apply hbrowser hgranted
        show browser ∈ chromeBinary
        rw [hchrome, if_pos hgranted]
        exact hbrowserMem
      chromeVariable := hvariable }
  · intro hcarried
    obtain ⟨text, rfl, hpath⟩ := hcarried.devin
    have htext : Str.fromUtf8Lossy text.utf8 = text := Str.fromUtf8Lossy_utf8 text
    have hitems : Readable serveSpec (serviceItems world options) env := by
      refine hreadable.2 ⟨?_, fun hgranted browser hbrowser => ?_, hcarried.chromeVariable⟩
      · rw [hoptions, htext]
        exact hpath
      · apply hcarried.chrome hgranted
        change browser ∈ chromeBinary at hbrowser
        rw [hchrome, if_pos hgranted] at hbrowser
        exact hbrowser
    refine ⟨served, hparse hitems, ?_⟩
    exact {
      workspace := hworkspace'
      port := hport
      away := haway
      relay := hrelay.trans hcarried.relay.symm
      relayRegistrationSecret := hsecret.trans hcarried.relayRegistrationSecret.symm
      devinBinary := by
        rw [hbinary, hoptions, htext]
        rfl
      grantTerminal := hterminal
      grantPreview := hpreview }

/-! ## A relay that is lost -/

def sevenText : Str := "00000000-0000-0000-0000-000000000007"

def uuidText (id : Uuid) : Str := if id = 7 then sevenText else id.toNat.repr.toList

def uuidOfText (text : Str) : Option Uuid :=
  if text = sevenText then some 7 else some (BitVec.ofNat 128 (Nat.ofDigitChars 10 text 0))

theorem uuidOfText_uuidText (id : Uuid) : uuidOfText (uuidText id) = some id := by
  unfold uuidText uuidOfText
  by_cases hseven : id = 7
  · rw [if_pos hseven, if_pos rfl, hseven]
  · have hne : id.toNat.repr.toList ≠ sevenText := by
      intro heq
      have hdash : '-' ∈ id.toNat.repr.toList := heq ▸ by decide
      exact Str.not_mem_repr (by decide) hdash
    have hvalue : Nat.ofDigitChars 10 id.toNat.repr.toList 0 = id.toNat := by
      rw [Nat.toList_repr, Nat.ofDigitChars_ten_toDigits]
    rw [if_neg hseven, if_neg hne, hvalue, BitVec.ofNat_toNat, BitVec.setWidth_eq]

theorem head_uuidText (id : Uuid) : (uuidText id).head? ≠ some '-' := by
  unfold uuidText
  split
  · decide
  · exact head_toString_ne id.toNat

/-- The computer, with a disk that knows absolute paths. -/
def serviceWorld : World :=
  { installedWorld with
    canonicalize := fun path => if path.head? = some slash then .ok path else .error "not found"
    uuidText }

theorem serviceWorld_absolute (path canonical : OsStr)
    (h : serviceWorld.canonicalize path = .ok canonical) : canonical.head? = some slash := by
  change (if _ then _ else _) = _ at h
  split at h
  · rename_i hhead
    cases h
    exact hhead
  · cases h

/-- `leave connect /repo --background`, with a relay or without. -/
def backgroundArgs (relay registrationSecret : Option Str) : ConnectArgs :=
  { relayArgs "/repo" [] [] none with
    relay := relay
    relayRegistrationSecret := registrationSecret
    background := true }

/-- What it installs. -/
def backgroundArguments : List Str :=
  serviceArguments serviceWorld ⟨7, Str.utf8 "/web", Str.utf8 "/data", Str.utf8 "/bin/devin", none,
    8788, false, false, false⟩

/-- Directories that are canonical already are installed as they are. -/
theorem mem_install (hweb : world.canonicalize options.webDir = .ok options.webDir)
    (hdata : world.canonicalize options.dataDir = .ok options.dataDir) :
    .installService (serviceArguments world options) ∈ (install world options).emitted := by
  unfold install
  rw [hweb, hdata]
  exact List.mem_cons_self

theorem mem_backgroundArguments (relay registrationSecret : Option Str) :
    .installService backgroundArguments ∈
      (connect serviceWorld (backgroundArgs relay registrationSecret)
        (Str.utf8 "/data")).emitted := by
  have hweb : serviceWorld.canonicalize (Str.utf8 "/web") = .ok (Str.utf8 "/web") :=
    if_pos (by decide +kernel)
  have hdata : serviceWorld.canonicalize (Str.utf8 "/data") = .ok (Str.utf8 "/data") :=
    if_pos (by decide +kernel)
  have hregistered : (registerWorkspace serviceWorld
      (backgroundArgs relay registrationSecret)).result =
        .ok (addedWorkspace serviceWorld (backgroundArgs relay registrationSecret) "/repo") := rfl
  simp only [connect, Traced.mem_emitted_bind]
  refine .inr ⟨Str.utf8 "/bin/devin", rfl, .inr ⟨(), rfl, .inr ⟨_, hregistered, ?_⟩⟩⟩
  exact Traced.mem_emitted_bind.2 (.inr ⟨none, rfl, Traced.mem_emitted_bind.2
    (.inl (mem_install hweb hdata))⟩)

theorem background_agrees_iff_repo : ∃ devin workspace,
    serviceWorld.discoverDevinBinary = some devin ∧
    (registerWorkspace serviceWorld (backgroundArgs none none)).result = .ok workspace ∧
    ((∃ served, parseServe read uuidOfText backgroundArguments (fun _ => none) = some served ∧
        SameHost served ((backgroundArgs none none).serveArgs workspace.id devin)) ↔
      Carried serviceWorld (backgroundArgs none none) (fun _ => none) devin) :=
  background_agrees_iff read_lawful uuidOfText_uuidText head_uuidText serviceWorld_absolute
    (fun _ => none) rfl (mem_backgroundArguments none none)

/-- The service knows nothing of the relay. -/
theorem relay_not_carried : ¬ ∀ (args : ConnectArgs) (arguments : List Str),
    args.background = true →
    .installService arguments ∈ (connect serviceWorld args (Str.utf8 "/data")).emitted →
    ∃ served workspace devin, parseServe read uuidOfText arguments (fun _ => none) = some served ∧
      SameHost served (args.serveArgs workspace devin) := by
  intro h
  obtain ⟨served, workspace, devin, hserved, hsame⟩ :=
    h (backgroundArgs (some "https://relay.example") (some "s3cret")) backgroundArguments rfl
      (mem_backgroundArguments _ _)
  have hrelay : (parseServe read uuidOfText backgroundArguments fun _ => none).map
      ServeArgs.relay = some none := by decide +kernel
  rw [hserved] at hrelay
  cases (Option.some.inj hrelay).symm.trans hsame.relay

end LeaveCli.Host
