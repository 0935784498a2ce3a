import LeaveCli.Host.Proof.BackgroundService
import LeaveCli.Host.ServiceFiles
import LeaveCli.Lib.Systemd
import LeaveCli.Lib.WindowsArgs

/-!
# What the service manager starts

`UnitFaithful` and `TaskFaithful` say that reading the command by the service manager's rules gives
the program and the arguments. `escapeSystemd` escapes what its quotes need, nothing guards
specifiers, variables and line breaks; the command of the task escapes quotes, and leaves the
backslashes before them and before the closing quote as they are.
-/

namespace LeaveCli.Host

open Lib LeaveCli.Core

variable {world : World} {binary : OsStr} {options : ServiceInstall}

/-- The program and its arguments, as the operating system has them. -/
def programAndArguments (world : World) (binary : OsStr) (options : ServiceInstall) : List OsStr :=
  binary :: (serviceArguments world options).map Str.utf8

/-- Whatever specifiers and variables stand for, systemd starts what was meant. -/
def UnitFaithful (world : World) (binary : OsStr) (options : ServiceInstall) : Prop :=
  ∀ host, (Systemd.execStart host (unitFile world binary options)).map (List.map Str.utf8) =
    some (programAndArguments world binary options)

def TaskFaithful (world : World) (binary : OsStr) (options : ServiceInstall) : Prop :=
  (WindowsArgs.arguments .outside (taskCommand world binary options)).map Str.utf8 =
    programAndArguments world binary options

/-- The paths among the arguments, as text. -/
def ServiceInstall.paths (options : ServiceInstall) : List Str :=
  [Str.fromUtf8Lossy options.dataDir, Str.fromUtf8Lossy options.webDir,
    Str.fromUtf8Lossy options.devinBinary] ++
  if options.preview then options.chromeBinary.toList.map Str.fromUtf8Lossy else []

/-- Letters, digits and dashes, as in the names of options and in the text of an id. -/
def IsPlain (s : Str) : Prop := ∀ c ∈ s, (c.isAlphanum || c = '-') = true

instance (s : Str) : Decidable (IsPlain s) := inferInstanceAs (Decidable (∀ c ∈ s, _))

/-- Only the paths are more than letters, digits and dashes. -/
theorem forall_serviceArguments_iff {P : Str → Prop} (hplain : ∀ s, IsPlain s → P s)
    (huuid : IsPlain (world.uuidText options.workspace)) :
    (∀ s ∈ serviceArguments world options, P s) ↔ ∀ path ∈ options.paths, P path := by
  have hport : IsPlain (toString options.port.toNat).toList := fun c hc => by
    rw [Char.isAlphanum, Str.isDigit_of_mem_repr hc, Bool.or_true, Bool.true_or]
  have hflag (granted : Bool) {name : Str} (h : IsPlain name) :
      ∀ s ∈ if granted then [name] else [], P s := by
    cases granted
    · exact fun s hs => absurd hs List.not_mem_nil
    · exact List.forall_mem_singleton.2 (hplain name h)
  rw [serviceArguments, ServiceInstall.paths, List.forall_mem_append, List.forall_mem_append,
    List.forall_mem_append, List.forall_mem_append]
  constructor
  · rintro ⟨⟨⟨hmain, -⟩, -⟩, hpreview⟩
    simp only [List.forall_mem_cons] at hmain
    obtain ⟨-, hdata, -, -, -, -, -, -, hweb, -, hdevin, -⟩ := hmain
    refine ⟨?_, ?_⟩
    · exact List.forall_mem_cons.2 ⟨hdata, List.forall_mem_cons.2 ⟨hweb,
        List.forall_mem_singleton.2 hdevin⟩⟩
    · cases hgranted : options.preview with
      | false => exact fun s hs => absurd hs List.not_mem_nil
      | true =>
        rw [hgranted] at hpreview
        cases hchrome : options.chromeBinary with
        | none => exact fun s hs => absurd hs List.not_mem_nil
        | some browser =>
          rw [hchrome] at hpreview
          obtain ⟨-, hrest⟩ := List.forall_mem_cons.1 hpreview
          exact (List.forall_mem_cons.1 hrest).2
  · intro ⟨hpaths, hbrowser⟩
    simp only [List.forall_mem_cons] at hpaths
    obtain ⟨hdata, hweb, hdevin, -⟩ := hpaths
    refine ⟨⟨⟨?_, hflag _ (by decide)⟩, hflag _ (by decide)⟩, ?_⟩
    · simp only [List.forall_mem_cons]
      exact ⟨hplain _ (by decide), hdata, hplain _ (by decide), hplain _ (by decide),
        hplain _ huuid, hplain _ (by decide), hplain _ hport, hplain _ (by decide), hweb,
        hplain _ (by decide), hdevin, fun s hs => absurd hs List.not_mem_nil⟩
    · cases hgranted : options.preview with
      | false => exact fun s hs => absurd hs List.not_mem_nil
      | true =>
        rw [hgranted] at hbrowser
        refine List.forall_mem_cons.2 ⟨hplain _ (by decide), ?_⟩
        cases hchrome : options.chromeBinary with
        | none => exact fun s hs => absurd hs List.not_mem_nil
        | some browser =>
          rw [hchrome] at hbrowser
          exact List.forall_mem_cons.2 ⟨hplain _ (by decide), hbrowser⟩

/-! ## Plain text needs no escape -/

theorem newline_notMem_of_isPlain {s : Str} (h : IsPlain s) : '\n' ∉ s :=
  fun hmem => absurd (h _ hmem) (by decide)

theorem noSpecifier_of_isPlain {s : Str} (h : IsPlain s) : Systemd.NoSpecifier s := by
  rintro a c b rfl
  exact absurd (h '%' (by simp)) (by decide)

theorem noVariable_of_isPlain {s : Str} (h : IsPlain s) : Systemd.NoVariable s := by
  refine ⟨?_, ?_⟩
  · cases s with
    | nil => rfl
    | cons c s =>
      have hc : c ≠ '$' := by
        rintro rfl
        exact absurd (h '$' List.mem_cons_self) (by decide)
      unfold Systemd.isVariable
      split
      · rename_i heq
        exact absurd (List.cons.inj heq).1 hc
      · rfl
  · rintro a b rfl
    exact absurd (h '$' (by simp)) (by decide)

theorem sound_of_isPlain {s : Str} (h : IsPlain s) : WindowsArgs.Sound s := by
  rintro a b rfl
  exact absurd (h '\\' (by simp)) (by decide)

/-! ## The unit file -/

theorem escapeSystemd_eq (value : Str) : escapeSystemd value = Systemd.quote value := by
  have hescape : replace ['"'] ("\\\"" : Str) (replace ['\\'] ("\\\\" : Str) value) =
      value.flatMap Systemd.escapeChar := by
    rw [replace_singleton, replace_singleton, List.flatMap_assoc]
    refine List.flatMap_congr fun c _ => ?_
    rw [Systemd.escapeChar]
    by_cases hbackslash : c = '\\'
    · subst hbackslash
      rfl
    by_cases hquote : c = '"'
    · subst hquote
      rfl
    · rw [if_neg hbackslash, if_neg (by simp [hbackslash, hquote]), List.flatMap_singleton,
        if_neg hquote]
  rw [escapeSystemd, hescape]
  rfl

theorem foldl_append_flatMap {α : Type} (f : α → Str) (items : List α) (front : Str) :
    items.foldl (fun command item => command ++ [' '] ++ f item) front =
      front ++ items.flatMap (' ' :: f ·) := by
  induction items generalizing front with
  | nil => simp
  | cons item items ih =>
    rw [List.foldl_cons, ih, List.flatMap_cons, List.append_assoc, List.append_assoc]
    rfl

theorem systemdCommand_eq (world : World) (binary : OsStr) (options : ServiceInstall) :
    systemdCommand world binary options =
      Systemd.commandLine (Str.fromUtf8Lossy binary) (serviceArguments world options) := by
  rw [systemdCommand, foldl_append_flatMap, Systemd.commandLine, escapeSystemd_eq]
  simp only [escapeSystemd_eq]

/-- The unit file up to the command, its last line break left out. -/
def unitHead : Str :=
  "[Unit]\nDescription=Leave local Devin host\nAfter=network-online.target\nWants=network-online.target\n\n[Service]\nType=simple"

def unitTail : Str :=
  "Restart=on-failure\nRestartSec=5\nNoNewPrivileges=true\nPrivateTmp=true\n\n[Install]\nWantedBy=default.target\n"

theorem unitFile_eq (world : World) (binary : OsStr) (options : ServiceInstall) :
    unitFile world binary options =
      unitHead ++ '\n' :: (("ExecStart" : Str) ++ '=' :: systemdCommand world binary options ++
        '\n' :: unitTail) := by
  have hhead : ("[Unit]\nDescription=Leave local Devin host\nAfter=network-online.target\nWants=network-online.target\n\n[Service]\nType=simple\nExecStart=" : Str) =
      unitHead ++ '\n' :: (("ExecStart" : Str) ++ ['=']) := by decide +kernel
  have htail : ("\nRestart=on-failure\nRestartSec=5\nNoNewPrivileges=true\nPrivateTmp=true\n\n[Install]\nWantedBy=default.target\n" : Str) =
      '\n' :: unitTail := by decide +kernel
  have hassoc (a b c d : Str) : a ++ '\n' :: (b ++ ['=']) ++ c ++ '\n' :: d =
      a ++ '\n' :: (b ++ '=' :: c ++ '\n' :: d) := by simp
  exact (congrArg₂ (fun front back => front ++ systemdCommand world binary options ++ back)
    hhead htail).trans (hassoc _ _ _ _)

theorem setting_unitFile (world : World) (binary : OsStr) (options : ServiceInstall) :
    Systemd.setting "ExecStart" (unitFile world binary options) =
      some (Systemd.firstLine (systemdCommand world binary options)) := by
  have hhead : Systemd.setting "ExecStart" unitHead = none := by decide +kernel
  rw [unitFile_eq]
  exact Systemd.setting_append (by decide) hhead _ _

/-- The words are what was meant only where the program's path is text. -/
theorem map_utf8_eq_iff {words arguments : List Str} :
    words.map Str.utf8 = binary :: arguments.map Str.utf8 ↔
      binary = Str.utf8 (Str.fromUtf8Lossy binary) ∧
        words = Str.fromUtf8Lossy binary :: arguments := by
  have hinjective : Function.Injective (List.map Str.utf8) :=
    List.map_injective_iff.2 Str.utf8_injective
  constructor
  · intro h
    cases words with
    | nil => cases h
    | cons program words =>
      obtain ⟨rfl, hwords⟩ := List.cons.inj h
      rw [Str.fromUtf8Lossy_utf8, hinjective hwords]
      exact ⟨rfl, rfl⟩
  · rintro ⟨hbinary, rfl⟩
    rw [List.map_cons, ← hbinary]

theorem unitFaithful_iff (huuid : IsPlain (world.uuidText options.workspace)) :
    UnitFaithful world binary options ↔
      ∃ program, binary = Str.utf8 program ∧ '\n' ∉ program ∧ Systemd.NoSpecifier program ∧
        ∀ path ∈ options.paths,
          '\n' ∉ path ∧ Systemd.NoSpecifier path ∧ Systemd.NoVariable path := by
  have harguments := forall_serviceArguments_iff
    (P := fun s => '\n' ∉ s ∧ Systemd.NoSpecifier s ∧ Systemd.NoVariable s)
    (fun s hs => ⟨newline_notMem_of_isPlain hs, noSpecifier_of_isPlain hs,
      noVariable_of_isPlain hs⟩) huuid
  rw [UnitFaithful, programAndArguments]
  unfold Systemd.execStart
  rw [setting_unitFile, systemdCommand_eq, Option.bind_some, ← harguments]
  generalize serviceArguments world options = arguments
  constructor
  · intro h
    have hread (host : Systemd.Host) : ∃ words,
        Systemd.words .outside (Systemd.firstLine
          (Systemd.commandLine (Str.fromUtf8Lossy binary) arguments)) = some words ∧
        Systemd.expandWords host words = some (Str.fromUtf8Lossy binary :: arguments) ∧
        binary = Str.utf8 (Str.fromUtf8Lossy binary) := by
      obtain ⟨started, hstarted, hmap⟩ := Option.map_eq_some_iff.1 (h host)
      obtain ⟨words, hwords, hexpand⟩ := Option.bind_eq_some_iff.1 hstarted
      obtain ⟨hbinary, rfl⟩ := map_utf8_eq_iff.1 hmap
      exact ⟨words, hwords, hexpand, hbinary⟩
    obtain ⟨words, hwords, -, hbinary⟩ := hread Systemd.emptyHost
    obtain ⟨hnewline, rfl⟩ := (Systemd.words_firstLine_iff _ _ _).1 hwords
    obtain ⟨hprogram, hrest⟩ := List.forall_mem_cons.1 hnewline
    obtain ⟨hspecifier, hexpand⟩ := (Systemd.expandWords_eq_self_iff _ _).1 fun host => by
      obtain ⟨words, hwords', hexpand, -⟩ := hread host
      obtain rfl := Option.some.inj (hwords.symm.trans hwords')
      exact hexpand
    exact ⟨_, hbinary, hprogram, hspecifier, fun s hs => ⟨hrest s hs, hexpand s hs⟩⟩
  · rintro ⟨program, rfl, hprogram, hspecifier, hrest⟩ host
    have hwords : Systemd.words .outside (Systemd.firstLine
        (Systemd.commandLine program arguments)) = some (program :: arguments) :=
      (Systemd.words_firstLine_iff _ _ _).2
        ⟨List.forall_mem_cons.2 ⟨hprogram, fun s hs => (hrest s hs).1⟩, rfl⟩
    have hexpand := (Systemd.expandWords_eq_self_iff program arguments).2
      ⟨hspecifier, fun s hs => (hrest s hs).2⟩ host
    rw [Str.fromUtf8Lossy_utf8, hwords, Option.bind_some, hexpand]
    rfl

/-! ## The scheduled task -/

theorem line_cons (body : Str) (more : List Str) :
    WindowsArgs.line (body :: more) =
      (['"'] ++ body ++ ['"']) ++ more.flatMap fun next => ' ' :: (['"'] ++ next ++ ['"']) := by
  induction more generalizing body with
  | nil => simp [WindowsArgs.line]
  | cons next more ih =>
    rw [WindowsArgs.line, ih, List.flatMap_cons]
    · simp
    · simp

theorem taskCommand_eq (world : World) (binary : OsStr) (options : ServiceInstall) :
    taskCommand world binary options =
      WindowsArgs.line (Str.fromUtf8Lossy binary ::
        (serviceArguments world options).map WindowsArgs.escapeQuotes) := by
  have hescape (argument : Str) : replace ['"'] ("\\\"" : Str) argument =
      WindowsArgs.escapeQuotes argument := replace_singleton '"' argument
  rw [taskCommand, foldl_append_flatMap, line_cons, List.flatMap_map]
  simp only [hescape]

theorem taskFaithful_iff (huuid : IsPlain (world.uuidText options.workspace)) :
    TaskFaithful world binary options ↔
      ∃ program, binary = Str.utf8 program ∧ '"' ∉ program ∧ WindowsArgs.Sound program ∧
        ∀ path ∈ options.paths, WindowsArgs.Sound path := by
  have harguments := forall_serviceArguments_iff (fun s => sound_of_isPlain (s := s)) huuid
  rw [TaskFaithful, programAndArguments, taskCommand_eq, map_utf8_eq_iff,
    WindowsArgs.arguments_line_iff, List.forall_mem_cons, harguments]
  constructor
  · intro ⟨hbinary, hquote, hprogram, hpaths⟩
    exact ⟨_, hbinary, hquote, hprogram, hpaths⟩
  · rintro ⟨program, rfl, hquote, hprogram, hpaths⟩
    rw [Str.fromUtf8Lossy_utf8]
    exact ⟨rfl, hquote, hprogram, hpaths⟩

theorem isPlain_uuidText (id : Uuid) : IsPlain (uuidText id) := by
  unfold uuidText
  split
  · decide
  · intro c hc
    rw [Char.isAlphanum, Str.isDigit_of_mem_repr hc, Bool.or_true, Bool.true_or]

/-- A service whose data directory is the one given. -/
def serviceAt (dataDir : Str) : ServiceInstall :=
  ⟨7, Str.utf8 "/web", Str.utf8 dataDir, Str.utf8 "/bin/devin", none, 8788, false, false, false⟩

/-- A directory named after the user is another one in the unit, and one that ends in a backslash
takes the argument behind it along. -/
theorem service_command_changed :
    ¬ UnitFaithful serviceWorld (Str.utf8 "/usr/bin/leave") (serviceAt "/srv/100%u") ∧
      ¬ TaskFaithful serviceWorld (Str.utf8 "C:\\leave.exe") (serviceAt "D:\\") := by
  constructor
  · intro h
    obtain ⟨-, -, -, -, hpaths⟩ := (unitFaithful_iff (isPlain_uuidText 7)).1 h
    obtain ⟨-, hspecifier, -⟩ := hpaths _ List.mem_cons_self
    change Systemd.NoSpecifier (Str.fromUtf8Lossy (Str.utf8 "/srv/100%u")) at hspecifier
    rw [Str.fromUtf8Lossy_utf8] at hspecifier
    exact (hspecifier "/srv/100" 'u' [] rfl).2 (by decide)
  · intro h
    obtain ⟨-, -, -, -, hpaths⟩ := (taskFaithful_iff (isPlain_uuidText 7)).1 h
    have hsound := hpaths _ List.mem_cons_self
    change WindowsArgs.Sound (Str.fromUtf8Lossy (Str.utf8 "D:\\")) at hsound
    rw [Str.fromUtf8Lossy_utf8] at hsound
    obtain ⟨c, hc, -⟩ := hsound "D:" [] rfl
    cases hc

/-- The commands are read back as they were meant when the paths hold nothing that the service
manager gives a meaning: for systemd no line break, specifier or variable, for the task no quote in
the program's path and no backslash before a quote or at the end. -/
theorem service_command_faithful_iff (world : World) (binary : OsStr) (options : ServiceInstall)
    (huuid : IsPlain (world.uuidText options.workspace)) :
    (UnitFaithful world binary options ↔
      ∃ program, binary = Str.utf8 program ∧ '\n' ∉ program ∧ Systemd.NoSpecifier program ∧
        ∀ path ∈ options.paths,
          '\n' ∉ path ∧ Systemd.NoSpecifier path ∧ Systemd.NoVariable path) ∧
    (TaskFaithful world binary options ↔
      ∃ program, binary = Str.utf8 program ∧ '"' ∉ program ∧ WindowsArgs.Sound program ∧
        ∀ path ∈ options.paths, WindowsArgs.Sound path) :=
  ⟨unitFaithful_iff huuid, taskFaithful_iff huuid⟩

theorem service_command_faithful_seven :
    (UnitFaithful serviceWorld (Str.utf8 "/usr/bin/leave") (serviceAt "/srv/100%u") ↔
      ∃ program, Str.utf8 "/usr/bin/leave" = Str.utf8 program ∧ '\n' ∉ program ∧
        Systemd.NoSpecifier program ∧ ∀ path ∈ (serviceAt "/srv/100%u").paths,
          '\n' ∉ path ∧ Systemd.NoSpecifier path ∧ Systemd.NoVariable path) ∧
    (TaskFaithful serviceWorld (Str.utf8 "/usr/bin/leave") (serviceAt "/srv/100%u") ↔
      ∃ program, Str.utf8 "/usr/bin/leave" = Str.utf8 program ∧ '"' ∉ program ∧
        WindowsArgs.Sound program ∧ ∀ path ∈ (serviceAt "/srv/100%u").paths,
          WindowsArgs.Sound path) :=
  service_command_faithful_iff serviceWorld _ _ (isPlain_uuidText 7)

end LeaveCli.Host
