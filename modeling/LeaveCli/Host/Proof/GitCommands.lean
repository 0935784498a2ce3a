import LeaveCli.Host.Git
import LeaveCli.Lib.Arguments
import LeaveCli.Lib.Results

/-!
# Git does what is asked of it

`readGit` is what Git makes of the arguments it is started with, and `readPathspec` what it makes of
a path: behind a colon there is magic, which can lead anywhere in the repository, unless paths are
taken literally. `request_started` says that every request the checks let through starts Git once,
with arguments that Git reads as that request and no other: what a request names is never an option,
and no path leads out of the directory (`joinOs_of_below`) but that of a `diff` behind a colon. A
request the checks refuse does not start Git.
-/

namespace LeaveCli.Host

open Lib Lib.Str Lib.Arguments

/-! ## What Git reads -/

/-- An argument with a dash in front, that is not a dash only. -/
def isDashed (argument : OsStr) : Bool := argument.head? = some 45 && argument ≠ [45]

def dashes : OsStr := [45, 45]

/-- The options of `git`: `-C` takes a directory. -/
def programConventions : Conventions OsStr := ⟨dashes, isDashed, fun option => option = utf8 "-C"⟩

/-- The options of a command: `commit -m` takes a message and `switch -c` a name. -/
def commandConventions (command : OsStr) : Conventions OsStr where
  dashes := dashes
  isOption := isDashed
  valued option := (command = utf8 "commit" ∧ option = utf8 "-m") ∨
    (command = utf8 "switch" ∧ option = utf8 "-c")

structure Invocation where
  /-- The options before the command. -/
  program : List (OsStr × Option OsStr)
  command : OsStr
  arguments : Found OsStr
  deriving DecidableEq

def readGit (arguments : List OsStr) : Option Invocation :=
  (readProgram programConventions arguments).bind fun found =>
    (Arguments.read (commandConventions found.2.1) found.2.2).map fun arguments =>
      ⟨found.1, found.2.1, arguments⟩

/-- How Git takes a path that it is given. -/
inductive Pathspec
  /-- The path itself, below the directory. -/
  | literal (path : OsStr)
  /-- The paths below the directory that match. -/
  | pattern (path : OsStr)
  /-- With magic words or letters, as `:/` and `:(top)` for the top of the repository. -/
  | magic (text : OsStr)
  deriving DecidableEq

def readPathspec (literally : Bool) (argument : OsStr) : Pathspec :=
  if literally then .literal argument
  else if argument.head? = some 58 then .magic argument
  else .pattern argument

def Invocation.literally (invocation : Invocation) : Bool :=
  invocation.program.any fun option => option.1 = utf8 "--literal-pathspecs"

/-- The operands of `diff`, `add` and `restore` are paths. -/
def Invocation.pathspecs (invocation : Invocation) : List Pathspec :=
  if invocation.command ∈ [utf8 "diff", utf8 "add", utf8 "restore"] then
    invocation.arguments.operands.map (readPathspec invocation.literally)
  else []

/-- A path that leads to places below the directory it is relative to. -/
def StaysBelow (path : OsStr) : Prop :=
  ∀ base : OsPath, ∃ names, joinOs base path = base ++ names ∧ dotDot ∉ names

def Pathspec.Inside : Pathspec → Prop
  | literal path => StaysBelow path
  | pattern path => StaysBelow path
  | magic _ => False

/-! ## What is asked -/

inductive GitRequest
  | status
  | diff (path : Option Str) (staged : Bool)
  | stage (paths : List Str)
  | unstage (paths : List Str)
  | commit (message : Str)
  | push
  | branches
  | switchBranch (name : Str) (create : Bool)
  | worktrees

/-- A path that stays below the directory it is relative to. -/
structure Below (path : Str) : Prop where
  nonempty : path ≠ []
  noNul : '\x00' ∉ path
  relative : isAbsolute path.utf8 = false
  noParent : dotDot ∉ osComponents path.utf8

/-- A name that Git takes for a branch: no option and no revision that is written in another way. -/
structure BranchName (name : Str) : Prop where
  nonempty : name ≠ []
  length : name.utf8.length ≤ 255
  notOption : name.head? ≠ some '-'
  chars : ∀ c ∈ name, isBranchChar c = true
  noRange : ¬ ("..").toList <:+: name
  noEmptyPart : ¬ ("//").toList <:+: name
  noSlashAtEnd : name.getLast? ≠ some '/'

namespace GitRequest

def Accepted : GitRequest → Prop
  | diff path _ => ∀ file ∈ path, Below file
  | stage paths => paths ≠ [] ∧ paths.length ≤ 500 ∧ ∀ path ∈ paths, Below path
  | unstage paths => paths ≠ [] ∧ paths.length ≤ 500 ∧ ∀ path ∈ paths, Below path
  | commit message => trim message ≠ [] ∧ (trim message).length ≤ 10000
  | switchBranch name _ => BranchName name
  | _ => True

/-- The arguments Git is started with. -/
def started (git : Git) (root : OsStr) : GitRequest → List (List OsStr)
  | status => (git.status root).emitted
  | diff path staged => (git.diff root path staged).emitted
  | stage paths => (git.stage root paths).emitted
  | unstage paths => (git.unstage root paths).emitted
  | commit message => (git.commit root message).emitted
  | push => (git.push root).emitted
  | branches => (git.branches root).emitted
  | switchBranch name create => (git.switchBranch root name create).emitted
  | worktrees => (git.worktrees root).emitted

def diffOptions (staged : Bool) : List Str :=
  (["--no-ext-diff", "--no-color"] : List Str) ++ if staged then (["--cached"] : List Str) else []

/-- A command in a directory, with options that take no value. -/
def plain (root : OsStr) (command : Str) (options : List Str) (operands : List Str) : Invocation :=
  ⟨[(utf8 "-C", some root)], command.utf8,
    ⟨options.map fun option => (option.utf8, none), operands.map utf8⟩⟩

/-- A command on these paths, and none that they may match. -/
def exact (root : OsStr) (command : Str) (options : List Str) (paths : List Str) : Invocation :=
  ⟨[(utf8 "-C", some root), (utf8 "--literal-pathspecs", none)], command.utf8,
    ⟨options.map fun option => (option.utf8, none), paths.map utf8⟩⟩

/-- What Git is to do. -/
def invocation (root : OsStr) : GitRequest → Invocation
  | status => plain root "status" ["--porcelain=v2", "--branch", "-z"] []
  | diff path staged => plain root "diff" (diffOptions staged) path.toList
  | stage paths => exact root "add" [] paths
  | unstage paths => exact root "restore" ["--staged"] paths
  | commit message =>
    ⟨[(utf8 "-C", some root)], utf8 "commit", ⟨[(utf8 "-m", some (trim message).utf8)], []⟩⟩
  | push => plain root "push" [] []
  | branches => plain root "for-each-ref"
      ["--format=%(HEAD)%00%(refname:short)%00%(upstream:short)"] ["refs/heads/"]
  | switchBranch name create =>
    ⟨[(utf8 "-C", some root)], utf8 "switch",
      if create then ⟨[(utf8 "-c", some name.utf8)], []⟩ else ⟨[], [name.utf8]⟩⟩
  | worktrees => plain root "worktree" ["--porcelain"] ["list"]

end GitRequest

/-! ## Checks -/

theorem joinOs_of_below {path : Str} (h : Below path) : StaysBelow path.utf8 := by
  intro base
  have hne : path.utf8 ≠ [] := fun hnil => h.nonempty (utf8_injective (hnil.trans utf8_nil.symm))
  refine ⟨osComponents path.utf8, ?_, h.noParent⟩
  rw [joinOs, h.relative, if_neg Bool.false_ne_true, if_neg hne]

theorem dotDot_mem_osComponents {path : OsStr} :
    dotDot ∈ osComponents path ↔ dotDot ∈ path.splitOn slash := by
  have hne : dotDot ≠ [] := by decide
  have hdot : dotDot ≠ dot := by decide
  unfold osComponents
  dsimp only
  split <;> simp [hne, hdot]

theorem parentDir_mem_components (path : OsStr) :
    .parentDir ∈ components path ↔ dotDot ∈ path.splitOn slash := by
  have hne : dotDot ≠ [] := by decide
  have hdot : dotDot ≠ dot := by decide
  have hfront : ∀ front : List Component, .parentDir ∉ front → (.parentDir ∈ front ++
      (path.splitOn slash).filterMap (fun part => if part = [] ∨ part = dot then none
        else if part = dotDot then some .parentDir else some (.normal part)) ↔
      dotDot ∈ path.splitOn slash) := by
    intro front hfront
    rw [List.mem_append, or_iff_right hfront, List.mem_filterMap]
    constructor
    · rintro ⟨part, hpart, hparent⟩
      split at hparent
      · cases hparent
      · split at hparent
        · rename_i heq
          exact heq ▸ hpart
        · cases hparent
    · intro hmem
      exact ⟨dotDot, hmem, by simp [hne, hdot]⟩
  unfold components
  dsimp only
  split
  · exact hfront _ (by simp)
  · split
    · exact hfront _ (by simp)
    · exact hfront _ (by simp)

theorem rootDir_notMem_components {path : OsStr} (h : isAbsolute path = false) :
    .rootDir ∉ components path := by
  unfold components
  rw [h]
  simp only [Bool.false_eq_true, if_false, List.mem_append, not_or]
  constructor
  · split <;> simp
  · rw [List.mem_filterMap]
    rintro ⟨part, -, hroot⟩
    split at hroot
    · cases hroot
    · split at hroot <;> cases hroot

theorem validateRelativePath_eq_ok {path : Str} :
    validateRelativePath path = .ok () ↔ Below path := by
  have hparent := parentDir_mem_components path.utf8
  rw [← dotDot_mem_osComponents] at hparent
  unfold validateRelativePath
  constructor
  · intro h
    split at h
    · cases h
    · rename_i hcase
      simp only [not_or, List.any_eq_true, not_exists, not_and, decide_eq_true_eq] at hcase
      obtain ⟨hne, hnul, habsolute, hcomponents⟩ := hcase
      exact ⟨hne, hnul, by simpa using habsolute,
        fun hmem => (hcomponents _ (hparent.2 hmem)).1 rfl⟩
  · intro h
    rw [if_neg]
    simp only [not_or, List.any_eq_true, not_exists, not_and, decide_eq_true_eq]
    refine ⟨h.nonempty, h.noNul, by simp [h.relative], fun component hmem => ⟨?_, ?_⟩⟩
    · rintro rfl
      exact h.noParent (hparent.1 hmem)
    · rintro rfl
      exact rootDir_notMem_components h.relative hmem

theorem requirePaths_eq_ok {paths : List Str} : requirePaths paths = .ok () ↔
    paths ≠ [] ∧ paths.length ≤ 500 ∧ ∀ path ∈ paths, Below path := by
  have hall : paths.forM validateRelativePath = .ok () ↔ ∀ path ∈ paths, Below path := by
    induction paths with
    | nil => simp [pure, Except.pure]
    | cons path paths ih =>
      show (validateRelativePath path >>= fun _ => paths.forM validateRelativePath) = _ ↔ _
      rw [bind_eq_ok, List.forall_mem_cons, ← validateRelativePath_eq_ok, ← ih]
      exact ⟨fun ⟨_, hpath, hpaths⟩ => ⟨hpath, hpaths⟩, fun ⟨hpath, hpaths⟩ => ⟨_, hpath, hpaths⟩⟩
  unfold requirePaths
  rw [← hall]
  split
  · rename_i hcount
    simp only [reduceCtorEq, false_iff, not_and]
    intro hne hlength
    rcases hcount with rfl | hlong
    · exact absurd rfl hne
    · omega
  · rename_i hcount
    rw [not_or, Nat.not_lt] at hcount
    simp [hcount]

theorem validateBranch_eq_ok {name : Str} : validateBranch name = .ok () ↔ BranchName name := by
  unfold validateBranch
  constructor
  · intro h
    split at h
    · cases h
    · rename_i hcase
      simp only [not_or, Bool.not_eq_true, List.any_eq_false, Bool.not_eq_false'] at hcase
      obtain ⟨hne, hlength, hoption, hchars, hrange, hempty, hslash⟩ := hcase
      exact ⟨hne, Nat.not_lt.1 hlength, hoption, hchars, hrange, hempty, hslash⟩
  · intro h
    rw [if_neg]
    simp only [not_or, Bool.not_eq_true, List.any_eq_false, Bool.not_eq_false']
    exact ⟨h.nonempty, Nat.not_lt.2 h.length, h.notOption, h.chars, h.noRange, h.noEmptyPart,
      h.noSlashAtEnd⟩

/-! ## One start -/

variable {git : Git} {root : OsStr}

theorem emitted_run (git : Git) (root : OsStr) (arguments : List Str) :
    (run git root arguments).emitted = [utf8 "-C" :: root :: arguments.map utf8] := by
  apply Traced.emitted_bind_of_forall
  intro _
  refine (Traced.emitted_bind_of_forall fun output => ?_).trans (Traced.emitted_context _ _)
  refine (Traced.emitted_bind_of_forall fun _ => ?_).trans (Traced.emitted_bailIf _ _)
  exact (Traced.emitted_bind_of_forall fun _ => rfl).trans (Traced.emitted_bailIf _ _)

/-- What is done with the output starts nothing. -/
theorem emitted_run_then {α : Type} {f : ProcessOutput → Traced Str (List OsStr) α}
    (hf : ∀ output, (f output).emitted = []) (arguments : List Str) :
    (run git root arguments >>= f).emitted = [utf8 "-C" :: root :: arguments.map utf8] :=
  (Traced.emitted_bind_of_forall hf).trans (emitted_run git root arguments)

theorem isDashed_of_head {argument : OsStr} (h : argument.head? ≠ some 45) :
    isDashed argument = false := by
  rw [isDashed, decide_eq_false h]
  rfl

/-- A name that is no option is none in bytes. -/
theorem isDashed_branchName {name : Str} (h : BranchName name) : isDashed name.utf8 = false := by
  refine isDashed_of_head fun hhead => ?_
  cases name with
  | nil => exact absurd rfl h.nonempty
  | cons c rest =>
    have hc : c.toNat = '-'.toNat := toNat_of_head?_utf8 (by decide) hhead
    exact h.notOption (congrArg some (Char.toNat_inj.1 hc))

/-- The program's options and a command. -/
theorem readGit_plain {command : Str} (hcommand : isDashed command.utf8 = false)
    (arguments : List OsStr) :
    readGit (utf8 "-C" :: root :: command.utf8 :: arguments) =
      (Arguments.read (commandConventions command.utf8) arguments).map fun arguments =>
        ⟨[(utf8 "-C", some root)], command.utf8, arguments⟩ := by
  have hoption : programConventions.isOption (utf8 "-C") = true := by decide +kernel
  have hvalued : programConventions.valued (utf8 "-C") = true := by decide +kernel
  rw [readGit, readProgram_valued hoption hvalued, readProgram_command hcommand]
  rfl

/-- The same with paths that are taken as they are. -/
theorem readGit_exact {command : Str} (hcommand : isDashed command.utf8 = false)
    (arguments : List OsStr) :
    readGit (utf8 "-C" :: root :: utf8 "--literal-pathspecs" :: command.utf8 :: arguments) =
      (Arguments.read (commandConventions command.utf8) arguments).map fun arguments =>
        ⟨[(utf8 "-C", some root), (utf8 "--literal-pathspecs", none)], command.utf8,
          arguments⟩ := by
  have hoption : programConventions.isOption (utf8 "-C") = true := by decide +kernel
  have hvalued : programConventions.valued (utf8 "-C") = true := by decide +kernel
  have hliteral : programConventions.isOption (utf8 "--literal-pathspecs") = true := by
    decide +kernel
  have hflag : programConventions.valued (utf8 "--literal-pathspecs") = false := by decide +kernel
  rw [readGit, readProgram_valued hoption hvalued, readProgram_flag hliteral hflag,
    readProgram_command hcommand]
  rfl

theorem utf8_dashes : utf8 "--" = dashes := by decide +kernel

/-- Flags, then paths behind the dashes. -/
theorem read_paths {command : OsStr} {flags : List Str}
    (hflags : ∀ flag ∈ flags, flag.utf8 ≠ dashes ∧ isDashed flag.utf8 = true ∧
      (commandConventions command).valued flag.utf8 = false) (paths : List Str) :
    Arguments.read (commandConventions command) (flags.map utf8 ++ dashes :: paths.map utf8) =
      some ⟨flags.map fun flag => (flag.utf8, none), paths.map utf8⟩ := by
  have hpaths := read_dashes (C := commandConventions command) (paths.map utf8)
  refine (read_flags (List.forall_mem_map.2 hflags) hpaths).trans ?_
  rw [List.append_nil, List.map_map]
  rfl

namespace GitRequest

/-- A request that names nothing of the workspace. -/
theorem read_fixed {command : Str} {options operands arguments : List Str}
    (hcommand : isDashed command.utf8 = false)
    (hread : Arguments.read (commandConventions command.utf8) (arguments.map utf8) =
      some ⟨options.map fun option => (option.utf8, none), operands.map utf8⟩) :
    readGit (utf8 "-C" :: root :: (command :: arguments).map utf8) =
      some (plain root command options operands) := by
  rw [List.map_cons, readGit_plain hcommand, hread]
  rfl

/-- A request about paths that are taken as they are. -/
theorem read_exact (command : Str) (options : List Str) (hcommand : isDashed command.utf8 = false)
    (hoptions : ∀ option ∈ options, option.utf8 ≠ dashes ∧ isDashed option.utf8 = true ∧
      (commandConventions command.utf8).valued option.utf8 = false) (paths : List Str) :
    readGit (utf8 "-C" :: root ::
      (("--literal-pathspecs" : Str) :: command :: options ++ ("--" : Str) :: paths).map utf8) =
        some (exact root command options paths) := by
  rw [List.map_append, List.map_cons, List.map_cons, List.map_cons, utf8_dashes, List.cons_append,
    List.cons_append, readGit_exact hcommand, read_paths hoptions]
  rfl

theorem read_diff (path : Option Str) (staged : Bool) :
    readGit (utf8 "-C" :: root :: (("diff" : Str) :: diffOptions staged ++
        path.elim [] fun path => (["--", path] : List Str)).map utf8) =
      some (invocation root (diff path staged)) := by
  have hoptions : ∀ option ∈ diffOptions staged,
      option.utf8 ≠ dashes ∧ isDashed option.utf8 = true ∧
        (commandConventions (utf8 "diff")).valued option.utf8 = false := by
    cases staged <;> decide +kernel
  have hread : Arguments.read (commandConventions (utf8 "diff")) ((diffOptions staged ++
      path.elim [] fun path => (["--", path] : List Str)).map utf8) =
        some ⟨(diffOptions staged).map fun option => (option.utf8, none),
          path.toList.map utf8⟩ := by
    cases path with
    | none =>
      have hnone : Arguments.read (commandConventions (utf8 "diff")) [] = some ⟨[], []⟩ := read_nil
      have hflags := read_flags (List.forall_mem_map.2 hoptions) hnone
      rw [List.append_nil, List.append_nil, List.map_map] at hflags
      rw [Option.elim_none, List.append_nil, hflags]
      rfl
    | some path =>
      have hpaths := read_paths hoptions [path]
      rw [← utf8_dashes] at hpaths
      simpa using hpaths
  rw [List.cons_append]
  exact read_fixed (by decide +kernel) hread

/-- What a request starts Git with, Git reads as the request. -/
theorem read_started (git : Git) (root : OsStr) (request : GitRequest) (h : request.Accepted) :
    ∃ arguments, request.started git root = [arguments] ∧
      readGit arguments = some (request.invocation root) := by
  cases request with
  | status =>
    exact ⟨_, emitted_run_then (fun _ => rfl) _,
      read_fixed (by decide +kernel) (by decide +kernel)⟩
  | diff path staged =>
    refine ⟨_, ?_, read_diff path staged⟩
    have hcheck : path.elim (.ok ()) validateRelativePath = .ok () := by
      cases path with
      | none => rfl
      | some file => exact validateRelativePath_eq_ok.2 (h file rfl)
    refine (Traced.emitted_lift_bind.trans (if_pos hcheck)).trans
      ((emitted_run_then (fun _ => rfl) _).trans ?_)
    cases staged <;> cases path <;> rfl
  | stage paths =>
    refine ⟨_, (Traced.emitted_lift_bind.trans (if_pos (requirePaths_eq_ok.2 h))).trans
      (emitted_run_then (fun _ => rfl) _), ?_⟩
    exact read_exact "add" [] (by decide +kernel) (by decide) paths
  | unstage paths =>
    refine ⟨_, (Traced.emitted_lift_bind.trans (if_pos (requirePaths_eq_ok.2 h))).trans
      (emitted_run_then (fun _ => rfl) _), ?_⟩
    exact read_exact "restore" ["--staged"] (by decide +kernel) (by decide +kernel) paths
  | commit message =>
    refine ⟨[utf8 "-C", root, utf8 "commit", utf8 "-m", (trim message).utf8], ?_, ?_⟩
    · have hlong :
          (decide (trim message = []) || decide ((trim message).length > 10000)) = false := by
        obtain ⟨hne, hlength⟩ := h
        simp [hne, hlength]
      refine Traced.emitted_bailIf_bind.trans ?_
      rw [hlong]
      exact emitted_run_then (fun _ => rfl) _
    · rw [readGit_plain (by decide +kernel),
        read_valued (by decide +kernel) (by decide +kernel) (by decide +kernel)]
      rfl
  | push =>
    exact ⟨_, emitted_run_then (fun _ => rfl) _,
      read_fixed (by decide +kernel) (by decide +kernel)⟩
  | branches =>
    exact ⟨_, emitted_run_then (fun _ => Traced.emitted_bind_of_forall fun _ => rfl) _,
      read_fixed (by decide +kernel) (by decide +kernel)⟩
  | switchBranch name create =>
    have hname := isDashed_branchName h
    have hdashes : name.utf8 ≠ dashes := fun heq => by simp [heq, isDashed, dashes] at hname
    cases create with
    | true =>
      refine ⟨[utf8 "-C", root, utf8 "switch", utf8 "-c", name.utf8], ?_, ?_⟩
      · exact (Traced.emitted_lift_bind.trans (if_pos (validateBranch_eq_ok.2 h))).trans
          (emitted_run_then (fun _ => rfl) _)
      · rw [readGit_plain (by decide +kernel),
          read_valued (by decide +kernel) (by decide +kernel) (by decide +kernel)]
        rfl
    | false =>
      refine ⟨[utf8 "-C", root, utf8 "switch", name.utf8], ?_, ?_⟩
      · exact (Traced.emitted_lift_bind.trans (if_pos (validateBranch_eq_ok.2 h))).trans
          (emitted_run_then (fun _ => rfl) _)
      · rw [readGit_plain (by decide +kernel), read_operand hdashes hname]
        rfl
  | worktrees =>
    exact ⟨_, emitted_run_then (fun _ => rfl) _,
      read_fixed (by decide +kernel) (by decide +kernel)⟩

/-- A request that the checks refuse starts nothing. -/
theorem started_of_refused (git : Git) (root : OsStr) (request : GitRequest)
    (h : ¬ request.Accepted) : request.started git root = [] := by
  cases request with
  | diff path staged =>
    refine Traced.emitted_lift_bind.trans (if_neg fun hcheck => h ?_)
    intro file hfile
    obtain rfl : path = some file := hfile
    exact validateRelativePath_eq_ok.1 hcheck
  | stage paths =>
    exact Traced.emitted_lift_bind.trans (if_neg fun hcheck => h (requirePaths_eq_ok.1 hcheck))
  | unstage paths =>
    exact Traced.emitted_lift_bind.trans (if_neg fun hcheck => h (requirePaths_eq_ok.1 hcheck))
  | commit message =>
    refine Traced.emitted_bailIf_bind.trans (if_pos ?_)
    by_contra hcheck
    refine h ?_
    simp only [Bool.or_eq_true, decide_eq_true_eq, not_or, Nat.not_lt] at hcheck
    exact hcheck
  | switchBranch name create =>
    exact Traced.emitted_lift_bind.trans (if_neg fun hcheck => h (validateBranch_eq_ok.1 hcheck))
  | status => exact absurd trivial h
  | push => exact absurd trivial h
  | branches => exact absurd trivial h
  | worktrees => exact absurd trivial h

theorem literally_plain (command : Str) (options operands : List Str) :
    (plain root command options operands).literally = false := by
  have hother : utf8 "-C" ≠ utf8 "--literal-pathspecs" := by decide +kernel
  show (decide (utf8 "-C" = utf8 "--literal-pathspecs") || false) = false
  rw [decide_eq_false hother, Bool.or_false]

theorem literally_exact (command : Str) (options paths : List Str) :
    (exact root command options paths).literally = true := by
  show (_ || (decide (utf8 "--literal-pathspecs" = utf8 "--literal-pathspecs") || false)) = true
  rw [decide_eq_true rfl, Bool.true_or, Bool.or_true]

/-- The paths of a command with the option for literal paths. -/
theorem pathspecs_exact {command : Str} {options paths : List Str} {spec : Pathspec}
    (h : spec ∈ (exact root command options paths).pathspecs) :
    ∃ path ∈ paths, spec = .literal path.utf8 := by
  rw [Invocation.pathspecs, literally_exact] at h
  split at h
  · obtain ⟨operand, hoperand, rfl⟩ := List.mem_map.1 h
    obtain ⟨path, hpath, rfl⟩ := List.mem_map.1 hoperand
    exact ⟨path, hpath, rfl⟩
  · cases h

/-- A command that is not about paths has none. -/
theorem pathspecs_other {invocation : Invocation}
    (h : invocation.command ∉ [utf8 "diff", utf8 "add", utf8 "restore"]) :
    invocation.pathspecs = [] := if_neg h

/-- The path of a `diff` is a pattern, or has magic. -/
theorem pathspecs_diff {path : Option Str} {staged : Bool} {spec : Pathspec}
    (h : spec ∈ ((diff path staged).invocation root).pathspecs) : ∃ file ∈ path,
      spec = .pattern file.utf8 ∨ file.head? = some ':' ∧ spec = .magic file.utf8 := by
  rw [Invocation.pathspecs, invocation, literally_plain] at h
  split at h
  · obtain ⟨operand, hoperand, rfl⟩ := List.mem_map.1 h
    obtain ⟨file, hfile, rfl⟩ := List.mem_map.1 hoperand
    refine ⟨file, Option.mem_toList.1 hfile, ?_⟩
    rw [readPathspec, if_neg Bool.false_ne_true]
    split
    · rename_i hhead
      refine .inr ⟨?_, rfl⟩
      cases file with
      | nil =>
        rw [utf8_nil] at hhead
        cases hhead
      | cons c rest =>
        have hc : c.toNat = ':'.toNat := toNat_of_head?_utf8 (by decide) hhead
        exact congrArg some (Char.toNat_inj.1 hc)
    · exact .inl rfl
  · cases h

/-- Every path stays inside, but that of a `diff` behind a colon. -/
theorem inside_of_accepted {request : GitRequest} (h : request.Accepted) {spec : Pathspec}
    (hspec : spec ∈ (request.invocation root).pathspecs) : spec.Inside ∨
      ∃ path staged, request = diff (some path) staged ∧ path.head? = some ':' := by
  cases request with
  | diff path staged =>
    obtain ⟨file, rfl, hpattern | ⟨hcolon, -⟩⟩ := pathspecs_diff hspec
    · rw [hpattern]
      exact .inl (joinOs_of_below (h file rfl))
    · exact .inr ⟨file, staged, rfl, hcolon⟩
  | stage paths =>
    obtain ⟨path, hpath, rfl⟩ := pathspecs_exact hspec
    exact .inl (joinOs_of_below (h.2.2 path hpath))
  | unstage paths =>
    obtain ⟨path, hpath, rfl⟩ := pathspecs_exact hspec
    exact .inl (joinOs_of_below (h.2.2 path hpath))
  | _ =>
    rw [pathspecs_other (by simp only [invocation, plain]; decide +kernel)] at hspec
    cases hspec

end GitRequest

/-- Git is started for a request exactly when the checks let it through. It is started once, with
arguments that it reads as the request: whatever a path, a branch name or a commit message is, it is
no option; and every path leads to places below the directory Git is in, unless it is that of a
`diff` and begins with a colon. -/
theorem request_started (git : Git) (root : OsStr) (request : GitRequest) :
    (request.Accepted ∧ ∃ arguments, request.started git root = [arguments] ∧
        readGit arguments = some (request.invocation root) ∧
        ∀ spec ∈ (request.invocation root).pathspecs, spec.Inside ∨
          ∃ path staged, request = .diff (some path) staged ∧ path.head? = some ':') ∨
      (¬ request.Accepted ∧ request.started git root = []) := by
  by_cases h : request.Accepted
  · obtain ⟨arguments, hstarted, hread⟩ := request.read_started git root h
    exact .inl ⟨h, arguments, hstarted, hread, fun spec hspec =>
      GitRequest.inside_of_accepted h hspec⟩
  · exact .inr ⟨h, request.started_of_refused git root h⟩

-- `:/secret.txt` is accepted, and names a file at the top of the repository.
example : validateRelativePath ":/secret.txt" = .ok () ∧
    readPathspec false (utf8 ":/secret.txt") = .magic (utf8 ":/secret.txt") := by decide +kernel

end LeaveCli.Host
