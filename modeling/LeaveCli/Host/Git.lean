import LeaveCli.Lib.Fields
import LeaveCli.Lib.Traced
import LeaveCli.Lib.UnixPath
import Mathlib.Data.List.Infix

/-!
# Git in the workspace (`apps/leave/src/git.rs`)

`parseStatus` is `parse_status`: the output of `git status --porcelain=v2 --branch -z` is split at
its NUL bytes, and `parseRecords` is the loop over the records. The errors are the texts of
`anyhow`.

The operations start Git in the workspace and emit the arguments they start it with. What Git does
with them is the parameter `Git`.
-/

namespace LeaveCli.Host

open Lib Lib.Str

/-- One porcelain status entry. -/
structure GitStatusEntry where
  path : Str
  /-- Former path for a rename or copy. -/
  originalPath : Option Str
  index : Str
  worktree : Str
  deriving DecidableEq, Repr

/-- Current branch and changed paths. -/
structure GitStatus where
  /-- Checked-out branch, or `HEAD` when detached. -/
  branch : Str
  ahead : UInt32
  behind : UInt32
  entries : List GitStatusEntry
  deriving DecidableEq, Repr

namespace GitStatus

/-- Before the first record. -/
def initial : GitStatus := ⟨"HEAD", 0, 0, []⟩

def push (status : GitStatus) (entry : GitStatusEntry) : GitStatus :=
  { status with entries := status.entries ++ [entry] }

/-- One field of the `branch.ab` header. -/
def readCount (status : GitStatus) (field : Str) : GitStatus :=
  (stripPrefix "+" field).elim
    ((stripPrefix "-" field).elim status fun value =>
      { status with behind := (parseU32 value).getD 0 })
    fun value => { status with ahead := (parseU32 value).getD 0 }

end GitStatus

/-- `char::from` of one byte of the `XY` field, a space where there is none. -/
def statusLetter (xy : Bytes) (i : Nat) : Str := [Char.ofNat (xy.getD i 32).toNat]

/-- The entry of a record for a changed path. -/
def changedEntry (fields : List Str) (originalPath : Option Str) : GitStatusEntry where
  path := fields.getD 8 []
  originalPath := originalPath
  index := statusLetter (fields.getD 1 []).utf8 0
  worktree := statusLetter (fields.getD 1 []).utf8 1

def untrackedEntry (path : Str) : GitStatusEntry := ⟨path, none, "?", "?"⟩

def parseRecords : List Bytes → GitStatus → Except Str GitStatus
  | [], status => .ok status
  | bytes :: records, status =>
    let record := fromUtf8Lossy bytes
    if record = [] then parseRecords records status
    else (stripPrefix "# branch.head " record).elim
      ((stripPrefix "# branch.ab " record).elim
        (if ("1 " : Str) <+: record ∨ ("2 " : Str) <+: record then
          let fields := splitn 9 ' ' record
          if fields.length < 9 then .error "Git returned an invalid status record"
          else if ("2 " : Str) <+: record then
            match records with
            | [] => .error "Git omitted a rename source"
            | source :: records =>
              parseRecords records (status.push (changedEntry fields (some (fromUtf8Lossy source))))
          else parseRecords records (status.push (changedEntry fields none))
        else
          (stripPrefix "? " record).elim (parseRecords records status) fun path =>
            parseRecords records (status.push (untrackedEntry path)))
        fun value => parseRecords records ((splitWhitespace value).foldl .readCount status))
      fun value => parseRecords records { status with branch := value }

/-- Decode what `git status` prints. -/
def parseStatus (bytes : Bytes) : Except Str GitStatus :=
  parseRecords (bytes.splitOn 0) .initial

/-! ## Starting Git -/

/-- `std::process::Output`, with the text of its status. -/
structure ProcessOutput where
  stdout : Bytes
  stderr : Bytes
  success : Bool
  status : Str

/-- What Git does when it is started with these arguments, if it can be. -/
abbrev Git := List OsStr → Option ProcessOutput

def maxGitOutput : Nat := 2 * 1024 * 1024

variable (git : Git) (root : OsStr)

def run (arguments : List Str) : Traced Str (List OsStr) ProcessOutput := do
  let command := Str.utf8 "-C" :: root :: arguments.map Str.utf8
  Traced.emit command
  let output ← Traced.context (git command) "could not start Git"
  Traced.bailIf (output.stdout.length + output.stderr.length > maxGitOutput)
    "Git output exceeded the 2 MiB response limit"
  let message := trim (fromUtf8Lossy output.stderr)
  Traced.bailIf (!output.success)
    (if message = [] then ("Git exited with " : Str) ++ output.status else message)
  pure output

def outputText (output : ProcessOutput) : Except Str Str := do
  let text ← (fromUtf8 output.stdout).elim (.error "Git output was not UTF-8") .ok
  let text ← if trim text = [] ∧ output.stderr ≠ [] then
      (fromUtf8 output.stderr).elim (.error "Git output was not UTF-8") .ok
    else .ok text
  .ok (trim text)

/-! ## Checks -/

def validateRelativePath (value : Str) : Except Str Unit :=
  if value = [] ∨ '\x00' ∈ value ∨ isAbsolute value.utf8 ∨
      (components value.utf8).any (fun component => component = .parentDir ∨ component = .rootDir)
  then .error "Git path must stay within the workspace"
  else .ok ()

def requirePaths (paths : List Str) : Except Str Unit := do
  if paths = [] ∨ paths.length > 500 then .error "select between 1 and 500 paths"
  else paths.forM validateRelativePath

/-- The characters of a branch name; the space of the list in the source is refused after all. -/
def isBranchChar (c : Char) : Bool :=
  (c.isAlphanum || c ∈ ("-_/ .").toList) && c ≠ ' '

def validateBranch (value : Str) : Except Str Unit :=
  if value = [] ∨ value.utf8.length > 255 ∨ value.head? = some '-' ∨
      value.any (fun c => !isBranchChar c) ∨ ("..").toList <:+: value ∨ ("//").toList <:+: value ∨
      value.getLast? = some '/'
  then .error "branch name is not accepted by Leave"
  else .ok ()

/-! ## Operations -/

namespace Git

/-- Read Git status. -/
def status : Traced Str (List OsStr) GitStatus := do
  let output ← run git root ["status", "--porcelain=v2", "--branch", "-z"]
  Traced.lift (parseStatus output.stdout)

/-- Return a bounded unified diff. -/
def diff (path : Option Str) (staged : Bool) : Traced Str (List OsStr) Str := do
  let arguments : List Str := ["diff", "--no-ext-diff", "--no-color"]
  let arguments := if staged then arguments ++ (["--cached"] : List Str) else arguments
  Traced.lift (path.elim (.ok ()) validateRelativePath)
  let arguments := path.elim arguments fun path => arguments ++ (["--", path] : List Str)
  let output ← run git root arguments
  Traced.lift (outputText output)

/-- Stage exact repository-relative paths. -/
def stage (paths : List Str) : Traced Str (List OsStr) Unit := do
  Traced.lift (requirePaths paths)
  let _ ← run git root ((["--literal-pathspecs", "add", "--"] : List Str) ++ paths)

/-- Unstage exact repository-relative paths. -/
def unstage (paths : List Str) : Traced Str (List OsStr) Unit := do
  Traced.lift (requirePaths paths)
  let _ ← run git root ((["--literal-pathspecs", "restore", "--staged", "--"] : List Str) ++ paths)

/-- Create a commit from the current index. -/
def commit (message : Str) : Traced Str (List OsStr) Str := do
  let message := trim message
  Traced.bailIf (message = [] || decide (message.length > 10000))
    "commit message must contain between 1 and 10,000 characters"
  let output ← run git root ["commit", "-m", message]
  Traced.lift (outputText output)

/-- Push with Git's configured upstream and credentials. -/
def push : Traced Str (List OsStr) Str := do
  let output ← run git root ["push"]
  Traced.lift (outputText output)

/-- Switch to an existing branch or create a new one from HEAD. -/
def switchBranch (name : Str) (create : Bool) : Traced Str (List OsStr) Unit := do
  Traced.lift (validateBranch name)
  let arguments : List Str := if create then ["switch", "-c", name] else ["switch", name]
  let _ ← run git root arguments

/-- Return Git's read-only worktree inventory. -/
def worktrees : Traced Str (List OsStr) Str := do
  let output ← run git root ["worktree", "list", "--porcelain"]
  Traced.lift (outputText output)

end Git

/-! ## Branches -/

/-- A local branch. -/
structure GitBranch where
  /-- Full short branch name. -/
  name : Str
  /-- Whether this branch is currently checked out. -/
  current : Bool
  /-- Short upstream name when configured. -/
  upstream : Option Str
  deriving DecidableEq, Repr

/-- `str::lines`: the text up to each line feed, without a carriage return before it, and what is
left if anything is. -/
def lines (text : Str) : List Str :=
  let parts := text.splitOn '\n'
  parts.dropLast.map (fun line => if line.getLast? = some '\r' then line.dropLast else line) ++
    parts.getLast?.toList.filter (· ≠ [])

/-- One line of the listing. -/
def branchRecord (line : Str) : Except Str GitBranch :=
  match line.splitOn '\x00' with
  | head :: name :: rest =>
    .ok ⟨name, head = "*", rest.head?.bind fun value => if value = [] then none else some value⟩
  | _ => .error "Git returned an invalid branch record"

/-- The records of the lines that are not empty. -/
def branchRecords (output : Str) : Except Str (List GitBranch) :=
  ((lines output).filter (· ≠ [])).mapM branchRecord

/-- List local branches with their upstream. -/
def Git.branches : Traced Str (List OsStr) (List GitBranch) := do
  let output ← run git root ["for-each-ref",
    "--format=%(HEAD)%00%(refname:short)%00%(upstream:short)", "refs/heads/"]
  let text ← Traced.lift (outputText output)
  Traced.lift (branchRecords text)

end LeaveCli.Host
