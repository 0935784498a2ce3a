import LeaveCli.Lib.Lossy
import LeaveCli.Lib.UnixPath
import Mathlib.Data.List.Sort
import Mathlib.Data.List.Infix
import Mathlib.Data.List.Lex
import Mathlib.Data.Char

/-!
# Guarded file operations (`crates/leave-core/src/guarded_fs.rs`)

The operations of `GuardedFileSystem` on one file tree. `write_text` is its four stages, so that
several calls can take turns: `prepareWrite` under the writer lock, `recheckWrite` and `commitWrite`
in the blocking task, `finishWrite` after it. `FsEnv` stands for what is not in the tree: `blake3`,
Unicode's lower case, the permissions of a new file, and for `atomic_write_file` the name it draws
and where the disk fails it. A canonical path is the list of its names.
-/

namespace LeaveCli.Core

open Lib

/-- Errors which prevent a guarded file operation. -/
inductive GuardedFsError
  | invalidPath
  | notDirectory
  | outsideWorkspace
  | symlinkWriteDenied
  | notUtf8
  | tooLarge
  | conflict (currentHash : Str)
  | io (error : IoError)
  deriving DecidableEq, Repr

def io {α : Type} (result : Except IoError α) : Except GuardedFsError α := result.mapError .io

/-! ## Workspace roots -/

/-- A canonical workspace root registered by the host owner. -/
structure WorkspaceRoot where
  path : OsPath

/-- Register an existing directory as a workspace boundary. -/
def WorkspaceRoot.register (tree : FileTree) (path : OsPath) :
    Except GuardedFsError WorkspaceRoot := do
  let canonical ← io (tree.resolve path)
  let metadata ← io (tree.metadata canonical)
  if !metadata.isDirectory then .error .notDirectory else .ok ⟨canonical⟩

def validateRelative (path : OsStr) : Except GuardedFsError Unit :=
  if path = [] ∨ isAbsolute path then .error .invalidPath
  else if .parentDir ∈ components path ∨ .rootDir ∈ components path then .error .outsideWorkspace
  else .ok ()

def WorkspaceRoot.resolveExisting (root : WorkspaceRoot) (tree : FileTree) (relative : OsStr) :
    Except GuardedFsError OsPath := do
  validateRelative relative
  let canonical ← io (tree.resolve (joinOs root.path relative))
  if root.path <+: canonical then .ok canonical else .error .outsideWorkspace

/-- The directory that is listed: the empty path is the root. -/
def WorkspaceRoot.directory (root : WorkspaceRoot) (tree : FileTree) (relative : OsStr) :
    Except GuardedFsError OsPath :=
  if relative = [] then .ok root.path else root.resolveExisting tree relative

/-- A node that is there already has to be what its path resolves to. -/
def WorkspaceRoot.checkCandidate (root : WorkspaceRoot) (tree : FileTree) (candidate : OsPath) :
    Except GuardedFsError OsPath :=
  if (tree.symlinkMetadata candidate).toBool then do
    let canonical ← io (tree.resolve candidate)
    if ¬ root.path <+: canonical ∨ canonical ≠ candidate then .error .symlinkWriteDenied
    else .ok candidate
  else .ok candidate

def WorkspaceRoot.resolveForWrite (root : WorkspaceRoot) (tree : FileTree) (relative : OsStr) :
    Except GuardedFsError OsPath := do
  validateRelative relative
  let name ← (fileName relative).elim (.error .invalidPath) .ok
  let canonicalParent ← io (tree.resolve (joinOs root.path ((parent relative).getD [])))
  if ¬ root.path <+: canonicalParent then .error .outsideWorkspace
  else root.checkCandidate tree (canonicalParent ++ [name])

/-! ## What the operations return -/

/-- Line-ending convention observed in a text file. -/
inductive LineEnding
  | lf
  | crlf
  deriving DecidableEq, Repr

/-- A text file and its optimistic-concurrency hash. -/
structure FileSnapshot where
  content : Str
  hash : Str
  size : Nat
  lineEnding : LineEnding
  mode : Option Nat
  deriving DecidableEq, Repr

/-- One immediate child returned by a guarded directory listing. -/
structure DirectoryEntry where
  path : Str
  name : Str
  isDirectory : Bool
  isSymlink : Bool
  size : Nat
  deriving DecidableEq, Repr

/-- The stages of an atomic write at which the disk can fail. -/
inductive WriteStage
  | open_
  | setPermissions
  | write
  | commit
  deriving DecidableEq

structure FsEnv where
  /-- The hexadecimal `blake3` hash. -/
  contentHash : Bytes → Str
  /-- `str::to_lowercase`. -/
  lowercase : Str → Str
  /-- What a new file gets. -/
  created : FilePermissions
  /-- The name of the temporary file. -/
  temporary : OsStr
  fails : WriteStage → Option IoError

/-- The permissions of a file. -/
def permissionsOf : Node → Option FilePermissions
  | .file _ permissions => some permissions
  | .directory _ _ => none
  | .symlink _ => none

/-! ## Line endings -/

def crlf : Bytes := [13, 10]

def detectLineEnding (bytes : Bytes) : LineEnding := if crlf <:+: bytes then .crlf else .lf

/-- `content.replace("\r\n", "\n")` -/
def toLf : Str → Str
  | [] => []
  | '\r' :: '\n' :: rest => '\n' :: toLf rest
  | c :: rest => c :: toLf rest

/-- `lf.replace('\n', "\r\n")` -/
def toCrlf (lf : Str) : Str := lf.flatMap fun c => if c = '\n' then ['\r', '\n'] else [c]

def preserveLineEndings (existing : Option Bytes) (content : Str) : Str :=
  if existing.any fun bytes => decide (crlf <:+: bytes) then toCrlf (toLf content)
  else toLf content

/-! ## Reading -/

/-- `ct_eq` on the bytes of two hashes. -/
def constantTimeHashEq (left right : Str) : Bool := left.utf8 = right.utf8

def pathForApi (path : OsStr) : Except GuardedFsError Str :=
  (Str.fromUtf8 path).elim (.error .invalidPath) fun value =>
    .ok (value.map fun c => if c = '\\' then '/' else c)

variable (env : FsEnv) (tree : FileTree) (root : WorkspaceRoot) (relative : OsStr)

def snapshot (content : Str) (permissions : Option FilePermissions) : FileSnapshot where
  content := content
  hash := env.contentHash content.utf8
  size := content.utf8.length
  lineEnding := detectLineEnding content.utf8
  mode := permissions.map (·.mode)

/-- Read a UTF-8 file and calculate its content hash. -/
def readText : Except GuardedFsError FileSnapshot := do
  let path ← root.resolveExisting tree relative
  let bytes ← io (tree.read path)
  if bytes.length > 2 * 1024 * 1024 then .error .tooLarge
  else do
    let content ← (Str.fromUtf8 bytes).elim (.error .notUtf8) .ok
    let metadata ← io (tree.metadata path)
    .ok (snapshot env content (permissionsOf metadata))

/-- One entry of a listing: the node itself, not what a link leads to. -/
def directoryEntry (osName : OsStr) (metadata : Node) : Except GuardedFsError DirectoryEntry :=
  let name := Str.fromUtf8Lossy osName
  let child := if relative = [] then name.utf8 else joinPath relative name.utf8
  (pathForApi child).map fun path =>
    ⟨path, name, metadata.isDirectory, metadata.isSymlink, metadata.size⟩

/-- The order of a listing: directories first, then by name. -/
def DirectoryEntry.precedes (left right : DirectoryEntry) : Bool :=
  if left.isDirectory ≠ right.isDirectory then left.isDirectory
  else if env.lowercase left.name ≠ env.lowercase right.name then
    env.lowercase left.name < env.lowercase right.name
  else left.name ≤ right.name

/-- List one directory without following child symlinks. -/
def listDirectory : Except GuardedFsError (List DirectoryEntry) := do
  let directory ← root.directory tree relative
  let metadata ← io (tree.metadata directory)
  if !metadata.isDirectory then .error .notDirectory
  else do
    let names ← io (tree.readDir directory)
    let entries ← names.mapM fun osName => do
      let metadata ← io (tree.symlinkMetadata (directory ++ [osName]))
      directoryEntry relative osName metadata
    .ok (entries.insertionSort fun left right => left.precedes env right)

/-! ## Writing -/

/-- What the first stage of a write hands on. -/
structure PreparedWrite where
  path : OsPath
  expectedHash : Str
  normalized : Str
  permissions : Option FilePermissions

/-- What the file has is compared with the base. -/
def compareBase (baseHash content : Str) (path : OsPath) :
    Except GuardedFsError PreparedWrite :=
  let existing := (tree.read path).toOption
  let currentHash := env.contentHash (existing.getD [])
  if !constantTimeHashEq currentHash baseHash then .error (.conflict currentHash)
  else .ok ⟨path, currentHash, preserveLineEndings existing content, none⟩

/-- The permissions that the file has are kept for the new one. -/
def PreparedWrite.withPermissions (write : PreparedWrite) : PreparedWrite :=
  { write with permissions := (tree.metadata write.path).toOption.bind permissionsOf }

def prepareWrite (baseHash content : Str) : Except GuardedFsError PreparedWrite := do
  let path ← root.resolveForWrite tree relative
  let write ← compareBase env tree baseHash content path
  pure (write.withPermissions tree)

/-- What the blocking task finds at the path; a file that is missing is empty. -/
def readLatest (path : OsPath) : Except GuardedFsError Bytes :=
  match tree.read path with
  | .ok bytes => .ok bytes
  | .error .notFound => .ok []
  | .error error => .error (.io error)

def recheckWrite (write : PreparedWrite) : Except GuardedFsError Unit := do
  let latest ← readLatest tree write.path
  let latestHash := env.contentHash latest
  if !constantTimeHashEq latestHash write.expectedHash then .error (.conflict latestHash)
  else .ok ()

/-- `AtomicWriteFile::open`: a new temporary file beside the one to be written. -/
def openAtomic (path : OsPath) : Except IoError (OsPath × FileTree) := do
  let directory ← tree.resolve path.dropLast
  match tree.node directory with
  | some (.directory _ access) =>
    let temporary := directory ++ [env.temporary]
    if !(access.search && access.write) then .error .permissionDenied
    else if (tree.node temporary).isSome then .error .alreadyExists
    else
      (env.fails .open_).elim (.ok (temporary, tree.insert temporary (.file [] env.created)))
        .error
  | some (.file _ _) => .error .notADirectory
  | some (.symlink _) => .error .notADirectory
  | none => .error .notFound

/-- The rest of an atomic write. A temporary file that is not committed is removed. -/
def commitWrite (write : PreparedWrite) : Except GuardedFsError Unit × FileTree :=
  match openAtomic env tree write.path with
  | .error error => (.error (.io error), tree)
  | .ok (temporary, opened) =>
    let closed := opened.erase temporary
    let failure := (write.permissions.bind fun _ => env.fails .setPermissions).orElse fun _ =>
      (env.fails .write).orElse fun _ => env.fails .commit
    failure.elim
      (if (tree.node write.path).any Node.isDirectory then (.error (.io .isADirectory), closed)
      else (.ok (), closed.insert write.path
        (.file write.normalized.utf8 (write.permissions.getD env.created))))
      fun error => (.error (.io error), closed)

def finishWrite (write : PreparedWrite) : Except GuardedFsError FileSnapshot := do
  let metadata ← io (tree.metadata write.path)
  .ok (snapshot env write.normalized (permissionsOf metadata))

/-- Atomically write text when the caller still has the current base version. -/
def writeText (baseHash content : Str) : Except GuardedFsError FileSnapshot × FileTree :=
  match prepareWrite env tree root relative baseHash content with
  | .error error => (.error error, tree)
  | .ok write =>
    match recheckWrite env tree write with
    | .error error => (.error error, tree)
    | .ok () =>
      match commitWrite env tree write with
      | (.error error, after) => (.error error, after)
      | (.ok (), after) => (finishWrite env after write, after)

end LeaveCli.Core
