import LeaveCli.Core.GuardedFs
import LeaveCli.Lib.Run

/-!
# Calls of `write_text` that take turns (`crates/leave-core/src/guarded_fs.rs`)

`WriteWorld` is the machine of the `write_text` calls on the clones of one `GuardedFileSystem`. A
call's future is polled until it returns, and may be dropped before; between two polls any other
call may take its turn. The writer lock belongs to the future. The blocking task that re-checks and
commits does not: once spawned it goes on by itself. Other processes may change the tree as well,
but do not move its directories.
-/

namespace LeaveCli.Core

open Lib

/-! ## Calls -/

/-- Where a call stands. -/
inductive CallStage
  /-- For the writer lock. -/
  | waiting
  | locked
  | resolved (path : OsPath)
  | compared (write : PreparedWrite)
  /-- The blocking task is spawned. -/
  | spawned (write : PreparedWrite)
  /-- It has found what it expects. -/
  | checked (write : PreparedWrite)
  | ended (write : PreparedWrite) (result : Except GuardedFsError Unit)
  | returned

def CallStage.write? : CallStage → Option PreparedWrite
  | .waiting => none
  | .locked => none
  | .resolved _ => none
  | .compared write => some write
  | .spawned write => some write
  | .checked write => some write
  | .ended write _ => some write
  | .returned => none

/-- The write of a task that has not started. -/
def CallStage.spawned? : CallStage → Option PreparedWrite
  | .waiting => none
  | .locked => none
  | .resolved _ => none
  | .compared _ => none
  | .spawned write => some write
  | .checked _ => none
  | .ended _ _ => none
  | .returned => none

structure WriteCall where
  relative : OsStr
  baseHash : Str
  content : Str
  stage : CallStage
  /-- Its future was dropped. -/
  dropped : Bool

structure WriteWorld where
  tree : FileTree
  /-- The call that holds the writer lock. -/
  writer : Option Nat
  calls : List WriteCall

inductive WriteAction
  | call (relative : OsStr) (baseHash content : Str)
  | poll (id : Nat)
  /-- The blocking task of a call goes on; what it draws for its temporary file, and where the disk
  fails it. -/
  | task (id : Nat) (temporary : OsStr) (fails : WriteStage → Option IoError)
  | drop (id : Nat)
  | others (after : FileTree)

inductive WriteReply
  | silent
  /-- A task has put these bytes at the path, for a call with this base. -/
  | committed (path : OsPath) (baseHash : Str) (bytes : Bytes)
  | returned (result : Except GuardedFsError FileSnapshot)
  deriving DecidableEq

namespace WriteWorld

variable (env : FsEnv) (root : WorkspaceRoot) (s : WriteWorld) (id : Nat) (c : WriteCall)

def withCall : WriteWorld := { s with calls := s.calls.set id c }

/-- The future returns, and the lock is free again. -/
def returns (result : Except GuardedFsError FileSnapshot) : WriteReply × WriteWorld :=
  (.returned result, { s.withCall id { c with stage := .returned } with writer := none })

/-- The future goes on to the next stage, or returns an error. -/
def goesOn (result : Except GuardedFsError CallStage) : WriteReply × WriteWorld :=
  match result with
  | .ok stage => (.silent, s.withCall id { c with stage })
  | .error error => s.returns id c (.error error)

/-- The future of a call is polled. -/
def poll : WriteReply × WriteWorld :=
  match c.stage with
  | .waiting =>
    if s.writer.isSome then (.silent, s)
    else (.silent, { s.withCall id { c with stage := .locked } with writer := some id })
  | .locked => s.goesOn id c ((root.resolveForWrite s.tree c.relative).map .resolved)
  | .resolved path =>
    s.goesOn id c ((compareBase env s.tree c.baseHash c.content path).map .compared)
  | .compared write => s.goesOn id c (.ok (.spawned (write.withPermissions s.tree)))
  | .spawned _ => (.silent, s)
  | .checked _ => (.silent, s)
  | .ended write result => s.returns id c (result.bind fun _ => finishWrite env s.tree write)
  | .returned => (.silent, s)

/-- The blocking task re-checks. -/
def recheck (write : PreparedWrite) : WriteReply × WriteWorld :=
  let stage := match recheckWrite env s.tree write with
    | .ok () => .checked write
    | .error error => .ended write (.error error)
  (.silent, s.withCall id { c with stage })

/-- The blocking task commits. -/
def commit (write : PreparedWrite) : WriteReply × WriteWorld :=
  let outcome := commitWrite env s.tree write
  (if outcome.1.toBool then .committed write.path c.baseHash write.normalized.utf8 else .silent,
    { s.withCall id { c with stage := .ended write outcome.1 } with tree := outcome.2 })

def task : WriteReply × WriteWorld :=
  match c.stage with
  | .waiting => (.silent, s)
  | .locked => (.silent, s)
  | .resolved _ => (.silent, s)
  | .compared _ => (.silent, s)
  | .spawned write => s.recheck env id c write
  | .checked write => s.commit env id c write
  | .ended _ _ => (.silent, s)
  | .returned => (.silent, s)

/-- Every directory is a directory still. -/
def keepsDirectories (tree after : FileTree) : Bool :=
  tree.nodes.keys.all fun path =>
    !(tree.node path).any Node.isDirectory || (after.node path).any Node.isDirectory

def step : WriteAction → WriteReply × WriteWorld
  | .call relative baseHash content =>
    (.silent, { s with calls := s.calls ++ [⟨relative, baseHash, content, .waiting, false⟩] })
  | .poll id => s.calls[id]?.elim (.silent, s) fun c =>
    if c.dropped then (.silent, s) else s.poll env root id c
  | .task id temporary fails => s.calls[id]?.elim (.silent, s) fun c =>
    s.task { env with temporary, fails } id c
  | .drop id => s.calls[id]?.elim (.silent, s) fun c =>
    (.silent, { s.withCall id { c with dropped := true } with
      writer := if s.writer = some id then none else s.writer })
  | .others after =>
    if keepsDirectories s.tree after then (.silent, { s with tree := after }) else (.silent, s)

def machine : Machine WriteWorld WriteAction WriteReply where
  step s := s.step env root
  halts _ := false

def start (tree : FileTree) : WriteWorld := ⟨tree, none, []⟩

end WriteWorld

end LeaveCli.Core
