import LeaveCli.Core.ConcurrentWrites
import LeaveCli.Core.Proof.Containment

/-!
# What one turn of a `write_text` call can do

`step_does` is the inversion lemma of `WriteWorld.step`. Beside it, what a turn needs of the file
tree: a write elsewhere leaves the target of a write as it is (`Target.put`), and the second read
finds what the file has (`contentAt_of_readLatest`).
-/

namespace LeaveCli.Core

open Lib

variable {env : FsEnv} {tree after : FileTree} {root : WorkspaceRoot}

theorem compareBase_eq_ok {baseHash content : Str} {path : OsPath} {write : PreparedWrite}
    (h : compareBase env tree baseHash content path = .ok write) :
    write.path = path ∧ write.expectedHash = baseHash := by
  obtain ⟨hbase, h⟩ := ite_error_eq_ok.1 h
  cases h
  refine ⟨rfl, ?_⟩
  apply Str.utf8_injective
  simpa [constantTimeHashEq] using hbase

/-- The re-check finds bytes with the expected hash. -/
theorem recheckWrite_eq_ok {write : PreparedWrite} (h : recheckWrite env tree write = .ok ()) :
    ∃ latest, readLatest tree write.path = .ok latest ∧
      env.contentHash latest = write.expectedHash := by
  obtain ⟨latest, hlatest, h⟩ := bind_eq_ok.1 h
  obtain ⟨hhash, -⟩ := ite_error_eq_ok.1 h
  refine ⟨latest, hlatest, ?_⟩
  apply Str.utf8_injective
  simpa [constantTimeHashEq] using hhash

/-! ## The target of a write -/

/-- The bytes of a file; what is missing has none. -/
def contentAt (tree : FileTree) (path : OsPath) : Bytes :=
  (tree.node path).elim [] fun node =>
    match node with
    | .file content _ => content
    | .directory _ _ => []
    | .symlink _ => []

theorem contentAt_of_file {path : OsPath} {content : Bytes} {permissions : FilePermissions}
    (h : tree.node path = some (.file content permissions)) : contentAt tree path = content := by
  rw [contentAt, h]
  rfl

/-- The second read finds what the file has. -/
theorem contentAt_of_readLatest {directory : OsPath} {name : OsStr} {latest : Bytes}
    (htarget : Target tree root directory name)
    (h : readLatest tree (directory ++ [name]) = .ok latest) :
    contentAt tree (directory ++ [name]) = latest := by
  have hnul := no_nul_of_readLatest h
  unfold readLatest at h
  cases hbarred : tree.barred directory with
  | some error =>
    have hread := FileTree.read_of_unresolved
      (FileTree.resolve_barred htarget.resolved hbarred hnul)
    rw [hread] at h
    have hne := htarget.resolved.barred_ne_notFound
    rw [hbarred] at hne
    cases error with
    | notFound => exact absurd rfl hne
    | _ => cases h
  | none =>
    rcases htarget.free hnul hbarred with hnone | hresolved
    · have hread := FileTree.read_of_unresolved (FileTree.resolve_free htarget.resolved hbarred
        htarget.notDot htarget.notDotDot hnul hnone)
      rw [hread] at h
      rw [contentAt, hnone]
      exact Except.ok.inj h
    · obtain ⟨node, hnode, hlink⟩ := hresolved.exists_node
      cases node with
      | file content permissions =>
        rw [FileTree.read_of_file hresolved hnode] at h
        rw [contentAt_of_file hnode]
        cases hreadable : permissions.readable with
        | true =>
          rw [hreadable] at h
          exact Except.ok.inj h
        | false =>
          rw [hreadable] at h
          cases h
      | directory size access =>
        rw [FileTree.read_of_directory hresolved hnode] at h
        cases h
      | symlink target => cases hlink

section Put

variable {path : OsPath} {bytes : Bytes} {permissions : FilePermissions}

/-- Where a file is put there was no directory to be searched. -/
theorem Put.barred (hput : Put tree after path bytes permissions) {p : OsPath}
    (h : tree.barred p = none) : after.barred p = none := by
  have hne : p ≠ path := by
    intro heq
    obtain ⟨size, access, hnode⟩ := FileTree.directory_of_barred h
    have hbefore := hput.before
    rw [← heq, hnode] at hbefore
    cases hbefore
  rw [FileTree.barred, hput.others p hne]
  exact h

theorem Put.unbarred (hput : Put tree after path bytes permissions) {p : OsPath}
    (h : after.barred p = none) : tree.barred p = none := by
  have hne : p ≠ path := by
    intro heq
    rw [FileTree.barred, heq, hput.now] at h
    cases h
  rw [FileTree.barred, hput.others p hne] at h
  exact h

/-- Paths without links have none after a write. -/
theorem Put.resolved (hput : Put tree after path bytes permissions) {p : OsPath}
    (h : tree.Resolved p) : after.Resolved p := by
  induction h with
  | root => exact .root
  | @entry p name node hpath hbarred hdot hdotDot hnul hnode hlink ih =>
    by_cases heq : p ++ [name] = path
    · exact .entry ih (hput.barred hbarred) hdot hdotDot hnul (heq ▸ hput.now) rfl
    · exact .entry ih (hput.barred hbarred) hdot hdotDot hnul
        ((hput.others _ heq).trans hnode) hlink

theorem Target.put {directory : OsPath} {name : OsStr}
    (htarget : Target tree root directory name)
    (hput : Put tree after path bytes permissions) : Target after root directory name := by
  refine { htarget with resolved := hput.resolved htarget.resolved, free := ?_ }
  intro hnul hbarred
  by_cases heq : directory ++ [name] = path
  · right
    exact .entry (hput.resolved htarget.resolved) hbarred htarget.notDot htarget.notDotDot hnul
      (heq ▸ hput.now) rfl
  · rcases htarget.free hnul (hput.unbarred hbarred) with hnone | hresolved
    · exact .inl ((hput.others _ heq).trans hnone)
    · exact .inr (hput.resolved hresolved)

end Put

/-- A change that leaves the way to a target alone leaves the target. -/
theorem Target.congr {directory : OsPath} {name : OsStr}
    (htarget : Target tree root directory name)
    (hsame : ∀ q, q <+: directory ++ [name] → after.node q = tree.node q) :
    Target after root directory name := by
  have hdirectory : directory <+: directory ++ [name] := List.prefix_append _ _
  refine { htarget with
    resolved := htarget.resolved.congr fun q hq => hsame q (hq.trans hdirectory)
    free := ?_ }
  intro hnul hbarred
  rw [FileTree.barred, hsame directory hdirectory] at hbarred
  rw [hsame _ (List.prefix_refl _)]
  exact (htarget.free hnul hbarred).imp_right fun hresolved => hresolved.congr hsame

/-! ## Turns -/

namespace WriteWorld

/-- The stages that a future goes through without waiting for anything. -/
inductive GoesOn (env : FsEnv) (root : WorkspaceRoot) (tree : FileTree) (c : WriteCall) :
    CallStage → Prop
  | resolve (path : OsPath) (hstage : c.stage = .locked)
    (hpath : root.resolveForWrite tree c.relative = .ok path) :
    GoesOn env root tree c (.resolved path)
  | compare (path : OsPath) (write : PreparedWrite) (hstage : c.stage = .resolved path)
    (hwrite : compareBase env tree c.baseHash c.content path = .ok write) :
    GoesOn env root tree c (.compared write)
  | spawn (write : PreparedWrite) (hstage : c.stage = .compared write) :
    GoesOn env root tree c (.spawned (write.withPermissions tree))

/-- What a step does. -/
inductive Does (env : FsEnv) (root : WorkspaceRoot) (s : WriteWorld) :
    WriteAction → WriteReply → WriteWorld → Prop
  | nothing {action : WriteAction} : Does env root s action .silent s
  | call {action : WriteAction} (c : WriteCall) (hstage : c.stage = .waiting) :
    Does env root s action .silent { s with calls := s.calls ++ [c] }
  | acquire {action : WriteAction} (id : Nat) (c : WriteCall) (hc : s.calls[id]? = some c)
    (hfree : s.writer = none) :
    Does env root s action .silent
      { s.withCall id { c with stage := .locked } with writer := some id }
  | goesOn {action : WriteAction} (id : Nat) (c : WriteCall) (stage : CallStage)
    (hc : s.calls[id]? = some c) (hlive : c.dropped = false)
    (hgoes : GoesOn env root s.tree c stage) :
    Does env root s action .silent (s.withCall id { c with stage })
  | returns {action : WriteAction} (id : Nat) (c : WriteCall)
    (result : Except GuardedFsError FileSnapshot) (hc : s.calls[id]? = some c)
    (hlive : c.dropped = false) (hwaiting : c.stage ≠ .waiting) (hreturned : c.stage ≠ .returned) :
    Does env root s action (.returned result)
      { s.withCall id { c with stage := .returned } with writer := none }
  | check (id : Nat) (temporary : OsStr) (fails : WriteStage → Option IoError) (c : WriteCall)
    (write : PreparedWrite) (hc : s.calls[id]? = some c) (hstage : c.stage = .spawned write)
    (hcheck : recheckWrite env s.tree write = .ok ()) :
    Does env root s (.task id temporary fails) .silent
      (s.withCall id { c with stage := .checked write })
  | fail {action : WriteAction} (id : Nat) (c : WriteCall) (write : PreparedWrite)
    (error : GuardedFsError) (after : FileTree) (hc : s.calls[id]? = some c)
    (hstage : c.stage.write? = some write) (hsame : ∀ q, after.node q = s.tree.node q) :
    Does env root s action .silent
      { s.withCall id { c with stage := .ended write (.error error) } with tree := after }
  | commit {action : WriteAction} (id : Nat) (c : WriteCall) (write : PreparedWrite)
    (after : FileTree) (permissions : FilePermissions) (hc : s.calls[id]? = some c)
    (hstage : c.stage = .checked write)
    (hput : Put s.tree after write.path write.normalized.utf8 permissions) :
    Does env root s action (.committed write.path c.baseHash write.normalized.utf8)
      { s.withCall id { c with stage := .ended write (.ok ()) } with tree := after }
  | drop (id : Nat) (c : WriteCall) (hc : s.calls[id]? = some c) :
    Does env root s (.drop id) .silent { s.withCall id { c with dropped := true } with
      writer := if s.writer = some id then none else s.writer }
  | others (after : FileTree) :
    Does env root s (.others after) .silent { s with tree := after }

variable {s : WriteWorld} {action : WriteAction} {id : Nat} {c : WriteCall}

theorem goesOn_does {result : Except GuardedFsError CallStage} (hc : s.calls[id]? = some c)
    (hlive : c.dropped = false) (hwaiting : c.stage ≠ .waiting) (hreturned : c.stage ≠ .returned)
    (hgoes : ∀ stage, result = .ok stage → GoesOn env root s.tree c stage) :
    Does env root s action (s.goesOn id c result).1 (s.goesOn id c result).2 := by
  cases result with
  | error error => exact .returns id c (.error error) hc hlive hwaiting hreturned
  | ok stage => exact .goesOn id c stage hc hlive (hgoes stage rfl)

theorem poll_does (hc : s.calls[id]? = some c) (hlive : c.dropped = false) :
    Does env root s action (s.poll env root id c).1 (s.poll env root id c).2 := by
  unfold poll
  cases hstage : c.stage with
  | waiting =>
    show Does env root s action (if _ then _ else _ : WriteReply × WriteWorld).1
      (if _ then _ else _ : WriteReply × WriteWorld).2
    split
    · exact .nothing
    · rename_i hfree
      exact .acquire id c hc (by simpa using hfree)
  | locked =>
    apply goesOn_does hc hlive (by simp [hstage]) (by simp [hstage])
    intro stage hgoes
    obtain ⟨path, hpath, rfl⟩ := map_eq_ok.1 hgoes
    exact .resolve path hstage hpath
  | resolved path =>
    apply goesOn_does hc hlive (by simp [hstage]) (by simp [hstage])
    intro stage hgoes
    obtain ⟨write, hwrite, rfl⟩ := map_eq_ok.1 hgoes
    exact .compare path write hstage hwrite
  | compared write =>
    apply goesOn_does hc hlive (by simp [hstage]) (by simp [hstage])
    intro stage hgoes
    rw [← Except.ok.inj hgoes]
    exact .spawn write hstage
  | spawned write => exact .nothing
  | checked write => exact .nothing
  | ended write result =>
    exact .returns id c _ hc hlive (by simp [hstage]) (by simp [hstage])
  | returned => exact .nothing

theorem task_does (temporary : OsStr) (fails : WriteStage → Option IoError)
    (hc : s.calls[id]? = some c) :
    Does env root s (.task id temporary fails) (s.task { env with temporary, fails } id c).1
      (s.task { env with temporary, fails } id c).2 := by
  unfold task
  cases hstage : c.stage with
  | spawned write =>
    show Does env root s _ .silent (s.recheck { env with temporary, fails } id c write).2
    unfold recheck
    cases hcheck : recheckWrite { env with temporary, fails } s.tree write with
    | ok done => exact .check id temporary fails c write hc hstage hcheck
    | error error =>
      have hwrite : c.stage.write? = some write := by rw [hstage]; rfl
      exact .fail id c write error s.tree hc hwrite fun q => rfl
  | checked write =>
    show Does env root s _ (s.commit { env with temporary, fails } id c write).1
      (s.commit { env with temporary, fails } id c write).2
    unfold commit
    rcases commitWrite_cases { env with temporary, fails } s.tree write with
      ⟨error, after, hcommit, hsame⟩ | ⟨after, hcommit, -, hput⟩
    · have hwrite : c.stage.write? = some write := by rw [hstage]; rfl
      rw [hcommit]
      exact .fail id c write error after hc hwrite hsame
    · rw [hcommit]
      exact .commit id c write after _ hc hstage hput
  | _ => exact .nothing

theorem elim_does {f : WriteCall → WriteReply × WriteWorld}
    (h : ∀ c, s.calls[id]? = some c → Does env root s action (f c).1 (f c).2) :
    Does env root s action (s.calls[id]?.elim (.silent, s) f).1
      (s.calls[id]?.elim (.silent, s) f).2 := by
  cases hc : s.calls[id]? with
  | none => exact .nothing
  | some c => exact h c hc

theorem step_does (action : WriteAction) :
    Does env root s action (s.step env root action).1 (s.step env root action).2 := by
  cases action with
  | call relative baseHash content => exact .call _ rfl
  | poll id =>
    apply elim_does
    intro c hc
    split
    · exact .nothing
    · rename_i hlive
      exact poll_does hc (by simpa using hlive)
  | task id temporary fails => exact elim_does fun c hc => task_does temporary fails hc
  | drop id => exact elim_does fun c hc => .drop id c hc
  | others after =>
    show Does env root s _ (if _ then _ else _ : WriteReply × WriteWorld).1
      (if _ then _ else _ : WriteReply × WriteWorld).2
    split
    · exact .others after
    · exact .nothing

end WriteWorld

end LeaveCli.Core
