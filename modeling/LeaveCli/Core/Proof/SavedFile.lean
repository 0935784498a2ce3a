import LeaveCli.Core.Proof.Containment
import LeaveCli.Core.Proof.LineEndings
import LeaveCli.Lib.Lookup

/-!
# A saved file is read again

What a write stores and where (`writeText_eq_ok`), and what a read of the same path finds afterwards
(`readText_written_iff`): the path has to end in a name, as the write looks at its last name only,
what is stored has to be within the limit for reading, and the process has to be let read it.
-/

namespace LeaveCli.Core

open Lib

variable {env : FsEnv} {tree after : FileTree} {root : WorkspaceRoot} {relative : OsStr}

/-! ## Paths -/

theorem validateRelative_eq_ok (h : validateRelative relative = .ok ()) :
    relative ≠ [] ∧ isAbsolute relative = false ∧ .parentDir ∉ components relative := by
  obtain ⟨hvalid, h⟩ := ite_error_eq_ok.1 h
  obtain ⟨hinside, -⟩ := ite_error_eq_ok.1 h
  rw [not_or] at hvalid hinside
  exact ⟨hvalid.1, Bool.eq_false_iff.2 hvalid.2, hinside.1⟩

theorem joinOs_of_valid (h : validateRelative relative = .ok ()) (base : OsPath) :
    joinOs base relative = base ++ osComponents relative := by
  obtain ⟨hne, habsolute, -⟩ := validateRelative_eq_ok h
  rw [joinOs, habsolute, if_neg Bool.false_ne_true, if_neg hne]

/-- A path that is written, next to the same path when it is read. -/
theorem resolveForWrite_eq_ok {path : OsPath} (h : root.resolveForWrite tree relative = .ok path) :
    ∃ front directory name, path = directory ++ [name] ∧
      Target tree root directory name ∧ tree.resolve (root.path ++ front) = .ok directory ∧
      validateRelative relative = .ok () ∧
      dotless (osComponents relative) = dotless front ++ [name] := by
  obtain ⟨⟨⟩, hvalid, h'⟩ := bind_eq_ok.1 h
  obtain ⟨name, hname, h'⟩ := bind_eq_ok.1 h'
  obtain ⟨directory, hdirectory, h'⟩ := bind_eq_ok.1 h'
  obtain ⟨hunder, h'⟩ := ite_error_eq_ok.1 h'
  obtain ⟨hpath, -⟩ := checkCandidate_eq_ok h'
  obtain ⟨-, habsolute, hparent⟩ := validateRelative_eq_ok hvalid
  obtain ⟨front, hfront, hdotless⟩ :=
    parent_fileName habsolute hparent (elim_eq_ok.1 hname) root.path
  rw [io_eq_ok, hfront] at hdirectory
  obtain ⟨directory', name', hpath', htarget⟩ := resolveForWrite_target h
  obtain ⟨rfl, hsame⟩ := List.append_inj' (hpath'.symm.trans hpath) rfl
  rw [List.singleton_inj] at hsame
  rw [hsame] at htarget
  exact ⟨front, _, name, hpath, htarget, hdirectory, hvalid, hdotless⟩

/-- A path ends in its last name, or asks for a directory. -/
theorem concat_of_dotless {names front : OsPath} {name : OsStr}
    (h : dotless names = dotless front ++ [name]) :
    (∃ others, names = others ++ [name] ∧ dotless others = dotless front) ∨
      ∃ others, names = others ++ [dot] ∧ dotless others = dotless (front ++ [name]) := by
  have hname : name ≠ dot := by
    have hmem : name ∈ dotless names := h ▸ List.mem_append_right _ (List.mem_singleton_self name)
    simpa using (List.mem_filter.1 hmem).2
  have hone : ∀ x : OsStr, x ≠ dot → dotless [x] = [x] := fun x hx => dotless_cons hx []
  rcases List.eq_nil_or_concat names with rfl | ⟨others, last, rfl⟩
  · simp [dotless] at h
  rw [List.concat_eq_append] at h ⊢
  rw [dotless_append] at h
  by_cases hlast : last = dot
  · right
    refine ⟨others, by rw [hlast], ?_⟩
    rw [hlast, dotless_dot] at h
    rw [dotless_append, hone name hname, ← h]
    exact (List.append_nil _).symm
  · left
    rw [hone last hlast] at h
    obtain ⟨hothers, hsame⟩ := List.append_inj' h rfl
    rw [List.singleton_inj] at hsame
    exact ⟨others, by rw [hsame], hothers⟩

/-- A path to a file ends in a name. -/
theorem resolve_file_iff {base front names d : OsPath} {name : OsStr} {node : Node}
    (hdotless : dotless names = dotless front ++ [name])
    (hfront : tree.resolve (base ++ front) = .ok d) (hbarred : tree.barred d = none)
    (hdotDot : name ≠ dotDot) (hnul : 0 ∉ name) (hnode : tree.node (d ++ [name]) = some node)
    (hfile : node.isFile = true) :
    (names.getLast? ≠ some dot → tree.resolve (base ++ names) = .ok (d ++ [name])) ∧
      (names.getLast? = some dot → ∃ error, tree.resolve (base ++ names) = .error error) := by
  have hdot : name ≠ dot := by
    have hmem : name ∈ dotless names :=
      hdotless ▸ List.mem_append_right _ (List.mem_singleton_self name)
    simpa using (List.mem_filter.1 hmem).2
  have hlink : node.isSymlink = false := by
    cases node with
    | file content permissions => rfl
    | directory size access => cases hfile
    | symlink target => cases hfile
  have hplain : ∀ others, dotless others = dotless front →
      tree.resolve (base ++ others ++ [name]) = .ok (d ++ [name]) := by
    intro others hothers
    refine FileTree.resolve_concat ?_ hbarred hdot hdotDot hnul hnode hlink
    exact FileTree.resolve_dots hfront hbarred (by rw [dotless_append, dotless_append, hothers])
  rcases concat_of_dotless hdotless with ⟨others, rfl, hothers⟩ | ⟨others, rfl, hothers⟩
  · refine ⟨fun _ => ?_, fun h => ?_⟩
    · rw [← List.append_assoc]
      exact hplain others hothers
    · rw [List.getLast?_concat, Option.some.injEq] at h
      exact absurd h hdot
  · refine ⟨fun h => absurd (List.getLast?_concat ..) h, fun _ => ?_⟩
    cases hresolve : tree.resolve (base ++ (others ++ [dot])) with
    | error error => exact ⟨error, rfl⟩
    | ok p =>
      exfalso
      rw [← List.append_assoc] at hresolve
      obtain ⟨hp, hpbarred⟩ := FileTree.resolve_concat_dot hresolve
      have hsame : tree.resolve (base ++ front ++ [name]) = .ok p := by
        refine FileTree.resolve_dots hp hpbarred ?_
        rw [List.append_assoc, dotless_append base (front ++ [name]), dotless_append base others,
          hothers]
      rw [hplain front rfl, Except.ok.injEq] at hsame
      rw [← hsame, FileTree.barred, hnode] at hpbarred
      cases node with
      | file content permissions => cases hpbarred
      | directory size access => cases hfile
      | symlink target => cases hfile

/-! ## Writing -/

/-- What a write found at its target. -/
inductive Found (env : FsEnv) (tree : FileTree) (path : OsPath) :
    Option Bytes → FilePermissions → Prop
  | nothing (hfree : tree.node path = none) : Found env tree path none env.created
  | file {bytes : Bytes} {permissions : FilePermissions}
    (hfile : tree.node path = some (.file bytes permissions))
    (hreadable : permissions.readable = true) : Found env tree path (some bytes) permissions

/-- A write that succeeds has put the content, with the separators of what was there and with its
permissions, at the path it resolves to. -/
structure Saved (env : FsEnv) (tree after : FileTree) (root : WorkspaceRoot) (relative : OsStr)
    (content : Str) (s : FileSnapshot) (path : OsPath) (existing : Option Bytes)
    (permissions : FilePermissions) : Prop where
  path_eq : root.resolveForWrite tree relative = .ok path
  existing_eq : (tree.read path).toOption = existing
  found : Found env tree path existing permissions
  snapshot_eq : s = snapshot env (preserveLineEndings existing content) (some permissions)
  put : Put tree after path s.content.utf8 permissions
  barred : tree.barred path.dropLast = none
  noNul : ∀ name ∈ path.getLast?, 0 ∉ name

theorem Target.found {directory : OsPath} {name : OsStr} {latest : Bytes}
    (htarget : Target tree root directory name)
    (hread : readLatest tree (directory ++ [name]) = .ok latest)
    (hbarred : tree.barred directory = none) :
    Found env tree (directory ++ [name]) (tree.read (directory ++ [name])).toOption
      (((tree.metadata (directory ++ [name])).toOption.bind permissionsOf).getD env.created) := by
  have hnul := no_nul_of_readLatest hread
  rcases htarget.free_or_file hread hbarred with hfree | ⟨bytes, permissions, hfile⟩
  · have hresolve := FileTree.resolve_free htarget.resolved hbarred htarget.notDot
      htarget.notDotDot hnul hfree
    have hmetadata : tree.metadata (directory ++ [name]) = .error .notFound := by
      rw [FileTree.metadata, hresolve]
      rfl
    rw [FileTree.read_of_unresolved hresolve, hmetadata]
    exact .nothing hfree
  · have hresolved : tree.Resolved (directory ++ [name]) := by
      rcases htarget.free hnul hbarred with hnone | hresolved
      · rw [hfile] at hnone
        cases hnone
      · exact hresolved
    have hbytes := FileTree.read_of_file hresolved hfile
    rw [FileTree.metadata_of_resolved hresolved hfile]
    cases hreadable : permissions.readable with
    | true =>
      rw [hreadable, if_pos rfl] at hbytes
      rw [hbytes]
      exact .file hfile hreadable
    | false =>
      rw [hreadable, if_neg Bool.false_ne_true] at hbytes
      rcases readLatest_eq_ok hread with hok | hok <;> rw [hbytes] at hok <;> cases hok

/-- The stages of a write that succeeds. -/
theorem writeText_stages {baseHash content : Str} {s : FileSnapshot}
    (h : writeText env tree root relative baseHash content = (.ok s, after)) :
    ∃ write, prepareWrite env tree root relative baseHash content = .ok write ∧
      recheckWrite env tree write = .ok () ∧ commitWrite env tree write = (.ok (), after) ∧
        finishWrite env after write = .ok s := by
  unfold writeText at h
  cases hprepare : prepareWrite env tree root relative baseHash content with
  | error error =>
    rw [hprepare] at h
    cases h
  | ok write =>
    rw [hprepare] at h
    cases hrecheck : recheckWrite env tree write with
    | error error =>
      simp only [hrecheck] at h
      cases h
    | ok _ =>
      simp only [hrecheck] at h
      cases hcommit : commitWrite env tree write with
      | mk result after' =>
        rw [hcommit] at h
        cases result with
        | error error => cases h
        | ok _ =>
          obtain ⟨hfinish, rfl⟩ := Prod.mk.inj h
          exact ⟨write, rfl, hrecheck, hcommit, hfinish⟩

theorem writeText_eq_ok {baseHash content : Str} {s : FileSnapshot}
    (h : writeText env tree root relative baseHash content = (.ok s, after)) :
    ∃ path existing permissions,
      Saved env tree after root relative content s path existing permissions := by
  obtain ⟨write, hprepare, hrecheck, hcommit, hfinish⟩ := writeText_stages h
  obtain ⟨path, hpath, rfl⟩ := prepareWrite_eq_ok hprepare
  obtain ⟨directory, name, rfl, htarget⟩ := resolveForWrite_target hpath
  obtain ⟨latest, hlatest, -⟩ := bind_eq_ok.1 hrecheck
  obtain ⟨hbarred, -, hput, hfinish'⟩ := htarget.committed rfl hlatest hcommit
  rw [hfinish', Except.ok.injEq] at hfinish
  subst hfinish
  refine ⟨directory ++ [name], _, _, hpath, rfl, htarget.found hlatest hbarred, rfl, hput, ?_, ?_⟩
  · rwa [List.dropLast_concat]
  · rw [List.getLast?_concat]
    rintro name' ⟨⟩
    exact no_nul_of_readLatest hlatest

/-- A new file can take the place of the one at a path. -/
structure Replaceable (env : FsEnv) (tree : FileTree) (path : OsPath) : Prop where
  opens : ∃ file, openAtomic env tree path = .ok file
  fails : ∀ stage, env.fails stage = none

theorem commitWrite_of_replaceable {write : PreparedWrite}
    (hpath : Replaceable env tree write.path)
    (hfile : (tree.node write.path).any Node.isDirectory = false) :
    ∃ after, commitWrite env tree write = (.ok (), after) := by
  obtain ⟨⟨temporary, opened⟩, hopen⟩ := hpath.opens
  have hfails : ((write.permissions.bind fun _ => env.fails .setPermissions).orElse fun _ =>
      (env.fails .write).orElse fun _ => env.fails .commit) = none := by
    rw [hpath.fails .write, hpath.fails .commit, hpath.fails .setPermissions]
    cases write.permissions <;> rfl
  rw [commitWrite, hopen]
  simp only [hfails, Option.elim_none, hfile]
  exact ⟨_, rfl⟩

theorem constantTimeHashEq_self (hash : Str) : constantTimeHashEq hash hash = true :=
  decide_eq_true rfl

/-- The stages after the first one. -/
theorem commitWrite_finishWrite {write : PreparedWrite} {directory : OsPath} {name : OsStr}
    {latest : Bytes} (hpath : write.path = directory ++ [name])
    (htarget : Target tree root directory name) (hlatest : readLatest tree write.path = .ok latest)
    (hreplace : Replaceable env tree write.path) :
    ∃ s after, commitWrite env tree write = (.ok (), after) ∧
      finishWrite env after write = .ok s := by
  obtain ⟨⟨temporary, opened⟩, hopen⟩ := hreplace.opens
  have hopened := (openAtomic_eq_ok hopen).1
  rw [hpath] at hopened
  have hbarred := htarget.barred hopened
  have hfile : (tree.node write.path).any Node.isDirectory = false := by
    rw [hpath] at hlatest ⊢
    rcases htarget.free_or_file hlatest hbarred with hfree | ⟨bytes, permissions, hfile⟩
    · rw [hfree]
      rfl
    · rw [hfile]
      rfl
  obtain ⟨after, hcommit⟩ := commitWrite_of_replaceable hreplace hfile
  exact ⟨_, after, hcommit, (htarget.committed hpath hlatest hcommit).finish⟩

/-- A write goes through where nothing stands in its way. -/
theorem writeText_succeeds {baseHash : Str} {path : OsPath} {bytes : Bytes} (content : Str)
    (hpath : root.resolveForWrite tree relative = .ok path) (hread : tree.read path = .ok bytes)
    (hhash : env.contentHash bytes = baseHash) (hreplace : Replaceable env tree path) :
    ∃ s after, writeText env tree root relative baseHash content = (.ok s, after) := by
  have hprepare : prepareWrite env tree root relative baseHash content =
      .ok ⟨path, baseHash, preserveLineEndings (some bytes) content,
        (tree.metadata path).toOption.bind permissionsOf⟩ := by
    refine bind_eq_ok.2 ⟨path, hpath, bind_eq_ok.2
      ⟨⟨path, baseHash, preserveLineEndings (some bytes) content, none⟩, ?_, rfl⟩⟩
    simp only [compareBase, hread, Except.toOption, Option.getD_some, hhash,
      constantTimeHashEq_self, Bool.not_true, Bool.false_eq_true, if_false]
  obtain ⟨directory, name, hname, htarget⟩ := resolveForWrite_target hpath
  have hlatest : readLatest tree path = .ok bytes := by
    rw [readLatest, hread]
  rw [writeText, hprepare]
  generalize hwrite : PreparedWrite.mk path baseHash _ _ = write
  have hrecheck : recheckWrite env tree write = .ok () := by
    rw [← hwrite]
    refine bind_eq_ok.2 ⟨bytes, hlatest, ?_⟩
    simp only [hhash, constantTimeHashEq_self, Bool.not_true, Bool.false_eq_true, if_false]
  have htakes : write.path = path := by rw [← hwrite]
  rw [← htakes] at hname hlatest hreplace
  obtain ⟨s, after, hcommit, hfinish⟩ := commitWrite_finishWrite hname htarget hlatest hreplace
  exact ⟨s, after, by simp only [hrecheck, hcommit, hfinish]⟩

/-! ## Reading what was written -/

section Saved

variable {content : Str} {s : FileSnapshot} {path : OsPath} {existing : Option Bytes}
  {permissions : FilePermissions}

theorem Found.barred (h : Found env tree path existing permissions) :
    tree.barred path ≠ none := by
  cases h with
  | nothing hfree => simp [FileTree.barred, hfree]
  | file hfile hreadable => simp [FileTree.barred, hfile]

theorem Found.noLink (h : Found env tree path existing permissions) {node : Node}
    (hnode : tree.node path = some node) : node.isSymlink = false := by
  cases h with
  | nothing hfree =>
    rw [hfree] at hnode
    cases hnode
  | file hfile hreadable =>
    rw [hfile] at hnode
    cases hnode
    rfl

/-- Where the path of a write leads afterwards. -/
theorem Saved.resolveExisting
    (h : Saved env tree after root relative content s path existing permissions) :
    ((osComponents relative).getLast? ≠ some dot →
        root.resolveExisting after relative = .ok path) ∧
      ((osComponents relative).getLast? = some dot →
        ∀ p, root.resolveExisting after relative ≠ .ok p) := by
  obtain ⟨front, directory, name, rfl, htarget, hfront, hvalid, hdotless⟩ :=
    resolveForWrite_eq_ok h.path_eq
  have hbarred : tree.barred directory = none := by
    have hparent := h.barred
    rwa [List.dropLast_concat] at hparent
  have hnul : 0 ∉ name := h.noNul name (by rw [List.getLast?_concat]; rfl)
  have hne : directory ≠ directory ++ [name] := by simp
  have hfront' := FileTree.resolve_put hfront hbarred h.put.others h.found.barred
    fun node hnode => h.found.noLink hnode
  have hbarred' : after.barred directory = none := by
    rwa [FileTree.barred, h.put.others directory hne]
  obtain ⟨hname, hdot⟩ := resolve_file_iff hdotless hfront' hbarred' htarget.notDotDot hnul
    h.put.now rfl
  refine ⟨fun hlast => ?_, fun hlast p hp => ?_⟩
  · rw [resolveExisting_eq_ok, joinOs_of_valid hvalid]
    exact ⟨hvalid, hname hlast, htarget.under.trans (List.prefix_append _ _)⟩
  · obtain ⟨-, hresolve, -⟩ := resolveExisting_eq_ok.1 hp
    obtain ⟨error, herror⟩ := hdot hlast
    rw [joinOs_of_valid hvalid, herror] at hresolve
    cases hresolve

/-- What was written is read when the path ends in a name, the process may read the file and what is
stored is within the limit. -/
theorem Saved.readText_iff
    (h : Saved env tree after root relative content s path existing permissions) :
    readText env after root relative = .ok s ↔ (osComponents relative).getLast? ≠ some dot ∧
      permissions.readable = true ∧ s.content.utf8.length ≤ 2 * 1024 * 1024 := by
  obtain ⟨hname, hdot⟩ := h.resolveExisting
  rw [readText_eq_ok]
  constructor
  · intro hread
    obtain ⟨p, bytes, permissions', content', hp, hnode, hreadable, hsize, -, -⟩ := hread
    have hlast : (osComponents relative).getLast? ≠ some dot := fun hlast => hdot hlast p hp
    rw [hname hlast, Except.ok.injEq] at hp
    rw [← hp, h.put.now, Option.some.injEq, Node.file.injEq] at hnode
    obtain ⟨rfl, rfl⟩ := hnode
    exact ⟨hlast, hreadable, hsize⟩
  · intro hcond
    obtain ⟨hlast, hreadable, hsize⟩ := hcond
    refine ⟨path, _, permissions, s.content, hname hlast, h.put.now, hreadable, hsize,
      Str.fromUtf8_utf8 _, ?_⟩
    rw [h.snapshot_eq]
    rfl

/-- How much is stored. -/
theorem Saved.size_le_iff
    (h : Saved env tree after root relative content s path existing permissions) {limit : Nat}
    (hlimit : content.utf8.length ≤ limit) : s.content.utf8.length ≤ limit ↔
      (crlf <:+: existing.getD [] → content.utf8.length + bareLfs content ≤ limit) := by
  rw [h.snapshot_eq]
  show (preserveLineEndings existing content).utf8.length ≤ limit ↔ _
  have hshort := length_toLf content
  cases existing with
  | none =>
    have hnot : ¬ crlf <:+: ([] : Bytes) := by decide
    show (toLf content).utf8.length ≤ limit ↔ _
    exact iff_of_true (hshort.trans hlimit) fun hin => absurd hin hnot
  | some bytes =>
    rw [Option.getD_some]
    by_cases hcrlf : crlf <:+: bytes
    · rw [preserveLineEndings_crlf hcrlf, length_toCrlf_toLf]
      exact ⟨fun hle _ => hle, fun hle => hle hcrlf⟩
    · rw [preserveLineEndings_lf hcrlf]
      exact iff_of_true (hshort.trans hlimit) fun hin => absurd hin hcrlf

end Saved

end LeaveCli.Core
