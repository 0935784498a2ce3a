import LeaveCli.Core.GuardedFs
import LeaveCli.Lib.Results

/-!
# Guarded operations stay in the workspace

`Inside` are the fully resolved paths under the root. What `read_text` and `list_directory` return
comes from a node inside (`readText_inside`, `listDirectory_inside`). A write either leaves every
node as it is or puts one file inside, where there was a file or nothing (`writeText_cases`): past
`resolveForWrite` and the second read, the target's directory is resolved and its last name is no
link (`prepared_free`), and an atomic write changes nothing but its target (`commitWrite_cases`).
-/

namespace LeaveCli.Core

open Lib

/-- A path that is fully resolved and under the root. -/
structure Inside (tree : FileTree) (root : WorkspaceRoot) (path : OsPath) : Prop where
  resolved : tree.resolve path = .ok path
  under : root.path <+: path

variable {env : FsEnv} {tree : FileTree} {root : WorkspaceRoot} {relative : OsStr}

theorem io_eq_ok {α : Type} {result : Except IoError α} {a : α} :
    io result = .ok a ↔ result = .ok a :=
  mapError_eq_ok

/-! ## Reading -/

theorem resolveExisting_eq_ok {path : OsPath} :
    root.resolveExisting tree relative = .ok path ↔ validateRelative relative = .ok () ∧
      tree.resolve (joinOs root.path relative) = .ok path ∧ root.path <+: path := by
  constructor
  · intro h
    obtain ⟨⟨⟩, hvalid, h⟩ := bind_eq_ok.1 h
    obtain ⟨canonical, hresolve, h⟩ := bind_eq_ok.1 h
    split at h
    · rename_i hunder
      cases h
      exact ⟨hvalid, io_eq_ok.1 hresolve, hunder⟩
    · cases h
  · intro h
    obtain ⟨hvalid, hresolve, hunder⟩ := h
    exact bind_eq_ok.2 ⟨(), hvalid, bind_eq_ok.2 ⟨path, io_eq_ok.2 hresolve, if_pos hunder⟩⟩

theorem resolveExisting_inside {path : OsPath}
    (h : root.resolveExisting tree relative = .ok path) :
    tree.resolve (joinOs root.path relative) = .ok path ∧ Inside tree root path := by
  obtain ⟨-, hresolve, hunder⟩ := resolveExisting_eq_ok.1 h
  exact ⟨hresolve, FileTree.resolve_resolve hresolve, hunder⟩

theorem readText_eq_ok {s : FileSnapshot} : readText env tree root relative = .ok s ↔
    ∃ path bytes permissions content, root.resolveExisting tree relative = .ok path ∧
      tree.node path = some (.file bytes permissions) ∧ permissions.readable = true ∧
        bytes.length ≤ 2 * 1024 * 1024 ∧ Str.fromUtf8 bytes = some content ∧
          s = snapshot env content (some permissions) := by
  constructor
  · intro h
    obtain ⟨path, hpath, h⟩ := bind_eq_ok.1 h
    obtain ⟨bytes, hread, h⟩ := bind_eq_ok.1 h
    obtain ⟨hsize, h⟩ := ite_error_eq_ok.1 h
    obtain ⟨content, hcontent, h⟩ := bind_eq_ok.1 h
    obtain ⟨metadata, hmetadata, h⟩ := bind_eq_ok.1 h
    rw [io_eq_ok] at hread hmetadata
    obtain ⟨-, hinside⟩ := resolveExisting_inside hpath
    obtain ⟨p, permissions, hp, hnode, hreadable⟩ := FileTree.read_eq_ok.1 hread
    rw [hinside.resolved, Except.ok.injEq] at hp
    subst hp
    rw [FileTree.metadata_of_resolved (FileTree.resolved_of_resolve hinside.resolved) hnode,
      Except.ok.injEq] at hmetadata
    subst hmetadata
    cases h
    exact ⟨path, bytes, permissions, content, hpath, hnode, hreadable, Nat.not_lt.1 hsize,
      elim_eq_ok.1 hcontent, rfl⟩
  · intro h
    obtain ⟨path, bytes, permissions, content, hpath, hnode, hreadable, hsize, hcontent, rfl⟩ := h
    have hresolved := FileTree.resolved_of_resolve (resolveExisting_inside hpath).2.resolved
    have hread : tree.read path = .ok bytes := by
      rw [FileTree.read_of_file hresolved hnode, hreadable, if_pos rfl]
    refine bind_eq_ok.2 ⟨path, hpath, bind_eq_ok.2 ⟨bytes, io_eq_ok.2 hread, ?_⟩⟩
    refine ite_error_eq_ok.2 ⟨Nat.not_lt.2 hsize, bind_eq_ok.2 ⟨content, elim_eq_ok.2 hcontent, ?_⟩⟩
    exact bind_eq_ok.2 ⟨_, io_eq_ok.2 (FileTree.metadata_of_resolved hresolved hnode), rfl⟩

theorem readText_inside {s : FileSnapshot} (h : readText env tree root relative = .ok s) :
    ∃ path bytes permissions content, tree.resolve (joinOs root.path relative) = .ok path ∧
      Inside tree root path ∧ tree.node path = some (.file bytes permissions) ∧
        Str.fromUtf8 bytes = some content ∧ s = snapshot env content (some permissions) := by
  obtain ⟨path, bytes, permissions, content, hpath, hnode, -, -, hcontent, hsnapshot⟩ :=
    readText_eq_ok.1 h
  obtain ⟨hresolve, hinside⟩ := resolveExisting_inside hpath
  exact ⟨path, bytes, permissions, content, hresolve, hinside, hnode, hcontent, hsnapshot⟩

theorem listDirectory_inside (hroot : tree.resolve root.path = .ok root.path)
    {entries : List DirectoryEntry} (h : listDirectory env tree root relative = .ok entries) :
    ∃ directory size access, Inside tree root directory ∧
      tree.node directory = some (.directory size access) ∧
        ∀ entry ∈ entries, ∃ osName node, tree.node (directory ++ [osName]) = some node ∧
          directoryEntry relative osName node = .ok entry := by
  obtain ⟨directory, hdirectory, h⟩ := bind_eq_ok.1 h
  obtain ⟨metadata, -, h⟩ := bind_eq_ok.1 h
  obtain ⟨-, h⟩ := ite_error_eq_ok.1 h
  obtain ⟨names, hnames, h⟩ := bind_eq_ok.1 h
  obtain ⟨listed, hlisted, h⟩ := bind_eq_ok.1 h
  cases h
  have hinside : Inside tree root directory := by
    unfold WorkspaceRoot.directory at hdirectory
    split at hdirectory
    · cases hdirectory
      exact ⟨hroot, List.prefix_refl _⟩
    · exact (resolveExisting_inside hdirectory).2
  obtain ⟨p, size, access, hp, hnode, hmem⟩ := FileTree.readDir_eq_ok (io_eq_ok.1 hnames)
  rw [hinside.resolved] at hp
  cases hp
  refine ⟨directory, size, access, hinside, hnode, fun entry hentry => ?_⟩
  rw [List.mem_insertionSort] at hentry
  obtain ⟨osName, hosName, hentry⟩ := exists_of_mapM_eq_ok hlisted entry hentry
  obtain ⟨metadata, hmetadata, hentry⟩ := bind_eq_ok.1 hentry
  rw [io_eq_ok] at hmetadata
  obtain ⟨hdot, hdotDot, hnul⟩ := FileTree.isName_spec ((hmem osName).1 hosName).1
  obtain ⟨-, hchild⟩ :=
    (FileTree.symlinkMetadata_concat hinside.resolved hdot hdotDot hnul).1 hmetadata
  exact ⟨osName, metadata, hchild, hentry⟩

/-! ## Writing -/

/-- Where a write may go: a name in a resolved directory under the root. If a node was found there,
it is what the path resolves to. -/
structure Target (tree : FileTree) (root : WorkspaceRoot) (directory : OsPath) (name : OsStr) :
    Prop where
  resolved : tree.Resolved directory
  under : root.path <+: directory
  notDot : name ≠ dot
  notDotDot : name ≠ dotDot
  free : 0 ∉ name → tree.barred directory = none →
    tree.node (directory ++ [name]) = none ∨ tree.Resolved (directory ++ [name])

theorem checkCandidate_eq_ok {path candidate : OsPath}
    (h : root.checkCandidate tree candidate = .ok path) : path = candidate ∧
      ((tree.symlinkMetadata candidate).toBool = false ∨ tree.Resolved candidate) := by
  unfold WorkspaceRoot.checkCandidate at h
  split at h
  · obtain ⟨canonical, hcanonical, h⟩ := bind_eq_ok.1 h
    obtain ⟨hsame, h⟩ := ite_error_eq_ok.1 h
    rw [not_or, not_not, not_not] at hsame
    rw [io_eq_ok, hsame.2] at hcanonical
    exact ⟨(Except.ok.inj h).symm, .inr (FileTree.resolved_of_resolve hcanonical)⟩
  · rename_i hmissing
    exact ⟨(Except.ok.inj h).symm, .inl (by simpa using hmissing)⟩

theorem resolveForWrite_target {path : OsPath}
    (h : root.resolveForWrite tree relative = .ok path) :
    ∃ directory name, path = directory ++ [name] ∧ Target tree root directory name := by
  obtain ⟨-, -, h⟩ := bind_eq_ok.1 h
  obtain ⟨name, hname, h⟩ := bind_eq_ok.1 h
  obtain ⟨directory, hdirectory, h⟩ := bind_eq_ok.1 h
  obtain ⟨hunder, h⟩ := ite_error_eq_ok.1 h
  obtain ⟨hpath, hcandidate⟩ := checkCandidate_eq_ok h
  obtain ⟨-, hdot, hdotDot⟩ := mem_components_normal (fileName_eq_some (elim_eq_ok.1 hname))
  have hresolved := FileTree.resolved_of_resolve (io_eq_ok.1 hdirectory)
  refine ⟨directory, name, hpath, hresolved, not_not.1 hunder, hdot, hdotDot, ?_⟩
  intro hnul hbarred
  rcases hcandidate with hmissing | hthere
  · left
    cases hnode : tree.node (directory ++ [name]) with
    | none => rfl
    | some node =>
      have hself := FileTree.resolve_of_resolved hresolved
      have hfound := (FileTree.symlinkMetadata_concat hself hdot hdotDot hnul).2 ⟨hbarred, hnode⟩
      rw [hfound] at hmissing
      cases hmissing
  · exact .inr hthere

/-- What the first stage of a write hands on. -/
theorem prepareWrite_eq_ok {baseHash content : Str} {write : PreparedWrite}
    (h : prepareWrite env tree root relative baseHash content = .ok write) :
    ∃ path, root.resolveForWrite tree relative = .ok path ∧
      write = ⟨path, env.contentHash ((tree.read path).toOption.getD []),
        preserveLineEndings (tree.read path).toOption content,
        (tree.metadata path).toOption.bind permissionsOf⟩ := by
  obtain ⟨path, hpath, h⟩ := bind_eq_ok.1 h
  obtain ⟨compared, hcompared, h⟩ := bind_eq_ok.1 h
  obtain ⟨-, hcompared⟩ := ite_error_eq_ok.1 hcompared
  cases hcompared
  cases h
  exact ⟨path, hpath, rfl⟩

theorem prepareWrite_target {baseHash content : Str} {write : PreparedWrite}
    (h : prepareWrite env tree root relative baseHash content = .ok write) :
    ∃ directory name, write.path = directory ++ [name] ∧ Target tree root directory name := by
  obtain ⟨path, hpath, rfl⟩ := prepareWrite_eq_ok h
  exact resolveForWrite_target hpath

theorem Target.barred {directory : OsPath} {name : OsStr}
    (htarget : Target tree root directory name)
    (hopened : ∃ d, tree.resolve (directory ++ [name]).dropLast = .ok d ∧ tree.barred d = none) :
    tree.barred directory = none := by
  obtain ⟨d, hd, hbarred⟩ := hopened
  rw [List.dropLast_concat, FileTree.resolve_of_resolved htarget.resolved, Except.ok.injEq] at hd
  rwa [hd]

/-- What the second read accepts: a file, or nothing. -/
theorem readLatest_eq_ok {path : OsPath} {latest : Bytes} (h : readLatest tree path = .ok latest) :
    tree.read path = .ok latest ∨ tree.read path = .error .notFound := by
  unfold readLatest at h
  split at h
  · rename_i hread
    left
    rw [hread, Except.ok.inj h]
  · rename_i hread
    exact .inr hread
  · cases h

theorem no_nul_of_readLatest {directory : OsPath} {name : OsStr} {latest : Bytes}
    (h : readLatest tree (directory ++ [name]) = .ok latest) : 0 ∉ name := by
  intro hnul
  rcases readLatest_eq_ok h with hread | hread <;>
    rw [FileTree.read_of_nul hnul] at hread <;> cases hread

/-- A write that got past the second read goes to a free name or to a file. -/
theorem Target.free_or_file {directory : OsPath} {name : OsStr} {latest : Bytes}
    (htarget : Target tree root directory name)
    (hread : readLatest tree (directory ++ [name]) = .ok latest)
    (hbarred : tree.barred directory = none) :
    tree.node (directory ++ [name]) = none ∨
      ∃ bytes permissions, tree.node (directory ++ [name]) = some (.file bytes permissions) := by
  rcases htarget.free (no_nul_of_readLatest hread) hbarred with hnone | hresolved
  · exact .inl hnone
  obtain ⟨node, hnode, hlink⟩ := hresolved.exists_node
  cases node with
  | file bytes permissions => exact .inr ⟨bytes, permissions, hnode⟩
  | directory size access =>
    rcases readLatest_eq_ok hread with hread | hread <;>
      rw [FileTree.read_of_directory hresolved hnode] at hread <;> cases hread
  | symlink target => cases hlink

theorem openAtomic_eq_ok {path temporary : OsPath} {opened : FileTree}
    (h : openAtomic env tree path = .ok (temporary, opened)) :
    (∃ directory, tree.resolve path.dropLast = .ok directory ∧ tree.barred directory = none) ∧
      temporary ≠ [] ∧ tree.node temporary = none ∧
        opened = tree.insert temporary (.file [] env.created) := by
  obtain ⟨directory, hdirectory, h⟩ := bind_eq_ok.1 h
  cases hnode : tree.node directory with
  | none =>
    rw [hnode] at h
    cases h
  | some node =>
    rw [hnode] at h
    cases node with
    | file content permissions => cases h
    | symlink target => cases h
    | directory size access =>
      obtain ⟨haccess, h⟩ := ite_error_eq_ok.1 h
      obtain ⟨hfree, h⟩ := ite_error_eq_ok.1 h
      have hopened : (directory ++ [env.temporary],
          tree.insert (directory ++ [env.temporary]) (.file [] env.created)) =
          (temporary, opened) := by
        cases hfails : env.fails .open_ with
        | some error =>
          rw [hfails] at h
          cases h
        | none =>
          rw [hfails] at h
          exact Except.ok.inj h
      obtain ⟨rfl, rfl⟩ := Prod.mk.inj hopened
      have hsearch : access.search = true := by
        cases hsearch : access.search <;> simp_all
      refine ⟨⟨directory, hdirectory, ?_⟩, by simp, by simpa using hfree, rfl⟩
      simp [FileTree.barred, hnode, hsearch]

/-- A temporary file that is removed again leaves no trace. -/
theorem node_closed {temporary : OsPath} (hne : temporary ≠ []) (hfree : tree.node temporary = none)
    (node : Node) (q : OsPath) :
    ((tree.insert temporary node).erase temporary).node q = tree.node q := by
  by_cases hq : q = temporary
  · rw [hq, FileTree.node_erase_self hne, hfree]
  · rw [FileTree.node_erase_ne hq, FileTree.node_insert_ne hq]

/-- What an atomic write changes: there was no directory at its target, and there is a file. -/
structure Put (tree after : FileTree) (path : OsPath) (bytes : Bytes)
    (permissions : FilePermissions) : Prop where
  before : (tree.node path).any Node.isDirectory = false
  now : after.node path = some (.file bytes permissions)
  others : ∀ q, q ≠ path → after.node q = tree.node q

/-- An atomic write fails and changes nothing, or it puts one file at its target. -/
theorem commitWrite_cases (env : FsEnv) (tree : FileTree) (write : PreparedWrite) :
    (∃ error after, commitWrite env tree write = (.error error, after) ∧
        ∀ q, after.node q = tree.node q) ∨
      ∃ after, commitWrite env tree write = (.ok (), after) ∧
        (∃ directory, tree.resolve write.path.dropLast = .ok directory ∧
          tree.barred directory = none) ∧
        Put tree after write.path write.normalized.utf8
          (write.permissions.getD env.created) := by
  rw [commitWrite]
  cases hopen : openAtomic env tree write.path with
  | error error => exact .inl ⟨_, tree, rfl, fun q => rfl⟩
  | ok file =>
    obtain ⟨temporary, opened⟩ := file
    obtain ⟨hdirectory, hne, hfree, rfl⟩ := openAtomic_eq_ok hopen
    have hclosed := node_closed hne hfree (.file [] env.created)
    simp only
    cases hfails : (write.permissions.bind fun _ => env.fails .setPermissions).orElse fun _ =>
        (env.fails .write).orElse fun _ => env.fails .commit with
    | some error => exact .inl ⟨_, _, rfl, hclosed⟩
    | none =>
      rw [Option.elim_none]
      split
      · exact .inl ⟨_, _, rfl, hclosed⟩
      · rename_i hdir
        have hpath : write.path ≠ [] := by
          intro hroot
          rw [hroot] at hdir
          exact hdir rfl
        refine .inr ⟨_, rfl, hdirectory, ⟨by simpa using hdir,
          FileTree.node_insert_self hpath _, fun q hq => ?_⟩⟩
        rw [FileTree.node_insert_ne hq, hclosed]

/-- What a successful write has done: `path` is a file with the new content, where there was a file
or nothing, in the same directory; all else is as it was. -/
structure Written (tree after : FileTree) (root : WorkspaceRoot) (path : OsPath)
    (s : FileSnapshot) : Prop where
  inside : Inside after root path
  directory : tree.resolve path.dropLast = .ok path.dropLast
  before : tree.node path = none ∨
    ∃ bytes permissions, tree.node path = some (.file bytes permissions)
  now : ∃ permissions, after.node path = some (.file s.content.utf8 permissions)
  others : ∀ q, q ≠ path → after.node q = tree.node q

/-- The target of a write is resolved once the file is there. -/
theorem resolved_written {after : FileTree} {directory : OsPath} {name : OsStr} {node : Node}
    (htarget : Target tree root directory name) (hnul : 0 ∉ name)
    (hbarred : tree.barred directory = none) (hlink : node.isSymlink = false)
    (hnow : after.node (directory ++ [name]) = some node)
    (hothers : ∀ q, q ≠ directory ++ [name] → after.node q = tree.node q) :
    after.Resolved (directory ++ [name]) := by
  have hsame : ∀ q, q <+: directory → after.node q = tree.node q := by
    intro q hq
    apply hothers
    intro heq
    have hle := hq.length_le
    rw [heq, List.length_append, List.length_singleton] at hle
    omega
  refine .entry (htarget.resolved.congr hsame) ?_ htarget.notDot htarget.notDotDot hnul hnow hlink
  rw [FileTree.barred, hsame directory (List.prefix_refl _)]
  exact hbarred

/-- What is known once a prepared write is committed. -/
structure Committed (env : FsEnv) (tree after : FileTree) (write : PreparedWrite)
    (directory : OsPath) : Prop where
  barred : tree.barred directory = none
  resolved : after.Resolved write.path
  put : Put tree after write.path write.normalized.utf8 (write.permissions.getD env.created)
  finish : finishWrite env after write =
    .ok (snapshot env write.normalized (some (write.permissions.getD env.created)))

theorem Target.committed {after : FileTree} {write : PreparedWrite} {directory : OsPath}
    {name : OsStr} {latest : Bytes} (htarget : Target tree root directory name)
    (hpath : write.path = directory ++ [name]) (hlatest : readLatest tree write.path = .ok latest)
    (hcommit : commitWrite env tree write = (.ok (), after)) :
    Committed env tree after write directory := by
  rcases commitWrite_cases env tree write with
    ⟨error, after', hfailed, -⟩ | ⟨after', hdone, hdirectory, hput⟩
  · rw [hcommit] at hfailed
    cases hfailed
  · rw [hcommit, Prod.mk.injEq] at hdone
    obtain ⟨-, rfl⟩ := hdone
    have hnow := hput.now
    have hothers := hput.others
    rw [hpath] at hnow hothers hdirectory hlatest
    have hbarred := htarget.barred hdirectory
    have hresolved := resolved_written htarget (no_nul_of_readLatest hlatest) hbarred rfl hnow
      hothers
    have hmetadata := FileTree.metadata_of_resolved hresolved hnow
    rw [← hpath] at hresolved hmetadata
    exact ⟨hbarred, hresolved, hput, bind_eq_ok.2 ⟨_, io_eq_ok.2 hmetadata, rfl⟩⟩

/-- A write changes nothing, or it writes one file under the root. -/
theorem writeText_cases (env : FsEnv) (tree : FileTree) (root : WorkspaceRoot) (relative : OsStr)
    (baseHash content : Str) :
    (∃ error after, writeText env tree root relative baseHash content = (.error error, after) ∧
        ∀ q, after.node q = tree.node q) ∨
      ∃ s after path, writeText env tree root relative baseHash content = (.ok s, after) ∧
        Written tree after root path s := by
  unfold writeText
  cases hprepare : prepareWrite env tree root relative baseHash content with
  | error error => exact .inl ⟨error, tree, rfl, fun q => rfl⟩
  | ok write =>
    cases hrecheck : recheckWrite env tree write with
    | error error => exact .inl ⟨error, tree, by simp only [hrecheck], fun q => rfl⟩
    | ok _ =>
      simp only [hrecheck]
      obtain ⟨directory, name, hpath, htarget⟩ := prepareWrite_target hprepare
      obtain ⟨latest, hlatest, -⟩ := bind_eq_ok.1 hrecheck
      rcases commitWrite_cases env tree write with
        ⟨error, after, hcommit, hsame⟩ | ⟨after, hcommit, -, -⟩
      · exact .inl ⟨error, after, by rw [hcommit], hsame⟩
      · right
        obtain ⟨hbarred, hresolved, hput, hfinish⟩ := htarget.committed hpath hlatest hcommit
        refine ⟨_, after, write.path, by simp only [hcommit, hfinish]; rfl,
          ⟨FileTree.resolve_of_resolved hresolved, ?_⟩, ?_, ?_, ⟨_, hput.now⟩, hput.others⟩
        · rw [hpath]
          exact htarget.under.trans (List.prefix_append _ _)
        · rw [hpath, List.dropLast_concat]
          exact FileTree.resolve_of_resolved htarget.resolved
        · rw [hpath] at hlatest ⊢
          exact htarget.free_or_file hlatest hbarred

/-! ## Containment -/

/-- A registered root is canonical. -/
theorem register_canonical {path : OsPath} (h : WorkspaceRoot.register tree path = .ok root) :
    tree.resolve root.path = .ok root.path := by
  obtain ⟨canonical, hresolve, h⟩ := bind_eq_ok.1 h
  obtain ⟨metadata, -, h⟩ := bind_eq_ok.1 h
  obtain ⟨-, h⟩ := ite_error_eq_ok.1 h
  cases h
  exact FileTree.resolve_resolve (io_eq_ok.1 hresolve)

/-- The operations read, list and write under the root only, and a write that fails changes
nothing. -/
theorem guarded_contained (env : FsEnv) (tree : FileTree) (root : WorkspaceRoot)
    (hroot : tree.resolve root.path = .ok root.path) (relative : OsStr) :
    (∀ s, readText env tree root relative = .ok s →
      ∃ path bytes permissions content, tree.resolve (joinOs root.path relative) = .ok path ∧
        Inside tree root path ∧ tree.node path = some (.file bytes permissions) ∧
          Str.fromUtf8 bytes = some content ∧ s = snapshot env content (some permissions)) ∧
    (∀ entries, listDirectory env tree root relative = .ok entries →
      ∃ directory size access, Inside tree root directory ∧
        tree.node directory = some (.directory size access) ∧
          ∀ entry ∈ entries, ∃ osName node, tree.node (directory ++ [osName]) = some node ∧
            directoryEntry relative osName node = .ok entry) ∧
    ∀ baseHash content result after,
      writeText env tree root relative baseHash content = (result, after) →
        (∀ s, result = .ok s → ∃ path, Written tree after root path s) ∧
        ∀ error, result = .error error → ∀ q, after.node q = tree.node q := by
  refine ⟨fun s h => readText_inside h, fun entries h => listDirectory_inside hroot h, ?_⟩
  intro baseHash content result after hwrite
  rcases writeText_cases env tree root relative baseHash content with
    ⟨error, after', hcase, hsame⟩ | ⟨s, after', path, hcase, hwritten⟩ <;>
    rw [hcase, Prod.mk.injEq] at hwrite <;> obtain ⟨rfl, rfl⟩ := hwrite
  · refine ⟨fun s h => ?_, fun error h => hsame⟩
    cases h
  · refine ⟨fun s' h => ?_, fun error h => ?_⟩
    · cases h
      exact ⟨path, hwritten⟩
    · cases h

/-- A hash that keeps its bytes, and a disk that does not fail. -/
def plainEnv : FsEnv where
  contentHash := fun bytes => bytes.map fun byte => Char.ofNat byte.toNat
  lowercase := Str.toAsciiLowercase
  created := ⟨0o100644, true⟩
  temporary := Str.utf8 ".notes.tmp"
  fails _ := none

/-- A workspace with a file and a link out of it. -/
def linkedTree : FileTree :=
  (((((⟨∅⟩ : FileTree).insert [Str.utf8 "etc"] (.directory 0 ⟨true, true, true⟩)).insert
    [Str.utf8 "etc", Str.utf8 "passwd"] (.file [1, 2] ⟨0o100644, true⟩)).insert
    [Str.utf8 "work"] (.directory 0 ⟨true, true, true⟩)).insert
    [Str.utf8 "work", Str.utf8 "notes"] (.file (Str.utf8 "one\r\n") ⟨0o100600, true⟩)).insert
    [Str.utf8 "work", Str.utf8 "out"] (.symlink (Str.utf8 "../etc"))

theorem guarded_contained_linked :
    readText plainEnv linkedTree ⟨[Str.utf8 "work"]⟩ (Str.utf8 "out/passwd") =
        .error .outsideWorkspace ∧
      ∃ s after path, writeText plainEnv linkedTree ⟨[Str.utf8 "work"]⟩ (Str.utf8 "./notes")
          "one\r\n" "two\n" = (.ok s, after) ∧ s.content = "two\r\n".toList ∧
        Written linkedTree after ⟨[Str.utf8 "work"]⟩ path s := by
  refine ⟨by decide +kernel, ?_⟩
  obtain ⟨s, hs, hcontent⟩ : ∃ s, (writeText plainEnv linkedTree ⟨[Str.utf8 "work"]⟩
      (Str.utf8 "./notes") "one\r\n" "two\n").1 = .ok s ∧ s.content = "two\r\n".toList :=
    ⟨snapshot plainEnv "two\r\n" (some ⟨0o100600, true⟩), by decide +kernel, rfl⟩
  have hcontained := guarded_contained plainEnv linkedTree ⟨[Str.utf8 "work"]⟩ (by decide +kernel)
    (Str.utf8 "./notes")
  obtain ⟨path, hwritten⟩ := (hcontained.2.2 _ _ _ _ (Prod.mk.eta).symm).1 s hs
  exact ⟨s, _, path, Prod.ext hs rfl, hcontent, hwritten⟩

end LeaveCli.Core
