import LeaveCli.Core.Proof.SavedFile

/-!
# Saving what was read

A file that was read is written through the same path when the path's last name is no link
(`resolveForWrite_read_iff`). What is written then is what was read (`Mixed` is when it is not), so
the whole tree stays as it was (`writeText_readText`).
-/

namespace LeaveCli.Core

open Lib

variable {env : FsEnv} {tree after : FileTree} {root : WorkspaceRoot} {relative : OsStr}
  {s : FileSnapshot} {p : OsPath} {node : Node}

/-- A content with line separators of both kinds. -/
def Mixed (content : Str) : Prop :=
  ['\r', '\n'] <:+: content ∧
    ∃ front back, content = front ++ '\n' :: back ∧ front.getLast? ≠ some '\r'

/-- What is at a path itself is no link. -/
def NoLink (tree : FileTree) (root : WorkspaceRoot) (relative : OsStr) : Prop :=
  ∃ node, tree.symlinkMetadata (joinOs root.path relative) = .ok node ∧ node.isSymlink = false

/-! ## The path -/

/-- The last name of a path that leads to a file. -/
structure LastName (tree : FileTree) (root : WorkspaceRoot) (relative : OsStr) (p : OsPath)
    (directory : OsPath) (name : OsStr) : Prop where
  fileName_eq : fileName relative = some name
  parent_eq : tree.resolve (joinOs root.path ((parent relative).getD [])) = .ok directory
  path_eq : ∃ front, joinOs root.path relative = root.path ++ front ++ [name] ∧
    tree.resolve (root.path ++ front) = .ok directory
  barred : tree.barred directory = none
  notDot : name ≠ dot
  notDotDot : name ≠ dotDot
  noNul : 0 ∉ name
  step : tree.step directory name = .leads p ∨ ∃ target, tree.step directory name = .link target

theorem barred_file (hnode : tree.node p = some node) (hfile : node.isFile = true) :
    tree.barred p = some .notADirectory := by
  rw [FileTree.barred, hnode]
  cases node with
  | file content permissions => rfl
  | directory size access => cases hfile
  | symlink target => cases hfile

theorem lastName_of_file (h : root.resolveExisting tree relative = .ok p)
    (hnode : tree.node p = some node) (hfile : node.isFile = true) :
    ∃ directory name, LastName tree root relative p directory name := by
  obtain ⟨hvalid, hresolve, -⟩ := resolveExisting_eq_ok.1 h
  obtain ⟨hne, habsolute, hparent⟩ := validateRelative_eq_ok hvalid
  have hjoin := joinOs_of_valid hvalid root.path
  have hcomponents := components_eq habsolute hparent
  rw [hjoin] at hresolve
  rcases List.eq_nil_or_concat (osComponents relative) with hnil | ⟨others, name, hnames⟩
  · exact absurd hnil (osComponents_ne_nil hne habsolute)
  rw [List.concat_eq_append] at hnames
  rw [hnames, ← List.append_assoc] at hresolve
  have hdot : name ≠ dot := by
    intro hdot
    rw [hdot] at hresolve
    have hbarred := (FileTree.resolve_concat_dot hresolve).2
    rw [barred_file hnode hfile] at hbarred
    cases hbarred
  have hdotless : dotless (osComponents relative) = dotless others ++ [name] := by
    rw [hnames, dotless_append, dotless_cons hdot]
    rfl
  have hlast : (components relative).getLast? = some (.normal name) := by
    rw [hcomponents, hdotless, List.map_append, List.map_singleton, ← List.append_assoc,
      List.getLast?_concat]
  obtain ⟨-, -, hdotDot⟩ := mem_components_normal (List.mem_of_getLast? hlast)
  have hname : fileName relative = some name := by
    rw [fileName, hlast]
    rfl
  obtain ⟨directory, hdirectory, hstep⟩ := FileTree.resolve_concat_cases hresolve
  have hbarred := FileTree.barred_of_step hstep
  have hnul := (FileTree.node_of_step hdot hdotDot hstep).1
  obtain ⟨front, hfront, hsame⟩ := parent_fileName habsolute hparent hname root.path
  rw [hdotless] at hsame
  have hothers := (List.append_inj' hsame rfl).1
  refine ⟨directory, name, hname, ?_, ⟨others, ?_, hdirectory⟩, hbarred, hdot, hdotDot, hnul,
    hstep⟩
  · rw [hfront]
    exact FileTree.resolve_dots hdirectory hbarred (by rw [dotless_append, dotless_append, hothers])
  · rw [hjoin, hnames, List.append_assoc]

section LastName

variable {directory : OsPath} {name : OsStr}

theorem LastName.resolved (h : LastName tree root relative p directory name) :
    tree.Resolved directory := by
  obtain ⟨front, -, hfront⟩ := h.path_eq
  exact FileTree.resolved_of_resolve hfront

theorem LastName.exists_node (h : LastName tree root relative p directory name) :
    ∃ node, tree.node (directory ++ [name]) = some node := by
  obtain ⟨-, node, hnode, -⟩ := FileTree.node_of_step h.notDot h.notDotDot h.step
  exact ⟨node, hnode⟩

theorem LastName.noLink_iff (h : LastName tree root relative p directory name) :
    NoLink tree root relative ↔
      ∃ node, tree.node (directory ++ [name]) = some node ∧ node.isSymlink = false := by
  obtain ⟨front, hjoin, hfront⟩ := h.path_eq
  rw [NoLink, hjoin]
  refine exists_congr fun node => and_congr_left fun _ => ?_
  rw [FileTree.symlinkMetadata_concat hfront h.notDot h.notDotDot h.noNul]
  exact and_iff_right h.barred

theorem LastName.symlinkMetadata_iff (h : LastName tree root relative p directory name)
    (node : Node) : tree.symlinkMetadata (directory ++ [name]) = .ok node ↔
      tree.node (directory ++ [name]) = some node := by
  have hself := FileTree.resolve_of_resolved h.resolved
  rw [FileTree.symlinkMetadata_concat hself h.notDot h.notDotDot h.noNul]
  exact and_iff_right h.barred

/-- Without a link the path leads to the name itself. -/
theorem LastName.place (h : LastName tree root relative p directory name)
    (hnode : tree.node (directory ++ [name]) = some node) (hlink : node.isSymlink = false) :
    p = directory ++ [name] ∧ tree.Resolved p := by
  have hentry : tree.Resolved (directory ++ [name]) :=
    .entry h.resolved h.barred h.notDot h.notDotDot h.noNul hnode hlink
  obtain ⟨-, node', hnode', hplain⟩ := FileTree.node_of_step h.notDot h.notDotDot h.step
  obtain rfl : node' = node := Option.some.inj (hnode'.symm.trans hnode)
  obtain rfl := hplain hlink
  exact ⟨rfl, hentry⟩

/-- The directory is under the root, as the root is no file. -/
theorem LastName.under (h : LastName tree root relative p directory name)
    (hplace : p = directory ++ [name]) (hresolved : tree.Resolved p) (hunder : root.path <+: p)
    (hbarred : tree.barred p ≠ none) : root.path <+: directory := by
  obtain ⟨front, -, hfront⟩ := h.path_eq
  rw [hplace] at hunder
  rcases List.prefix_concat_iff.1 hunder with hroot | hroot
  · rw [← hplace] at hroot
    rw [hroot] at hfront
    exact absurd (FileTree.barred_of_resolve_append hresolved hfront h.barred) hbarred
  · exact hroot

end LastName

/-- A file that is read is written in its place, unless the name in the path is a link. -/
theorem resolveForWrite_read_iff (h : root.resolveExisting tree relative = .ok p)
    (hnode : tree.node p = some node) (hfile : node.isFile = true) (path : OsPath) :
    root.resolveForWrite tree relative = .ok path ↔ path = p ∧ NoLink tree root relative := by
  obtain ⟨hvalid, -, hunder⟩ := resolveExisting_eq_ok.1 h
  obtain ⟨directory, name, hlast⟩ := lastName_of_file h hnode hfile
  have hwrite : root.resolveForWrite tree relative =
      if ¬ root.path <+: directory then .error .outsideWorkspace
      else root.checkCandidate tree (directory ++ [name]) := by
    rw [WorkspaceRoot.resolveForWrite, hvalid, hlast.fileName_eq, hlast.parent_eq]
    rfl
  rw [hwrite, ite_error_eq_ok, not_not, hlast.noLink_iff]
  constructor
  · intro hpath
    obtain ⟨-, hpath⟩ := hpath
    obtain ⟨rfl, hmissing | hthere⟩ := checkCandidate_eq_ok hpath
    · obtain ⟨node', hnode'⟩ := hlast.exists_node
      rw [(hlast.symlinkMetadata_iff node').2 hnode'] at hmissing
      cases hmissing
    · obtain ⟨node', hnode', hlink⟩ := hthere.exists_node
      exact ⟨(hlast.place hnode' hlink).1.symm, node', hnode', hlink⟩
  · intro hcond
    obtain ⟨rfl, node', hnode', hlink⟩ := hcond
    obtain ⟨hplace, hresolved⟩ := hlast.place hnode' hlink
    have hbarred : tree.barred path ≠ none := by simp [barred_file hnode hfile]
    refine ⟨hlast.under hplace hresolved hunder hbarred, ?_⟩
    have hthere : (tree.symlinkMetadata (directory ++ [name])).toBool = true := by
      rw [(hlast.symlinkMetadata_iff node').2 hnode']
      rfl
    rw [WorkspaceRoot.checkCandidate, if_pos hthere, ← hplace]
    refine bind_eq_ok.2 ⟨path, io_eq_ok.2 (FileTree.resolve_of_resolved hresolved), if_neg ?_⟩
    exact not_or.2 ⟨not_not.2 hunder, not_not.2 rfl⟩

/-! ## The content -/

theorem preserveLineEndings_self_iff (content : Str) :
    preserveLineEndings (some content.utf8) content = content ↔ ¬ Mixed content := by
  rw [Mixed, ← crlf_infix_utf8]
  by_cases hcrlf : crlf <:+: content.utf8
  · rw [preserveLineEndings_crlf hcrlf, toCrlf_toLf_iff, bareLfs_eq_zero_iff, and_iff_right hcrlf]
    push Not
    exact Iff.rfl
  · rw [preserveLineEndings_lf hcrlf, toLf_eq_self_iff, ← crlf_infix_utf8]
    exact iff_of_true hcrlf fun h => hcrlf h.1

/-! ## Writing it back -/

theorem fails_open_of_openAtomic {file : OsPath × FileTree}
    (h : openAtomic env tree p = .ok file) : env.fails .open_ = none := by
  obtain ⟨directory, -, h⟩ := bind_eq_ok.1 h
  cases hnode : tree.node directory with
  | none =>
    rw [hnode] at h
    cases h
  | some node =>
    rw [hnode] at h
    cases node with
    | file content permissions => cases h
    | symlink target => cases h
    | directory size access =>
      obtain ⟨-, h⟩ := ite_error_eq_ok.1 h
      obtain ⟨-, h⟩ := ite_error_eq_ok.1 h
      cases hfails : env.fails .open_ with
      | none => rfl
      | some error =>
        rw [hfails] at h
        cases h

/-- A write that replaces a file has passed every stage. -/
theorem replaceable_of_commitWrite {write : PreparedWrite} {permissions : FilePermissions}
    (hpermissions : write.permissions = some permissions)
    (h : commitWrite env tree write = (.ok (), after)) : Replaceable env tree write.path := by
  cases hopen : openAtomic env tree write.path with
  | error error =>
    rw [commitWrite, hopen] at h
    cases h
  | ok file =>
    rw [commitWrite, hopen, hpermissions] at h
    simp only [Option.bind_some] at h
    cases hset : env.fails .setPermissions with
    | some error =>
      rw [hset] at h
      cases h
    | none =>
      cases hwrite : env.fails .write with
      | some error =>
        rw [hset, hwrite] at h
        cases h
      | none =>
        cases hcommit : env.fails .commit with
        | some error =>
          rw [hset, hwrite, hcommit] at h
          cases h
        | none =>
          refine ⟨⟨file, hopen⟩, fun stage => ?_⟩
          cases stage with
          | open_ => exact fails_open_of_openAtomic hopen
          | setPermissions => exact hset
          | write => exact hwrite
          | commit => exact hcommit

/-- A workspace with files in LF and in both conventions, and a link to the first. -/
def mixedTree : FileTree :=
  ((((⟨∅⟩ : FileTree).insert [Str.utf8 "work"] (.directory 0 ⟨true, true, true⟩)).insert
    [Str.utf8 "work", Str.utf8 "plain"] (.file (Str.utf8 "a\rb\n") ⟨0o100644, true⟩)).insert
    [Str.utf8 "work", Str.utf8 "mixed"] (.file (Str.utf8 "a\r\nb\n") ⟨0o100644, true⟩)).insert
    [Str.utf8 "work", Str.utf8 "alias"] (.symlink (Str.utf8 "plain"))

end LeaveCli.Core
