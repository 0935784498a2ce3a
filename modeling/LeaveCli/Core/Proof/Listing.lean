import LeaveCli.Core.Proof.SavedFile
import LeaveCli.Lib.Utf8

/-!
# What the paths of a listing lead to

The path of an entry is made of the child's name, read as UTF-8 with replacements, and slashes take
the place of its backslashes (`entry_path`). Where no backslash is replaced, the path leads to the
child that has the name as it was read (`child_of_resolved`), so it is enough that no two children
are read alike; where one is, it depends on what lies at the path with the slash
(`listDirectory_names_iff`).
-/

namespace LeaveCli.Core

open Lib

variable {env : FsEnv} {tree : FileTree} {root : WorkspaceRoot} {relative : OsStr}
  {directory : OsPath} {name name' : OsStr} {node node' : Node} {entry : DirectoryEntry}
  {entries : List DirectoryEntry}

/-- What a directory holds. -/
structure Child (tree : FileTree) (directory : OsPath) (name : OsStr) (node : Node) : Prop where
  isName : isName name = true
  node_eq : tree.node (directory ++ [name]) = some node

/-- A name as a listing returns it, within a path. -/
def apiName (name : OsStr) : Str :=
  (Str.fromUtf8Lossy name).map fun c => if c = '\\' then '/' else c

/-- Slashes in the place of backslashes. -/
def slashes (path : OsStr) : OsStr := path.map fun byte => if byte = 92 then slash else byte

/-- Every path leads to the child it was returned for, and no two are the same. -/
structure NamesChildren (tree : FileTree) (root : WorkspaceRoot) (relative : OsStr)
    (directory : OsPath) (entries : List DirectoryEntry) : Prop where
  opens : ∀ entry ∈ entries, ∀ name node, Child tree directory name node →
    directoryEntry relative name node = .ok entry →
      ∀ p, (root.resolveExisting tree entry.path.utf8 = .ok p ∨
        root.directory tree entry.path.utf8 = .ok p) → p = directory ++ [name]
  distinct : (entries.map DirectoryEntry.path).Nodup

/-- No two children are read alike, and where a backslash becomes a slash, nothing else lies at the
path with the slash. -/
structure Unambiguous (tree : FileTree) (root : WorkspaceRoot) (relative : OsStr)
    (directory : OsPath) : Prop where
  names : ∀ name node name' node', Child tree directory name node →
    Child tree directory name' node' → apiName name = apiName name' → name = name'
  slashed : ∀ name node, Child tree directory name node →
    92 ∈ joinPath relative (Str.fromUtf8Lossy name).utf8 →
      ∀ p, root.resolveExisting tree (slashes (joinPath relative (Str.fromUtf8Lossy name).utf8)) =
        .ok p → p = directory ++ [name]

/-! ## Names -/

theorem slashes_utf8 (s : Str) :
    (Str.utf8 (s.map fun c => if c = '\\' then '/' else c)) = slashes s.utf8 :=
  Str.utf8_map_replace (by decide) (by decide) s

theorem slashes_of_notMem {path : OsStr} (h : 92 ∉ path) : slashes path = path := by
  conv_rhs => rw [← List.map_id path]
  refine List.map_congr_left fun byte hbyte => if_neg ?_
  intro heq
  subst heq
  exact h hbyte

/-- A name that is read as ASCII is read as it is. -/
theorem utf8_fromUtf8Lossy_eq {t : Str} (ht : t.all (fun c => c.toNat < 128) = true)
    (h : (Str.fromUtf8Lossy name).utf8 = t.utf8) : name = t.utf8 := by
  have hsame := Str.utf8_injective h
  rw [← h, Str.utf8_fromUtf8Lossy_of_ascii]
  intro c hc
  rw [hsame] at hc
  exact of_decide_eq_true (List.all_eq_true.1 ht c hc)

/-- A name is read as a name. -/
theorem lossy_name (h : isName name = true) : (Str.fromUtf8Lossy name).utf8 ≠ [] ∧
    (Str.fromUtf8Lossy name).utf8 ≠ dot ∧ (Str.fromUtf8Lossy name).utf8 ≠ dotDot ∧
      slash ∉ (Str.fromUtf8Lossy name).utf8 := by
  rw [isName, decide_eq_true_eq] at h
  obtain ⟨hne, hdot, hdotDot, hslash, -⟩ := h
  have hutf8 : Str.utf8 [] = [] ∧ Str.utf8 "." = dot ∧ Str.utf8 ".." = dotDot := by decide +kernel
  refine ⟨fun heq => hne ?_, fun heq => hdot ?_, fun heq => hdotDot ?_, fun hmem => hslash ?_⟩
  · rw [← hutf8.1] at heq ⊢
    exact utf8_fromUtf8Lossy_eq (by decide) heq
  · rw [← hutf8.2.1] at heq ⊢
    exact utf8_fromUtf8Lossy_eq (by decide) heq
  · rw [← hutf8.2.2] at heq ⊢
    exact utf8_fromUtf8Lossy_eq (by decide) heq
  · rw [Str.mem_utf8_iff (by decide)] at hmem
    exact Str.mem_of_mem_fromUtf8Lossy (by decide) hmem

theorem isAbsolute_of_notMem (h : slash ∉ name) : isAbsolute name = false := by
  rw [isAbsolute, decide_eq_false_iff_not]
  exact fun hhead => h (List.mem_of_mem_head? hhead)

theorem joinPath_eq (path : OsStr) :
    ∃ base, ∀ name, isAbsolute name = false → joinPath path name = base ++ name := by
  by_cases hbase : path = [] ∨ path.getLast? = some slash
  · refine ⟨path, fun name hname => ?_⟩
    rw [joinPath, hname, if_neg Bool.false_ne_true, if_pos hbase]
  · refine ⟨path ++ [slash], fun name hname => ?_⟩
    rw [joinPath, hname, if_neg Bool.false_ne_true, if_neg hbase, List.append_assoc]
    rfl

theorem slashes_ne_nil {path : OsStr} (hne : name ≠ []) (hslash : slash ∉ name) :
    slashes (joinPath path name) ≠ [] := by
  obtain ⟨base, hbase⟩ := joinPath_eq path
  rw [hbase name (isAbsolute_of_notMem hslash), slashes, List.map_append]
  exact List.append_ne_nil_of_right_ne_nil _ (by simpa using hne)

/-! ## Entries -/

/-- The path of an entry. -/
theorem entry_path (hname : isName name = true)
    (h : directoryEntry relative name node = .ok entry) :
    entry.path.utf8 = slashes (joinPath relative (Str.fromUtf8Lossy name).utf8) := by
  obtain ⟨path, hpath, rfl⟩ := map_eq_ok.1 h
  have hchild : (if relative = [] then (Str.fromUtf8Lossy name).utf8
      else joinPath relative (Str.fromUtf8Lossy name).utf8) =
      joinPath relative (Str.fromUtf8Lossy name).utf8 := by
    split
    · rename_i hempty
      rw [hempty, joinPath, isAbsolute_of_notMem (lossy_name hname).2.2.2,
        if_neg Bool.false_ne_true, if_pos (.inl rfl)]
      rfl
    · rfl
  rw [hchild] at hpath
  show path.utf8 = _
  rw [pathForApi] at hpath
  cases hvalue : Str.fromUtf8 (joinPath relative (Str.fromUtf8Lossy name).utf8) with
  | none =>
    rw [hvalue] at hpath
    cases hpath
  | some value =>
    rw [hvalue] at hpath
    cases hpath
    rw [slashes_utf8, Str.fromUtf8_eq_some.1 hvalue]

/-- Paths are the same when the names are read alike. -/
theorem path_eq_iff (hname : isName name = true) (hname' : isName name' = true) :
    slashes (joinPath relative (Str.fromUtf8Lossy name).utf8) =
        slashes (joinPath relative (Str.fromUtf8Lossy name').utf8) ↔
      apiName name = apiName name' := by
  obtain ⟨base, hbase⟩ := joinPath_eq relative
  rw [hbase _ (isAbsolute_of_notMem (lossy_name hname).2.2.2),
    hbase _ (isAbsolute_of_notMem (lossy_name hname').2.2.2), slashes, slashes, List.map_append,
    List.map_append, List.append_cancel_left_eq]
  show slashes _ = slashes _ ↔ _
  rw [← slashes_utf8, ← slashes_utf8]
  exact Str.utf8_injective.eq_iff

/-- A listing has one entry for each child. -/
theorem listDirectory_eq_ok (hroot : tree.resolve root.path = .ok root.path)
    (hdirectory : root.directory tree relative = .ok directory)
    (h : listDirectory env tree root relative = .ok entries) :
    ∃ listed, entries.Perm listed ∧ List.Forall₂ (fun name entry => ∃ node,
      Child tree directory name node ∧ directoryEntry relative name node = .ok entry)
        (tree.children directory) listed := by
  have hself : tree.resolve directory = .ok directory := by
    unfold WorkspaceRoot.directory at hdirectory
    split at hdirectory
    · cases hdirectory
      exact hroot
    · exact (resolveExisting_inside hdirectory).2.resolved
  obtain ⟨directory', hdirectory', h⟩ := bind_eq_ok.1 h
  obtain rfl : directory = directory' := Except.ok.inj (hdirectory.symm.trans hdirectory')
  obtain ⟨metadata, -, h⟩ := bind_eq_ok.1 h
  obtain ⟨-, h⟩ := ite_error_eq_ok.1 h
  obtain ⟨names, hnames, h⟩ := bind_eq_ok.1 h
  obtain ⟨listed, hlisted, h⟩ := bind_eq_ok.1 h
  cases h
  obtain ⟨p, size, access, hp, -, rfl⟩ := FileTree.readDir_children (io_eq_ok.1 hnames)
  obtain rfl : directory = p := Except.ok.inj (hself.symm.trans hp)
  refine ⟨listed, List.perm_insertionSort _ _, ?_⟩
  have hall := (List.forall₂_and_left _ _).2
    ⟨fun name hname => (FileTree.mem_children.1 hname).1, mapM_eq_ok.1 hlisted⟩
  refine hall.imp fun name entry hentry => ?_
  obtain ⟨hname, hentry⟩ := hentry
  obtain ⟨node, hnode, hentry⟩ := bind_eq_ok.1 hentry
  obtain ⟨hdot, hdotDot, hnul⟩ := FileTree.isName_spec hname
  rw [io_eq_ok, FileTree.symlinkMetadata_concat hself hdot hdotDot hnul] at hnode
  exact ⟨node, ⟨hname, hnode.2⟩, hentry⟩

/-! ## What a path leads to -/

/-- The path to a name leads to a child with this name, if it leads anywhere. -/
theorem child_of_resolved {p : OsPath} (hroot : tree.resolve root.path = .ok root.path)
    (hdirectory : root.directory tree relative = .ok directory) (hne : name ≠ [])
    (hdot : name ≠ dot) (hdotDot : name ≠ dotDot) (hslash : slash ∉ name)
    (h : root.resolveExisting tree (joinPath relative name) = .ok p) :
    ∃ node, Child tree directory name node ∧
      (node.isSymlink = false → p = directory ++ [name]) := by
  obtain ⟨hvalid, hresolve, -⟩ := resolveExisting_eq_ok.1 h
  obtain ⟨others, hothers, hdotless⟩ := osComponents_joinPath relative hne hslash
  rw [joinOs_of_valid hvalid, hothers, ← List.append_assoc] at hresolve
  obtain ⟨d, hd, hstep⟩ := FileTree.resolve_concat_cases hresolve
  have hbarred := FileTree.barred_of_step hstep
  obtain rfl : directory = d := by
    have hsame := FileTree.resolve_dots hd hbarred
      (show dotless (root.path ++ osComponents relative) = dotless (root.path ++ others) by
        rw [dotless_append, dotless_append, hdotless])
    unfold WorkspaceRoot.directory at hdirectory
    split at hdirectory
    · rename_i hempty
      cases hdirectory
      rw [hempty, show osComponents [] = [] from rfl, List.append_nil, hroot] at hsame
      exact Except.ok.inj hsame
    · obtain ⟨hvalid', hresolve', -⟩ := resolveExisting_eq_ok.1 hdirectory
      rw [joinOs_of_valid hvalid', hsame] at hresolve'
      exact (Except.ok.inj hresolve').symm
  obtain ⟨hnul, node, hnode, hplain⟩ := FileTree.node_of_step hdot hdotDot hstep
  exact ⟨node, ⟨decide_eq_true ⟨hne, hdot, hdotDot, hslash, hnul⟩, hnode⟩, hplain⟩

/-! ## Listing -/

/-- Paths of the entries are distinct when no two children are read alike. -/
theorem distinct_iff {listed : List DirectoryEntry}
    (hlisted : List.Forall₂ (fun name entry => ∃ node,
      Child tree directory name node ∧ directoryEntry relative name node = .ok entry)
        (tree.children directory) listed) :
    (listed.map DirectoryEntry.path).Nodup ↔
      ∀ name ∈ tree.children directory, ∀ name' ∈ tree.children directory,
        apiName name = apiName name' → name = name' := by
  have hpaths : (listed.map DirectoryEntry.path).map Str.utf8 =
      (tree.children directory).map fun name =>
        slashes (joinPath relative (Str.fromUtf8Lossy name).utf8) := by
    rw [List.map_map]
    symm
    rw [← List.forall₂_eq_eq_eq, List.forall₂_map_left_iff, List.forall₂_map_right_iff]
    refine hlisted.imp fun name entry hentry => ?_
    obtain ⟨node, hchild, hentry⟩ := hentry
    exact (entry_path hchild.isName hentry).symm
  rw [← List.nodup_map_iff Str.utf8_injective, hpaths,
    List.nodup_map_iff_inj_on (FileTree.nodup_children directory)]
  refine forall₂_congr fun name hname => forall₂_congr fun name' hname' => ?_
  rw [path_eq_iff (FileTree.mem_children.1 hname).1 (FileTree.mem_children.1 hname').1]

theorem mem_children_iff :
    name ∈ tree.children directory ↔ ∃ node, Child tree directory name node := by
  rw [FileTree.mem_children, ← FileTree.node_concat, Option.isSome_iff_exists]
  constructor
  · intro h
    obtain ⟨hname, node, hnode⟩ := h
    exact ⟨node, hname, hnode⟩
  · intro h
    obtain ⟨node, hname, hnode⟩ := h
    exact ⟨hname, node, hnode⟩

/-- A listing of files and directories names each of them, and only that, exactly where it is
unambiguous. -/
theorem listDirectory_names_iff (hroot : tree.resolve root.path = .ok root.path)
    (hdirectory : root.directory tree relative = .ok directory)
    (hplain : ∀ name node, Child tree directory name node → node.isSymlink = false)
    (h : listDirectory env tree root relative = .ok entries) :
    NamesChildren tree root relative directory entries ↔
      Unambiguous tree root relative directory := by
  obtain ⟨listed, hperm, hlisted⟩ := listDirectory_eq_ok hroot hdirectory h
  have hdistinct := distinct_iff hlisted
  rw [← (hperm.map DirectoryEntry.path).nodup_iff] at hdistinct
  constructor
  · intro hnames
    refine ⟨fun name node name' node' hchild hchild' hsame => ?_, fun name node hchild _ p hp => ?_⟩
    · exact hdistinct.1 hnames.distinct name (mem_children_iff.2 ⟨node, hchild⟩) name'
        (mem_children_iff.2 ⟨node', hchild'⟩) hsame
    · obtain ⟨entry, hmem, node', hchild', hentry⟩ :=
        exists_mem_of_forall₂ hlisted name (mem_children_iff.2 ⟨node, hchild⟩)
      refine hnames.opens entry (hperm.mem_iff.2 hmem) name node' hchild' hentry p (.inl ?_)
      rwa [entry_path hchild'.isName hentry]
  · intro hcond
    refine ⟨fun entry hmem name node hchild hentry p hp => ?_, hdistinct.2 ?_⟩
    · have hpath := entry_path hchild.isName hentry
      obtain ⟨hne, hdot, hdotDot, hslash⟩ := lossy_name hchild.isName
      rw [hpath] at hp
      have hexisting : root.resolveExisting tree
          (slashes (joinPath relative (Str.fromUtf8Lossy name).utf8)) = .ok p := by
        rcases hp with hp | hp
        · exact hp
        · rwa [WorkspaceRoot.directory, if_neg (slashes_ne_nil hne hslash)] at hp
      by_cases hbackslash : 92 ∈ joinPath relative (Str.fromUtf8Lossy name).utf8
      · exact hcond.slashed name node hchild hbackslash p hexisting
      · rw [slashes_of_notMem hbackslash] at hexisting
        obtain ⟨node', hchild', hthere⟩ :=
          child_of_resolved hroot hdirectory hne hdot hdotDot hslash hexisting
        have hsame : apiName name = apiName (Str.fromUtf8Lossy name).utf8 := by
          rw [apiName, apiName, Str.fromUtf8Lossy_utf8]
        rw [hcond.names _ _ _ _ hchild hchild' hsame]
        exact hthere (hplain _ _ hchild')
    · intro name hname name' hname' hsame
      obtain ⟨node, hchild⟩ := mem_children_iff.1 hname
      obtain ⟨node', hchild'⟩ := mem_children_iff.1 hname'
      exact hcond.names name node name' node' hchild hchild' hsame

/-- A workspace with two files in a directory, one with a backslash in its name, and beside it a
file whose name has a backslash where the path of the other has a slash, and two files whose names
are not UTF-8. -/
def slashTree : FileTree :=
  (((((((⟨∅⟩ : FileTree).insert [Str.utf8 "work"] (.directory 0 ⟨true, true, true⟩)).insert
    [Str.utf8 "work", Str.utf8 "a"] (.directory 0 ⟨true, true, true⟩)).insert
    [Str.utf8 "work", Str.utf8 "a", Str.utf8 "b"] (.file [1] ⟨0o100644, true⟩)).insert
    [Str.utf8 "work", Str.utf8 "a", Str.utf8 "c\\d"] (.file [4, 5, 6] ⟨0o100644, true⟩)).insert
    [Str.utf8 "work", Str.utf8 "a\\b"] (.file [2, 3] ⟨0o100644, true⟩)).insert
    [Str.utf8 "work", [0xff]] (.file [] ⟨0o100644, true⟩)).insert
    [Str.utf8 "work", [0xfe]] (.file [] ⟨0o100644, true⟩)

/-- The path `a/c/d` of the file `c\d` leads nowhere. -/
theorem listDirectory_names_slash :
    listDirectory plainEnv slashTree ⟨[Str.utf8 "work"]⟩ (Str.utf8 "a") =
        .ok [⟨"a/b", "b", false, false, 1⟩, ⟨"a/c/d", "c\\d", false, false, 3⟩] ∧
      NamesChildren slashTree ⟨[Str.utf8 "work"]⟩ (Str.utf8 "a") [Str.utf8 "work", Str.utf8 "a"]
        [⟨"a/b", "b", false, false, 1⟩, ⟨"a/c/d", "c\\d", false, false, 3⟩] := by
  have hlist : listDirectory plainEnv slashTree ⟨[Str.utf8 "work"]⟩ (Str.utf8 "a") =
      .ok [⟨"a/b", "b", false, false, 1⟩, ⟨"a/c/d", "c\\d", false, false, 3⟩] := by
    decide +kernel
  have hchildren : ∀ name ∈ slashTree.children [Str.utf8 "work", Str.utf8 "a"],
      name = Str.utf8 "b" ∨ name = Str.utf8 "c\\d" := by
    decide +kernel
  have htwo : ∀ name node, Child slashTree [Str.utf8 "work", Str.utf8 "a"] name node →
      name = Str.utf8 "b" ∨ name = Str.utf8 "c\\d" :=
    fun name node hchild => hchildren name (mem_children_iff.2 ⟨node, hchild⟩)
  have hnodes : slashTree.node ([Str.utf8 "work", Str.utf8 "a"] ++ [Str.utf8 "b"]) =
        some (.file [1] ⟨0o100644, true⟩) ∧
      slashTree.node ([Str.utf8 "work", Str.utf8 "a"] ++ [Str.utf8 "c\\d"]) =
        some (.file [4, 5, 6] ⟨0o100644, true⟩) := by
    decide +kernel
  have hnames : apiName (Str.utf8 "b") ≠ apiName (Str.utf8 "c\\d") := by
    decide +kernel
  have hplain : 92 ∉ joinPath (Str.utf8 "a") (Str.fromUtf8Lossy (Str.utf8 "b")).utf8 := by
    decide +kernel
  have hnowhere : (WorkspaceRoot.resolveExisting ⟨[Str.utf8 "work"]⟩ slashTree (slashes
      (joinPath (Str.utf8 "a") (Str.fromUtf8Lossy (Str.utf8 "c\\d")).utf8))).toOption = none := by
    decide +kernel
  refine ⟨hlist, (listDirectory_names_iff (by decide +kernel) (by decide +kernel) ?_ hlist).2
    ⟨?_, ?_⟩⟩
  · intro name node hchild
    have hthere := hchild.node_eq
    rcases htwo name node hchild with rfl | rfl
    · rw [hnodes.1, Option.some.injEq] at hthere
      rw [← hthere]
      rfl
    · rw [hnodes.2, Option.some.injEq] at hthere
      rw [← hthere]
      rfl
  · intro name node name' node' hchild hchild' hsame
    rcases htwo name node hchild with rfl | rfl <;> rcases htwo name' node' hchild' with rfl | rfl
    · rfl
    · exact absurd hsame hnames
    · exact absurd hsame hnames.symm
    · rfl
  · intro name node hchild hbackslash p hp
    rcases htwo name node hchild with rfl | rfl
    · exact absurd hbackslash hplain
    · rw [hp] at hnowhere
      cases hnowhere

/-- The path of one file leads to another, and two files have the same path. -/
theorem listDirectory_names_not :
    listDirectory plainEnv slashTree ⟨[Str.utf8 "work"]⟩ [] =
        .ok [⟨"a", "a", true, false, 0⟩, ⟨"a/b", "a\\b", false, false, 2⟩,
          ⟨"\ufffd", "\ufffd", false, false, 0⟩, ⟨"\ufffd", "\ufffd", false, false, 0⟩] ∧
      WorkspaceRoot.resolveExisting ⟨[Str.utf8 "work"]⟩ slashTree (Str.utf8 "a/b") =
        .ok [Str.utf8 "work", Str.utf8 "a", Str.utf8 "b"] ∧
      ¬ NamesChildren slashTree ⟨[Str.utf8 "work"]⟩ [] [Str.utf8 "work"]
        [⟨"a", "a", true, false, 0⟩, ⟨"a/b", "a\\b", false, false, 2⟩,
          ⟨"\ufffd", "\ufffd", false, false, 0⟩, ⟨"\ufffd", "\ufffd", false, false, 0⟩] := by
  have hresolve : WorkspaceRoot.resolveExisting ⟨[Str.utf8 "work"]⟩ slashTree (Str.utf8 "a/b") =
      .ok [Str.utf8 "work", Str.utf8 "a", Str.utf8 "b"] := by
    decide +kernel
  refine ⟨by decide +kernel, hresolve, fun h => ?_⟩
  have hother := h.opens ⟨"a/b", "a\\b", false, false, 2⟩
    (List.mem_cons_of_mem _ List.mem_cons_self) (Str.utf8 "a\\b")
    (.file [2, 3] ⟨0o100644, true⟩) ⟨by decide +kernel, by decide +kernel⟩ (by decide +kernel)
    _ (.inl hresolve)
  exact absurd hother (by decide +kernel)

end LeaveCli.Core
