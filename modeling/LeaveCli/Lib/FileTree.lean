import LeaveCli.Lib.Text
import Mathlib.Data.List.AList

/-!
# File trees with symbolic links

A tree maps absolute paths, as lists of names, to files, directories and links. `resolve` follows a
path the way the operating system does: `.` and `..` count at each step, a link is replaced by its
target, and after `linkLimit` links it gives up. `Resolved` are the paths without links on them:
`resolve` leads to such a path (`resolved_of_resolve`) and leaves it as it is
(`resolve_of_resolved`). What is not a path of the tree's directories is never reached, so any map
is a tree.
-/

namespace Lib

/-- A name or a path as the operating system takes it. -/
abbrev OsStr := Bytes

/-- The components of an absolute path. -/
abbrev OsPath := List OsStr

def slash : UInt8 := 47

def dot : OsStr := [46]

def dotDot : OsStr := [46, 46]

/-- The names between the slashes of a path; a slash at its end asks for a directory, like `.`. -/
def osComponents (path : OsStr) : OsPath :=
  let names := (path.splitOn slash).filter (· ≠ [])
  if names ≠ [] ∧ path.getLast? = some slash then names ++ [dot] else names

def isAbsolute (path : OsStr) : Bool := path.head? = some slash

/-- A name that a directory can hold. -/
def isName (name : OsStr) : Bool :=
  name ≠ [] ∧ name ≠ dot ∧ name ≠ dotDot ∧ slash ∉ name ∧ 0 ∉ name

/-- The kinds of errors of the operating system. -/
inductive IoError
  | notFound
  | notADirectory
  | isADirectory
  | permissionDenied
  | filesystemLoop
  | invalidInput
  | alreadyExists
  | other
  deriving DecidableEq, Repr

/-- What the process may do in a directory. -/
structure DirectoryAccess where
  list : Bool
  search : Bool
  write : Bool
  deriving DecidableEq, Repr

/-- The mode of a file, and whether it lets the process read it. -/
structure FilePermissions where
  mode : Nat
  readable : Bool
  deriving DecidableEq, Repr

inductive Node
  | file (content : Bytes) (permissions : FilePermissions)
  | directory (size : Nat) (access : DirectoryAccess)
  | symlink (target : OsStr)
  deriving DecidableEq, Repr

def Node.isDirectory : Node → Bool
  | .file _ _ => false
  | .directory _ _ => true
  | .symlink _ => false

def Node.isFile : Node → Bool
  | .file _ _ => true
  | .directory _ _ => false
  | .symlink _ => false

/-- The target of a link. -/
def Node.target : Node → Option OsStr
  | .file _ _ => none
  | .directory _ _ => none
  | .symlink target => some target

def Node.isSymlink (node : Node) : Bool := node.target.isSome

/-- `Metadata::len`. -/
def Node.size : Node → Nat
  | .file content _ => content.length
  | .directory size _ => size
  | .symlink target => target.length

structure FileTree where
  nodes : AList fun _ : OsPath => Node

namespace FileTree

variable (tree : FileTree)

/-- What is at a path without links; the root is a directory. -/
def node (path : OsPath) : Option Node :=
  if path = [] then some (.directory 0 ⟨true, true, true⟩) else tree.nodes.lookup path

/-- Why no name can be looked up at a path. -/
def barred (path : OsPath) : Option IoError :=
  match tree.node path with
  | some (.directory _ access) => if access.search then none else some .permissionDenied
  | some (.file _ _) => some .notADirectory
  | some (.symlink _) => some .notADirectory
  | none => some .notFound

/-- What a name leads to from a path without links. -/
inductive Step
  | leads (path : OsPath)
  | refused (error : IoError)
  | link (target : OsStr)

def step (path : OsPath) (name : OsStr) : Step :=
  (tree.barred path).elim
    (if name = dot then .leads path
    else if name = dotDot then .leads path.dropLast
    else if 0 ∈ name then .refused .invalidInput
    else (tree.node (path ++ [name])).elim (.refused .notFound) fun node =>
      node.target.elim (.leads (path ++ [name])) .link)
    .refused

/-- Where names lead to from a path without links, or the first link on the way. -/
inductive Walked
  | arrived (path : OsPath)
  | refused (error : IoError)
  | link (directory : OsPath) (target : OsStr) (rest : OsPath)

def walk : OsPath → OsPath → Walked
  | path, [] => .arrived path
  | path, name :: rest =>
    match tree.step path name with
    | .leads path => walk path rest
    | .refused error => .refused error
    | .link target => .link path target rest

/-- Go on at a link. -/
def Walked.onLink (walked : Walked) (f : OsPath → OsStr → OsPath → Except IoError OsPath) :
    Except IoError OsPath :=
  match walked with
  | .arrived path => .ok path
  | .refused error => .error error
  | .link directory target rest => f directory target rest

/-- Walk, and go on at the target of every link. -/
def follow : Nat → OsPath → OsPath → Except IoError OsPath
  | 0, path, names => (tree.walk path names).onLink fun _ _ _ => .error .filesystemLoop
  | links + 1, path, names => (tree.walk path names).onLink fun directory target rest =>
    follow links (if isAbsolute target then [] else directory) (osComponents target ++ rest)

/-- How many links the system follows. -/
def linkLimit : Nat := 40

/-- `canonicalize`: the path without links that a path leads to. -/
def resolve (path : OsPath) : Except IoError OsPath :=
  if path.any (0 ∈ ·) then .error .invalidInput else tree.follow linkLimit [] path

/-- Where a path leads when a link at its end is not followed. -/
def locate (path : OsPath) : Except IoError OsPath :=
  path.getLast?.elim (.ok []) fun name =>
    if name = dot ∨ name = dotDot ∨ 0 ∈ name then tree.resolve path
    else do
      let parent ← tree.resolve path.dropLast
      (tree.barred parent).elim
        (if (tree.node (parent ++ [name])).isSome then .ok (parent ++ [name])
        else .error .notFound)
        .error

/-- `metadata`: what a path leads to. -/
def metadata (path : OsPath) : Except IoError Node := do
  let path ← tree.resolve path
  (tree.node path).elim (.error .notFound) .ok

/-- `symlink_metadata` -/
def symlinkMetadata (path : OsPath) : Except IoError Node := do
  let path ← tree.locate path
  (tree.node path).elim (.error .notFound) .ok

/-- `read`: the content of a file. -/
def read (path : OsPath) : Except IoError Bytes := do
  match ← tree.metadata path with
  | .file content permissions =>
    if permissions.readable then .ok content else .error .permissionDenied
  | .directory _ _ => .error .isADirectory
  | .symlink _ => .error .filesystemLoop

/-- The names of what is in a directory. -/
def children (path : OsPath) : List OsStr :=
  (tree.nodes.keys.filterMap fun key =>
    if key.dropLast = path then key.getLast? else none).filter isName

/-- `read_dir` -/
def readDir (path : OsPath) : Except IoError (List OsStr) := do
  let path ← tree.resolve path
  match tree.node path with
  | some (.directory _ access) =>
    if access.list then .ok (tree.children path) else .error .permissionDenied
  | some (.file _ _) => .error .notADirectory
  | some (.symlink _) => .error .notADirectory
  | none => .error .notFound

def insert (path : OsPath) (node : Node) : FileTree := ⟨tree.nodes.insert path node⟩

def erase (path : OsPath) : FileTree := ⟨tree.nodes.erase path⟩

/-! ## Paths without links -/

/-- A path that leads through directories to a node that is no link. -/
inductive Resolved : OsPath → Prop
  | root : Resolved []
  | entry {path : OsPath} {name : OsStr} {node : Node} (hpath : Resolved path)
    (hbarred : tree.barred path = none) (hdot : name ≠ dot) (hdotDot : name ≠ dotDot)
    (hnul : 0 ∉ name) (hnode : tree.node (path ++ [name]) = some node)
    (hlink : node.isSymlink = false) : Resolved (path ++ [name])

variable {tree}

theorem node_root : tree.node [] = some (.directory 0 ⟨true, true, true⟩) := rfl

theorem Resolved.exists_node {path : OsPath} (h : tree.Resolved path) :
    ∃ node, tree.node path = some node ∧ node.isSymlink = false := by
  cases h with
  | root => exact ⟨_, node_root, rfl⟩
  | entry hpath hbarred hdot hdotDot hnul hnode hlink => exact ⟨_, hnode, hlink⟩

theorem Resolved.dropLast {path : OsPath} (h : tree.Resolved path) :
    tree.Resolved path.dropLast := by
  cases h with
  | root => exact .root
  | entry hpath hbarred hdot hdotDot hnul hnode hlink => rwa [List.dropLast_concat]

theorem step_resolved {path p : OsPath} {name : OsStr} (hpath : tree.Resolved path)
    (h : tree.step path name = .leads p) : tree.Resolved p := by
  unfold step at h
  cases hbarred : tree.barred path with
  | some error =>
    rw [hbarred] at h
    cases h
  | none =>
    rw [hbarred, Option.elim_none] at h
    split at h
    · rw [← Step.leads.inj h]
      exact hpath
    rename_i hdot
    split at h
    · rw [← Step.leads.inj h]
      exact hpath.dropLast
    rename_i hdotDot
    split at h
    · cases h
    rename_i hnul
    cases hnode : tree.node (path ++ [name]) with
    | none =>
      rw [hnode] at h
      cases h
    | some node =>
      rw [hnode, Option.elim_some] at h
      cases htarget : node.target with
      | some target =>
        rw [htarget] at h
        cases h
      | none =>
        rw [htarget] at h
        rw [← Step.leads.inj h]
        exact .entry hpath hbarred hdot hdotDot hnul hnode (by rw [Node.isSymlink, htarget]; rfl)

theorem step_entry {path : OsPath} {name : OsStr} {node : Node} (hbarred : tree.barred path = none)
    (hdot : name ≠ dot) (hdotDot : name ≠ dotDot) (hnul : 0 ∉ name)
    (hnode : tree.node (path ++ [name]) = some node) (hlink : node.isSymlink = false) :
    tree.step path name = .leads (path ++ [name]) := by
  have htarget : node.target = none := by simpa [Node.isSymlink] using hlink
  rw [step, hbarred, Option.elim_none, if_neg hdot, if_neg hdotDot, if_neg hnul, hnode,
    Option.elim_some, htarget, Option.elim_none]

theorem walk_nil (path : OsPath) : tree.walk path [] = .arrived path := rfl

theorem walk_cons (path : OsPath) (name : OsStr) (rest : OsPath) :
    tree.walk path (name :: rest) =
      match tree.step path name with
      | .leads path => tree.walk path rest
      | .refused error => .refused error
      | .link target => .link path target rest := rfl

theorem walk_append {path names more p : OsPath} (h : tree.walk path names = .arrived p) :
    tree.walk path (names ++ more) = tree.walk p more := by
  induction names generalizing path with
  | nil =>
    rw [walk_nil, Walked.arrived.injEq] at h
    rw [List.nil_append, h]
  | cons name rest ih =>
    rw [walk_cons] at h
    rw [List.cons_append, walk_cons]
    cases hstep : tree.step path name with
    | leads next =>
      rw [hstep] at h
      exact ih h
    | refused error =>
      rw [hstep] at h
      cases h
    | link target =>
      rw [hstep] at h
      cases h

theorem walk_append_link {path names more directory rest : OsPath} {target : OsStr}
    (h : tree.walk path names = .link directory target rest) :
    tree.walk path (names ++ more) = .link directory target (rest ++ more) := by
  induction names generalizing path with
  | nil => cases h
  | cons name names ih =>
    rw [walk_cons] at h
    rw [List.cons_append, walk_cons]
    cases hstep : tree.step path name with
    | leads next =>
      rw [hstep] at h
      exact ih h
    | refused error =>
      rw [hstep] at h
      cases h
    | link target =>
      rw [hstep] at h
      cases h
      rfl

/-- A path without links leads to itself. -/
theorem walk_of_resolved {path : OsPath} (h : tree.Resolved path) :
    tree.walk [] path = .arrived path := by
  induction h with
  | root => rfl
  | entry hpath hbarred hdot hdotDot hnul hnode hlink ih =>
    rw [walk_append ih, walk_cons, step_entry hbarred hdot hdotDot hnul hnode hlink]
    rfl

/-- Where a walk arrives there is no link on the path, and none on the path of a link it meets. -/
theorem onLink_resolved {path names p : OsPath}
    {f : OsPath → OsStr → OsPath → Except IoError OsPath} (hpath : tree.Resolved path)
    (hlink : ∀ directory target rest, tree.Resolved directory → f directory target rest = .ok p →
      tree.Resolved p)
    (h : (tree.walk path names).onLink f = .ok p) : tree.Resolved p := by
  induction names generalizing path with
  | nil =>
    rw [← Except.ok.inj h]
    exact hpath
  | cons name rest ih =>
    rw [walk_cons] at h
    cases hstep : tree.step path name with
    | leads next =>
      rw [hstep] at h
      exact ih (step_resolved hpath hstep) h
    | refused error =>
      rw [hstep] at h
      cases h
    | link target =>
      rw [hstep] at h
      exact hlink path target rest hpath h

theorem follow_resolved {links : Nat} {path names p : OsPath} (hpath : tree.Resolved path)
    (h : tree.follow links path names = .ok p) : tree.Resolved p := by
  induction links generalizing path names with
  | zero =>
    apply onLink_resolved hpath _ h
    intro directory target rest _ herror
    cases herror
  | succ links ih =>
    apply onLink_resolved hpath _ h
    intro directory target rest hdirectory hnext
    refine ih ?_ hnext
    split
    · exact .root
    · exact hdirectory

theorem follow_of_resolved (links : Nat) {path : OsPath} (h : tree.Resolved path) :
    tree.follow links [] path = .ok path := by
  cases links <;> rw [follow, walk_of_resolved h] <;> rfl

/-- What comes after a path is walked from where it leads. -/
theorem follow_append {links : Nat} {path names more p q : OsPath}
    (h : tree.follow links path names = .ok p) (hmore : tree.walk p more = .arrived q) :
    tree.follow links path (names ++ more) = .ok q := by
  induction links generalizing path names with
  | zero =>
    rw [follow] at h ⊢
    cases hwalk : tree.walk path names with
    | arrived next =>
      rw [hwalk] at h
      cases h
      rw [walk_append hwalk, hmore]
      rfl
    | refused error =>
      rw [hwalk] at h
      cases h
    | link directory target rest =>
      rw [hwalk] at h
      cases h
  | succ links ih =>
    rw [follow] at h ⊢
    cases hwalk : tree.walk path names with
    | arrived next =>
      rw [hwalk] at h
      cases h
      rw [walk_append hwalk, hmore]
      rfl
    | refused error =>
      rw [hwalk] at h
      cases h
    | link directory target rest =>
      rw [hwalk] at h
      rw [walk_append_link hwalk]
      have hnext := ih h
      rwa [List.append_assoc] at hnext

theorem Resolved.no_nul {path : OsPath} (h : tree.Resolved path) :
    path.any (fun name => 0 ∈ name) = false := by
  induction h with
  | root => rfl
  | entry hpath hbarred hdot hdotDot hnul hnode hlink ih =>
    simp [List.any_append, ih, hnul]

theorem resolved_of_resolve {path p : OsPath} (h : tree.resolve path = .ok p) :
    tree.Resolved p := by
  unfold resolve at h
  split at h
  · cases h
  · exact follow_resolved .root h

/-- A path without links leads to itself. -/
theorem resolve_of_resolved {path : OsPath} (h : tree.Resolved path) :
    tree.resolve path = .ok path := by
  rw [resolve, h.no_nul, if_neg Bool.false_ne_true]
  exact follow_of_resolved linkLimit h

/-- A canonical path is canonical. -/
theorem resolve_resolve {path p : OsPath} (h : tree.resolve path = .ok p) :
    tree.resolve p = .ok p :=
  resolve_of_resolved (resolved_of_resolve h)

/-- A name that is no link extends where the path leads. -/
theorem resolve_concat {path d : OsPath} {name : OsStr} {node : Node}
    (hpath : tree.resolve path = .ok d) (hbarred : tree.barred d = none) (hdot : name ≠ dot)
    (hdotDot : name ≠ dotDot) (hnul : 0 ∉ name) (hnode : tree.node (d ++ [name]) = some node)
    (hlink : node.isSymlink = false) : tree.resolve (path ++ [name]) = .ok (d ++ [name]) := by
  unfold resolve at hpath ⊢
  split at hpath
  · cases hpath
  · rename_i hany
    have hany' : ¬ ((path ++ [name]).any fun name => 0 ∈ name) = true := by
      simpa [List.any_append, hnul] using hany
    rw [if_neg hany']
    apply follow_append hpath
    rw [walk_cons, step_entry hbarred hdot hdotDot hnul hnode hlink]
    rfl

/-! ## What the calls return -/

theorem metadata_of_resolved {path : OsPath} {node : Node} (h : tree.Resolved path)
    (hnode : tree.node path = some node) : tree.metadata path = .ok node := by
  rw [metadata, resolve_of_resolved h]
  show (tree.node path).elim _ _ = _
  rw [hnode, Option.elim_some]

/-- A file is read from the node that the path leads to. -/
theorem read_eq_ok {path : OsPath} {content : Bytes} : tree.read path = .ok content ↔
    ∃ p permissions, tree.resolve path = .ok p ∧
      tree.node p = some (.file content permissions) ∧ permissions.readable = true := by
  unfold read metadata
  cases hresolve : tree.resolve path with
  | error e => simp [bind, Except.bind]
  | ok p =>
    cases hnode : tree.node p with
    | none => simp [bind, Except.bind, hnode]
    | some node =>
      cases node with
      | file stored permissions =>
        cases hreadable : permissions.readable with
        | false =>
          simp only [bind, Except.bind, hnode, hreadable, Option.elim_some]
          constructor
          · intro h
            cases h
          · intro h
            obtain ⟨q, permissions', hq, hfile, hreadable'⟩ := h
            cases hq
            rw [hnode, Option.some.injEq, Node.file.injEq] at hfile
            rw [← hfile.2, hreadable] at hreadable'
            cases hreadable'
        | true =>
          simp only [bind, Except.bind, hnode, hreadable, Option.elim_some, if_true,
            Except.ok.injEq]
          constructor
          · intro h
            exact ⟨p, permissions, rfl, h ▸ hnode, hreadable⟩
          · intro h
            obtain ⟨q, permissions', rfl, hfile, -⟩ := h
            rw [hnode, Option.some.injEq, Node.file.injEq] at hfile
            exact hfile.1
      | directory size access => simp [bind, Except.bind, hnode]
      | symlink target => simp [bind, Except.bind, hnode]

theorem mem_children {path : OsPath} {name : OsStr} :
    name ∈ tree.children path ↔ isName name ∧ (tree.nodes.lookup (path ++ [name])).isSome := by
  rw [AList.lookup_isSome, children, List.mem_filter, List.mem_filterMap, and_comm]
  refine and_congr_right fun _ => ⟨fun h => ?_, fun h => ⟨path ++ [name], h, by simp⟩⟩
  obtain ⟨key, hkey, hname⟩ := h
  split at hname
  · rename_i hparent
    obtain ⟨front, rfl⟩ := List.getLast?_eq_some_iff.1 hname
    rw [List.dropLast_concat] at hparent
    exact hparent ▸ hkey
  · cases hname

theorem nodup_children (path : OsPath) : (tree.children path).Nodup := by
  refine (tree.nodes.keys_nodup.filterMap ?_).filter _
  intro key key' name hname hname'
  simp only [Option.mem_def] at hname hname'
  split at hname
  · rename_i hkey
    split at hname'
    · rename_i hkey'
      obtain ⟨front, rfl⟩ := List.getLast?_eq_some_iff.1 hname
      obtain ⟨front', rfl⟩ := List.getLast?_eq_some_iff.1 hname'
      rw [List.dropLast_concat] at hkey hkey'
      rw [hkey, hkey']
    · cases hname'
  · cases hname

theorem node_concat (path : OsPath) (name : OsStr) :
    tree.node (path ++ [name]) = tree.nodes.lookup (path ++ [name]) := by
  rw [node, if_neg (by simp)]

theorem readDir_children {path : OsPath} {names : List OsStr} (h : tree.readDir path = .ok names) :
    ∃ p size access, tree.resolve path = .ok p ∧ tree.node p = some (.directory size access) ∧
      names = tree.children p := by
  unfold readDir at h
  cases hresolve : tree.resolve path with
  | error e =>
    rw [hresolve] at h
    cases h
  | ok p =>
    rw [hresolve] at h
    cases hnode : tree.node p with
    | none => simp [bind, Except.bind, hnode] at h
    | some node =>
      cases node with
      | file content permissions => simp [bind, Except.bind, hnode] at h
      | symlink target => simp [bind, Except.bind, hnode] at h
      | directory size access =>
        cases hlist : access.list with
        | false => simp [bind, Except.bind, hnode, hlist] at h
        | true =>
          simp only [bind, Except.bind, hnode, hlist, if_true, Except.ok.injEq] at h
          exact ⟨p, size, access, rfl, hnode, h.symm⟩

/-- The listing of a directory names what is in it. -/
theorem readDir_eq_ok {path : OsPath} {names : List OsStr} (h : tree.readDir path = .ok names) :
    ∃ p size access, tree.resolve path = .ok p ∧ tree.node p = some (.directory size access) ∧
      ∀ name, name ∈ names ↔ isName name ∧ (tree.node (p ++ [name])).isSome := by
  obtain ⟨p, size, access, hresolve, hnode, rfl⟩ := readDir_children h
  refine ⟨p, size, access, hresolve, hnode, fun name => ?_⟩
  rw [mem_children, node_concat]

/-- What a path leads to is there. -/
theorem readDir_ne_notFound {path p : OsPath} (h : tree.resolve path = .ok p) :
    tree.readDir path ≠ .error .notFound := by
  intro hmissing
  obtain ⟨node, hnode, -⟩ := (resolved_of_resolve h).exists_node
  rw [readDir, h] at hmissing
  cases node with
  | file content permissions => simp [bind, Except.bind, hnode] at hmissing
  | symlink target => simp [bind, Except.bind, hnode] at hmissing
  | directory size access =>
    simp only [bind, Except.bind, hnode] at hmissing
    split at hmissing <;> cases hmissing

/-- A name is found in the directory that the path leads to, and not followed. -/
theorem locate_concat {path d : OsPath} {name : OsStr} (hpath : tree.resolve path = .ok d)
    (hdot : name ≠ dot) (hdotDot : name ≠ dotDot) (hnul : 0 ∉ name) :
    tree.locate (path ++ [name]) = (tree.barred d).elim
      (if (tree.node (d ++ [name])).isSome then .ok (d ++ [name]) else .error .notFound)
      .error := by
  rw [locate, List.getLast?_concat, Option.elim_some, if_neg (by simp [hdot, hdotDot, hnul]),
    List.dropLast_concat, hpath]
  rfl

theorem symlinkMetadata_concat {path d : OsPath} {name : OsStr} {node : Node}
    (hpath : tree.resolve path = .ok d) (hdot : name ≠ dot) (hdotDot : name ≠ dotDot)
    (hnul : 0 ∉ name) : tree.symlinkMetadata (path ++ [name]) = .ok node ↔
      tree.barred d = none ∧ tree.node (d ++ [name]) = some node := by
  rw [symlinkMetadata, locate_concat hpath hdot hdotDot hnul]
  cases hbarred : tree.barred d with
  | some error => simp [bind, Except.bind]
  | none =>
    cases hnode : tree.node (d ++ [name]) with
    | none => simp [bind, Except.bind]
    | some node' => simp [bind, Except.bind, hnode]

theorem symlinkMetadata_eq_ok {path : OsPath} {node : Node} :
    tree.symlinkMetadata path = .ok node ↔
      ∃ p, tree.locate path = .ok p ∧ tree.node p = some node := by
  rw [symlinkMetadata]
  cases hlocate : tree.locate path with
  | error error => simp [bind, Except.bind]
  | ok p =>
    cases hnode : tree.node p with
    | none => simp [bind, Except.bind, hnode]
    | some node' => simp [bind, Except.bind, hnode]

/-- What is found without following a link, and is none, is what the path leads to. -/
theorem resolve_of_locate {path p : OsPath} {node : Node} (h : tree.locate path = .ok p)
    (hnode : tree.node p = some node) (hlink : node.isSymlink = false) :
    tree.resolve path = .ok p := by
  rcases List.eq_nil_or_concat path with rfl | ⟨front, name, rfl⟩
  · cases h
    exact resolve_of_resolved .root
  rw [List.concat_eq_append] at h ⊢
  rw [locate, List.getLast?_concat, Option.elim_some] at h
  split at h
  · exact h
  · rename_i hname
    rw [not_or, not_or] at hname
    rw [List.dropLast_concat] at h
    cases hparent : tree.resolve front with
    | error error =>
      rw [hparent] at h
      cases h
    | ok parent =>
      rw [hparent] at h
      cases hbarred : tree.barred parent with
      | some error =>
        simp [bind, Except.bind, hbarred] at h
      | none =>
        simp only [bind, Except.bind, hbarred, Option.elim_none] at h
        split at h
        · cases h
          exact resolve_concat hparent hbarred hname.1 hname.2.1 hname.2.2 hnode hlink
        · cases h

theorem isName_spec {name : OsStr} (h : isName name = true) :
    name ≠ dot ∧ name ≠ dotDot ∧ 0 ∉ name := by
  rw [isName, decide_eq_true_eq] at h
  exact ⟨h.2.1, h.2.2.1, h.2.2.2.2⟩

/-- A path with a name that no call takes is not read. -/
theorem read_of_nul {path : OsPath} {name : OsStr} (hnul : 0 ∈ name) :
    tree.read (path ++ [name]) = .error .invalidInput := by
  have hany : ((path ++ [name]).any fun name => 0 ∈ name) = true := by
    simp [List.any_append, hnul]
  rw [read, metadata, resolve, if_pos hany]
  rfl

/-- A directory is not read. -/
theorem read_of_directory {path : OsPath} {size : Nat} {access : DirectoryAccess}
    (h : tree.Resolved path) (hnode : tree.node path = some (.directory size access)) :
    tree.read path = .error .isADirectory := by
  rw [read, metadata_of_resolved h hnode]
  rfl

/-- What can be searched is a directory. -/
theorem directory_of_barred {path : OsPath} (h : tree.barred path = none) :
    ∃ size access, tree.node path = some (.directory size access) := by
  unfold barred at h
  cases hnode : tree.node path with
  | none =>
    rw [hnode] at h
    cases h
  | some node =>
    rw [hnode] at h
    cases node with
    | file content permissions => cases h
    | directory size access => exact ⟨size, access, rfl⟩
    | symlink target => cases h

/-- What cannot be searched leads nowhere. -/
theorem resolve_barred {path : OsPath} {name : OsStr} {error : IoError} (hpath : tree.Resolved path)
    (hbarred : tree.barred path = some error) (hnul : 0 ∉ name) :
    tree.resolve (path ++ [name]) = .error error := by
  have hnone : ((path ++ [name]).any fun name => 0 ∈ name) = false := by
    rw [List.any_append, hpath.no_nul]
    simpa using hnul
  rw [resolve, hnone, if_neg Bool.false_ne_true, linkLimit, follow,
    walk_append (walk_of_resolved hpath), walk, step, hbarred]
  rfl

/-- A name that is not there leads nowhere. -/
theorem resolve_free {path : OsPath} {name : OsStr} (hpath : tree.Resolved path)
    (hbarred : tree.barred path = none) (hdot : name ≠ dot) (hdotDot : name ≠ dotDot)
    (hnul : 0 ∉ name) (hfree : tree.node (path ++ [name]) = none) :
    tree.resolve (path ++ [name]) = .error .notFound := by
  have hnone : ((path ++ [name]).any fun name => 0 ∈ name) = false := by
    rw [List.any_append, hpath.no_nul]
    simpa using hnul
  rw [resolve, hnone, if_neg Bool.false_ne_true, linkLimit, follow,
    walk_append (walk_of_resolved hpath), walk, step, hbarred, Option.elim_none, if_neg hdot,
    if_neg hdotDot, if_neg hnul, hfree]
  rfl

theorem read_of_unresolved {path : OsPath} {error : IoError}
    (h : tree.resolve path = .error error) :
    tree.read path = .error error := by
  rw [read, metadata, h]
  rfl

theorem read_of_file {path : OsPath} {content : Bytes} {permissions : FilePermissions}
    (h : tree.Resolved path) (hnode : tree.node path = some (.file content permissions)) :
    tree.read path = if permissions.readable then .ok content else .error .permissionDenied := by
  rw [read, metadata_of_resolved h hnode]
  rfl

/-- Nothing is missing on a path without links. -/
theorem Resolved.barred_ne_notFound {path : OsPath} (h : tree.Resolved path) :
    tree.barred path ≠ some .notFound := by
  obtain ⟨node, hnode, -⟩ := h.exists_node
  rw [barred, hnode]
  cases node with
  | file content permissions => simp
  | directory size access => cases hsearch : access.search <;> simp [hsearch]
  | symlink target => simp

/-! ## Changes -/

theorem node_insert_self {path : OsPath} (h : path ≠ []) (node : Node) :
    (tree.insert path node).node path = some node := by
  rw [FileTree.node, if_neg h]
  exact AList.lookup_insert _

theorem node_insert_ne {path q : OsPath} (h : q ≠ path) (node : Node) :
    (tree.insert path node).node q = tree.node q := by
  rw [FileTree.node, FileTree.node]
  split
  · rfl
  · exact AList.lookup_insert_ne h

theorem node_erase_ne {path q : OsPath} (h : q ≠ path) :
    (tree.erase path).node q = tree.node q := by
  rw [FileTree.node, FileTree.node]
  split
  · rfl
  · exact AList.lookup_erase_ne h

theorem node_erase_self {path : OsPath} (h : path ≠ []) : (tree.erase path).node path = none := by
  rw [FileTree.node, if_neg h]
  exact AList.lookup_erase ..

/-- What becomes of a path depends on the nodes along it. -/
theorem Resolved.congr {tree' : FileTree} {path : OsPath} (h : tree.Resolved path)
    (hsame : ∀ q, q <+: path → tree'.node q = tree.node q) : tree'.Resolved path := by
  induction h with
  | root => exact .root
  | @entry path name node hpath hbarred hdot hdotDot hnul hnode hlink ih =>
    have hpre : path <+: path ++ [name] := List.prefix_append _ _
    refine .entry (ih fun q hq => hsame q (hq.trans hpre)) ?_ hdot hdotDot hnul ?_ hlink
    · rw [barred, hsame path hpre]
      exact hbarred
    · rw [hsame _ (List.prefix_refl _)]
      exact hnode

end FileTree

end Lib
