import LeaveCli.Host.ProjectSkills
import LeaveCli.Lib.Results

/-!
# Which skills a project shows

Only the last two names on the way to a manifest are checked for links, and the entry's name not
even when a slash follows it. So a listing shows the skills in whatever directories the documented
paths lead to (`mem_projectSkills`), and `show_project_skill` the first skill the name leads to
(`showProjectSkill_eq_ok`): `project_skills_contained_iff` says on which trees these are all in the
workspace.
-/

namespace LeaveCli.Host

open Lib

variable {tree : FileTree} {workspace : OsPath}

/-- A directory with a regular `SKILL.md`. -/
def IsSkill (tree : FileTree) (directory : OsPath) : Prop :=
  tree.barred directory = none ∧
    ∃ content permissions, tree.node (directory ++ [skillManifest]) =
      some (.file content permissions)

/-- A manifest that leads to a place in the workspace. -/
def Contained (tree : FileTree) (workspace manifest : OsPath) : Prop :=
  ∃ path, tree.resolve manifest = .ok path ∧ workspace <+: path

theorem isName_skillManifest :
    skillManifest ≠ dot ∧ skillManifest ≠ dotDot ∧ (0 : UInt8) ∉ skillManifest := by
  decide

theorem exists_file {node : Node} (h : node.isFile = true) :
    ∃ content permissions, node = .file content permissions := by
  cases node with
  | file content permissions => exact ⟨content, permissions, rfl⟩
  | directory size access => cases h
  | symlink target => cases h

theorem not_symlink_of_isDirectory {node : Node} (h : node.isDirectory = true) :
    node.isSymlink = false := by
  cases node with
  | file content permissions => cases h
  | directory size access => rfl
  | symlink target => cases h

/-- The manifest of a directory that is no link is no link: it leads to the file it names. -/
theorem resolve_manifest {path directory : OsPath} (hpath : tree.resolve path = .ok directory)
    (hskill : IsSkill tree directory) :
    tree.resolve (path ++ [skillManifest]) = .ok (directory ++ [skillManifest]) := by
  obtain ⟨hbarred, content, permissions, hnode⟩ := hskill
  obtain ⟨hdot, hdotDot, hnul⟩ := isName_skillManifest
  exact FileTree.resolve_concat hpath hbarred hdot hdotDot hnul hnode rfl

theorem contained_iff {path directory : OsPath} (hpath : tree.resolve path = .ok directory)
    (hskill : IsSkill tree directory) :
    Contained tree workspace (path ++ [skillManifest]) ↔
      workspace <+: directory ++ [skillManifest] := by
  have hresolve := resolve_manifest hpath hskill
  constructor
  · intro h
    obtain ⟨p, hp, hunder⟩ := h
    rw [hresolve, Except.ok.injEq] at hp
    rwa [hp]
  · intro hunder
    exact ⟨_, hresolve, hunder⟩

/-! ## Listing -/

/-- A skills directory that cannot be listed makes the listing fail. -/
def Unlistable (tree : FileTree) (directory : OsPath) : Prop :=
  (∃ error, tree.readDir directory = .error error ∧ error ≠ .notFound) ∨
    ∃ names path, tree.readDir directory = .ok names ∧ names ≠ [] ∧
      tree.resolve directory = .ok path ∧ tree.barred path ≠ none

section Entry

variable {directory d : OsPath} {relative : Str} {osName : OsStr}

theorem listedSkill_barred {skill : Option ListedSkill}
    (hdirectory : tree.resolve directory = .ok d) (hname : isName osName = true)
    (h : listedSkill tree directory relative osName = .ok skill) : tree.barred d = none := by
  obtain ⟨metadata, hmetadata, -⟩ := map_eq_ok.1 h
  obtain ⟨hdot, hdotDot, hnul⟩ := FileTree.isName_spec hname
  exact ((FileTree.symlinkMetadata_concat hdirectory hdot hdotDot hnul).1 hmetadata).1

theorem listedSkill_total {node : Node} (hdirectory : tree.resolve directory = .ok d)
    (hname : isName osName = true) (hbarred : tree.barred d = none)
    (hnode : tree.node (d ++ [osName]) = some node) :
    ∃ skill, listedSkill tree directory relative osName = .ok skill := by
  obtain ⟨hdot, hdotDot, hnul⟩ := FileTree.isName_spec hname
  have hmetadata := (FileTree.symlinkMetadata_concat hdirectory hdot hdotDot hnul).2
    ⟨hbarred, hnode⟩
  exact ⟨_, map_eq_ok.2 ⟨node, hmetadata, rfl⟩⟩

/-- An entry that is a directory leads to where it is. -/
theorem resolve_entry {node : Node} (hdirectory : tree.resolve directory = .ok d)
    (hname : isName osName = true) (hbarred : tree.barred d = none)
    (hnode : tree.node (d ++ [osName]) = some node) (hnot : node.isDirectory = true) :
    tree.resolve (directory ++ [osName]) = .ok (d ++ [osName]) := by
  obtain ⟨hdot, hdotDot, hnul⟩ := FileTree.isName_spec hname
  exact FileTree.resolve_concat hdirectory hbarred hdot hdotDot hnul hnode
    (not_symlink_of_isDirectory hnot)

theorem listedManifest_eq_some {path p : OsPath} {listed : ListedSkill}
    (hpath : tree.resolve path = .ok p) :
    listedManifest tree path relative osName = some listed → IsSkill tree p ∧
      listed.manifest = path ++ [skillManifest] := by
  intro h
  obtain ⟨metadata, hmetadata, h⟩ := Option.bind_eq_some_iff.1 h
  rw [toOption_eq_some] at hmetadata
  obtain ⟨hdot, hdotDot, hnul⟩ := isName_skillManifest
  obtain ⟨hbarred, hnode⟩ := (FileTree.symlinkMetadata_concat hpath hdot hdotDot hnul).1 hmetadata
  split at h
  · cases h
  · rename_i hfile
    rw [not_or] at hfile
    obtain ⟨content, permissions, rfl⟩ := exists_file (by simpa using hfile.2)
    cases h
    exact ⟨⟨hbarred, content, permissions, hnode⟩, rfl⟩

theorem listedManifest_of_isSkill (relative : Str) (osName : OsStr) {path p : OsPath}
    (hpath : tree.resolve path = .ok p) (hskill : IsSkill tree p) :
    ∃ listed, listedManifest tree path relative osName = some listed := by
  obtain ⟨hbarred, content, permissions, hnode⟩ := hskill
  obtain ⟨hdot, hdotDot, hnul⟩ := isName_skillManifest
  have hmetadata := (FileTree.symlinkMetadata_concat hpath hdot hdotDot hnul).2 ⟨hbarred, hnode⟩
  rw [listedManifest, hmetadata]
  exact ⟨_, rfl⟩

/-- An entry that is listed leads to the skill it names. -/
theorem listedSkill_eq_some {listed : ListedSkill} (hdirectory : tree.resolve directory = .ok d)
    (hname : isName osName = true)
    (h : listedSkill tree directory relative osName = .ok (some listed)) :
    IsSkill tree (d ++ [osName]) ∧ tree.resolve (directory ++ [osName]) = .ok (d ++ [osName]) ∧
      listed.manifest = directory ++ [osName] ++ [skillManifest] := by
  obtain ⟨metadata, hmetadata, hlisted⟩ := map_eq_ok.1 h
  obtain ⟨hdot, hdotDot, hnul⟩ := FileTree.isName_spec hname
  obtain ⟨hbarred, hnode⟩ :=
    (FileTree.symlinkMetadata_concat hdirectory hdot hdotDot hnul).1 hmetadata
  split at hlisted
  · cases hlisted
  · rename_i hentry
    rw [not_or] at hentry
    have hresolve := resolve_entry hdirectory hname hbarred hnode (by simpa using hentry.2)
    obtain ⟨hskill, hmanifest⟩ := listedManifest_eq_some hresolve hlisted
    exact ⟨hskill, hresolve, hmanifest⟩

theorem listedSkill_of_isSkill (relative : Str) (hdirectory : tree.resolve directory = .ok d)
    (hname : isName osName = true) (hbarred : tree.barred d = none)
    (hskill : IsSkill tree (d ++ [osName])) :
    ∃ listed, listedSkill tree directory relative osName = .ok (some listed) := by
  obtain ⟨size, access, hnode⟩ := FileTree.directory_of_barred hskill.1
  obtain ⟨hdot, hdotDot, hnul⟩ := FileTree.isName_spec hname
  have hmetadata := (FileTree.symlinkMetadata_concat hdirectory hdot hdotDot hnul).2
    ⟨hbarred, hnode⟩
  have hresolve := resolve_entry hdirectory hname hbarred hnode rfl
  obtain ⟨listed, hlisted⟩ :=
    listedManifest_of_isSkill relative osName hresolve hskill
  exact ⟨listed, map_eq_ok.2 ⟨_, hmetadata, hlisted⟩⟩

end Entry

section Directory

variable {directory : OsPath} {relative : Str} {skills : List ListedSkill}

/-- A listing that returns has listed an existing directory, or there is none. -/
theorem skillsIn_cases (h : skillsIn tree directory relative = .ok skills) :
    (tree.readDir directory = .error .notFound ∧ skills = []) ∨
      ∃ names found, tree.readDir directory = .ok names ∧
        names.mapM (listedSkill tree directory relative) = .ok found ∧
          skills = found.reduceOption := by
  unfold skillsIn at h
  split at h
  · rename_i names hnames
    obtain ⟨found, hfound, hskills⟩ := map_eq_ok.1 h
    exact .inr ⟨names, found, hnames, hfound, hskills.symm⟩
  · rename_i hmissing
    exact .inl ⟨hmissing, (Except.ok.inj h).symm⟩
  · cases h

theorem mem_skillsIn (h : skillsIn tree directory relative = .ok skills) {listed : ListedSkill}
    (hlisted : listed ∈ skills) :
    ∃ d osName, tree.resolve directory = .ok d ∧ isName osName = true ∧
      IsSkill tree (d ++ [osName]) ∧
        tree.resolve (directory ++ [osName]) = .ok (d ++ [osName]) ∧
          listed.manifest = directory ++ [osName] ++ [skillManifest] := by
  rcases skillsIn_cases h with ⟨-, rfl⟩ | ⟨names, found, hnames, hfound, rfl⟩
  · cases hlisted
  obtain ⟨d, size, access, hresolve, -, hmem⟩ := FileTree.readDir_eq_ok hnames
  rw [List.reduceOption_mem_iff] at hlisted
  obtain ⟨osName, hosName, hentry⟩ := exists_of_mapM_eq_ok hfound _ hlisted
  have hname := ((hmem osName).1 hosName).1
  obtain ⟨hskill, hentry', hmanifest⟩ := listedSkill_eq_some hresolve hname hentry
  exact ⟨d, osName, hresolve, hname, hskill, hentry', hmanifest⟩

theorem exists_mem_skillsIn (h : skillsIn tree directory relative = .ok skills) {d : OsPath}
    {osName : OsStr} (hresolve : tree.resolve directory = .ok d)
    (hname : isName osName = true) (hskill : IsSkill tree (d ++ [osName])) :
    ∃ listed ∈ skills, tree.resolve (directory ++ [osName]) = .ok (d ++ [osName]) ∧
      listed.manifest = directory ++ [osName] ++ [skillManifest] := by
  obtain ⟨size, access, hnode⟩ := FileTree.directory_of_barred hskill.1
  rcases skillsIn_cases h with ⟨hmissing, rfl⟩ | ⟨names, found, hnames, hfound, rfl⟩
  · exact absurd hmissing (FileTree.readDir_ne_notFound hresolve)
  obtain ⟨d', size', access', hresolve', -, hmem⟩ := FileTree.readDir_eq_ok hnames
  rw [hresolve, Except.ok.injEq] at hresolve'
  subst hresolve'
  have hosName : osName ∈ names := (hmem osName).2 ⟨hname, by rw [hnode]; rfl⟩
  obtain ⟨entry, hentry, hcall⟩ := forall_of_mapM_eq_ok hfound osName hosName
  have hbarred := listedSkill_barred hresolve hname hcall
  obtain ⟨listed, hlisted⟩ := listedSkill_of_isSkill relative hresolve hname hbarred hskill
  rw [hlisted, Except.ok.injEq] at hcall
  subst hcall
  obtain ⟨-, hentry', hmanifest⟩ := listedSkill_eq_some hresolve hname hlisted
  exact ⟨listed, List.reduceOption_mem_iff.2 hentry, hentry', hmanifest⟩

theorem listable_of_skillsIn (h : skillsIn tree directory relative = .ok skills) :
    ¬ Unlistable tree directory := by
  intro hunlistable
  rcases skillsIn_cases h with ⟨hmissing, -⟩ | ⟨names, found, hnames, hfound, -⟩
  · rcases hunlistable with ⟨error, herror, hne⟩ | ⟨names, path, hnames, -⟩
    · rw [hmissing, Except.error.injEq] at herror
      exact hne herror.symm
    · rw [hmissing] at hnames
      cases hnames
  · rcases hunlistable with ⟨error, herror, -⟩ | ⟨names', path, hnames', hne, hresolve, hbarred⟩
    · rw [hnames] at herror
      cases herror
    · rw [hnames, Except.ok.injEq] at hnames'
      subst hnames'
      obtain ⟨osName, hosName⟩ := List.exists_mem_of_ne_nil names hne
      obtain ⟨d, size, access, hresolve', -, hmem⟩ := FileTree.readDir_eq_ok hnames
      rw [hresolve, Except.ok.injEq] at hresolve'
      subst hresolve'
      obtain ⟨entry, -, hcall⟩ := forall_of_mapM_eq_ok hfound osName hosName
      exact hbarred (listedSkill_barred hresolve ((hmem osName).1 hosName).1 hcall)

theorem skillsIn_total (h : ¬ Unlistable tree directory) :
    ∃ skills, skillsIn tree directory relative = .ok skills := by
  rw [Unlistable, not_or] at h
  obtain ⟨hreadable, hsearchable⟩ := h
  unfold skillsIn
  cases hnames : tree.readDir directory with
  | error error =>
    have hmissing : error = .notFound := by
      by_contra hne
      exact hreadable ⟨error, hnames, hne⟩
    subst hmissing
    exact ⟨[], rfl⟩
  | ok names =>
    obtain ⟨d, size, access, hresolve, -, hmem⟩ := FileTree.readDir_eq_ok hnames
    have htotal : ∀ osName ∈ names, ∃ skill,
        listedSkill tree directory relative osName = .ok skill := by
      intro osName hosName
      obtain ⟨hname, hsome⟩ := (hmem osName).1 hosName
      obtain ⟨node, hnode⟩ := Option.isSome_iff_exists.1 hsome
      have hbarred : tree.barred d = none := by
        by_contra hbarred
        exact hsearchable ⟨names, d, hnames, List.ne_nil_of_mem hosName, hresolve, hbarred⟩
      exact listedSkill_total hresolve hname hbarred hnode
    obtain ⟨found, hfound⟩ := exists_mapM_eq_ok htotal
    exact ⟨_, map_eq_ok.2 ⟨found, hfound, rfl⟩⟩

end Directory

/-- The skills in the directories that the documented paths lead to are in the workspace, or one of
these directories cannot be listed. -/
def ListedInside (tree : FileTree) (workspace : OsPath) : Prop :=
  (∃ relative ∈ projectSkillPaths, Unlistable tree (joinOs workspace relative.utf8)) ∨
    ∀ relative ∈ projectSkillPaths, ∀ d osName,
      tree.resolve (joinOs workspace relative.utf8) = .ok d → isName osName = true →
        IsSkill tree (d ++ [osName]) → workspace <+: d ++ [osName] ++ [skillManifest]

theorem projectSkills_inside_iff :
    (∀ skills, projectSkills tree workspace = .ok skills →
      ∀ listed ∈ skills, Contained tree workspace listed.manifest) ↔
        ListedInside tree workspace := by
  constructor
  · intro hcontained
    by_cases hunlistable :
        ∃ relative ∈ projectSkillPaths, Unlistable tree (joinOs workspace relative.utf8)
    · exact .inl hunlistable
    refine .inr fun relative hrelative d osName hresolve hname hskill => ?_
    have htotal : ∀ relative ∈ projectSkillPaths, ∃ skills,
        skillsIn tree (joinOs workspace relative.utf8) relative = .ok skills := by
      intro relative hrelative
      exact skillsIn_total fun h => hunlistable ⟨relative, hrelative, h⟩
    obtain ⟨found, hfound⟩ := exists_mapM_eq_ok htotal
    obtain ⟨skills, hskills, hcall⟩ := forall_of_mapM_eq_ok hfound relative hrelative
    obtain ⟨listed, hlisted, hentry, hmanifest⟩ := exists_mem_skillsIn hcall hresolve hname hskill
    have hall := hcontained found.flatten (map_eq_ok.2 ⟨found, hfound, rfl⟩) listed
      (List.mem_flatten.2 ⟨skills, hskills, hlisted⟩)
    rw [hmanifest] at hall
    exact (contained_iff hentry hskill).1 hall
  · intro hinside skills hskills listed hlisted
    obtain ⟨found, hfound, rfl⟩ := map_eq_ok.1 hskills
    obtain ⟨some_, hsome, hmem⟩ := List.mem_flatten.1 hlisted
    obtain ⟨relative, hrelative, hcall⟩ := exists_of_mapM_eq_ok hfound _ hsome
    obtain ⟨d, osName, hresolve, hname, hskill, hentry, hmanifest⟩ := mem_skillsIn hcall hmem
    rw [hmanifest, contained_iff hentry hskill]
    rcases hinside with ⟨unlistable, hunlistable, hnot⟩ | hinside
    · obtain ⟨skills, -, hcall⟩ := forall_of_mapM_eq_ok hfound unlistable hunlistable
      exact absurd hnot (listable_of_skillsIn hcall)
    · exact hinside relative hrelative d osName hresolve hname hskill

/-! ## Showing -/

/-- A path that leads to a skill with a manifest of a size that is shown. -/
def LeadsToSkill (tree : FileTree) (path directory : OsPath) : Prop :=
  tree.locate path = .ok directory ∧ tree.barred directory = none ∧
    ∃ content permissions, tree.node (directory ++ [skillManifest]) =
      some (.file content permissions) ∧ content.length ≤ maxOutput

theorem LeadsToSkill.isSkill {path directory : OsPath} (h : LeadsToSkill tree path directory) :
    IsSkill tree directory := by
  obtain ⟨-, hbarred, content, permissions, hnode, -⟩ := h
  exact ⟨hbarred, content, permissions, hnode⟩

theorem LeadsToSkill.resolve {path directory : OsPath} (h : LeadsToSkill tree path directory) :
    tree.resolve path = .ok directory := by
  obtain ⟨size, access, hnode⟩ := FileTree.directory_of_barred h.2.1
  exact FileTree.resolve_of_locate h.1 hnode rfl

theorem skillAt_eq_some {path manifest : OsPath} : skillAt tree path = some manifest ↔
    manifest = path ++ [skillManifest] ∧ ∃ directory, LeadsToSkill tree path directory := by
  obtain ⟨hdot, hdotDot, hnul⟩ := isName_skillManifest
  unfold skillAt
  constructor
  · intro h
    obtain ⟨metadata, hmetadata, h⟩ := Option.bind_eq_some_iff.1 h
    obtain ⟨directory, hlocate, hnode⟩ :=
      FileTree.symlinkMetadata_eq_ok.1 (toOption_eq_some.1 hmetadata)
    split at h
    · cases h
    rename_i hdirectory
    rw [not_or] at hdirectory
    have hresolve := FileTree.resolve_of_locate hlocate hnode (by simpa using hdirectory.1)
    obtain ⟨file, hfile, h⟩ := Option.bind_eq_some_iff.1 h
    obtain ⟨hbarred, hmanifest⟩ := (FileTree.symlinkMetadata_concat hresolve hdot hdotDot hnul).1
      (toOption_eq_some.1 hfile)
    split at h
    · cases h
    rename_i hshown
    rw [not_or, not_or] at hshown
    obtain ⟨content, permissions, rfl⟩ := exists_file (by simpa using hshown.2.1)
    have hsize : content.length ≤ maxOutput := Nat.le_of_not_lt hshown.2.2
    exact ⟨(Option.some.inj h).symm, directory, hlocate, hbarred, content, permissions, hmanifest,
      hsize⟩
  · intro h
    obtain ⟨rfl, directory, hleads⟩ := h
    have hresolve := hleads.resolve
    obtain ⟨hlocate, hbarred, content, permissions, hmanifest, hsize⟩ := hleads
    obtain ⟨size, access, hnode⟩ := FileTree.directory_of_barred hbarred
    have hdirectory := FileTree.symlinkMetadata_eq_ok.2 ⟨directory, hlocate, hnode⟩
    have hfile := (FileTree.symlinkMetadata_concat hresolve hdot hdotDot hnul).2
      ⟨hbarred, hmanifest⟩
    rw [hdirectory]
    show ((tree.symlinkMetadata (path ++ [skillManifest])).toOption.bind _) = _
    rw [hfile]
    show (if _ then none else some _) = some _
    rw [if_neg]
    rw [not_or, not_or]
    exact ⟨Bool.false_ne_true, Bool.false_ne_true, Nat.not_lt.2 hsize⟩

/-- The manifest of a skill can be read as text. -/
def ReadsAsText (tree : FileTree) (directory : OsPath) : Prop :=
  ∃ content permissions output, tree.node (directory ++ [skillManifest]) =
    some (.file content permissions) ∧ permissions.readable = true ∧
      Str.fromUtf8 content = some output

theorem read_manifest {path directory : OsPath} (hpath : tree.resolve path = .ok directory)
    (hskill : IsSkill tree directory) :
    (∃ output, (tree.read (path ++ [skillManifest])).toOption.bind Str.fromUtf8 = some output) ↔
      ReadsAsText tree directory := by
  have hresolve := resolve_manifest hpath hskill
  obtain ⟨-, content, permissions, hnode⟩ := hskill
  constructor
  · intro h
    obtain ⟨output, houtput⟩ := h
    obtain ⟨bytes, hbytes, htext⟩ := Option.bind_eq_some_iff.1 houtput
    obtain ⟨p, permissions', hp, hfile, hreadable⟩ :=
      FileTree.read_eq_ok.1 (toOption_eq_some.1 hbytes)
    rw [hresolve, Except.ok.injEq] at hp
    subst hp
    exact ⟨bytes, permissions', output, hfile, hreadable, htext⟩
  · intro h
    obtain ⟨bytes, permissions', output, hfile, hreadable, htext⟩ := h
    have hread := FileTree.read_eq_ok.2 ⟨_, permissions', hresolve, hfile, hreadable⟩
    exact ⟨output, Option.bind_eq_some_iff.2 ⟨bytes, toOption_eq_some.2 hread, htext⟩⟩

/-- What is shown is the manifest of the first skill that the name leads to. -/
theorem showProjectSkill_eq_ok {name : Str} {manifest : OsPath} :
    (∃ shown, showProjectSkill tree workspace name = .ok shown ∧ shown.manifest = manifest) ↔
      isSkillName name = true ∧
        (projectSkillPaths.findSome? fun relative =>
          skillAt tree (skillPath workspace name relative)) = some manifest ∧
        ∃ output, (tree.read manifest).toOption.bind Str.fromUtf8 = some output := by
  unfold showProjectSkill
  cases hname : isSkillName name with
  | false => simp
  | true =>
    simp only [Bool.not_true, Bool.false_eq_true, if_false, true_and]
    generalize (projectSkillPaths.findSome? fun relative =>
      skillAt tree (skillPath workspace name relative)) = found
    cases found with
    | none => simp
    | some first =>
      rw [Option.elim_some, Option.some.injEq]
      constructor
      · intro h
        obtain ⟨shown, hshown, rfl⟩ := h
        cases htext : (tree.read first).toOption.bind Str.fromUtf8 with
        | none =>
          rw [htext] at hshown
          cases hshown
        | some output =>
          rw [htext] at hshown
          cases hshown
          exact ⟨rfl, output, htext⟩
      · intro h
        obtain ⟨rfl, output, htext⟩ := h
        rw [htext]
        exact ⟨⟨first, output⟩, rfl, rfl⟩

/-- The first skill that the name leads to from a documented directory, if its manifest can be read,
is in the workspace. -/
def ShownInside (tree : FileTree) (workspace : OsPath) (name : Str) : Prop :=
  isSkillName name = true → ∀ before relative after,
    projectSkillPaths = before ++ relative :: after →
      (∀ earlier ∈ before, ∀ directory,
        ¬ LeadsToSkill tree (skillPath workspace name earlier) directory) →
      ∀ directory, LeadsToSkill tree (skillPath workspace name relative) directory →
        ReadsAsText tree directory → workspace <+: directory ++ [skillManifest]

theorem skillAt_eq_none {path : OsPath} :
    skillAt tree path = none ↔ ∀ directory, ¬ LeadsToSkill tree path directory := by
  constructor
  · intro h directory hleads
    rw [skillAt_eq_some.2 ⟨rfl, directory, hleads⟩] at h
    cases h
  · intro h
    rw [Option.eq_none_iff_forall_not_mem]
    intro manifest hmanifest
    obtain ⟨-, directory, hleads⟩ := skillAt_eq_some.1 hmanifest
    exact h directory hleads

theorem showProjectSkill_inside_iff {name : Str} :
    (∀ shown, showProjectSkill tree workspace name = .ok shown →
      Contained tree workspace shown.manifest) ↔ ShownInside tree workspace name := by
  constructor
  · intro hcontained hname before relative after hpaths hbefore directory hleads hreads
    have hfound := List.findSome?_eq_some_iff.2
      ⟨before, relative, after, hpaths, skillAt_eq_some.2 ⟨rfl, directory, hleads⟩,
        fun earlier hearlier => skillAt_eq_none.2 (hbefore earlier hearlier)⟩
    obtain ⟨shown, hshown, hmanifest⟩ := showProjectSkill_eq_ok.2
      ⟨hname, hfound, (read_manifest hleads.resolve hleads.isSkill).2 hreads⟩
    have hinside := hcontained shown hshown
    rw [hmanifest] at hinside
    exact (contained_iff hleads.resolve hleads.isSkill).1 hinside
  · intro hinside shown hshown
    obtain ⟨hname, hfound, hread⟩ := showProjectSkill_eq_ok.1 ⟨shown, hshown, rfl⟩
    obtain ⟨before, relative, after, hpaths, hat, hbefore⟩ := List.findSome?_eq_some_iff.1 hfound
    obtain ⟨hmanifest, directory, hleads⟩ := skillAt_eq_some.1 hat
    rw [hmanifest] at hread ⊢
    refine (contained_iff hleads.resolve hleads.isSkill).2 ?_
    apply hinside hname before relative after hpaths _ directory hleads
    · exact (read_manifest hleads.resolve hleads.isSkill).1 hread
    · intro earlier hearlier
      exact skillAt_eq_none.1 (hbefore earlier hearlier)

/-! ## What a listing says -/

/-- The text has the line of every skill, in order. -/
def Names (skills : List ListedSkill) (output : Str) : Prop :=
  ∃ lines, lines.Perm (skills.map (·.line)) ∧ lines.Pairwise (· ≤ ·) ∧
    output = ['\n'].intercalate lines

theorem listProjectSkills_names {output : Str} (h : listProjectSkills tree workspace = .ok output) :
    ∃ skills, projectSkills tree workspace = .ok skills ∧ Names skills output := by
  obtain ⟨skills, hskills, rfl⟩ := map_eq_ok.1 h
  exact ⟨skills, hskills, _, List.perm_insertionSort _ _, List.pairwise_insertionSort _ _, rfl⟩

theorem listProjectSkills_total {skills : List ListedSkill}
    (h : projectSkills tree workspace = .ok skills) :
    ∃ output, listProjectSkills tree workspace = .ok output :=
  ⟨_, map_eq_ok.2 ⟨skills, h, rfl⟩⟩

/-- What project skills show is in the workspace exactly when the documented paths, with the names
after them, lead there. -/
theorem project_skills_contained_iff (tree : FileTree) (workspace : OsPath) :
    ((∀ output, listProjectSkills tree workspace = .ok output → ∃ skills,
        projectSkills tree workspace = .ok skills ∧ Names skills output ∧
          ∀ listed ∈ skills, Contained tree workspace listed.manifest) ↔
      ListedInside tree workspace) ∧
    ∀ name, (∀ shown, showProjectSkill tree workspace name = .ok shown →
        Contained tree workspace shown.manifest) ↔ ShownInside tree workspace name := by
  refine ⟨?_, fun _ => showProjectSkill_inside_iff⟩
  rw [← projectSkills_inside_iff]
  constructor
  · intro hlists skills hskills
    obtain ⟨output, houtput⟩ := listProjectSkills_total hskills
    obtain ⟨skills', hskills', -, hinside⟩ := hlists output houtput
    rw [hskills, Except.ok.injEq] at hskills'
    exact hskills' ▸ hinside
  · intro hinside output houtput
    obtain ⟨skills, hskills, hnames⟩ := listProjectSkills_names houtput
    exact ⟨skills, hskills, hnames, hinside skills hskills⟩

/-- A workspace whose `.devin` is a link to another directory, and which holds a link to a skill
outside. -/
def linkedSkills : FileTree :=
  let open_ : Node := .directory 0 ⟨true, true, true⟩
  ((((((((⟨∅⟩ : FileTree).insert [Str.utf8 "home"] open_).insert
    [Str.utf8 "home", Str.utf8 "skills"] open_).insert
    [Str.utf8 "home", Str.utf8 "skills", Str.utf8 "mine"] open_).insert
    [Str.utf8 "home", Str.utf8 "skills", Str.utf8 "mine", skillManifest]
      (.file (Str.utf8 "private") ⟨0o100600, true⟩)).insert
    [Str.utf8 "work"] open_).insert
    [Str.utf8 "work", Str.utf8 ".devin"] (.symlink (Str.utf8 "../home"))).insert
    [Str.utf8 "work", Str.utf8 ".agents"] open_).insert
    [Str.utf8 "work", Str.utf8 ".agents", Str.utf8 "skills"] open_ |>.insert
    [Str.utf8 "work", Str.utf8 ".agents", Str.utf8 "skills", Str.utf8 "its"]
      (.symlink (Str.utf8 "/home/skills/mine"))

/-- The skill of another directory is listed and shown, under its own name and, with a slash, under
that of a link to it. -/
theorem linked_skill_shown :
    listProjectSkills linkedSkills [Str.utf8 "work"] =
        .ok "mine  .devin/skills/mine/SKILL.md".toList ∧
      (∃ skills, projectSkills linkedSkills [Str.utf8 "work"] = .ok skills ∧
        skills.map (·.line) = ["mine  .devin/skills/mine/SKILL.md".toList] ∧
          ∃ listed ∈ skills, ¬ Contained linkedSkills [Str.utf8 "work"] listed.manifest) ∧
      ∀ name ∈ (["mine", "its/"] : List Str), ∃ shown,
        showProjectSkill linkedSkills [Str.utf8 "work"] name = .ok shown ∧
          shown.output = "private".toList ∧
            ¬ Contained linkedSkills [Str.utf8 "work"] shown.manifest := by
  have houtside : ∀ manifest : OsPath, linkedSkills.resolve manifest =
      .ok [Str.utf8 "home", Str.utf8 "skills", Str.utf8 "mine", skillManifest] →
        ¬ Contained linkedSkills [Str.utf8 "work"] manifest := by
    intro manifest hmanifest hcontained
    obtain ⟨path, hpath, hunder⟩ := hcontained
    rw [hmanifest, Except.ok.injEq] at hpath
    rw [← hpath] at hunder
    exact absurd hunder (by decide +kernel)
  let listed : ListedSkill :=
    ⟨[Str.utf8 "work", Str.utf8 ".devin", Str.utf8 "skills", Str.utf8 "mine", skillManifest],
      "mine  .devin/skills/mine/SKILL.md".toList⟩
  refine ⟨by decide +kernel, ⟨[listed], by decide +kernel, rfl, listed, List.mem_singleton_self _,
    houtside _ (by decide +kernel)⟩, ?_⟩
  intro name hname
  rcases List.mem_cons.1 hname with rfl | hname
  · exact ⟨⟨[Str.utf8 "work", Str.utf8 ".devin", Str.utf8 "skills", Str.utf8 "mine",
      skillManifest], "private".toList⟩, by decide +kernel, rfl, houtside _ (by decide +kernel)⟩
  · rw [List.mem_singleton.1 hname]
    exact ⟨⟨[Str.utf8 "work", Str.utf8 ".agents", Str.utf8 "skills", Str.utf8 "its", dot,
      skillManifest], "private".toList⟩, by decide +kernel, rfl, houtside _ (by decide +kernel)⟩

end LeaveCli.Host
