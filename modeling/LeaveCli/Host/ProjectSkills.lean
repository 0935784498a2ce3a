import LeaveCli.Host.Customization
import LeaveCli.Lib.Lossy
import LeaveCli.Lib.UnixPath
import Mathlib.Data.List.ReduceOption
import Mathlib.Data.List.Sort
import Mathlib.Data.List.Lex
import Mathlib.Data.Char

/-!
# Project skills (`apps/leave/src/customization.rs`)

What `Ran.projectSkills` and `Ran.projectSkill` answer from the workspace's file tree:
`list_project_skills` and `show_project_skill`. Beside the text of an answer stand the manifests it
comes from.
-/

namespace LeaveCli.Host

open Lib

def maxOutput : Nat := 2 * 1024 * 1024

def projectSkillPaths : List Str := [".devin/skills", ".cognition/skills", ".agents/skills"]

/-- `SKILL.md` -/
def skillManifest : OsStr := [0x53, 0x4b, 0x49, 0x4c, 0x4c, 0x2e, 0x6d, 0x64]

variable (tree : FileTree) (workspace : OsPath)

/-! ## Listing -/

structure ListedSkill where
  manifest : OsPath
  line : Str
  deriving DecidableEq, Repr

/-- The manifest in a directory is listed when it is a regular file. -/
def listedManifest (entry : OsPath) (relative : Str) (osName : OsStr) : Option ListedSkill :=
  let manifest := entry ++ [skillManifest]
  (tree.symlinkMetadata manifest).toOption.bind fun manifestMetadata =>
    if manifestMetadata.isSymlink ∨ !manifestMetadata.isFile then none
    else
      let name := Str.fromUtf8Lossy osName
      some ⟨manifest, name ++ "  ".toList ++ relative ++ '/' :: name ++ "/SKILL.md".toList⟩

/-- One entry of a skills directory; what is no skill is skipped. -/
def listedSkill (directory : OsPath) (relative : Str) (osName : OsStr) :
    Except IoError (Option ListedSkill) :=
  let entry := directory ++ [osName]
  (tree.symlinkMetadata entry).map fun metadata =>
    if metadata.isSymlink ∨ !metadata.isDirectory then none
    else listedManifest tree entry relative osName

/-- The skills in one of the directories; a missing one has none. -/
def skillsIn (directory : OsPath) (relative : Str) : Except IoError (List ListedSkill) :=
  match tree.readDir directory with
  | .ok names => (names.mapM (listedSkill tree directory relative)).map List.reduceOption
  | .error .notFound => .ok []
  | .error error => .error error

def projectSkills : Except IoError (List ListedSkill) :=
  (projectSkillPaths.mapM fun relative =>
    skillsIn tree (joinOs workspace relative.utf8) relative).map List.flatten

def listProjectSkills : Except IoError Str :=
  (projectSkills tree workspace).map fun skills =>
    ['\n'].intercalate ((skills.map (·.line)).insertionSort (· ≤ ·))

/-! ## Showing -/

structure ShownSkill where
  manifest : OsPath
  output : Str
  deriving DecidableEq, Repr

/-- The manifest of the skill in a directory, unless it is none. -/
def skillAt (directory : OsPath) : Option OsPath :=
  (tree.symlinkMetadata directory).toOption.bind fun metadata =>
    if metadata.isSymlink ∨ !metadata.isDirectory then none
    else
      let manifest := directory ++ [skillManifest]
      (tree.symlinkMetadata manifest).toOption.bind fun metadata =>
        if metadata.isSymlink ∨ !metadata.isFile ∨ metadata.size > maxOutput then none
        else some manifest

def isSkillName (name : Str) : Bool :=
  let parts := components name.utf8
  parts.length = 1 ∧ parts.head?.any fun
    | .normal _ => true
    | .rootDir => false
    | .curDir => false
    | .parentDir => false

/-- Where a skill of this name would be in one of the directories. -/
def skillPath (name relative : Str) : OsPath := joinOs (joinOs workspace relative.utf8) name.utf8

def showProjectSkill (name : Str) : Except Str ShownSkill :=
  if !isSkillName name then .error "project skill name is invalid"
  else
    (projectSkillPaths.findSome? fun relative =>
        skillAt tree (skillPath workspace name relative)).elim
      (.error "project skill was not found in a documented project skill directory")
      fun manifest => ((tree.read manifest).toOption.bind Str.fromUtf8).elim
        (.error "project skill is not valid UTF-8") fun output => .ok ⟨manifest, output⟩

end LeaveCli.Host
