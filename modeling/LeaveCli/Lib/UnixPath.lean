import LeaveCli.Lib.FileTree

/-!
# Paths on Unix

Rust's `std::path`: a path is its bytes, and its components leave out empty parts and every `.` but
one at the very front. `osComponents` is what the operating system makes of the same bytes.
-/

namespace Lib

inductive Component
  | rootDir
  | curDir
  | parentDir
  | normal (name : OsStr)
  deriving DecidableEq, Repr

def Component.osStr : Component → OsStr
  | .rootDir => []
  | .curDir => dot
  | .parentDir => dotDot
  | .normal name => name

/-- `Path::components`. -/
def components (path : OsStr) : List Component :=
  let parts := path.splitOn slash
  let front :=
    if isAbsolute path then [.rootDir]
    else if parts.head? = some dot then [.curDir]
    else []
  front ++ parts.filterMap fun part =>
    if part = [] ∨ part = dot then none
    else if part = dotDot then some .parentDir
    else some (.normal part)

/-- The path with these components. -/
def ofComponents (parts : List Component) : OsStr := [slash].intercalate (parts.map (·.osStr))

/-- `Path::file_name`. -/
def fileName (path : OsStr) : Option OsStr :=
  (components path).getLast?.bind fun
    | .normal name => some name
    | .rootDir => none
    | .curDir => none
    | .parentDir => none

/-- `Path::parent`, without redundant separators. -/
def parent (path : OsStr) : Option OsStr :=
  (components path).getLast?.bind fun last =>
    if last = .rootDir then none else some (ofComponents (components path).dropLast)

/-- `Path::join` on bytes. -/
def joinPath (base path : OsStr) : OsStr :=
  if isAbsolute path then path
  else if base = [] ∨ base.getLast? = some slash then base ++ path
  else base ++ slash :: path

/-- `Path::join` on an absolute path; joining the empty path adds a slash. -/
def joinOs (base : OsPath) (path : OsStr) : OsPath :=
  if isAbsolute path then osComponents path
  else if path = [] then base ++ [dot]
  else base ++ osComponents path

/-- A component of a path contains no slash, and a normal one is a name. -/
theorem mem_components_normal {path name : OsStr} (h : .normal name ∈ components path) :
    name ≠ [] ∧ name ≠ dot ∧ name ≠ dotDot := by
  unfold components at h
  rcases List.mem_append.1 h with h | h
  · split at h
    · simp at h
    · split at h <;> simp at h
  · obtain ⟨part, hpart, hname⟩ := List.mem_filterMap.1 h
    split at hname
    · cases hname
    split at hname
    · cases hname
    rename_i hskip hdotDot
    rw [not_or] at hskip
    obtain rfl : part = name := by simpa using hname
    exact ⟨hskip.1, hskip.2, hdotDot⟩

theorem fileName_eq_some {path name : OsStr} (h : fileName path = some name) :
    .normal name ∈ components path := by
  unfold fileName at h
  cases hlast : (components path).getLast? with
  | none =>
    rw [hlast] at h
    cases h
  | some last =>
    rw [hlast, Option.bind_some] at h
    cases last with
    | normal last =>
      rw [← Option.some.inj h]
      exact List.mem_of_getLast? hlast
    | rootDir => cases h
    | curDir => cases h
    | parentDir => cases h

end Lib
