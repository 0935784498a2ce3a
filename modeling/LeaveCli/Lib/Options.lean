import LeaveCli.Lib.Text
import Mathlib.Data.List.Nodup

/-!
# Command lines of long options

What a reader of long options makes of a command line: the options of a program, the name of one of
its commands, and the options of that command, each as `--name` or `--name value`. `matched` are the
values it finds: the one given, else the environment's, else the default. `Options.Lawful` are the
laws of such a reader: it reads what is well formed (`Readable`) and refuses what is not; `read` is
one (`read_lawful`).
-/

namespace Lib.Options

inductive OptionKind
  | flag
  | text
  /-- Text that may not be empty. -/
  | path
  deriving DecidableEq, Repr

/-- The declaration of one option. -/
structure OptionSpec where
  name : Str
  kind : OptionKind
  required : Bool
  /-- The environment variable it falls back to. -/
  env : Option Str
  default : Option Str
  deriving DecidableEq, Repr

/-- One option of a command line. -/
inductive OptionItem
  | flag (name : Str)
  | valued (name value : Str)
  deriving DecidableEq, Repr

def OptionItem.name : OptionItem → Str
  | .flag name => name
  | .valued name _ => name

def OptionItem.tokens : OptionItem → List Str
  | .flag name => [("--" : Str) ++ name]
  | .valued name value => [("--" : Str) ++ name, value]

def tokens (items : List OptionItem) : List Str := items.flatMap OptionItem.tokens

/-- A value that does not look like an option. -/
def OptionSpec.admits (spec : OptionSpec) (value : Str) : Bool :=
  (value.head? ≠ some '-' || value = ['-']) && (spec.kind ≠ .path || value ≠ [])

/-- The declaration of a name. -/
def find (specs : List OptionSpec) (name : Str) : Option OptionSpec :=
  specs.find? fun spec => spec.name = name

/-- The item is a declared flag, or a declared option with a value. -/
def declares (specs : List OptionSpec) (item : OptionItem) : Bool :=
  (find specs item.name).any fun spec =>
    match item with
    | .flag _ => spec.kind = .flag
    | .valued _ _ => spec.kind ≠ .flag

def admits (specs : List OptionSpec) (item : OptionItem) : Bool :=
  match item with
  | .flag _ => true
  | .valued name value => (find specs name).any (·.admits value)

/-- The value given to an option. -/
def given (items : List OptionItem) (name : Str) : Option Str :=
  items.findSome? fun item =>
    match item with
    | .flag _ => none
    | .valued name' value => if name' = name then some value else none

/-- What a reader finds. -/
structure Matches where
  value : Str → Option Str
  flag : Str → Bool

def matched (specs : List OptionSpec) (items : List OptionItem) (env : Str → Option Str) :
    Matches where
  value name := (given items name).or ((find specs name).bind fun spec =>
    (spec.env.bind env).or spec.default)
  flag name := items.contains (.flag name)

/-- A well-formed list of options, in an environment. -/
structure Readable (specs : List OptionSpec) (items : List OptionItem) (env : Str → Option Str) :
    Prop where
  declared : ∀ item ∈ items, declares specs item = true
  admitted : ∀ item ∈ items, admits specs item = true
  once : (items.map OptionItem.name).Nodup
  required : ∀ spec ∈ specs, spec.required = true → spec.name ∈ items.map OptionItem.name
  /-- An empty variable is no path. -/
  envs : ∀ spec ∈ specs, spec.kind = .path → given items spec.name = none →
    spec.env.bind env ≠ some []

instance (specs : List OptionSpec) (items : List OptionItem) (env : Str → Option Str) :
    Decidable (Readable specs items env) :=
  decidable_of_iff
    ((∀ item ∈ items, declares specs item = true) ∧ (∀ item ∈ items, admits specs item = true) ∧
      (items.map OptionItem.name).Nodup ∧
      (∀ spec ∈ specs, spec.required = true → spec.name ∈ items.map OptionItem.name) ∧
      ∀ spec ∈ specs, spec.kind = .path → given items spec.name = none →
        spec.env.bind env ≠ some [])
    ⟨fun ⟨h₁, h₂, h₃, h₄, h₅⟩ => ⟨h₁, h₂, h₃, h₄, h₅⟩,
      fun ⟨h₁, h₂, h₃, h₄, h₅⟩ => ⟨h₁, h₂, h₃, h₄, h₅⟩⟩

/-- A reader of command lines: the options of the program, the command and its options. -/
abbrev Reader :=
  List OptionSpec → Str → List OptionSpec → List Str → (Str → Option Str) → Option Matches

/-- The laws of a reader. -/
structure Lawful (read : Reader) : Prop where
  reads : ∀ {specs name commandSpecs items commandItems env}, name.head? ≠ some '-' →
    Readable specs items env → Readable commandSpecs commandItems env →
    read specs name commandSpecs (tokens items ++ name :: tokens commandItems) env =
      some (matched (specs ++ commandSpecs) (items ++ commandItems) env)
  refuses : ∀ {specs name commandSpecs items commandItems env found}, name.head? ≠ some '-' →
    Readable specs items env → (∀ item ∈ commandItems, declares commandSpecs item = true) →
    read specs name commandSpecs (tokens items ++ name :: tokens commandItems) env = some found →
    Readable commandSpecs commandItems env

section Admits

variable {specs : List OptionSpec} {spec : OptionSpec} {value : Str}

theorem admits_valued {name : Str} (h : find specs name = some spec) :
    admits specs (.valued name value) = spec.admits value := by
  rw [admits, h]
  rfl

theorem admits_text (h : spec.kind ≠ .path) :
    spec.admits value = true ↔ value.head? ≠ some '-' ∨ value = ['-'] := by
  simp [OptionSpec.admits, h]

theorem admits_path (h : spec.kind = .path) :
    spec.admits value = true ↔ (value.head? ≠ some '-' ∨ value = ['-']) ∧ value ≠ [] := by
  simp [OptionSpec.admits, h]

end Admits

/-! ## A reader -/

/-- The declaration of the option that starts with this token. -/
def start (specs : List OptionSpec) (token : Str) : Option OptionSpec :=
  (Str.stripPrefix "--" token).bind (find specs)

def readItems (specs : List OptionSpec) : List Str → Option (List OptionItem)
  | [] => some []
  | token :: rest =>
    match start specs token with
    | none => none
    | some spec =>
      if spec.kind = .flag then (readItems specs rest).map (.flag spec.name :: ·)
      else
        match rest with
        | [] => none
        | value :: rest =>
          if spec.admits value then (readItems specs rest).map (.valued spec.name value :: ·)
          else none

/-- The options up to the command, and what comes after it. -/
def readCommand (specs : List OptionSpec) (name : Str) :
    List Str → Option (List OptionItem × List Str)
  | [] => none
  | token :: rest =>
    if token = name then some ([], rest)
    else
      match start specs token with
      | none => none
      | some spec =>
        if spec.kind = .flag then
          (readCommand specs name rest).map fun found => (.flag spec.name :: found.1, found.2)
        else
          match rest with
          | [] => none
          | value :: rest =>
            if spec.admits value then
              (readCommand specs name rest).map fun found =>
                (.valued spec.name value :: found.1, found.2)
            else none

/-- A reader of command lines. -/
def read : Reader := fun specs name commandSpecs arguments env => do
  let (items, rest) ← readCommand specs name arguments
  let commandItems ← readItems commandSpecs rest
  if Readable specs items env ∧ Readable commandSpecs commandItems env then
    some (matched (specs ++ commandSpecs) (items ++ commandItems) env)
  else none

variable {specs : List OptionSpec}

theorem start_tokens (name : Str) : start specs (("--" : Str) ++ name) = find specs name := by
  rw [start, Str.stripPrefix_append]
  rfl

theorem name_of_find {name : Str} {spec : OptionSpec} (h : find specs name = some spec) :
    spec.name = name := by
  simpa using List.find?_some h

/-- A declared item, taken apart. -/
theorem declares_cases {item : OptionItem} (h : declares specs item = true) :
    (∃ spec, item = .flag spec.name ∧ find specs spec.name = some spec ∧ spec.kind = .flag) ∨
      ∃ spec value, item = .valued spec.name value ∧ find specs spec.name = some spec ∧
        spec.kind ≠ .flag := by
  obtain ⟨spec, hfind, hkind⟩ := Option.any_eq_true _ _ |>.1 h
  have hname := name_of_find hfind
  cases item with
  | flag name =>
    left
    change spec.name = name at hname
    subst hname
    exact ⟨spec, rfl, hfind, by simpa using hkind⟩
  | valued name value =>
    right
    change spec.name = name at hname
    subst hname
    exact ⟨spec, value, rfl, hfind, by simpa using hkind⟩

theorem readItems_tokens {items : List OptionItem}
    (h : ∀ item ∈ items, declares specs item = true) :
    readItems specs (tokens items) =
      if items.all (admits specs) then some items else none := by
  induction items with
  | nil => rfl
  | cons item items ih =>
    obtain ⟨hitem, hitems⟩ := List.forall_mem_cons.1 h
    rw [List.all_cons]
    rcases declares_cases hitem with ⟨spec, rfl, hfind, hkind⟩ | ⟨spec, value, rfl, hfind, hkind⟩
    · show readItems specs ((("--" : Str) ++ spec.name) :: tokens items) = _
      rw [readItems, start_tokens, hfind]
      simp only [hkind, if_true, ih hitems, admits, Bool.true_and]
      cases items.all (admits specs) <;> rfl
    · show readItems specs ((("--" : Str) ++ spec.name) :: value :: tokens items) = _
      rw [readItems, start_tokens, hfind, admits_valued hfind]
      simp only [hkind, if_false, ih hitems]
      cases spec.admits value with
      | false => rfl
      | true => cases items.all (admits specs) <;> rfl

theorem readCommand_tokens {items : List OptionItem} {name : Str} (hname : name.head? ≠ some '-')
    (h : ∀ item ∈ items, declares specs item = true)
    (hadmits : ∀ item ∈ items, admits specs item = true) (rest : List Str) :
    readCommand specs name (tokens items ++ name :: rest) = some (items, rest) := by
  induction items with
  | nil =>
    show readCommand specs name (name :: rest) = _
    rw [readCommand, if_pos rfl]
  | cons item items ih =>
    obtain ⟨hitem, hitems⟩ := List.forall_mem_cons.1 h
    obtain ⟨hvalue, hvalues⟩ := List.forall_mem_cons.1 hadmits
    have hne : ∀ long : Str, ("--" : Str) ++ long ≠ name := by
      intro long heq
      exact hname (heq ▸ rfl)
    rcases declares_cases hitem with ⟨spec, rfl, hfind, hkind⟩ | ⟨spec, value, rfl, hfind, hkind⟩
    · have htokens : tokens (.flag spec.name :: items) ++ name :: rest =
          (("--" : Str) ++ spec.name) :: (tokens items ++ name :: rest) := rfl
      rw [htokens, readCommand, if_neg (hne _), start_tokens, hfind]
      simp only [hkind, if_true, ih hitems hvalues]
      rfl
    · have htokens : tokens (.valued spec.name value :: items) ++ name :: rest =
          (("--" : Str) ++ spec.name) :: value :: (tokens items ++ name :: rest) := rfl
      have hadmitted : spec.admits value = true := admits_valued hfind ▸ hvalue
      rw [htokens, readCommand, if_neg (hne _), start_tokens, hfind]
      simp only [hkind, if_false, hadmitted, if_true, ih hitems hvalues]
      rfl

theorem read_lawful : Lawful read where
  reads {_ _ commandSpecs _ commandItems _} hname hitems hcommand := by
    have hadmitted : commandItems.all (admits commandSpecs) = true :=
      List.all_eq_true.2 hcommand.admitted
    simp only [read, readCommand_tokens hname hitems.declared hitems.admitted,
      readItems_tokens hcommand.declared, hadmitted, Option.bind_eq_bind, Option.bind_some,
      if_true, hitems, hcommand, and_self]
  refuses {_ _ commandSpecs _ commandItems _ _} hname hitems hdeclared hread := by
    simp only [read, readCommand_tokens hname hitems.declared hitems.admitted,
      readItems_tokens hdeclared, Option.bind_eq_bind, Option.bind_some] at hread
    cases hadmitted : commandItems.all (admits commandSpecs) with
    | false =>
      rw [hadmitted] at hread
      cases hread
    | true =>
      rw [hadmitted, if_pos rfl, Option.bind_some] at hread
      split at hread
      · rename_i hreadable
        exact hreadable.2
      · cases hread

end Lib.Options
