import LeaveCli.Lib.Expand
import LeaveCli.Lib.Text

/-!
# Command lines of systemd units

The documented reading of `ExecStart=`: the value is a line of the unit file, `words` splits it at
blanks that are not quoted and undoes the escapes, specifiers are expanded in every word, and
environment variables in every word but the first. `words_commandLine` undoes the quoting with
`quote`, `words_firstLine` says that a line break ends the command inside a quote. The quoting
leaves specifiers and variables alone: `expandWords_eq_self_iff` says when the words stay as they
are whatever those stand for.
-/

namespace Lib.Systemd

/-! ## Words -/

def isBlank (c : Char) : Bool := c = ' ' || c = '\t' || c = '\n' || c = '\r'

/-- Where the splitter is, with the word it has so far. -/
inductive WordState
  | outside
  | bare (word : Str)
  | quoted (quote : Char) (word : Str)
  /-- Behind a closing quote. -/
  | closed (word : Str)
  /-- Behind a backslash, in the quotes of that kind. -/
  | escape (quote : Option Char) (word : Str)

/-- Back to where the escape was. -/
def resume : Option Char → Str → WordState
  | none, word => .bare word
  | some quote, word => .quoted quote word

/-- The escapes of one letter. Those by number, which `quote` never writes, are left out. -/
def letterEscape : Char → Option Char
  | 'a' => some (Char.ofNat 7)
  | 'b' => some (Char.ofNat 8)
  | 'f' => some (Char.ofNat 12)
  | 'n' => some '\n'
  | 'r' => some '\r'
  | 't' => some '\t'
  | 'v' => some (Char.ofNat 11)
  | '\\' => some '\\'
  | '"' => some '"'
  | '\'' => some '\''
  | 's' => some ' '
  | _ => none

/-- The words of a line. -/
def words : WordState → Str → Option (List Str)
  | .outside, [] => some []
  | .outside, c :: cs =>
    if isBlank c then words .outside cs
    else if c = '"' ∨ c = '\'' then words (.quoted c []) cs
    else if c = '\\' then words (.escape none []) cs
    else words (.bare [c]) cs
  | .bare word, [] => some [word]
  | .bare word, c :: cs =>
    if isBlank c then (words .outside cs).map (word :: ·)
    else if c = '\\' then words (.escape none word) cs
    else words (.bare (word ++ [c])) cs
  | .quoted _ _, [] => none
  | .quoted quote word, c :: cs =>
    if c = quote then words (.closed word) cs
    else if c = '\\' then words (.escape (some quote) word) cs
    else words (.quoted quote (word ++ [c])) cs
  | .closed word, [] => some [word]
  | .closed word, c :: cs => if isBlank c then (words .outside cs).map (word :: ·) else none
  | .escape _ _, [] => none
  | .escape quote word, c :: cs =>
    match letterEscape c with
    | some letter => words (resume quote (word ++ [letter])) cs
    | none => none

def escapeChar (c : Char) : Str := if c = '\\' ∨ c = '"' then ['\\', c] else [c]

def quote (s : Str) : Str := '"' :: (s.flatMap escapeChar ++ ['"'])

def commandLine (program : Str) (arguments : List Str) : Str :=
  quote program ++ arguments.flatMap (' ' :: quote ·)

theorem words_quoted_char (word : Str) (c : Char) (rest : Str) :
    words (.quoted '"' word) (escapeChar c ++ rest) = words (.quoted '"' (word ++ [c])) rest := by
  rw [escapeChar]
  split
  · rename_i hc
    rcases hc with rfl | rfl <;> rfl
  · rename_i hc
    push Not at hc
    rw [List.singleton_append, words, if_neg hc.2, if_neg hc.1]

theorem words_quoted (word s rest : Str) :
    words (.quoted '"' word) (s.flatMap escapeChar ++ rest) =
      words (.quoted '"' (word ++ s)) rest := by
  induction s generalizing word with
  | nil => rw [List.append_nil]; rfl
  | cons c s ih =>
    rw [List.flatMap_cons, List.append_assoc, words_quoted_char, ih, List.append_assoc,
      List.singleton_append]

theorem words_quote (s rest : Str) :
    words .outside (quote s ++ rest) = words (.closed s) rest := by
  show words (.quoted '"' []) (s.flatMap escapeChar ++ ['"'] ++ rest) = _
  rw [List.append_assoc, words_quoted]
  rfl

theorem words_closed_space (word rest : Str) :
    words (.closed word) (' ' :: rest) = (words .outside rest).map (word :: ·) := rfl

theorem commandLine_cons (program argument : Str) (arguments : List Str) :
    commandLine program (argument :: arguments) =
      quote program ++ ' ' :: commandLine argument arguments := by
  rw [commandLine, commandLine, List.flatMap_cons, List.cons_append]

theorem words_commandLine (program : Str) (arguments : List Str) :
    words .outside (commandLine program arguments) = some (program :: arguments) := by
  induction arguments generalizing program with
  | nil =>
    rw [commandLine, List.flatMap_nil, words_quote]
    rfl
  | cons argument arguments ih =>
    rw [commandLine_cons, words_quote, words_closed_space, ih]
    rfl

/-! ## Lines -/

def firstLine (s : Str) : Str := s.takeWhile (· ≠ '\n')

theorem firstLine_append {s : Str} (h : '\n' ∉ s) (t : Str) :
    firstLine (s ++ t) = s ++ firstLine t :=
  List.takeWhile_append_of_pos fun _ hc => decide_eq_true (ne_of_mem_of_not_mem hc h)

theorem firstLine_append_newline (s t : Str) : firstLine (s ++ '\n' :: t) = firstLine s := by
  by_cases h : '\n' ∈ s
  · obtain ⟨a, b, rfl, ha⟩ := List.eq_append_cons_of_mem h
    rw [List.append_assoc, firstLine_append ha, firstLine_append ha]
    rfl
  · have hself : firstLine (s ++ []) = s ++ firstLine [] := firstLine_append h []
    rw [firstLine_append h]
    rw [List.append_nil] at hself
    exact hself.symm

theorem newline_notMem_escape {s : Str} (h : '\n' ∉ s) : '\n' ∉ s.flatMap escapeChar := by
  intro hmem
  obtain ⟨c, hc, hnewline⟩ := List.mem_flatMap.1 hmem
  have hne : '\n' ≠ c := (ne_of_mem_of_not_mem hc h).symm
  rw [escapeChar] at hnewline
  split at hnewline <;> simp_all

theorem newline_notMem_quote {s : Str} (h : '\n' ∉ s) : '\n' ∉ quote s := by
  have hescape := newline_notMem_escape h
  simp [quote, hescape]

theorem newline_notMem_commandLine {program : Str} {arguments : List Str}
    (h : ∀ s ∈ program :: arguments, '\n' ∉ s) : '\n' ∉ commandLine program arguments := by
  obtain ⟨hprogram, harguments⟩ := List.forall_mem_cons.1 h
  intro hmem
  rcases List.mem_append.1 hmem with hmem | hmem
  · exact newline_notMem_quote hprogram hmem
  · obtain ⟨argument, hargument, hnewline⟩ := List.mem_flatMap.1 hmem
    exact newline_notMem_quote (harguments argument hargument)
      ((List.mem_cons.1 hnewline).resolve_left (by decide))

/-- A line break ends the line inside the quotes. -/
theorem words_firstLine_quote {s : Str} (h : '\n' ∈ s) (rest : Str) :
    words .outside (firstLine (quote s ++ rest)) = none := by
  obtain ⟨a, b, rfl, ha⟩ := List.eq_append_cons_of_mem h
  have hcut : firstLine (quote (a ++ '\n' :: b) ++ rest) =
      '"' :: (a.flatMap escapeChar ++ []) := by
    have hquote : quote (a ++ '\n' :: b) ++ rest =
        ('"' :: a.flatMap escapeChar) ++ '\n' :: (b.flatMap escapeChar ++ '"' :: rest) := by
      have hnewline : escapeChar '\n' = ['\n'] := rfl
      simp [quote, hnewline]
    have hfront : '\n' ∉ '"' :: a.flatMap escapeChar :=
      List.not_mem_cons_of_ne_of_not_mem (by decide) (newline_notMem_escape ha)
    rw [hquote, firstLine_append hfront]
    rfl
  rw [hcut]
  show words (.quoted '"' []) (a.flatMap escapeChar ++ []) = none
  rw [words_quoted]
  rfl

theorem words_firstLine_newline {program : Str} {arguments : List Str}
    (h : ∃ s ∈ program :: arguments, '\n' ∈ s) :
    words .outside (firstLine (commandLine program arguments)) = none := by
  induction arguments generalizing program with
  | nil =>
    obtain ⟨s, hs, hnewline⟩ := h
    obtain rfl := List.mem_singleton.1 hs
    exact words_firstLine_quote hnewline _
  | cons argument arguments ih =>
    rw [commandLine_cons]
    by_cases hprogram : '\n' ∈ program
    · exact words_firstLine_quote hprogram _
    · have hrest : ∃ s ∈ argument :: arguments, '\n' ∈ s := by
        obtain ⟨s, hs, hnewline⟩ := h
        rcases List.mem_cons.1 hs with rfl | hs
        · exact absurd hnewline hprogram
        · exact ⟨s, hs, hnewline⟩
      rw [firstLine_append (newline_notMem_quote hprogram), words_quote]
      show words (.closed program) (' ' :: firstLine (commandLine argument arguments)) = none
      rw [words_closed_space, ih hrest]
      rfl

/-- The first line of a command is the command, or none can be read. -/
theorem words_firstLine_iff (program : Str) (arguments : List Str) (read : List Str) :
    words .outside (firstLine (commandLine program arguments)) = some read ↔
      (∀ s ∈ program :: arguments, '\n' ∉ s) ∧ read = program :: arguments := by
  by_cases h : ∃ s ∈ program :: arguments, '\n' ∈ s
  · rw [words_firstLine_newline h]
    obtain ⟨s, hs, hnewline⟩ := h
    exact ⟨fun hread => (by cases hread), fun hread => absurd hnewline (hread.1 s hs)⟩
  · have hnone : ∀ s ∈ program :: arguments, '\n' ∉ s := fun s hs hnewline => h ⟨s, hs, hnewline⟩
    have hself : firstLine (commandLine program arguments ++ []) =
        commandLine program arguments ++ firstLine [] :=
      firstLine_append (newline_notMem_commandLine hnone) []
    have hline : firstLine (commandLine program arguments) = commandLine program arguments := by
      rw [List.append_nil] at hself
      exact hself.trans (List.append_nil _)
    rw [hline, words_commandLine, Option.some.injEq]
    exact ⟨fun hread => ⟨hnone, hread.symm⟩, fun hread => hread.2.symm⟩

/-- The value of a setting in a unit file: the rest of its line. -/
def setting (name : Str) (unitFile : Str) : Option Str :=
  (unitFile.splitOn '\n').findSome? (Str.stripPrefix (name ++ ['=']))

theorem splitOn_newline (s : Str) : ∃ more, s.splitOn '\n' = firstLine s :: more := by
  by_cases h : '\n' ∈ s
  · obtain ⟨a, b, rfl, ha⟩ := List.eq_append_cons_of_mem h
    refine ⟨b.splitOn '\n', ?_⟩
    have hself : firstLine (a ++ []) = a ++ firstLine [] := firstLine_append ha []
    rw [List.append_nil] at hself
    rw [List.splitOn_append_cons_self, List.splitOn_eq_singleton ha, firstLine_append_newline,
      hself]
    exact congrArg (· :: _) (List.append_nil a).symm
  · refine ⟨[], ?_⟩
    have hself : firstLine (s ++ []) = s ++ firstLine [] := firstLine_append h []
    rw [List.append_nil] at hself
    rw [List.splitOn_eq_singleton h, hself]
    exact congrArg (· :: _) (List.append_nil s).symm

theorem setting_append {name before : Str} (hname : '\n' ∉ name)
    (hbefore : setting name before = none) (value after : Str) :
    setting name (before ++ '\n' :: (name ++ '=' :: value ++ '\n' :: after)) =
      some (firstLine value) := by
  obtain ⟨more, hmore⟩ := splitOn_newline (name ++ '=' :: value ++ '\n' :: after)
  have hline : firstLine (name ++ '=' :: value ++ '\n' :: after) =
      (name ++ ['=']) ++ firstLine value := by
    rw [firstLine_append_newline, ← List.singleton_append, ← List.append_assoc]
    refine firstLine_append ?_ value
    simpa using hname
  rw [setting, List.splitOn_append_cons_self, List.findSome?_append]
  rw [setting] at hbefore
  rw [hbefore, Option.none_or, hmore, hline, List.findSome?_cons, Str.stripPrefix_append]

/-! ## Specifiers and variables -/

/-- What specifiers and environment variables stand for. -/
structure Host where
  specifier : Char → Str
  environment : Str → Option Str

def specifierLetters : Str := "aAbBCdDEfgGhHiIjJlLmMnNopPqsStTuUvVwWyY"

/-- What follows a percent sign. -/
def specifier (host : Host) : Str → Option (Str × Nat)
  | [] => none
  | c :: _ =>
    if c = '%' then some (['%'], 1)
    else if c ∈ specifierLetters then some (host.specifier c, 1)
    else none

/-- What follows a dollar sign inside a word. -/
def substitution (host : Host) : Str → Option (Str × Nat)
  | '$' :: _ => some (['$'], 1)
  | '{' :: s => (Str.splitOnce '}' s).map fun parts =>
    ((host.environment parts.1).getD [], parts.1.length + 2)
  | _ => none

/-- A word that is a variable: it stands for the words of its value. -/
def isVariable : Str → Bool
  | '$' :: name => name.head? ≠ some '{' && name.head? ≠ some '$'
  | _ => false

def expandVariables (host : Host) (word : Str) : List Str :=
  if isVariable word then ((host.environment word.tail).bind (words .outside)).getD []
  else [expand '$' (substitution host) word]

def expandSpecifiers (host : Host) (word : Str) : Str := expand '%' (specifier host) word

/-- The program may not be a variable, its arguments may. -/
def expandWords (host : Host) : List Str → Option (List Str)
  | [] => none
  | program :: arguments =>
    some (expandSpecifiers host program ::
      (arguments.map (expandSpecifiers host)).flatMap (expandVariables host))

/-- What a unit runs: its program and the arguments. -/
def execStart (host : Host) (unitFile : Str) : Option (List Str) :=
  ((setting "ExecStart" unitFile).bind (words .outside)).bind (expandWords host)

/-- No percent sign starts a specifier. -/
def NoSpecifier (s : Str) : Prop :=
  ∀ a c b, s = a ++ '%' :: c :: b → c ≠ '%' ∧ c ∉ specifierLetters

/-- No dollar sign starts a substitution, and the word is no variable. -/
def NoVariable (s : Str) : Prop :=
  isVariable s = false ∧
    ∀ a b, s = a ++ '$' :: b → b.head? ≠ some '$' ∧ (b.head? = some '{' → '}' ∉ b)

theorem unreferenced_specifier_iff (host : Host) (s : Str) :
    Unreferenced '%' (specifier host) s ↔ NoSpecifier s := by
  constructor
  · intro h a c b hs
    have hnone := h a (c :: b) hs
    rw [specifier] at hnone
    split at hnone
    · cases hnone
    · split at hnone
      · cases hnone
      · exact ⟨by assumption, by assumption⟩
  · intro h a b hs
    cases b with
    | nil => rfl
    | cons c b =>
      obtain ⟨hpercent, hletter⟩ := h a c b hs
      rw [specifier, if_neg hpercent, if_neg hletter]

theorem splitOnce_eq_none_iff (c : Char) (s : Str) : Str.splitOnce c s = none ↔ c ∉ s := by
  induction s with
  | nil => simp [Str.splitOnce]
  | cons x s ih =>
    rw [Str.splitOnce, List.mem_cons]
    split
    · rename_i hx
      simp [hx]
    · rename_i hx
      rw [Option.map_eq_none_iff, ih]
      simp [Ne.symm hx]

theorem unreferenced_substitution_iff (host : Host) (s : Str) :
    Unreferenced '$' (substitution host) s ↔
      ∀ a b, s = a ++ '$' :: b → b.head? ≠ some '$' ∧ (b.head? = some '{' → '}' ∉ b) := by
  have hnone (b : Str) : substitution host b = none ↔
      b.head? ≠ some '$' ∧ (b.head? = some '{' → '}' ∉ b) := by
    unfold substitution
    split
    · simp
    · simp [splitOnce_eq_none_iff]
    · rename_i hdollar hbrace
      cases b with
      | nil => simp
      | cons c b =>
        have hc : c ≠ '$' := fun hc => hdollar b (hc ▸ rfl)
        have hc' : c ≠ '{' := fun hc => hbrace b (hc ▸ rfl)
        simp [hc, hc']
  exact forall₂_congr fun a b => imp_congr_right fun _ => hnone b

theorem expandSpecifiers_eq_self (host : Host) {s : Str} (h : NoSpecifier s) :
    expandSpecifiers host s = s :=
  expand_eq_self ((unreferenced_specifier_iff host s).2 h)

theorem expandVariables_eq_self (host : Host) {s : Str} (h : NoVariable s) :
    expandVariables host s = [s] := by
  rw [expandVariables, if_neg (by simp [h.1]),
    expand_eq_self ((unreferenced_substitution_iff host s).2 h.2)]

/-- Everything stands for nothing. -/
def emptyHost : Host where
  specifier _ := []
  environment _ := none

theorem specifier_shrinks : Shrinks (specifier emptyHost) := by
  intro s value taken h
  cases s with
  | nil => cases h
  | cons c s =>
    rw [specifier] at h
    split at h
    · cases h
      simp
    · split at h
      · cases h
        simp [emptyHost]
      · cases h

theorem splitOnce_eq_some {c : Char} {s a b : Str} (h : Str.splitOnce c s = some (a, b)) :
    s = a ++ c :: b := by
  induction s generalizing a with
  | nil => cases h
  | cons x s ih =>
    rw [Str.splitOnce] at h
    split at h
    · rename_i hx
      cases h
      rw [hx, List.nil_append]
    · obtain ⟨⟨front, back⟩, hparts, hcons⟩ := Option.map_eq_some_iff.1 h
      cases hcons
      rw [ih hparts, List.cons_append]

theorem substitution_shrinks : Shrinks (substitution emptyHost) := by
  intro s value taken h
  unfold substitution at h
  split at h
  · cases h
    simp
  · obtain ⟨⟨name, more⟩, hparts, hcons⟩ := Option.map_eq_some_iff.1 h
    cases hcons
    rw [splitOnce_eq_some hparts]
    simp [emptyHost]
  · cases h

/-- A word that comes out as it was has nothing to expand. -/
theorem noVariable_of_expand {s : Str}
    (h : expandVariables emptyHost (expandSpecifiers emptyHost s) = [s]) :
    NoSpecifier s ∧ NoVariable s := by
  rw [expandVariables] at h
  split at h
  · cases h
  · rename_i hword
    have hself := (List.cons.inj h).1
    -- both expansions shorten, so neither found anything
    have hvariables := length_expand_le '$' substitution_shrinks
      (expandSpecifiers emptyHost s)
    have hspecifiers : NoSpecifier s := by
      by_contra hsome
      have hlt : (expandSpecifiers emptyHost s).length < s.length :=
        length_expand_lt specifier_shrinks
          fun hnone => hsome ((unreferenced_specifier_iff emptyHost s).1 hnone)
      rw [hself] at hvariables
      omega
    rw [expandSpecifiers_eq_self emptyHost hspecifiers] at hself hword
    refine ⟨hspecifiers, Bool.not_eq_true _ ▸ hword, ?_⟩
    exact (unreferenced_substitution_iff emptyHost s).1
      ((expand_eq_self_iff substitution_shrinks s).1 hself)

theorem length_expandVariables (s : Str) : (expandVariables emptyHost s).length ≤ 1 := by
  rw [expandVariables]
  split
  · exact Nat.zero_le 1
  · exact le_rfl

/-- No argument is missing, so none was a variable. -/
theorem eq_singleton_of_flatMap_eq {f : Str → List Str} {words : List Str}
    (hle : ∀ s, (f s).length ≤ 1) (h : words.flatMap f = words) : ∀ s ∈ words, f s = [s] := by
  have hlength (more : List Str) : (more.flatMap f).length ≤ more.length := by
    induction more with
    | nil => exact le_rfl
    | cons s more ih =>
      have hs := hle s
      rw [List.flatMap_cons, List.length_append, List.length_cons]
      omega
  induction words with
  | nil => exact fun s hs => absurd hs List.not_mem_nil
  | cons s words ih =>
    rw [List.flatMap_cons] at h
    have hs : f s = [s] := by
      cases hfs : f s with
      | nil =>
        have hrest := hlength words
        rw [hfs, List.nil_append] at h
        rw [h, List.length_cons] at hrest
        omega
      | cons x more =>
        have hone := hle s
        rw [hfs, List.length_cons] at hone
        obtain rfl : more = [] := List.eq_nil_of_length_eq_zero (by omega)
        rw [hfs, List.singleton_append] at h
        rw [(List.cons.inj h).1]
    rw [hs, List.singleton_append] at h
    exact List.forall_mem_cons.2 ⟨hs, ih (List.cons.inj h).2⟩

theorem expandWords_eq_self_iff (program : Str) (arguments : List Str) :
    (∀ host, expandWords host (program :: arguments) = some (program :: arguments)) ↔
      NoSpecifier program ∧ ∀ s ∈ arguments, NoSpecifier s ∧ NoVariable s := by
  constructor
  · intro h
    obtain ⟨hprogram, harguments⟩ := List.cons.inj (Option.some.inj (h emptyHost))
    rw [List.flatMap_map] at harguments
    refine ⟨?_, fun s hs => noVariable_of_expand ?_⟩
    · exact (unreferenced_specifier_iff emptyHost program).1
        ((expand_eq_self_iff specifier_shrinks program).1 hprogram)
    · exact eq_singleton_of_flatMap_eq (fun s => length_expandVariables _) harguments s hs
  · intro ⟨hprogram, harguments⟩ host
    have hspecifiers : arguments.map (expandSpecifiers host) = arguments :=
      (List.map_congr_left fun s hs => expandSpecifiers_eq_self host (harguments s hs).1).trans
        (List.map_id' arguments)
    have hvariables : arguments.flatMap (expandVariables host) = arguments.flatMap ([·]) :=
      List.flatMap_congr fun s hs => expandVariables_eq_self host (harguments s hs).2
    rw [expandWords, hspecifiers, hvariables, expandSpecifiers_eq_self host hprogram,
      List.flatMap_singleton']

end Lib.Systemd
