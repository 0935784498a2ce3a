import LeaveCli.Lib.Text
import Mathlib.Algebra.GroupWithZero.Nat

/-!
# Command lines of Windows programs

The documented reading: blanks outside quotes end an argument; of `2n` backslashes before a quote
`n` stay and the quote opens or closes, of `2n + 1` also `n` stay and the quote is part of the
argument; other backslashes are as they stand. `arguments_line_of_sound` reads a line of quoted
words back, `sound_of_arguments_line` that only words whose backslashes stand neither before a
quote nor at the end come back: by the count of backslashes that are lost, and of quotes that are
kept. `arguments_line_iff` is both, for a first word that is quoted as it stands.
-/

namespace Lib.WindowsArgs

def isBlank (c : Char) : Bool := c = ' ' || c = '\t'

def backslashes (n : Nat) : Str := List.replicate n '\\'

/-- Where the reader is; inside an argument with the backslashes that were read last. -/
inductive Scan
  | outside
  | inside (word : Str) (quoted : Bool) (n : Nat)

/-- A character that does not end the argument. -/
def take (word : Str) (quoted : Bool) (n : Nat) (c : Char) : Scan :=
  if c = '\\' then .inside word quoted (n + 1)
  else if c = '"' then
    if n % 2 = 0 then .inside (word ++ backslashes (n / 2)) (!quoted) 0
    else .inside (word ++ backslashes (n / 2) ++ ['"']) quoted 0
  else .inside (word ++ backslashes n ++ [c]) quoted 0

def arguments : Scan → Str → List Str
  | .outside, [] => []
  | .outside, c :: cs =>
    if isBlank c then arguments .outside cs else arguments (take [] false 0 c) cs
  | .inside word _ n, [] => [word ++ backslashes n]
  | .inside word quoted n, c :: cs =>
    if isBlank c && !quoted then (word ++ backslashes n) :: arguments .outside cs
    else arguments (take word quoted n c) cs

/-- The words of a line, each in quotes. -/
def line : List Str → Str
  | [] => []
  | [body] => '"' :: (body ++ ['"'])
  | body :: more => '"' :: (body ++ '"' :: ' ' :: line more)

def escapeQuotes (s : Str) : Str := s.flatMap fun c => if c = '"' then ['\\', '"'] else [c]

theorem escapeQuotes_cons (c : Char) (s : Str) :
    escapeQuotes (c :: s) = (if c = '"' then ['\\', '"'] else [c]) ++ escapeQuotes s :=
  List.flatMap_cons

theorem escapeQuotes_eq_self {s : Str} (h : '"' ∉ s) : escapeQuotes s = s := by
  induction s with
  | nil => rfl
  | cons c s ih =>
    obtain ⟨hc, hs⟩ := List.ne_and_not_mem_of_not_mem_cons h
    rw [escapeQuotes_cons, if_neg (Ne.symm hc), ih hs, List.singleton_append]

/-! ## Words that come back -/

/-- Something other than a quote stands behind every backslash. -/
def Sound (s : Str) : Prop := ∀ a b, s = a ++ '\\' :: b → ∃ c ∈ b.head?, c ≠ '"'

theorem sound_cons_iff {c : Char} {s : Str} :
    Sound (c :: s) ↔ (c = '\\' → ∃ d ∈ s.head?, d ≠ '"') ∧ Sound s := by
  constructor
  · intro h
    exact ⟨fun hc => h [] s (hc ▸ rfl), fun a b hs => h (c :: a) b (hs ▸ rfl)⟩
  · intro ⟨hfront, hrest⟩ a b hs
    cases a with
    | nil =>
      obtain ⟨rfl, rfl⟩ := List.cons.inj hs
      exact hfront rfl
    | cons x a => exact hrest a b (List.cons.inj hs).2

theorem backslashes_succ (word : Str) (n : Nat) (s : Str) :
    word ++ backslashes (n + 1) ++ s = word ++ backslashes n ++ '\\' :: s := by
  rw [backslashes, List.replicate_succ', backslashes]
  simp

/-- The rest of a quoted word, up to the closing quote. -/
theorem arguments_escapeQuotes (word : Str) {s : Str} {n : Nat}
    (hn : n = 0 ∨ ∃ c ∈ s.head?, c ≠ '"') (hs : Sound s) (rest : Str) :
    arguments (.inside word true n) (escapeQuotes s ++ '"' :: rest) =
      arguments (.inside (word ++ backslashes n ++ s) false 0) rest := by
  induction s generalizing word n with
  | nil =>
    obtain rfl : n = 0 := hn.resolve_right fun ⟨c, hc, _⟩ => by cases hc
    show arguments (.inside (word ++ []) false 0) rest = _
    simp [backslashes]
  | cons c s ih =>
    obtain ⟨hfront, hrest⟩ := sound_cons_iff.1 hs
    rw [escapeQuotes_cons, List.append_assoc]
    by_cases hbackslash : c = '\\'
    · subst hbackslash
      rw [← backslashes_succ, ← ih word (Or.inr (hfront rfl)) hrest]
      rfl
    by_cases hquote : c = '"'
    · subst hquote
      obtain rfl : n = 0 := hn.resolve_right fun ⟨d, hd, hne⟩ => hne (Option.some.inj hd).symm
      have hnext := ih (word ++ ['"']) (Or.inl rfl) hrest
      show arguments (.inside (word ++ [] ++ ['"']) true 0) (escapeQuotes s ++ '"' :: rest) = _
      simp only [backslashes, List.replicate_zero, List.append_nil, List.append_assoc,
        List.singleton_append] at hnext ⊢
      exact hnext
    · have hnext := ih (word ++ backslashes n ++ [c]) (Or.inl rfl) hrest
      simp only [backslashes, List.replicate_zero, List.append_nil, List.append_assoc,
        List.singleton_append] at hnext
      rw [if_neg hquote, List.singleton_append, arguments, if_neg (by simp), take,
        if_neg hbackslash, if_neg hquote, backslashes]
      simp only [List.append_assoc]
      exact hnext

theorem arguments_quote {s : Str} (hs : Sound s) (rest : Str) :
    arguments .outside ('"' :: (escapeQuotes s ++ '"' :: rest)) =
      arguments (.inside s false 0) rest :=
  arguments_escapeQuotes [] (Or.inl rfl) hs rest

theorem arguments_line_of_sound {ws : List Str} (h : ∀ w ∈ ws, Sound w) :
    arguments .outside (line (ws.map escapeQuotes)) = ws := by
  induction ws with
  | nil => rfl
  | cons w ws ih =>
    obtain ⟨hw, hws⟩ := List.forall_mem_cons.1 h
    cases ws with
    | nil =>
      show arguments .outside ('"' :: (escapeQuotes w ++ ['"'])) = [w]
      rw [arguments_quote hw]
      exact congrArg ([·]) (List.append_nil w)
    | cons v ws =>
      show arguments .outside ('"' :: (escapeQuotes w ++ '"' :: ' ' ::
        line ((v :: ws).map escapeQuotes))) = w :: v :: ws
      rw [arguments_quote hw]
      show (w ++ []) :: arguments .outside (line ((v :: ws).map escapeQuotes)) = _
      rw [List.append_nil, ih hws]

/-! ## Counting -/

/-- The backslashes that are lost, those of quotes that are kept not counted. -/
def lost : Nat → Str → Nat
  | _, [] => 0
  | n, c :: cs =>
    if c = '\\' then lost (n + 1) cs else if c = '"' then n / 2 + lost 0 cs else lost 0 cs

/-- The quotes that are kept. -/
def kept : Nat → Str → Nat
  | _, [] => 0
  | n, c :: cs =>
    if c = '\\' then kept (n + 1) cs else if c = '"' then n % 2 + kept 0 cs else kept 0 cs

/-- The backslashes and quotes of a word. -/
def marks (s : Str) : Nat := s.count '\\' + s.count '"'

theorem marks_append (s t : Str) : marks (s ++ t) = marks s + marks t := by
  rw [marks, marks, marks, List.count_append, List.count_append]
  omega

theorem marks_backslashes (n : Nat) : marks (backslashes n) = n := by
  simp [marks, backslashes, List.count_replicate]

theorem count_backslashes (n : Nat) : (backslashes n).count '"' = 0 := by
  simp [backslashes, List.count_replicate]

/-- What a state has read: nothing outside. -/
def Scan.marks : Scan → Nat
  | .outside => 0
  | .inside word _ n => WindowsArgs.marks word + n

def Scan.quotes : Scan → Nat
  | .outside => 0
  | .inside word _ _ => word.count '"'

def Scan.pending : Scan → Nat
  | .outside => 0
  | .inside _ _ n => n

theorem take_quote (word : Str) (quoted : Bool) (n : Nat) :
    take word quoted n '"' =
      if n % 2 = 0 then .inside (word ++ backslashes (n / 2)) (!quoted) 0
      else .inside (word ++ backslashes (n / 2) ++ ['"']) quoted 0 := rfl

theorem lost_quote (n : Nat) (cs : Str) : lost n ('"' :: cs) = n / 2 + lost 0 cs := rfl

theorem kept_quote (n : Nat) (cs : Str) : kept n ('"' :: cs) = n % 2 + kept 0 cs := rfl

theorem lost_take (word : Str) (quoted : Bool) (n : Nat) (c : Char) (cs : Str) :
    (take word quoted n c).marks + lost n (c :: cs) =
      marks word + n + [c].count '\\' + lost (take word quoted n c).pending cs := by
  by_cases hbackslash : c = '\\'
  · subst hbackslash
    simp only [take, lost, ↓reduceIte, Scan.marks, Scan.pending, List.count_singleton_self]
    omega
  by_cases hquote : c = '"'
  · subst hquote
    have hone : marks ['"'] = 1 := by decide
    have hnone : List.count '\\' ['"'] = 0 := by decide
    rw [take_quote, lost_quote, hnone]
    split <;> simp only [Scan.marks, Scan.pending, marks_append, marks_backslashes, hone] <;> omega
  · have hnone : marks [c] = 0 := by simp [marks, hbackslash, hquote]
    simp [take, lost, hbackslash, hquote, Scan.marks, Scan.pending, marks_append,
      marks_backslashes, hnone]

theorem kept_take (word : Str) (quoted : Bool) (n : Nat) (c : Char) (cs : Str) :
    (take word quoted n c).quotes + kept (take word quoted n c).pending cs =
      word.count '"' + kept n (c :: cs) := by
  by_cases hbackslash : c = '\\'
  · subst hbackslash
    simp [take, kept, Scan.quotes, Scan.pending]
  by_cases hquote : c = '"'
  · subst hquote
    rw [take_quote, kept_quote]
    split <;> simp only [Scan.quotes, Scan.pending, List.count_append, count_backslashes,
      List.count_singleton_self] <;> omega
  · simp [take, kept, hbackslash, hquote, Scan.quotes, Scan.pending, count_backslashes]

theorem isBlank_ne {c : Char} (h : isBlank c = true) : c ≠ '\\' ∧ c ≠ '"' := by
  constructor <;> (rintro rfl; cases h)

theorem lost_blank {c : Char} (h : isBlank c = true) (n : Nat) (cs : Str) :
    lost n (c :: cs) = lost 0 cs := by
  rw [lost, if_neg (isBlank_ne h).1, if_neg (isBlank_ne h).2]

theorem kept_blank {c : Char} (h : isBlank c = true) (n : Nat) (cs : Str) :
    kept n (c :: cs) = kept 0 cs := by
  rw [kept, if_neg (isBlank_ne h).1, if_neg (isBlank_ne h).2]

/-- Every backslash of the line comes back, makes a quote be kept, or is lost. -/
theorem marks_arguments (scan : Scan) (cs : Str) :
    marks (arguments scan cs).flatten + lost scan.pending cs =
      scan.marks + cs.count '\\' := by
  induction cs generalizing scan with
  | nil =>
    cases scan with
    | outside => rfl
    | inside word quoted n =>
      simp [arguments, lost, Scan.marks, marks_append, marks_backslashes]
  | cons c cs ih =>
    have hcount : (c :: cs).count '\\' = [c].count '\\' + cs.count '\\' := by
      rw [← List.count_append, List.singleton_append]
    cases scan with
    | outside =>
      have hempty : marks [] = 0 := rfl
      rw [arguments, hcount]
      split
      · rename_i hblank
        have hrest := ih .outside
        have hc : [c].count '\\' = 0 := by
          simpa [List.count_singleton] using (isBlank_ne hblank).1
        rw [lost_blank hblank, hc, Nat.zero_add]
        exact hrest
      · have hrest := ih (take [] false 0 c)
        have htake := lost_take [] false 0 c cs
        simp only [Scan.pending, Scan.marks]
        omega
    | inside word quoted n =>
      rw [arguments, hcount]
      split
      · rename_i hblank
        obtain ⟨hblank, -⟩ := Bool.and_eq_true_iff.1 hblank
        have hrest := ih .outside
        have hc : [c].count '\\' = 0 := by
          simpa [List.count_singleton] using (isBlank_ne hblank).1
        rw [lost_blank hblank, hc, List.flatten_cons, marks_append, marks_append,
          marks_backslashes]
        simp only [Scan.pending, Scan.marks] at hrest ⊢
        omega
      · have hrest := ih (take word quoted n c)
        have htake := lost_take word quoted n c cs
        simp only [Scan.pending, Scan.marks] at hrest htake ⊢
        omega

theorem quotes_arguments (scan : Scan) (cs : Str) :
    (arguments scan cs).flatten.count '"' = scan.quotes + kept scan.pending cs := by
  induction cs generalizing scan with
  | nil =>
    cases scan with
    | outside => rfl
    | inside word quoted n => simp [arguments, kept, Scan.quotes, count_backslashes]
  | cons c cs ih =>
    cases scan with
    | outside =>
      have hempty : ([] : Str).count '"' = 0 := rfl
      rw [arguments]
      split
      · rename_i hblank
        rw [kept_blank hblank]
        exact ih .outside
      · have htake := kept_take [] false 0 c cs
        rw [ih (take [] false 0 c), htake]
        rfl
    | inside word quoted n =>
      rw [arguments]
      split
      · rename_i hblank
        obtain ⟨hblank, -⟩ := Bool.and_eq_true_iff.1 hblank
        rw [kept_blank hblank, List.flatten_cons, List.count_append, List.count_append,
          count_backslashes, ih .outside]
        simp [Scan.quotes, Scan.pending]
      · rw [ih (take word quoted n c), kept_take]
        rfl

theorem lost_append_quote (n : Nat) (s rest : Str) :
    lost n (s ++ '"' :: rest) = lost n (s ++ ['"']) + lost 0 rest := by
  induction s generalizing n with
  | nil => simp [lost]
  | cons c s ih =>
    rw [List.cons_append, List.cons_append, lost, lost]
    split
    · exact ih (n + 1)
    · split
      · rw [ih 0, Nat.add_assoc]
      · exact ih 0

theorem kept_append_quote (n : Nat) (s rest : Str) :
    kept n (s ++ '"' :: rest) = kept n (s ++ ['"']) + kept 0 rest := by
  induction s generalizing n with
  | nil => simp [kept]
  | cons c s ih =>
    rw [List.cons_append, List.cons_append, kept, kept]
    split
    · exact ih (n + 1)
    · split
      · rw [ih 0, Nat.add_assoc]
      · exact ih 0

theorem lost_line (bodies : List Str) :
    lost 0 (line bodies) = (bodies.map fun body => lost 0 (body ++ ['"'])).sum := by
  induction bodies with
  | nil => rfl
  | cons body more ih =>
    cases more with
    | nil => simp [line, lost]
    | cons next more =>
      rw [List.map_cons, List.sum_cons, ← ih, line, lost, if_neg (by decide), if_pos rfl,
        lost_append_quote, lost_blank (by decide)]
      omega
      simp

theorem kept_line (bodies : List Str) :
    kept 0 (line bodies) = (bodies.map fun body => kept 0 (body ++ ['"'])).sum := by
  induction bodies with
  | nil => rfl
  | cons body more ih =>
    cases more with
    | nil => simp [line, kept]
    | cons next more =>
      rw [List.map_cons, List.sum_cons, ← ih, line, kept, if_neg (by decide), if_pos rfl,
        kept_append_quote, kept_blank (by decide)]
      omega
      simp

theorem count_line (bodies : List Str) :
    (line bodies).count '\\' = (bodies.map (List.count '\\')).sum := by
  induction bodies with
  | nil => rfl
  | cons body more ih =>
    cases more with
    | nil => simp [line]
    | cons next more => simp [line, ih]

theorem count_escapeQuotes (s : Str) : (escapeQuotes s).count '\\' = marks s := by
  induction s with
  | nil => rfl
  | cons c s ih =>
    have hmarks : marks (c :: s) = marks [c] + marks s := marks_append [c] s
    rw [escapeQuotes_cons, List.count_append, ih, hmarks]
    congr 1
    split
    · rename_i hc
      subst hc
      rfl
    · rename_i hc
      simp [marks, List.count_singleton, hc]

/-- Where no backslash is lost every quote is kept; where no other quote is, the word is sound. -/
theorem sound_of_kept {n : Nat} {s : Str} (h : lost n (escapeQuotes s ++ ['"']) = 0) :
    s.count '"' ≤ kept n (escapeQuotes s ++ ['"']) ∧
      (kept n (escapeQuotes s ++ ['"']) ≤ s.count '"' →
        (n = 0 ∨ ∃ c ∈ s.head?, c ≠ '"') ∧ Sound s) := by
  induction s generalizing n with
  | nil =>
    have hn : n / 2 + 0 = 0 := h
    refine ⟨Nat.zero_le _, fun hle => ⟨Or.inl ?_, fun a b hs => by simp at hs⟩⟩
    have hle' : n % 2 + 0 ≤ 0 := hle
    omega
  | cons c s ih =>
    rw [escapeQuotes_cons, List.append_assoc] at h ⊢
    rw [sound_cons_iff]
    by_cases hbackslash : c = '\\'
    · subst hbackslash
      obtain ⟨hge, hsound⟩ := ih (n := n + 1) h
      refine ⟨hge, fun hle => ?_⟩
      obtain ⟨hfront, hs⟩ := hsound hle
      exact ⟨Or.inr ⟨'\\', rfl, by decide⟩, fun _ => hfront.resolve_left (Nat.succ_ne_zero n), hs⟩
    by_cases hquote : c = '"'
    · subst hquote
      -- the quote is written with one backslash more than stand before it
      have hlost : (n + 1) / 2 + lost 0 (escapeQuotes s ++ ['"']) = 0 := h
      obtain rfl : n = 0 := by omega
      obtain ⟨hge, hsound⟩ := ih (n := 0) (by omega)
      have hkept : kept 0 (['\\', '"'] ++ (escapeQuotes s ++ ['"'])) =
        1 + kept 0 (escapeQuotes s ++ ['"']) := rfl
      rw [if_pos rfl, hkept, List.count_cons_self]
      refine ⟨by omega, fun hle => ⟨Or.inl rfl, fun hne => absurd hne (by decide),
        (hsound (by omega)).2⟩⟩
    · rw [if_neg hquote, List.singleton_append] at h ⊢
      rw [lost, if_neg hbackslash, if_neg hquote] at h
      rw [kept, if_neg hbackslash, if_neg hquote, List.count_cons_of_ne hquote]
      obtain ⟨hge, hsound⟩ := ih (n := 0) h
      exact ⟨hge, fun hle => ⟨Or.inr ⟨c, rfl, hquote⟩, fun hc => absurd hc hbackslash,
        (hsound hle).2⟩⟩

theorem sound_of_kept_sum {ws : List Str}
    (h : (ws.map fun w => lost 0 (escapeQuotes w ++ ['"'])).sum = 0) :
    (ws.map (List.count '"')).sum ≤ (ws.map fun w => kept 0 (escapeQuotes w ++ ['"'])).sum ∧
      ((ws.map fun w => kept 0 (escapeQuotes w ++ ['"'])).sum ≤ (ws.map (List.count '"')).sum →
        ∀ w ∈ ws, Sound w) := by
  induction ws with
  | nil => exact ⟨Nat.le_refl _, fun _ w hw => absurd hw List.not_mem_nil⟩
  | cons w ws ih =>
    simp only [List.map_cons, List.sum_cons] at h ⊢
    obtain ⟨hge, hsound⟩ := sound_of_kept (n := 0) (s := w) (by omega)
    obtain ⟨hges, hsounds⟩ := ih (by omega)
    refine ⟨by omega, fun hle => List.forall_mem_cons.2 ⟨?_, hsounds (by omega)⟩⟩
    exact (hsound (by omega)).2

theorem marks_flatten (ws : List Str) : marks ws.flatten = (ws.map marks).sum := by
  induction ws with
  | nil => rfl
  | cons w ws ih => rw [List.flatten_cons, marks_append, ih, List.map_cons, List.sum_cons]

theorem sound_of_arguments_line {ws : List Str}
    (h : arguments .outside (line (ws.map escapeQuotes)) = ws) : ∀ w ∈ ws, Sound w := by
  have hmarks := marks_arguments .outside (line (ws.map escapeQuotes))
  have hquotes := quotes_arguments .outside (line (ws.map escapeQuotes))
  have hcount : (line (ws.map escapeQuotes)).count '\\' = marks ws.flatten := by
    rw [count_line, marks_flatten, List.map_map]
    exact congrArg List.sum (List.map_congr_left fun w _ => count_escapeQuotes w)
  simp only [h, Scan.pending, Scan.marks, Scan.quotes, hcount, lost_line, kept_line,
    List.map_map, Function.comp_def, List.count_flatten] at hmarks hquotes
  have hlost : (ws.map fun w => lost 0 (escapeQuotes w ++ ['"'])).sum = 0 := by omega
  exact (sound_of_kept_sum hlost).2 (by omega)

/-- The first word is written without escapes: it comes back only without quotes. -/
theorem quote_notMem_of_arguments_line {program : Str} {ws : List Str}
    (h : arguments .outside (line (program :: ws.map escapeQuotes)) = program :: ws) :
    '"' ∉ program := by
  have hmarks := marks_arguments .outside (line (program :: ws.map escapeQuotes))
  have hcount : (line (program :: ws.map escapeQuotes)).count '\\' =
      program.count '\\' + marks ws.flatten := by
    rw [count_line, List.map_cons, List.sum_cons, marks_flatten, List.map_map]
    exact congrArg (_ + List.sum ·) (List.map_congr_left fun w _ => count_escapeQuotes w)
  rw [h, hcount, List.flatten_cons, marks_append, marks] at hmarks
  simp only [Scan.marks] at hmarks
  exact List.count_eq_zero.1 (by omega)

theorem arguments_line_iff (program : Str) (ws : List Str) :
    arguments .outside (line (program :: ws.map escapeQuotes)) = program :: ws ↔
      '"' ∉ program ∧ ∀ w ∈ program :: ws, Sound w := by
  have hescape (hprogram : '"' ∉ program) :
      program :: ws.map escapeQuotes = (program :: ws).map escapeQuotes := by
    rw [List.map_cons, escapeQuotes_eq_self hprogram]
  constructor
  · intro h
    have hprogram := quote_notMem_of_arguments_line h
    rw [hescape hprogram] at h
    exact ⟨hprogram, sound_of_arguments_line h⟩
  · intro ⟨hprogram, hsound⟩
    rw [hescape hprogram]
    exact arguments_line_of_sound hsound

end Lib.WindowsArgs
