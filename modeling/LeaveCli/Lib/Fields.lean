import LeaveCli.Lib.Utf8

/-!
# Records and fields

What Rust's `str` and `slice` make of records that end in a separator, of fields between separators
and of decimal numbers, and that each undoes the printing: `splitOn_records`, `splitn_fields`,
`splitWhitespace_fields`, `parseU32_repr`.
-/

namespace Lib

/-! ## Records -/

/-- Records, each with the separator after it. -/
def records {α : Type} (separator : α) (items : List (List α)) : List α :=
  items.flatMap fun item => item ++ [separator]

theorem splitOn_records {α : Type} [BEq α] [LawfulBEq α] {separator : α} {items : List (List α)}
    (h : ∀ item ∈ items, separator ∉ item) :
    (records separator items).splitOn separator = items ++ [[]] := by
  induction items with
  | nil => rfl
  | cons item items ih =>
    obtain ⟨hitem, hitems⟩ := List.forall_mem_cons.1 h
    rw [records, List.flatMap_cons, List.append_assoc, List.singleton_append,
      List.splitOn_append_cons_self, List.splitOn_eq_singleton hitem]
    exact congrArg (item :: ·) (ih hitems)

/-- Records, and a last one that no separator ends. -/
theorem splitOn_records_append {α : Type} [BEq α] [LawfulBEq α] {separator : α}
    {items : List (List α)} (h : ∀ item ∈ items, separator ∉ item) {last : List α}
    (hlast : separator ∉ last) :
    (records separator items ++ last).splitOn separator = items ++ [last] := by
  induction items with
  | nil => exact List.splitOn_eq_singleton hlast
  | cons item items ih =>
    obtain ⟨hitem, hitems⟩ := List.forall_mem_cons.1 h
    rw [records, List.flatMap_cons, List.append_assoc, List.append_assoc, List.singleton_append,
      List.splitOn_append_cons_self, List.splitOn_eq_singleton hitem]
    exact congrArg (item :: ·) (ih hitems)

theorem records_append {α : Type} (separator : α) (items more : List (List α)) :
    records separator (items ++ more) = records separator items ++ records separator more :=
  List.flatMap_append

namespace Str

/-! ## Fields -/

/-- `str::splitn`: at most this many parts, the last one with what is left. -/
def splitn : Nat → Char → Str → List Str
  | 0, _, _ => []
  | 1, _, s => [s]
  | n + 2, c, s => (splitOnce c s).elim [s] fun part => part.1 :: splitn (n + 1) c part.2

/-- Fields, each with the separator after it, and a text at the end. -/
def fields (c : Char) (words : List Str) (last : Str) : Str :=
  words.foldr (fun word rest => word ++ c :: rest) last

theorem splitOnce_append {c : Char} {word : Str} (h : c ∉ word) (rest : Str) :
    splitOnce c (word ++ c :: rest) = some (word, rest) := by
  induction word with
  | nil => exact if_pos rfl
  | cons x word ih =>
    rw [List.mem_cons, not_or] at h
    rw [List.cons_append, splitOnce, if_neg (Ne.symm h.1), ih h.2]
    rfl

theorem splitn_fields {c : Char} {words : List Str} (h : ∀ word ∈ words, c ∉ word) (last : Str) :
    splitn (words.length + 1) c (fields c words last) = words ++ [last] := by
  induction words with
  | nil => rfl
  | cons word words ih =>
    obtain ⟨hword, hwords⟩ := List.forall_mem_cons.1 h
    have hfields : fields c (word :: words) last = word ++ c :: fields c words last := rfl
    rw [hfields, List.length_cons, splitn, splitOnce_append hword, Option.elim_some]
    exact congrArg (word :: ·) (ih hwords)

/-- `str::split_whitespace`. -/
def splitWhitespace (s : Str) : List Str := (s.splitOnP isWhiteSpace).filter (· ≠ [])

/-- Two words with a space between them. -/
theorem splitWhitespace_pair {word other : Str} (hword : ∀ c ∈ word, isWhiteSpace c = false)
    (hother : ∀ c ∈ other, isWhiteSpace c = false) (hne : word ≠ []) (hne' : other ≠ []) :
    splitWhitespace (word ++ ' ' :: other) = [word, other] := by
  have hspace : isWhiteSpace ' ' = true := by decide
  rw [splitWhitespace, List.splitOnP_append_cons_of_forall_mem hword ' ' hspace,
    List.splitOnP_eq_singleton hother]
  simp [hne, hne']

/-! ## Numbers -/

/-- `u32::from_str`: decimal digits, with a plus sign or without. -/
def parseU32 (s : Str) : Option UInt32 :=
  let digits := (stripPrefix ['+'] s).getD s
  let value := Nat.ofDigitChars 10 digits 0
  if digits ≠ [] ∧ digits.all Char.isDigit ∧ value < UInt32.size then some (UInt32.ofNat value)
  else none

theorem isDigit_of_mem_repr {n : Nat} {c : Char} (h : c ∈ n.repr.toList) : c.isDigit = true := by
  rw [Nat.toList_repr] at h
  exact Nat.isDigit_of_mem_toDigits (by decide) (by decide) h

theorem repr_ne_nil (n : Nat) : n.repr.toList ≠ [] := by
  rw [Nat.toList_repr]
  exact Nat.toDigits_ne_nil

theorem not_mem_repr {n : Nat} {c : Char} (h : c.isDigit = false) : c ∉ n.repr.toList := by
  intro hc
  rw [isDigit_of_mem_repr hc] at h
  cases h

/-- A number is read back if it fits. -/
theorem parseU32_repr (n : Nat) :
    parseU32 n.repr.toList = if n < UInt32.size then some (UInt32.ofNat n) else none := by
  have hplain : (stripPrefix ['+'] n.repr.toList).getD n.repr.toList = n.repr.toList := by
    cases hstrip : stripPrefix ['+'] n.repr.toList with
    | none => rfl
    | some rest =>
      have hplus : '+' ∈ n.repr.toList := by
        rw [stripPrefix_eq_some.1 hstrip]
        exact List.mem_cons_self
      exact absurd hplus (not_mem_repr rfl)
  have hdigits : n.repr.toList.all Char.isDigit = true :=
    List.all_eq_true.2 fun c hc => isDigit_of_mem_repr hc
  have hvalue : Nat.ofDigitChars 10 n.repr.toList 0 = n := by
    rw [Nat.toList_repr, Nat.ofDigitChars_ten_toDigits]
  simp only [parseU32, hplain, hdigits, hvalue]
  simp only [ne_eq, repr_ne_nil, not_false_eq_true, true_and]

theorem isWhiteSpace_of_mem_repr {n : Nat} {c : Char} (h : c ∈ n.repr.toList) :
    isWhiteSpace c = false := by
  have hdigit := isDigit_of_mem_repr h
  rw [Char.isDigit, Bool.and_eq_true, decide_eq_true_eq, decide_eq_true_eq] at hdigit
  have hlow : 48 ≤ c.toNat := UInt32.le_iff_toNat_le.1 hdigit.1
  have hhigh : c.toNat ≤ 57 := UInt32.le_iff_toNat_le.1 hdigit.2
  rw [isWhiteSpace, decide_eq_false_iff_not]
  omega

end Str

end Lib
