import LeaveCli.Lib.Lossy

/-!
# Text that is UTF-8

Which bytes encode a character, and what reading them back returns. A byte below 128 in the encoding
of a text is a character of it (`mem_utf8_iff`), `from_utf8` accepts exactly the encodings
(`fromUtf8_eq_some`), and `from_utf8_lossy` returns the text of an encoding (`fromUtf8Lossy_utf8`)
and makes up no character in ASCII (`mem_of_mem_fromUtf8Lossy`).
-/

namespace Lib.Str

/-! ## One character -/

theorem utf8EncodeChar_ascii {c : Char} (h : c.toNat < 128) :
    String.utf8EncodeChar c = [UInt8.ofNat c.toNat] := by
  have hle : c.val.toNat ≤ 0x7f := Nat.le_of_lt_succ h
  rw [String.utf8EncodeChar]
  exact if_pos hle

/-- All bytes of a character beyond ASCII are beyond ASCII. -/
theorem utf8EncodeChar_high {c : Char} (h : 128 ≤ c.toNat) {b : UInt8}
    (hb : b ∈ String.utf8EncodeChar c) : 128 ≤ b.toNat := by
  have hlow : ¬ c.val.toNat ≤ 0x7f := Nat.not_le.2 h
  unfold String.utf8EncodeChar at hb
  simp only [if_neg hlow] at hb
  split at hb
  · simp only [List.mem_cons, List.not_mem_nil, or_false] at hb
    rcases hb with rfl | rfl <;> rw [UInt8.toNat_ofNat'] <;> omega
  split at hb
  · simp only [List.mem_cons, List.not_mem_nil, or_false] at hb
    rcases hb with rfl | rfl | rfl <;> rw [UInt8.toNat_ofNat'] <;> omega
  · simp only [List.mem_cons, List.not_mem_nil, or_false] at hb
    rcases hb with rfl | rfl | rfl | rfl <;> rw [UInt8.toNat_ofNat'] <;> omega

theorem utf8EncodeChar_ne_nil (c : Char) : String.utf8EncodeChar c ≠ [] := by
  unfold String.utf8EncodeChar
  simp only
  split
  · simp
  split
  · simp
  split <;> simp

/-- A byte below 128 stands for itself. -/
theorem mem_utf8_iff {b : UInt8} (hb : b.toNat < 128) {s : Str} :
    b ∈ s.utf8 ↔ Char.ofNat b.toNat ∈ s := by
  rw [utf8_eq_flatMap, List.mem_flatMap]
  have hvalid : b.toNat.isValidChar := .inl (by omega)
  have hof : (Char.ofNat b.toNat).toNat = b.toNat := by
    rw [Char.ofNat, dif_pos hvalid]
    rfl
  constructor
  · intro h
    obtain ⟨c, hc, hmem⟩ := h
    have hascii : c.toNat < 128 := by
      by_contra hhigh
      have := utf8EncodeChar_high (Nat.not_lt.1 hhigh) hmem
      omega
    rw [utf8EncodeChar_ascii hascii, List.mem_singleton] at hmem
    have hsame : b.toNat = c.toNat := by
      rw [hmem, UInt8.toNat_ofNat']
      omega
    rwa [hsame, Char.ofNat_toNat]
  · intro h
    refine ⟨_, h, ?_⟩
    have hascii : (Char.ofNat b.toNat).toNat < 128 := by rwa [hof]
    rw [utf8EncodeChar_ascii hascii, List.mem_singleton, hof, UInt8.ofNat_toNat]

/-- A text whose bytes begin with one below 128 begins with that character. -/
theorem toNat_of_head?_utf8 {b : UInt8} (hb : b.toNat < 128) {c : Char} {rest : Str}
    (h : (utf8 (c :: rest)).head? = some b) : c.toNat = b.toNat := by
  obtain ⟨first, more, hbytes⟩ := List.exists_cons_of_ne_nil (utf8EncodeChar_ne_nil c)
  rw [utf8_cons, hbytes, List.cons_append, List.head?_cons, Option.some.injEq] at h
  subst h
  have hascii : c.toNat < 128 := by
    by_contra hhigh
    have hmem : first ∈ String.utf8EncodeChar c := hbytes ▸ List.mem_cons_self
    have := utf8EncodeChar_high (Nat.not_lt.1 hhigh) hmem
    omega
  rw [utf8EncodeChar_ascii hascii, List.cons.injEq] at hbytes
  rw [← hbytes.1, UInt8.toNat_ofNat']
  omega

/-! ## Reading -/

theorem utf8_nil : utf8 [] = [] := by rw [utf8_eq_flatMap, List.flatMap_nil]

theorem fromUtf8_eq_some {bytes : Bytes} {s : Str} : fromUtf8 bytes = some s ↔ s.utf8 = bytes := by
  constructor
  · intro h
    unfold fromUtf8 at h
    obtain ⟨text, htext, rfl⟩ := Option.map_eq_some_iff.1 h
    unfold String.fromUTF8? at htext
    split at htext
    · rename_i hvalid
      rw [Option.some.injEq] at htext
      rw [utf8, String.ofList_toList, ← htext, ByteArray.toList, byteArray_toList_loop]
      rfl
    · cases htext
  · intro heq
    subst heq
    exact fromUtf8_utf8 s

theorem frontChar_of_continued {first low high : UInt8} {rest : Bytes} {count : Nat}
    (hfirst : 128 ≤ first.toNat) (hexpected : continuations first = some (count, low, high))
    (hfound : continued count low high rest = count) :
    frontChar first rest = (some (Char.ofNat ((rest.take count).foldl
      (fun bits byte => bits * 64 + byte.toNat % 64) (leadBits count first))), count + 1) := by
  have hhigh : ¬ first < 0x80 := by
    rw [UInt8.lt_iff_toNat_lt]
    exact Nat.not_lt.2 hfirst
  rw [frontChar, if_neg hhigh, hexpected, Option.elim_some]
  simp only [hfound, if_true]

theorem continued_cons {count : Nat} {low high byte : UInt8} (rest : Bytes)
    (h : low ≤ byte ∧ byte ≤ high) :
    continued (count + 1) low high (byte :: rest) = continued count 0x80 0xbf rest + 1 :=
  if_pos h

theorem continuations_two {first : UInt8} (hlow : 0xc2 ≤ first.toNat) (hhigh : first.toNat ≤ 0xdf) :
    continuations first = some (1, 0x80, 0xbf) := by
  rw [continuations, if_pos ⟨UInt8.le_iff_toNat_le.2 hlow, UInt8.le_iff_toNat_le.2 hhigh⟩]

/-- The second of three bytes is above the overlong forms and below the surrogates. -/
theorem continuations_three (first second : UInt8) (hlow : 0xe0 ≤ first.toNat)
    (hhigh : first.toNat ≤ 0xef) (hmin : 0x80 ≤ second.toNat) (hmax : second.toNat ≤ 0xbf)
    (hlong : first.toNat = 0xe0 → 0xa0 ≤ second.toNat)
    (hpair : first.toNat = 0xed → second.toNat ≤ 0x9f) :
    ∃ low high, continuations first = some (2, low, high) ∧ low ≤ second ∧ second ≤ high := by
  have heq : ∀ b : UInt8, first = b ↔ first.toNat = b.toNat := fun b => UInt8.toNat_inj.symm
  simp only [continuations, UInt8.le_iff_toNat_le, heq]
  simp only [UInt8.reduceToNat]
  rw [if_neg (by omega)]
  split
  · exact ⟨_, _, rfl, hlong ‹_›, hmax⟩
  split
  · exact ⟨_, _, rfl, hmin, hpair ‹_›⟩
  rw [if_pos (by omega)]
  exact ⟨_, _, rfl, hmin, hmax⟩

/-- The second of four bytes is above the overlong forms and below what is no character. -/
theorem continuations_four (first second : UInt8) (hlow : 0xf0 ≤ first.toNat)
    (hhigh : first.toNat ≤ 0xf4) (hmin : 0x80 ≤ second.toNat) (hmax : second.toNat ≤ 0xbf)
    (hlong : first.toNat = 0xf0 → 0x90 ≤ second.toNat)
    (hlast : first.toNat = 0xf4 → second.toNat ≤ 0x8f) :
    ∃ low high, continuations first = some (3, low, high) ∧ low ≤ second ∧ second ≤ high := by
  have heq : ∀ b : UInt8, first = b ↔ first.toNat = b.toNat := fun b => UInt8.toNat_inj.symm
  simp only [continuations, UInt8.le_iff_toNat_le, heq]
  simp only [UInt8.reduceToNat]
  rw [if_neg (by omega), if_neg (by omega), if_neg (by omega), if_neg (by omega)]
  split
  · exact ⟨_, _, rfl, hlong ‹_›, hmax⟩
  split
  · exact ⟨_, _, rfl, hmin, hlast ‹_›⟩
  rw [if_pos (by omega)]
  exact ⟨_, _, rfl, hmin, hmax⟩

theorem toNat_ofNat_of_lt {n : Nat} (h : n < 256) : (UInt8.ofNat n).toNat = n := by
  rw [UInt8.toNat_ofNat']
  omega

/-- The character at the front of a text is read back whatever follows. -/
theorem frontChar_utf8EncodeChar (c : Char) (rest : Bytes) :
    ∃ first more, String.utf8EncodeChar c = first :: more ∧
      frontChar first (more ++ rest) = (some c, more.length + 1) := by
  have hvalid : c.val.toNat < 0xd800 ∨ 0xdfff < c.val.toNat ∧ c.val.toNat < 0x110000 := c.valid
  have hof : ∀ n, n = c.val.toNat → Char.ofNat n = c := by
    intro n heq
    subst heq
    exact Char.ofNat_toNat c
  unfold String.utf8EncodeChar
  simp only
  generalize hv : c.val.toNat = v at hvalid hof
  split
  · rename_i hascii
    have hfirst := toNat_ofNat_of_lt (show v < 256 by omega)
    refine ⟨_, _, rfl, ?_⟩
    have hlt : UInt8.ofNat v < 0x80 := by
      rw [UInt8.lt_iff_toNat_lt, hfirst]
      exact Nat.lt_succ_of_le hascii
    rw [frontChar, if_pos hlt, hfirst, hof v rfl]
    rfl
  have hmore : ∀ n, (UInt8.ofNat (n % 0x40 + 0x80)).toNat = n % 0x40 + 0x80 := by
    intro n
    exact toNat_ofNat_of_lt (by omega)
  have hwithin : ∀ n, 0x80 ≤ UInt8.ofNat (n % 0x40 + 0x80) ∧
      UInt8.ofNat (n % 0x40 + 0x80) ≤ 0xbf := by
    intro n
    simp only [UInt8.le_iff_toNat_le, hmore, UInt8.reduceToNat]
    omega
  split
  · have hfirst := toNat_ofNat_of_lt (show v / 64 % 0x20 + 0xc0 < 256 by omega)
    refine ⟨_, _, rfl, ?_⟩
    have hfound : continued 1 0x80 0xbf ([UInt8.ofNat (v % 0x40 + 0x80)] ++ rest) = 1 :=
      continued_cons _ (hwithin v)
    rw [frontChar_of_continued (by omega)
      (continuations_two (by omega) (by omega)) hfound]
    simp only [List.cons_append, List.take_succ_cons, List.take_zero, List.foldl_cons,
      List.foldl_nil, leadBits, hfirst, hmore]
    rw [hof _ (by omega)]
    rfl
  split
  · have hfirst := toNat_ofNat_of_lt (show v / 4096 % 0x10 + 0xe0 < 256 by omega)
    have hsecond := hmore (v / 64)
    refine ⟨_, _, rfl, ?_⟩
    obtain ⟨low, high, hexpected, hrange⟩ := continuations_three
      (UInt8.ofNat (v / 4096 % 0x10 + 0xe0)) (UInt8.ofNat (v / 64 % 0x40 + 0x80)) (by omega)
      (by omega) (by omega) (by omega) (by omega) (by omega)
    have hfound : continued 2 low high ([UInt8.ofNat (v / 64 % 0x40 + 0x80),
        UInt8.ofNat (v % 0x40 + 0x80)] ++ rest) = 2 := by
      rw [List.cons_append, continued_cons _ hrange, List.cons_append,
        continued_cons _ (hwithin v)]
      rfl
    rw [frontChar_of_continued (by omega) hexpected hfound]
    simp only [List.cons_append, List.take_succ_cons, List.take_zero, List.foldl_cons,
      List.foldl_nil, leadBits, hfirst, hmore]
    rw [hof _ (by omega)]
    rfl
  · have hfirst := toNat_ofNat_of_lt (show v / 262144 % 0x08 + 0xf0 < 256 by omega)
    have hsecond := hmore (v / 4096)
    refine ⟨_, _, rfl, ?_⟩
    obtain ⟨low, high, hexpected, hrange⟩ := continuations_four
      (UInt8.ofNat (v / 262144 % 0x08 + 0xf0)) (UInt8.ofNat (v / 4096 % 0x40 + 0x80)) (by omega)
      (by omega) (by omega) (by omega) (by omega) (by omega)
    have hfound : continued 3 low high ([UInt8.ofNat (v / 4096 % 0x40 + 0x80),
        UInt8.ofNat (v / 64 % 0x40 + 0x80), UInt8.ofNat (v % 0x40 + 0x80)] ++ rest) = 3 := by
      rw [List.cons_append, continued_cons _ hrange, List.cons_append,
        continued_cons _ (hwithin (v / 64)), List.cons_append, continued_cons _ (hwithin v)]
      rfl
    rw [frontChar_of_continued (by omega) hexpected hfound]
    simp only [List.cons_append, List.take_succ_cons, List.take_zero, List.foldl_cons,
      List.foldl_nil, leadBits, hfirst, hmore]
    rw [hof _ (by omega)]
    rfl

theorem lossyWith_utf8 {s : Str} {fuel : Nat} (h : s.length ≤ fuel) :
    lossyWith fuel (utf8 s) = s := by
  induction s generalizing fuel with
  | nil => cases fuel <;> simp [utf8_eq_flatMap, lossyWith]
  | cons c s ih =>
    obtain ⟨n, rfl⟩ : ∃ n, fuel = n + 1 := ⟨fuel - 1, by rw [List.length_cons] at h; omega⟩
    obtain ⟨first, more, hfirst, hfront⟩ := frontChar_utf8EncodeChar c (utf8 s)
    rw [utf8_cons, hfirst, List.cons_append, lossyWith, hfront]
    have hdrop : (first :: (more ++ utf8 s)).drop (more.length + 1) = utf8 s := by simp
    rw [List.length_cons] at h
    simp only [hdrop, Option.getD_some]
    rw [ih (by omega)]

theorem length_le_length_utf8 (s : Str) : s.length ≤ (utf8 s).length := by
  induction s with
  | nil => exact Nat.zero_le _
  | cons c s ih =>
    have hpos := List.length_pos_iff.2 (utf8EncodeChar_ne_nil c)
    rw [utf8_cons, List.length_append, List.length_cons]
    omega

/-- What is UTF-8 is read without a replacement. -/
theorem fromUtf8Lossy_utf8 (s : Str) : fromUtf8Lossy s.utf8 = s :=
  lossyWith_utf8 (length_le_length_utf8 s)

/-! ## What is read as ASCII -/

theorem continued_succ {count : Nat} {low high : UInt8} {rest : Bytes}
    (h : continued (count + 1) low high rest = count + 1) :
    ∃ byte more, rest = byte :: more ∧ (low ≤ byte ∧ byte ≤ high) ∧
      continued count 0x80 0xbf more = count := by
  cases rest with
  | nil => cases h
  | cons byte more =>
    rw [continued] at h
    split at h
    · rename_i hrange
      exact ⟨byte, more, rfl, hrange, Nat.succ.inj h⟩
    · cases h

/-- The first bytes, by how many bytes continue them. -/
theorem continuations_eq_some {first low high : UInt8} {count : Nat}
    (h : continuations first = some (count, low, high)) :
    (count = 1 ∧ 0xc2 ≤ first.toNat ∧ first.toNat ≤ 0xdf) ∨
      (count = 2 ∧ 0xe0 ≤ first.toNat ∧ first.toNat ≤ 0xef ∧
        0x80 ≤ low.toNat ∧ high.toNat ≤ 0xbf ∧
        (first.toNat = 0xe0 → 0xa0 ≤ low.toNat) ∧ (first.toNat = 0xed → high.toNat ≤ 0x9f)) ∨
      (count = 3 ∧ 0xf0 ≤ first.toNat ∧ first.toNat ≤ 0xf4 ∧
        0x80 ≤ low.toNat ∧ high.toNat ≤ 0xbf ∧
        (first.toNat = 0xf0 → 0x90 ≤ low.toNat) ∧ (first.toNat = 0xf4 → high.toNat ≤ 0x8f)) := by
  have heq : ∀ b : UInt8, first = b ↔ first.toNat = b.toNat := fun b => UInt8.toNat_inj.symm
  simp only [continuations, UInt8.le_iff_toNat_le, heq, UInt8.reduceToNat] at h
  repeat' split at h
  all_goals cases h
  all_goals simp only [UInt8.reduceToNat]
  all_goals grind

theorem toNat_ofNat_of_valid {n : Nat} (h : n < 0xd800 ∨ 0xdfff < n ∧ n < 0x110000) :
    (Char.ofNat n).toNat = n := by
  rw [Char.ofNat, dif_pos h]
  rfl

/-- A character that is read from a byte beyond ASCII is beyond ASCII. -/
theorem frontChar_high {first : UInt8} {rest : Bytes} {c : Char} {size : Nat}
    (hfirst : 128 ≤ first.toNat) (h : frontChar first rest = (some c, size)) : 128 ≤ c.toNat := by
  have hhigh : ¬ first < 0x80 := by
    rw [UInt8.lt_iff_toNat_lt]
    exact Nat.not_lt.2 hfirst
  rw [frontChar, if_neg hhigh] at h
  cases hexpected : continuations first with
  | none =>
    rw [hexpected] at h
    cases h
  | some expected =>
    obtain ⟨count, low, high⟩ := expected
    rw [hexpected, Option.elim_some] at h
    simp only at h
    split at h
    · rename_i hfound
      rw [hfound] at h
      obtain ⟨hc, -⟩ := Prod.mk.inj h
      rw [← Option.some.inj hc]
      have hrange : ∀ b : UInt8, 0x80 ≤ b ∧ b ≤ 0xbf ↔ 0x80 ≤ b.toNat ∧ b.toNat ≤ 0xbf :=
        fun b => by rw [UInt8.le_iff_toNat_le, UInt8.le_iff_toNat_le]; rfl
      rcases continuations_eq_some hexpected with
        ⟨rfl, hmin, hmax⟩ | ⟨rfl, hmin, hmax, hlow, hhigh, hlong, hpair⟩ |
        ⟨rfl, hmin, hmax, hlow, hhigh, hlong, hlast⟩
      · obtain ⟨b, more, rfl, -, -⟩ := continued_succ hfound
        simp only [List.take_succ_cons, List.take_zero, List.foldl_cons, List.foldl_nil, leadBits]
        rw [toNat_ofNat_of_valid (by omega)]
        omega
      · obtain ⟨b, more, rfl, hb, hfound⟩ := continued_succ hfound
        obtain ⟨b', more, rfl, hb', -⟩ := continued_succ hfound
        rw [hrange] at hb'
        rw [UInt8.le_iff_toNat_le, UInt8.le_iff_toNat_le] at hb
        simp only [List.take_succ_cons, List.take_zero, List.foldl_cons, List.foldl_nil, leadBits]
        rw [toNat_ofNat_of_valid (by omega)]
        omega
      · obtain ⟨b, more, rfl, hb, hfound⟩ := continued_succ hfound
        obtain ⟨b', more, rfl, hb', hfound⟩ := continued_succ hfound
        obtain ⟨b'', more, rfl, hb'', -⟩ := continued_succ hfound
        rw [hrange] at hb' hb''
        rw [UInt8.le_iff_toNat_le, UInt8.le_iff_toNat_le] at hb
        simp only [List.take_succ_cons, List.take_zero, List.foldl_cons, List.foldl_nil, leadBits]
        rw [toNat_ofNat_of_valid (by omega)]
        omega
    · cases h
/-- A character in ASCII is its byte. -/
theorem frontChar_ascii {first : UInt8} {rest : Bytes}
    (h : ((frontChar first rest).1.getD '\ufffd').toNat < 128) :
    (frontChar first rest).2 = 1 ∧
      first = UInt8.ofNat ((frontChar first rest).1.getD '\ufffd').toNat := by
  by_cases hfirst : first < 0x80
  · have hlt : first.toNat < 128 := UInt8.lt_iff_toNat_lt.1 hfirst
    rw [frontChar, if_pos hfirst, Option.getD_some, toNat_ofNat_of_valid (by omega)]
    exact ⟨rfl, UInt8.ofNat_toNat.symm⟩
  · have hhigh : 128 ≤ first.toNat := Nat.not_lt.1 fun hlt => hfirst (UInt8.lt_iff_toNat_lt.2 hlt)
    cases hfront : frontChar first rest with
    | mk found size =>
      rw [hfront] at h
      cases found with
      | none =>
        rw [Option.getD_none] at h
        exact absurd h (by decide)
      | some c => exact absurd (frontChar_high hhigh hfront) (Nat.not_le.2 h)

theorem mem_of_mem_lossyWith {fuel : Nat} {bytes : Bytes} {c : Char} (hc : c.toNat < 128)
    (h : c ∈ lossyWith fuel bytes) : UInt8.ofNat c.toNat ∈ bytes := by
  induction fuel generalizing bytes with
  | zero => cases h
  | succ fuel ih =>
    cases bytes with
    | nil => cases h
    | cons first rest =>
      rw [lossyWith] at h
      rcases List.mem_cons.1 h with rfl | h
      · rw [← (frontChar_ascii hc).2]
        exact List.mem_cons_self
      · exact List.mem_of_mem_drop (ih h)

/-- A character in ASCII is not made up. -/
theorem mem_of_mem_fromUtf8Lossy {bytes : Bytes} {c : Char} (hc : c.toNat < 128)
    (h : c ∈ fromUtf8Lossy bytes) : UInt8.ofNat c.toNat ∈ bytes :=
  mem_of_mem_lossyWith hc h

theorem utf8_lossyWith_of_ascii {fuel : Nat} {bytes : Bytes} (hfuel : bytes.length ≤ fuel)
    (h : ∀ c ∈ lossyWith fuel bytes, c.toNat < 128) : utf8 (lossyWith fuel bytes) = bytes := by
  induction fuel generalizing bytes with
  | zero =>
    rw [List.length_eq_zero_iff.1 (Nat.le_zero.1 hfuel)]
    exact utf8_nil
  | succ fuel ih =>
    cases bytes with
    | nil => exact utf8_nil
    | cons first rest =>
      rw [lossyWith] at h ⊢
      obtain ⟨hhead, hrest⟩ := List.forall_mem_cons.1 h
      obtain ⟨hsize, hfirst⟩ := frontChar_ascii hhead
      rw [hsize, List.drop_succ_cons, List.drop_zero] at hrest ⊢
      rw [utf8_cons, utf8EncodeChar_ascii hhead, ← hfirst, List.singleton_append,
        ih (Nat.le_of_succ_le_succ hfuel) hrest]

/-- What is read as ASCII is these bytes. -/
theorem utf8_fromUtf8Lossy_of_ascii {bytes : Bytes} (h : ∀ c ∈ fromUtf8Lossy bytes, c.toNat < 128) :
    utf8 (fromUtf8Lossy bytes) = bytes :=
  utf8_lossyWith_of_ascii (Nat.le_refl _) h

/-- One ASCII character in the place of another is one byte in the place of another. -/
theorem utf8_map_replace {a b : Char} (ha : a.toNat < 128) (hb : b.toNat < 128) (s : Str) :
    utf8 (s.map fun c => if c = a then b else c) =
      (utf8 s).map fun byte =>
        if byte = UInt8.ofNat a.toNat then UInt8.ofNat b.toNat else byte := by
  induction s with
  | nil => rw [List.map_nil, utf8_nil, List.map_nil]
  | cons c s ih =>
    rw [List.map_cons, utf8_cons, utf8_cons, List.map_append, ih]
    congr 1
    by_cases hc : c = a
    · rw [if_pos hc, hc, utf8EncodeChar_ascii ha, utf8EncodeChar_ascii hb, List.map_singleton,
        if_pos rfl]
    · rw [if_neg hc]
      have hkept : ∀ byte ∈ String.utf8EncodeChar c, byte ≠ UInt8.ofNat a.toNat := by
        intro byte hbyte heq
        subst heq
        have hlt := toNat_ofNat_of_lt (show a.toNat < 256 by omega)
        by_cases hascii : c.toNat < 128
        · rw [utf8EncodeChar_ascii hascii, List.mem_singleton, ← UInt8.toNat_inj, hlt,
            toNat_ofNat_of_lt (by omega), Char.toNat_inj] at hbyte
          exact hc hbyte.symm
        · have hhigh := utf8EncodeChar_high (Nat.not_lt.1 hascii) hbyte
          omega
      conv_lhs => rw [← List.map_id (String.utf8EncodeChar c)]
      exact List.map_congr_left fun byte hbyte => (if_neg (hkept byte hbyte)).symm

end Lib.Str
