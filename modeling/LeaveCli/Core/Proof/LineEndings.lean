import LeaveCli.Core.GuardedFs
import LeaveCli.Lib.Utf8

/-!
# Line endings are kept

A write gives the whole text the separators of the file that is there. `bareLfs` counts the line
feeds that have no carriage return before them: a text in CRLF has none (`bareLfs_toCrlf`), one that
is put into CRLF grows by each (`length_toCrlf_toLf`), and one that has none stays as it is
(`toCrlf_toLf_iff`). The one pass that takes the carriage returns out leaves a CRLF where there were
two in front of a line feed (`crlf_infix_toLf_iff`), which is when endings are not kept uniform
(`preserveLineEndings_uniform_iff`).
-/

namespace LeaveCli.Core

open Lib Lib.Str

/-- The line feeds with no carriage return before them. -/
def bareLfs : Str → Nat
  | [] => 0
  | '\r' :: '\n' :: rest => bareLfs rest
  | c :: rest => (if c = '\n' then 1 else 0) + bareLfs rest

/-- The same text but for line feeds in the place of CRLF, or the other way round. -/
inductive UpToSeparators : Str → Str → Prop
  | nil : UpToSeparators [] []
  | cons (c : Char) {s t : Str} (h : UpToSeparators s t) : UpToSeparators (c :: s) (c :: t)
  | separator {a b s t : Str} (ha : a = ['\n'] ∨ a = ['\r', '\n'])
    (hb : b = ['\n'] ∨ b = ['\r', '\n']) (h : UpToSeparators s t) :
    UpToSeparators (a ++ s) (b ++ t)

/-! ## Pairs of characters -/

theorem pair_infix_cons {α : Type} {a b x : α} {l : List α} :
    [a, b] <:+: x :: l ↔ x = a ∧ l.head? = some b ∨ [a, b] <:+: l := by
  rw [List.infix_cons_iff]
  apply or_congr _ Iff.rfl
  rw [List.cons_prefix_cons, eq_comm]
  apply and_congr Iff.rfl
  cases l with
  | nil => simp
  | cons y l => simp [List.cons_prefix_cons, eq_comm]

theorem triple_infix_cons {α : Type} {a b c x : α} {l : List α} :
    [a, b, c] <:+: x :: l ↔ x = a ∧ [b, c] <+: l ∨ [a, b, c] <:+: l := by
  rw [List.infix_cons_iff, List.cons_prefix_cons, eq_comm]

theorem head_utf8_cons {c d : Char} (hd : d.toNat < 128) (s : Str) :
    (Str.utf8 (c :: s)).head? = some (UInt8.ofNat d.toNat) ↔ c = d := by
  rw [utf8_cons]
  by_cases hc : c.toNat < 128
  · rw [utf8EncodeChar_ascii hc, List.singleton_append, List.head?_cons, Option.some.injEq,
      ← UInt8.toNat_inj, toNat_ofNat_of_lt (by omega), toNat_ofNat_of_lt (by omega),
      Char.toNat_inj]
  · have hhigh : ∀ b ∈ String.utf8EncodeChar c, 128 ≤ b.toNat :=
      fun b hb => utf8EncodeChar_high (Nat.not_lt.1 hc) hb
    obtain ⟨b, more, hmore⟩ := List.exists_cons_of_ne_nil (utf8EncodeChar_ne_nil c)
    rw [hmore, List.cons_append, List.head?_cons, Option.some.injEq]
    have hb := hhigh b (by rw [hmore]; exact List.mem_cons_self)
    refine iff_of_false (fun h => ?_) (fun h => hc (h ▸ hd))
    rw [h, toNat_ofNat_of_lt (by omega)] at hb
    omega

theorem head_utf8 {d : Char} (hd : d.toNat < 128) (s : Str) :
    s.utf8.head? = some (UInt8.ofNat d.toNat) ↔ s.head? = some d := by
  cases s with
  | nil => exact iff_of_false (by simp [utf8_eq_flatMap]) (by simp)
  | cons c s => rw [head_utf8_cons hd, List.head?_cons, Option.some.injEq]

theorem crlf_infix_append_high {high bytes : Bytes} (h : ∀ b ∈ high, 128 ≤ b.toNat) :
    crlf <:+: high ++ bytes ↔ crlf <:+: bytes := by
  induction high with
  | nil => exact Iff.rfl
  | cons b high ih =>
    obtain ⟨hb, hhigh⟩ := List.forall_mem_cons.1 h
    have hne : b ≠ 13 := by
      intro heq
      subst heq
      exact absurd hb (by decide)
    rw [crlf, List.cons_append, pair_infix_cons, or_iff_right (fun h => hne h.1)]
    exact ih hhigh

/-- A CRLF in the bytes of a text is one in the text. -/
theorem crlf_infix_utf8 {s : Str} : crlf <:+: s.utf8 ↔ ['\r', '\n'] <:+: s := by
  induction s with
  | nil => exact iff_of_false (by decide +kernel) (by decide)
  | cons c s ih =>
    rw [utf8_cons, pair_infix_cons, ← ih]
    by_cases hc : c.toNat < 128
    · have hcr : UInt8.ofNat c.toNat = 13 ↔ c = '\r' := by
        rw [← UInt8.toNat_inj, toNat_ofNat_of_lt (by omega), ← Char.toNat_inj]
        rfl
      rw [utf8EncodeChar_ascii hc, List.singleton_append, crlf, pair_infix_cons, hcr]
      exact or_congr (and_congr Iff.rfl (head_utf8 (d := '\n') (by decide) s)) Iff.rfl
    · have hcr : c ≠ '\r' := by
        intro heq
        subst heq
        exact hc (by decide)
      rw [crlf_infix_append_high (fun b hb => utf8EncodeChar_high (Nat.not_lt.1 hc) hb),
        or_iff_right (fun h => hcr h.1)]

/-! ## One pass -/

theorem toLf_crlf (s : Str) : toLf ('\r' :: '\n' :: s) = '\n' :: toLf s := rfl

theorem bareLfs_crlf (s : Str) : bareLfs ('\r' :: '\n' :: s) = bareLfs s := rfl

theorem toLf_cons {c : Char} {s : Str} (h : ¬ (c = '\r' ∧ s.head? = some '\n')) :
    toLf (c :: s) = c :: toLf s := by
  rw [toLf]
  rintro rest rfl rfl
  exact h ⟨rfl, rfl⟩

theorem bareLfs_cons {c : Char} {s : Str} (h : ¬ (c = '\r' ∧ s.head? = some '\n')) :
    bareLfs (c :: s) = (if c = '\n' then 1 else 0) + bareLfs s := by
  rw [bareLfs]
  rintro rest rfl rfl
  exact h ⟨rfl, rfl⟩

/-- A text is read from the front, a CRLF at once. -/
@[elab_as_elim]
theorem crlfInduction {P : Str → Prop} (nil : P []) (crlf : ∀ s, P s → P ('\r' :: '\n' :: s))
    (cons : ∀ c s, ¬ (c = '\r' ∧ s.head? = some '\n') → P s → P (c :: s)) (s : Str) : P s := by
  induction s using toLf.induct with
  | case1 => exact nil
  | case2 rest ih => exact crlf rest ih
  | case3 c rest hcrlf ih =>
    refine cons c rest ?_ ih
    intro hcase
    obtain ⟨rfl, hhead⟩ := hcase
    obtain ⟨more, rfl⟩ := List.head?_eq_some_iff.1 hhead
    exact hcrlf more rfl rfl

theorem head_toLf (s : Str) :
    (toLf s).head? = some '\n' ↔ s.head? = some '\n' ∨ ['\r', '\n'] <+: s := by
  induction s using crlfInduction with
  | nil => exact iff_of_false nofun (by simp)
  | crlf s ih => simp [toLf_crlf]
  | cons c s h ih =>
    rw [toLf_cons h, List.head?_cons, List.head?_cons]
    refine (or_iff_left ?_).symm
    rw [List.cons_prefix_cons]
    intro hcase
    obtain ⟨rfl, hprefix⟩ := hcase
    obtain ⟨more, rfl⟩ := hprefix
    exact h ⟨rfl, rfl⟩

/-- A carriage return before a CRLF makes a CRLF with the line feed that is left of it. -/
theorem crlf_infix_toLf_iff (s : Str) :
    ['\r', '\n'] <:+: toLf s ↔ ['\r', '\r', '\n'] <:+: s := by
  induction s using crlfInduction with
  | nil => decide
  | crlf s ih =>
    rw [toLf_crlf, pair_infix_cons, triple_infix_cons, triple_infix_cons, ← ih]
    simp
  | cons c s h ih =>
    rw [toLf_cons h, pair_infix_cons, triple_infix_cons, ih, head_toLf]
    refine or_congr (and_congr_right fun hc => ?_) Iff.rfl
    exact or_iff_right fun hhead => h ⟨hc, hhead⟩

/-- Without a CRLF nothing is taken out. -/
theorem toLf_eq_self_iff (s : Str) : toLf s = s ↔ ¬ ['\r', '\n'] <:+: s := by
  induction s using crlfInduction with
  | nil => decide
  | crlf s ih =>
    refine iff_of_false ?_ (not_not.2 (List.prefix_append ['\r', '\n'] s).isInfix)
    simp [toLf_crlf]
  | cons c s h ih =>
    have hpair : ¬ (c = '\r' ∧ s.head? = some '\n') := h
    rw [toLf_cons h, pair_infix_cons, or_iff_right hpair, ← ih, List.cons.injEq]
    exact and_iff_right rfl

theorem length_toLf (s : Str) : (toLf s).utf8.length ≤ s.utf8.length := by
  induction s using crlfInduction with
  | nil => exact le_refl _
  | crlf s ih =>
    rw [toLf_crlf, utf8_cons, utf8_cons, utf8_cons, List.length_append, List.length_append,
      List.length_append]
    omega
  | cons c s h ih =>
    rw [toLf_cons h, utf8_cons, utf8_cons, List.length_append, List.length_append]
    omega

/-! ## The other way -/

theorem toCrlf_newline (s : Str) : toCrlf ('\n' :: s) = '\r' :: '\n' :: toCrlf s := rfl

theorem toCrlf_cons {c : Char} (hc : c ≠ '\n') (s : Str) : toCrlf (c :: s) = c :: toCrlf s := by
  rw [toCrlf, List.flatMap_cons, if_neg hc]
  rfl

theorem head_toCrlf (s : Str) : (toCrlf s).head? ≠ some '\n' := by
  cases s with
  | nil => simp [toCrlf]
  | cons c s =>
    by_cases hc : c = '\n'
    · rw [hc, toCrlf_newline]
      simp
    · rw [toCrlf_cons hc, List.head?_cons]
      exact fun h => hc (Option.some.inj h)

theorem toLf_toCrlf (s : Str) : toLf (toCrlf s) = s := by
  induction s with
  | nil => rfl
  | cons c s ih =>
    by_cases hc : c = '\n'
    · rw [hc, toCrlf_newline, toLf_crlf, ih]
    · rw [toCrlf_cons hc, toLf_cons (fun h => head_toCrlf s h.2), ih]

theorem bareLfs_toCrlf (s : Str) : bareLfs (toCrlf s) = 0 := by
  induction s with
  | nil => rfl
  | cons c s ih =>
    by_cases hc : c = '\n'
    · rw [hc, toCrlf_newline, bareLfs_crlf, ih]
    · rw [toCrlf_cons hc, bareLfs_cons (fun h => head_toCrlf s h.2), if_neg hc, ih]

/-- A text that is put into CRLF grows by a byte for each line feed that was not in one. -/
theorem length_toCrlf_toLf (s : Str) :
    (toCrlf (toLf s)).utf8.length = s.utf8.length + bareLfs s := by
  have hbyte : ∀ c : Char, c.toNat < 128 → ∀ t : Str,
      (Str.utf8 (c :: t)).length = t.utf8.length + 1 := by
    intro c hc t
    rw [utf8_cons, utf8EncodeChar_ascii hc, List.length_append, List.length_singleton, add_comm]
  induction s using crlfInduction with
  | nil => rfl
  | crlf s ih =>
    rw [toLf_crlf, toCrlf_newline, bareLfs_crlf, hbyte '\r' (by decide), hbyte '\n' (by decide), ih,
      hbyte '\r' (by decide), hbyte '\n' (by decide)]
    omega
  | cons c s h ih =>
    rw [toLf_cons h, bareLfs_cons h]
    by_cases hc : c = '\n'
    · rw [hc, toCrlf_newline, hbyte '\r' (by decide), hbyte '\n' (by decide), ih,
        hbyte '\n' (by decide), if_pos rfl]
      omega
    · rw [toCrlf_cons hc, utf8_cons, utf8_cons, List.length_append, List.length_append, ih,
        if_neg hc]
      omega

theorem toCrlf_toLf_iff (s : Str) : toCrlf (toLf s) = s ↔ bareLfs s = 0 := by
  constructor
  · intro h
    have hlength := length_toCrlf_toLf s
    rw [h] at hlength
    omega
  · intro h
    induction s using crlfInduction with
    | nil => rfl
    | crlf s ih =>
      rw [bareLfs_crlf] at h
      rw [toLf_crlf, toCrlf_newline, ih h]
    | cons c s hpair ih =>
      rw [bareLfs_cons hpair] at h
      by_cases hc : c = '\n'
      · rw [if_pos hc] at h
        omega
      · rw [toLf_cons hpair, toCrlf_cons hc, ih (by omega)]

/-! ## What the counts and the passes mean -/

theorem bareLfs_eq_zero_iff (s : Str) : bareLfs s = 0 ↔
    ∀ front back, s = front ++ '\n' :: back → front.getLast? = some '\r' := by
  induction s using crlfInduction with
  | nil => simp [bareLfs]
  | crlf s ih =>
    rw [bareLfs_crlf, ih]
    constructor
    · intro h front back heq
      rcases front with _ | ⟨c, _ | ⟨d, front⟩⟩
      · cases heq
      · cases heq
        rfl
      · simp only [List.cons_append, List.cons.injEq] at heq
        obtain ⟨-, -, hback⟩ := heq
        rw [List.getLast?_cons, List.getLast?_cons, h front back hback]
        rfl
    · intro h front back heq
      have hlast := h ('\r' :: '\n' :: front) back (by rw [heq]; rfl)
      cases hfront : front.getLast? with
      | none =>
        rw [List.getLast?_cons, List.getLast?_cons, hfront] at hlast
        cases hlast
      | some c =>
        rw [List.getLast?_cons, List.getLast?_cons, hfront] at hlast
        exact hlast
  | cons c s hpair ih =>
    rw [bareLfs_cons hpair]
    by_cases hc : c = '\n'
    · rw [if_pos hc]
      refine iff_of_false (by omega) fun h => ?_
      have hlast := h [] s (by rw [hc]; rfl)
      cases hlast
    · rw [if_neg hc, Nat.zero_add, ih]
      constructor
      · intro h front back heq
        cases front with
        | nil => exact absurd (List.cons.inj heq).1 hc
        | cons d front =>
          obtain ⟨-, hback⟩ := List.cons.inj heq
          rw [List.getLast?_cons, h front back hback]
          rfl
      · intro h front back heq
        have hlast := h (c :: front) back (by rw [heq]; rfl)
        cases front with
        | nil =>
          obtain rfl : c = '\r' := Option.some.inj hlast
          exact absurd ⟨rfl, by rw [heq]; rfl⟩ hpair
        | cons d front =>
          rw [List.getLast?_cons_cons] at hlast
          exact hlast

theorem upToSeparators_toLf (s : Str) : UpToSeparators s (toLf s) := by
  induction s using crlfInduction with
  | nil => exact .nil
  | crlf s ih => exact .separator (.inr rfl) (.inl rfl) ih
  | cons c s h ih =>
    rw [toLf_cons h]
    exact .cons c ih

theorem upToSeparators_toCrlf_toLf (s : Str) : UpToSeparators s (toCrlf (toLf s)) := by
  induction s using crlfInduction with
  | nil => exact .nil
  | crlf s ih => exact .separator (.inr rfl) (.inr rfl) ih
  | cons c s h ih =>
    rw [toLf_cons h]
    by_cases hc : c = '\n'
    · rw [hc, toCrlf_newline]
      exact .separator (.inl rfl) (.inr rfl) ih
    · rw [toCrlf_cons hc]
      exact .cons c ih

/-! ## What a write does with the content -/

section Existing

variable {existing : Bytes} {content : Str}

theorem preserveLineEndings_crlf (h : crlf <:+: existing) :
    preserveLineEndings (some existing) content = toCrlf (toLf content) := by
  rw [preserveLineEndings, Option.any_some, if_pos (decide_eq_true h)]

theorem preserveLineEndings_lf (h : ¬ crlf <:+: existing) :
    preserveLineEndings (some existing) content = toLf content := by
  rw [preserveLineEndings, Option.any_some, decide_eq_false h, if_neg Bool.false_ne_true]

theorem detectLineEnding_eq_lf_iff {s : Str} :
    detectLineEnding s.utf8 = .lf ↔ ¬ ['\r', '\n'] <:+: s := by
  rw [← crlf_infix_utf8, detectLineEnding]
  split
  · exact iff_of_false (by simp) (not_not.2 ‹_›)
  · exact iff_of_true rfl ‹_›

/-- A content gets the separators of the file that is there, all of them and once and for all. -/
structure UniformEndings (existing : Bytes) (content out : Str) : Prop where
  crlf : crlf <:+: existing →
    ∀ front back, out = front ++ '\n' :: back → front.getLast? = some '\r'
  lf : ¬ Core.crlf <:+: existing → ¬ ['\r', '\n'] <:+: out ∧ detectLineEnding out.utf8 = .lf
  again : preserveLineEndings (some existing) out = out
  text : UpToSeparators content out

theorem preserveLineEndings_uniform_iff (existing : Bytes) (content : Str) :
    UniformEndings existing content (preserveLineEndings (some existing) content) ↔
      crlf <:+: existing ∨ ¬ ['\r', '\r', '\n'] <:+: content := by
  by_cases hcrlf : crlf <:+: existing
  · refine iff_of_true ?_ (.inl hcrlf)
    rw [preserveLineEndings_crlf hcrlf]
    refine ⟨fun _ => (bareLfs_eq_zero_iff _).1 (bareLfs_toCrlf _), fun hlf => absurd hcrlf hlf, ?_,
      upToSeparators_toCrlf_toLf content⟩
    rw [preserveLineEndings_crlf hcrlf, toLf_toCrlf]
  · rw [preserveLineEndings_lf hcrlf, or_iff_right hcrlf, ← crlf_infix_toLf_iff]
    constructor
    · intro h
      exact (h.lf hcrlf).1
    · intro h
      refine ⟨fun hin => absurd hin hcrlf, fun _ => ⟨h, detectLineEnding_eq_lf_iff.2 h⟩, ?_,
        upToSeparators_toLf content⟩
      rw [preserveLineEndings_lf hcrlf, toLf_eq_self_iff]
      exact h

/-- A file in LF gets a CRLF. -/
theorem preserveLineEndings_mixes :
    detectLineEnding (Str.utf8 "one\n") = .lf ∧
      preserveLineEndings (some (Str.utf8 "one\n")) "two\r\r\n" = "two\r\n".toList ∧
      detectLineEnding (Str.utf8 "two\r\n") = .crlf ∧
      ¬ UniformEndings (Str.utf8 "one\n") "two\r\r\n"
        (preserveLineEndings (some (Str.utf8 "one\n")) "two\r\r\n") := by
  refine ⟨by decide +kernel, by decide +kernel, by decide +kernel, fun h => ?_⟩
  have hnot := (h.lf (by decide +kernel)).1
  have hout : preserveLineEndings (some (Str.utf8 "one\n")) "two\r\r\n" = "two\r\n".toList := by
    decide +kernel
  rw [hout] at hnot
  exact hnot (by decide)

end Existing

end LeaveCli.Core
