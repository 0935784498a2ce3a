import Mathlib.Data.List.Infix

/-!
# Replacing a pattern in a list

`replace pattern replacement` reads a list from the front and puts the replacement in the place of
every occurrence of the pattern, as `str::replace` does; occurrences that overlap an earlier one are
none. A pattern is never empty. Nothing changes exactly when the pattern does not occur
(`replace_eq_self_iff`, for a replacement that is shorter than the pattern), and a separator that is
not in the pattern cuts the work in two (`replace_append_cons`).
-/

namespace Lib

variable {α : Type*} [DecidableEq α]

/-- The number says how much of the list belongs to the occurrence that was replaced last. -/
def replaceFrom (pattern replacement : List α) : Nat → List α → List α
  | _, [] => []
  | skip + 1, _ :: s => replaceFrom pattern replacement skip s
  | 0, x :: s =>
    if pattern <+: x :: s then
      replacement ++ replaceFrom pattern replacement (pattern.length - 1) s
    else x :: replaceFrom pattern replacement 0 s

def replace (pattern replacement s : List α) : List α := replaceFrom pattern replacement 0 s

variable {pattern replacement : List α}

theorem replaceFrom_eq_drop (skip : Nat) (s : List α) :
    replaceFrom pattern replacement skip s = replace pattern replacement (s.drop skip) := by
  induction s generalizing skip with
  | nil => cases skip <;> rfl
  | cons x s ih =>
    cases skip with
    | zero => rfl
    | succ skip => exact ih skip

@[simp] theorem replace_nil : replace pattern replacement [] = [] := rfl

theorem replace_pattern (hne : pattern ≠ []) (s : List α) :
    replace pattern replacement (pattern ++ s) = replacement ++ replace pattern replacement s := by
  obtain ⟨x, more, rfl⟩ := List.exists_cons_of_ne_nil hne
  have hprefix : x :: more <+: x :: (more ++ s) := List.prefix_append (x :: more) s
  rw [List.cons_append, replace, replaceFrom, if_pos hprefix, replaceFrom_eq_drop]
  simp

theorem replace_cons {x : α} {s : List α} (h : ¬ pattern <+: x :: s) :
    replace pattern replacement (x :: s) = x :: replace pattern replacement s := by
  rw [replace, replaceFrom, if_neg h]
  rfl

/-- An occurrence starts only where the pattern's first element stands. -/
theorem replace_append_of_head (front : List α) (hfront : ∀ x ∈ front, ∀ p ∈ pattern.head?, p ≠ x)
    (hne : pattern ≠ []) (s : List α) :
    replace pattern replacement (front ++ s) = front ++ replace pattern replacement s := by
  obtain ⟨p, more, rfl⟩ := List.exists_cons_of_ne_nil hne
  induction front with
  | nil => rfl
  | cons x front ih =>
    obtain ⟨hx, hfront⟩ := List.forall_mem_cons.1 hfront
    have hskip : ¬ p :: more <+: x :: (front ++ s) := by
      rw [List.cons_prefix_cons]
      exact fun h => hx p rfl h.1
    rw [List.cons_append, replace_cons hskip, ih hfront, List.cons_append]

/-- A pattern of one element is replaced wherever it stands. -/
theorem replace_singleton (x : α) (s : List α) :
    replace [x] replacement s = s.flatMap fun y => if y = x then replacement else [y] := by
  induction s with
  | nil => rfl
  | cons y s ih =>
    rw [List.flatMap_cons, ← ih]
    split
    · rename_i hy
      subst hy
      exact replace_pattern (List.cons_ne_nil y []) s
    · rename_i hy
      exact replace_cons fun h => hy (List.cons_prefix_cons.1 h).1.symm

/-- A list is read from the front, an occurrence of the pattern at once. -/
@[elab_as_elim]
theorem replaceInduction {P : List α → Prop} (hne : pattern ≠ []) (nil : P [])
    (occurs : ∀ s, P s → P (pattern ++ s))
    (cons : ∀ x s, ¬ pattern <+: x :: s → P s → P (x :: s)) (s : List α) : P s := by
  induction hlen : s.length using Nat.strong_induction_on generalizing s with
  | _ n ih =>
    subst hlen
    cases s with
    | nil => exact nil
    | cons x s =>
      by_cases h : pattern <+: x :: s
      · obtain ⟨rest, hrest⟩ := h
        have hpos : 0 < pattern.length := List.length_pos_iff.2 hne
        have hlength : (pattern ++ rest).length = (x :: s).length := congrArg List.length hrest
        rw [List.length_append] at hlength
        rw [← hrest]
        exact occurs rest (ih rest.length (by omega) rest rfl)
      · exact cons x s h (ih s.length (Nat.lt_succ_self _) s rfl)

theorem mem_of_mem_replace (hne : pattern ≠ []) {x : α} {s : List α}
    (h : x ∈ replace pattern replacement s) : x ∈ s ∨ x ∈ replacement := by
  induction s using replaceInduction hne with
  | nil => cases h
  | occurs s ih =>
    rw [replace_pattern hne] at h
    rcases List.mem_append.1 h with h | h
    · exact .inr h
    · exact (ih h).imp (List.mem_append_right pattern) id
  | cons y s hskip ih =>
    rw [replace_cons hskip] at h
    rcases List.mem_cons.1 h with rfl | h
    · exact .inl List.mem_cons_self
    · exact (ih h).imp (List.mem_cons_of_mem y) id

theorem length_replace_le (hne : pattern ≠ []) (hle : replacement.length ≤ pattern.length)
    (s : List α) : (replace pattern replacement s).length ≤ s.length := by
  induction s using replaceInduction hne with
  | nil => exact le_refl _
  | occurs s ih =>
    rw [replace_pattern hne, List.length_append, List.length_append]
    omega
  | cons x s h ih =>
    rw [replace_cons h, List.length_cons, List.length_cons]
    omega

/-- A list without the pattern stays as it is, and any other gets shorter. -/
theorem replace_eq_self_iff (hlt : replacement.length < pattern.length) (s : List α) :
    replace pattern replacement s = s ↔ ¬ pattern <:+: s := by
  have hne : pattern ≠ [] := by
    rintro rfl
    cases hlt
  induction s using replaceInduction hne with
  | nil =>
    refine iff_of_true rfl ?_
    rwa [List.infix_nil]
  | occurs s ih =>
    refine iff_of_false ?_ (not_not.2 (List.prefix_append pattern s).isInfix)
    intro heq
    have hlength := congrArg List.length heq
    have hle := length_replace_le hne hlt.le s
    rw [replace_pattern hne, List.length_append, List.length_append] at hlength
    omega
  | cons x s h ih =>
    have htail : replace pattern replacement s = s ↔ ¬ pattern <:+: s := ih
    rw [replace_cons h, List.infix_cons_iff, or_iff_right h, ← htail, List.cons.injEq]
    exact and_iff_right rfl

omit [DecidableEq α] in
/-- An occurrence does not reach past an element that the pattern does not have. -/
theorem prefix_append_cons_iff {x : α} (hx : x ∉ pattern) (s t : List α) :
    pattern <+: s ++ x :: t ↔ pattern <+: s := by
  refine ⟨fun h => ?_, fun h => h.trans (List.prefix_append s _)⟩
  rcases List.prefix_or_prefix_of_prefix h (List.prefix_append s (x :: t)) with hps | hsp
  · exact hps
  · obtain ⟨more, hmore⟩ := hsp
    cases more with
    | nil => rw [← hmore, List.append_nil]
    | cons y more =>
      obtain ⟨rest, hrest⟩ := h
      rw [← hmore, List.append_assoc, List.append_cancel_left_eq, List.cons_append,
        List.cons.injEq] at hrest
      refine absurd ?_ hx
      rw [← hmore, ← hrest.1]
      exact List.mem_append_right _ List.mem_cons_self

theorem replace_append_cons (hne : pattern ≠ []) {x : α} (hx : x ∉ pattern) (s t : List α) :
    replace pattern replacement (s ++ x :: t) =
      replace pattern replacement s ++ x :: replace pattern replacement t := by
  induction s using replaceInduction hne with
  | nil =>
    rw [List.nil_append, replace_cons, replace_nil, List.nil_append]
    exact fun h => hne (List.prefix_nil.1 ((prefix_append_cons_iff hx [] t).1 h))
  | occurs s ih =>
    rw [List.append_assoc, replace_pattern hne, replace_pattern hne, ih, List.append_assoc]
  | cons y s h ih =>
    have hnot : ¬ pattern <+: y :: (s ++ x :: t) :=
      fun hp => h ((prefix_append_cons_iff hx (y :: s) t).1 hp)
    rw [List.cons_append, replace_cons hnot, replace_cons h, ih, List.cons_append]

end Lib
