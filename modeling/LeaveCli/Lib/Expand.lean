import Mathlib.Data.List.Infix

/-!
# Expanding references

`expand mark reference` reads a list from the front. Where the mark stands, `reference` says of what
follows whether it is a reference, and then what it stands for and how much of the list belongs to
it. `expand_eq_self` is what happens without references, `expand_eq_self_iff` that nothing else
stays the same when references stand for less than they take.
-/

namespace Lib

variable {α : Type*} [DecidableEq α]

/-- The number says how much of the list belongs to the last reference. -/
def expandFrom (mark : α) (reference : List α → Option (List α × Nat)) : Nat → List α → List α
  | _, [] => []
  | skip + 1, _ :: s => expandFrom mark reference skip s
  | 0, x :: s =>
    if x = mark then
      match reference s with
      | some (value, taken) => value ++ expandFrom mark reference taken s
      | none => x :: expandFrom mark reference 0 s
    else x :: expandFrom mark reference 0 s

def expand (mark : α) (reference : List α → Option (List α × Nat)) (s : List α) : List α :=
  expandFrom mark reference 0 s

/-- No reference stands in the list. -/
def Unreferenced (mark : α) (reference : List α → Option (List α × Nat)) (s : List α) : Prop :=
  ∀ a b, s = a ++ mark :: b → reference b = none

variable {mark : α} {reference : List α → Option (List α × Nat)}

omit [DecidableEq α] in
theorem unreferenced_cons_iff {x : α} {s : List α} :
    Unreferenced mark reference (x :: s) ↔
      (x = mark → reference s = none) ∧ Unreferenced mark reference s := by
  constructor
  · intro h
    refine ⟨fun hx => h [] s (hx ▸ rfl), fun a b hs => h (x :: a) b (hs ▸ rfl)⟩
  · intro h a b hs
    obtain ⟨hfront, hrest⟩ := h
    cases a with
    | nil =>
      obtain ⟨rfl, rfl⟩ := List.cons.inj hs
      exact hfront rfl
    | cons y a =>
      obtain ⟨-, hs⟩ := List.cons.inj hs
      exact hrest a b hs

theorem expand_eq_self {s : List α} (h : Unreferenced mark reference s) :
    expand mark reference s = s := by
  induction s with
  | nil => rfl
  | cons x s ih =>
    obtain ⟨hfront, hrest⟩ := unreferenced_cons_iff.1 h
    have hself : expandFrom mark reference 0 s = s := ih hrest
    rw [expand, expandFrom]
    split
    · rename_i hx
      rw [hfront hx]
      exact congrArg (x :: ·) hself
    · exact congrArg (x :: ·) hself

/-- References stand for less than they take, the mark included. -/
def Shrinks (reference : List α → Option (List α × Nat)) : Prop :=
  ∀ s value taken, reference s = some (value, taken) → value.length ≤ taken ∧ taken ≤ s.length

theorem length_expandFrom (mark : α) (hshrinks : Shrinks reference) (skip : Nat) (s : List α) :
    (expandFrom mark reference skip s).length ≤ s.length - skip := by
  induction s generalizing skip with
  | nil => exact Nat.zero_le _
  | cons x s ih =>
    cases skip with
    | succ skip =>
      rw [expandFrom, List.length_cons, Nat.add_sub_add_right]
      exact ih skip
    | zero =>
      have hplain := ih 0
      rw [expandFrom, List.length_cons]
      split
      · split
        · rename_i value taken hreference
          obtain ⟨hvalue, htaken⟩ := hshrinks s value taken hreference
          have hrest := ih taken
          rw [List.length_append]
          omega
        · rw [List.length_cons]
          omega
      · rw [List.length_cons]
        omega

/-- The first reference makes the list shorter. -/
theorem length_expand_lt (hshrinks : Shrinks reference) {s : List α}
    (h : ¬ Unreferenced mark reference s) : (expand mark reference s).length < s.length := by
  induction s with
  | nil => exact absurd (fun a b hs => by simp at hs) h
  | cons x s ih =>
    rw [expand, expandFrom, List.length_cons]
    by_cases hfront : x = mark ∧ ∃ found, reference s = some found
    · obtain ⟨hx, ⟨value, taken⟩, hreference⟩ := hfront
      obtain ⟨hvalue, htaken⟩ := hshrinks s value taken hreference
      have hrest := length_expandFrom mark hshrinks taken s
      rw [if_pos hx, hreference]
      show (value ++ expandFrom mark reference taken s).length < s.length + 1
      rw [List.length_append]
      omega
    · have hnone : x = mark → reference s = none := by
        intro hx
        cases hreference : reference s with
        | none => rfl
        | some found => exact absurd ⟨hx, found, hreference⟩ hfront
      have hrest : ¬ Unreferenced mark reference s := fun hs =>
        h (unreferenced_cons_iff.2 ⟨hnone, hs⟩)
      have hlt : (expandFrom mark reference 0 s).length < s.length := ih hrest
      split
      · rename_i hx
        rw [hnone hx]
        exact Nat.succ_lt_succ hlt
      · exact Nat.succ_lt_succ hlt

theorem length_expand_le (mark : α) (hshrinks : Shrinks reference) (s : List α) :
    (expand mark reference s).length ≤ s.length := by
  by_cases h : Unreferenced mark reference s
  · rw [expand_eq_self h]
  · exact (length_expand_lt hshrinks h).le

theorem expand_eq_self_iff (hshrinks : Shrinks reference) (s : List α) :
    expand mark reference s = s ↔ Unreferenced mark reference s := by
  refine ⟨fun hself => ?_, expand_eq_self⟩
  by_contra h
  exact absurd (congrArg List.length hself) (length_expand_lt hshrinks h).ne

end Lib
