import LeaveCli.Lib.Run

/-!
# Runs that compare and swap

A step of a machine leaves a value as it is, or it swaps it: it finds the base and puts a new value
in its place. When every step of a run does (`Swaps`), a value lasts until it is the base of a swap
(`final_eq_of_no_swap`), and before a second swap from one base some swap has put the base back
(`exists_swap_back`).
-/

namespace Lib

/-- A value that was put in place of another. -/
structure Swap (β : Type*) where
  base : β
  value : β

namespace Machine

variable {σ ι ω β : Type*} {M : Machine σ ι ω}

/-- The transition leaves the value as it is, or swaps it. -/
def Swaps (value : σ → β) (swap : ω → Option (Swap β)) (t : Transition σ ι ω) : Prop :=
  (swap t.output).elim (value t.after = value t.before) fun w =>
    value t.before = w.base ∧ value t.after = w.value

variable {value : σ → β} {swap : ω → Option (Swap β)}

theorem Swaps.found {t : Transition σ ι ω} (h : Swaps value swap t) {w : Swap β}
    (hw : swap t.output = some w) : value t.before = w.base := by
  rw [Swaps, hw] at h
  exact h.1

theorem Swaps.placed {t : Transition σ ι ω} (h : Swaps value swap t) {w : Swap β}
    (hw : swap t.output = some w) : value t.after = w.value := by
  rw [Swaps, hw] at h
  exact h.2

theorem Swaps.kept {t : Transition σ ι ω} (h : Swaps value swap t)
    (hnone : swap t.output = none) : value t.after = value t.before := by
  rw [Swaps, hnone] at h
  exact h

/-- A value lasts until it is the base of a swap. -/
theorem final_eq_of_no_swap {s : σ} {xs : List ι} (hswaps : ∀ t ∈ M.run s xs, Swaps value swap t)
    (hbase : ∀ t ∈ M.run s xs, ∀ w, swap t.output = some w → w.base ≠ value s) :
    value (M.final s xs) = value s := by
  induction xs generalizing s with
  | nil => rfl
  | cons x xs ih =>
    rw [run, List.forall_mem_cons] at hswaps hbase
    have hsame : value (M.step s x).2 = value s := by
      cases hswap : swap (M.step s x).1 with
      | none => exact hswaps.1.kept hswap
      | some w => exact absurd (hswaps.1.found hswap).symm (hbase.1 w hswap)
    rw [final]
    split
    · exact hsame
    · rename_i hhalt
      rw [if_neg hhalt] at hswaps hbase
      rw [← hsame] at hbase
      exact (ih hswaps.2 hbase.2).trans hsame

/-- A value that was not there is there because a swap put it there. -/
theorem exists_swap_of_final_eq {s : σ} {xs : List ι}
    (hswaps : ∀ t ∈ M.run s xs, Swaps value swap t) {b : β} (hs : value s ≠ b)
    (hfinal : value (M.final s xs) = b) :
    ∃ t ∈ M.run s xs, ∃ w, swap t.output = some w ∧ w.value = b := by
  induction xs generalizing s with
  | nil => exact absurd hfinal hs
  | cons x xs ih =>
    rw [run, List.forall_mem_cons] at hswaps
    rw [final] at hfinal
    by_cases hnext : value (M.step s x).2 = b
    · refine ⟨M.fire s x, by rw [run]; exact List.mem_cons_self, ?_⟩
      cases hswap : swap (M.step s x).1 with
      | none => exact absurd ((hswaps.1.kept hswap).symm.trans hnext) hs
      | some w => exact ⟨w, hswap, (hswaps.1.placed hswap).symm.trans hnext⟩
    · split at hfinal
      · exact absurd hfinal hnext
      · rename_i hhalt
        rw [if_neg hhalt] at hswaps
        obtain ⟨t, ht, hswap⟩ := ih hswaps.2 hnext hfinal
        refine ⟨t, ?_, hswap⟩
        rw [run, if_neg hhalt]
        exact List.mem_cons_of_mem _ ht

/-- Before a second swap from one base, a swap has put the base back. -/
theorem exists_swap_back {s : σ} {x : ι} {xs : List ι} (hgoes : M.halts (M.step s x).1 = false)
    (hswaps : ∀ t ∈ M.run s (x :: xs), Swaps value swap t) {first : Swap β}
    (hfirst : swap (M.step s x).1 = some first) {b : β}
    (hfinal : value (M.final s (x :: xs)) = b) :
    ∃ t ∈ M.run s (x :: xs), ∃ w, swap t.output = some w ∧ w.value = b := by
  rw [run, List.forall_mem_cons] at hswaps
  by_cases hback : first.value = b
  · exact ⟨M.fire s x, by rw [run]; exact List.mem_cons_self, first, hfirst, hback⟩
  have hrun : M.run s (x :: xs) = M.fire s x :: M.run (M.step s x).2 xs := by
    rw [run, hgoes]
    rfl
  rw [final, hgoes] at hfinal
  rw [hgoes] at hswaps
  have hnext : value (M.step s x).2 ≠ b := by
    intro h
    exact hback ((hswaps.1.placed hfirst).symm.trans h)
  obtain ⟨t, ht, hswap⟩ := exists_swap_of_final_eq hswaps.2 hnext hfinal
  rw [hrun]
  exact ⟨t, List.mem_cons_of_mem _ ht, hswap⟩

end Machine

end Lib
