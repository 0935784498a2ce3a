import LeaveCli.Lib.Run

/-!
# Refinement of machines

A machine `M` refines a machine `N` that never halts when each of its steps is a run of `N`, of any
length: `matched f` are the inputs of that run, and `refines` says that states that were related
before a run of `M` are related after it. When the relation is a function of `M`'s states,
`refines_of_view` says what `N` makes of them, and `final_view_invariant` that what `N` keeps holds
of them.
-/

namespace Lib.Machine

variable {σ ι ω σ' ι' ω' : Type*} {M : Machine σ ι ω} {N : Machine σ' ι' ω'}

/-- What `N` reads while `M` makes these transitions. -/
def matched (f : σ → ι → List ι') (transitions : List (Transition σ ι ω)) : List ι' :=
  transitions.flatMap fun t => f t.before t.input

theorem matched_cons (f : σ → ι → List ι') (t : Transition σ ι ω)
    (transitions : List (Transition σ ι ω)) :
    matched f (t :: transitions) = f t.before t.input ++ matched f transitions :=
  List.flatMap_cons

/-- Related states stay related. -/
theorem refines {R : σ → σ' → Prop} (f : σ → ι → List ι') (hgoes : ∀ o, N.halts o = false)
    (hstep : ∀ s s' x, R s s' → R (M.step s x).2 (N.final s' (f s x))) {s : σ} {s' : σ'}
    (hs : R s s') (xs : List ι) : R (M.final s xs) (N.final s' (matched f (M.run s xs))) := by
  induction xs generalizing s s' with
  | nil => exact hs
  | cons x xs ih =>
    have hnext := hstep s s' x hs
    rw [final_cons, run_cons, matched_cons, final_append hgoes]
    split
    · exact hnext
    · exact ih hnext

/-- What every step keeps and what it looks like, together. -/
theorem refines_of_view {P : σ → Prop} (view : σ → σ') (f : σ → ι → List ι')
    (hgoes : ∀ o, N.halts o = false)
    (hstep : ∀ s x, P s → P (M.step s x).2 ∧ N.final (view s) (f s x) = view (M.step s x).2) {s : σ}
    (hs : P s) (xs : List ι) :
    P (M.final s xs) ∧ N.final (view s) (matched f (M.run s xs)) = view (M.final s xs) := by
  refine refines (R := fun s s' => P s ∧ s' = view s) f hgoes ?_ ⟨hs, rfl⟩ xs
  rintro s s' x ⟨hP, rfl⟩
  exact hstep s x hP

/-- What every step of `N` keeps holds of what `M` looks like. -/
theorem final_view_invariant {P : σ → Prop} {Q : σ' → Prop} (view : σ → σ') (f : σ → ι → List ι')
    (hgoes : ∀ o, N.halts o = false)
    (hstep : ∀ s x, P s → P (M.step s x).2 ∧ N.final (view s) (f s x) = view (M.step s x).2)
    (hkeeps : ∀ s' y, Q s' → Q (N.step s' y).2) {s : σ} (hs : P s) (hview : Q (view s))
    (xs : List ι) : Q (view (M.final s xs)) := by
  rw [← (refines_of_view view f hgoes hstep hs xs).2]
  exact final_invariant hkeeps hview _

end Lib.Machine
