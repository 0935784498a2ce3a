import Mathlib.Data.List.Basic

/-!
# Runs of a machine

A `Machine` reads one input at a time; some outputs end its run. `Machine.run s xs` is the list of
the transitions it makes from `s` over `xs`. The rules:

* `Machine.run_invariant_of`: what the admitted steps preserve holds in every state of a run that
  makes only admitted steps; `Machine.run_invariant`: and so does what every step preserves.
* `Machine.Reachable.invariant`: it holds in every reachable state.
* `Machine.segment_invariant`: and in every state of a stretch of a run that makes only admitted
  steps; `Machine.exists_run_of_append`: the rest of a run is a run.
* `Machine.forall_run_iff`: properties that agree under an invariant hold of the same runs.
* `Machine.length_emitted_le_one`: what needs a gate and closes it is emitted at most once.
* `Machine.length_emitted_le`: what each step pays for from a budget is emitted that often at most.
* `Machine.history_cases`: what ties a state to the outputs before it lasts until the first step
  that is not admitted.
* `Machine.history_final`: what ties a state to the transitions before it holds at the end of a run.
* `Machine.final_invariant`: what every step preserves holds at the end of a run;
  `Machine.reachable_final`: a run ends in a reachable state.
* `Machine.run_append`, `Machine.final_append`: a run of a machine that never halts is made of its
  parts.
-/

namespace Lib

/-- A step function, with the outputs that end a run. -/
structure Machine (σ ι ω : Type*) where
  step : σ → ι → ω × σ
  halts : ω → Bool

/-- One transition of a run. -/
structure Transition (σ ι ω : Type*) where
  before : σ
  input : ι
  output : ω
  after : σ

namespace Machine

variable {σ ι ω : Type*} (M : Machine σ ι ω)

/-- The transition `M` makes from `s` on `x`. -/
def fire (s : σ) (x : ι) : Transition σ ι ω := ⟨s, x, (M.step s x).1, (M.step s x).2⟩

/-- The transitions from `s` over the inputs, up to the first output that halts. -/
def run : σ → List ι → List (Transition σ ι ω)
  | _, [] => []
  | s, x :: xs => M.fire s x :: if M.halts (M.step s x).1 then [] else run (M.step s x).2 xs

/-- The states a run from `s₀` passes through. -/
def Reachable (s₀ s : σ) : Prop := s = s₀ ∨ ∃ xs, ∃ t ∈ M.run s₀ xs, t.after = s

variable {M}

theorem run_nil (s : σ) : M.run s [] = [] := rfl

theorem run_cons (s : σ) (x : ι) (xs : List ι) : M.run s (x :: xs) =
    M.fire s x :: if M.halts (M.step s x).1 then [] else M.run (M.step s x).2 xs := rfl

theorem mem_run_cons {s : σ} {x : ι} {xs : List ι} {t : Transition σ ι ω}
    (h : t ∈ M.run s (x :: xs)) : t = M.fire s x ∨ t ∈ M.run (M.step s x).2 xs := by
  rw [run_cons] at h
  rcases List.mem_cons.1 h with rfl | h
  · exact .inl rfl
  · split at h
    · cases h
    · exact .inr h

theorem eq_fire_of_mem_run {s : σ} {xs : List ι} {t : Transition σ ι ω} (h : t ∈ M.run s xs) :
    t = M.fire t.before t.input := by
  induction xs generalizing s with
  | nil => cases h
  | cons x xs ih =>
    rcases mem_run_cons h with rfl | h
    · rfl
    · exact ih h

/-- What the admitted steps preserve holds before and after every transition of an admitted run. -/
theorem run_invariant_of {P : σ → Prop} {C : Transition σ ι ω → Prop}
    (hstep : ∀ s x, P s → C (M.fire s x) → P (M.step s x).2) {s : σ} (hs : P s) {xs : List ι}
    (hC : ∀ t ∈ M.run s xs, C t) {t : Transition σ ι ω} (h : t ∈ M.run s xs) :
    P t.before ∧ P t.after := by
  induction xs generalizing s with
  | nil => cases h
  | cons x xs ih =>
    rw [run_cons] at hC h
    obtain ⟨hfirst, hrest⟩ := List.forall_mem_cons.1 hC
    rcases List.mem_cons.1 h with rfl | h
    · exact ⟨hs, hstep s x hs hfirst⟩
    · split at h
      · cases h
      · rename_i hhalt
        rw [if_neg hhalt] at hrest
        exact ih (hstep s x hs hfirst) hrest h

/-- What every step preserves holds before and after every transition of a run. -/
theorem run_invariant {P : σ → Prop} (hstep : ∀ s x, P s → P (M.step s x).2) {s : σ}
    (hs : P s) {xs : List ι} {t : Transition σ ι ω} (h : t ∈ M.run s xs) :
    P t.before ∧ P t.after :=
  run_invariant_of (C := fun _ => True) (fun s x hs _ => hstep s x hs) hs (fun _ _ => trivial) h

theorem Reachable.invariant {P : σ → Prop} (hstep : ∀ s x, P s → P (M.step s x).2) {s₀ s : σ}
    (hs : P s₀) (h : M.Reachable s₀ s) : P s := by
  rcases h with rfl | ⟨xs, t, ht, rfl⟩
  · exact hs
  · exact (run_invariant hstep hs ht).2

/-- What comes after a part of a run is a run. -/
theorem exists_run_of_append {s : σ} {xs : List ι} {ts us : List (Transition σ ι ω)}
    (h : M.run s xs = ts ++ us) : ∃ s' ys, us = M.run s' ys := by
  induction ts generalizing s xs with
  | nil => exact ⟨s, xs, h.symm⟩
  | cons t ts ih =>
    cases xs with
    | nil => cases h
    | cons x xs =>
      rw [run_cons, List.cons_append, List.cons.injEq] at h
      obtain ⟨-, hrest⟩ := h
      split at hrest
      · exact ⟨s, [], (List.append_eq_nil_iff.1 hrest.symm).2⟩
      · exact ih hrest

/-- What the admitted steps preserve holds at the end of a stretch of admitted steps. -/
theorem segment_invariant {P : σ → Prop} {C : Transition σ ι ω → Prop}
    (hstep : ∀ s x, P s → C (M.fire s x) → P (M.step s x).2) {s : σ} (hs : P s) {xs : List ι}
    {mid post : List (Transition σ ι ω)} {t : Transition σ ι ω}
    (h : M.run s xs = mid ++ t :: post) (hC : ∀ u ∈ mid, C u) :
    P t.before ∧ t = M.fire t.before t.input := by
  induction mid generalizing s xs with
  | nil =>
    cases xs with
    | nil => cases h
    | cons x xs =>
      rw [run_cons, List.nil_append, List.cons.injEq] at h
      obtain ⟨rfl, -⟩ := h
      exact ⟨hs, rfl⟩
  | cons u mid ih =>
    cases xs with
    | nil => cases h
    | cons x xs =>
      obtain ⟨hfirst, hmid⟩ := List.forall_mem_cons.1 hC
      rw [run_cons, List.cons_append, List.cons.injEq] at h
      obtain ⟨rfl, hrest⟩ := h
      split at hrest
      · simp at hrest
      · exact ih (hstep s x hs hfirst) hrest hmid

/-- Two properties of transitions that agree on the admissible inputs wherever an invariant holds,
and of which the second keeps the invariant up, hold of the same runs. -/
theorem forall_run_iff {I : σ → Prop} {J : ι → Prop} {P Q : Transition σ ι ω → Prop}
    (hagree : ∀ s x, I s → J x → (P (M.fire s x) ↔ Q (M.fire s x)))
    (hkeeps : ∀ s x, I s → J x → Q (M.fire s x) → M.halts (M.step s x).1 = false →
      I (M.step s x).2)
    {s : σ} (hs : I s) {xs : List ι} (hxs : ∀ x ∈ xs, J x) :
    (∀ t ∈ M.run s xs, P t) ↔ ∀ t ∈ M.run s xs, Q t := by
  induction xs generalizing s with
  | nil => simp [run_nil]
  | cons x xs ih =>
    obtain ⟨hx, hxs⟩ := List.forall_mem_cons.1 hxs
    rw [run_cons, List.forall_mem_cons, List.forall_mem_cons, hagree s x hs hx]
    refine and_congr_right fun hq => ?_
    split
    · simp
    · rename_i hhalt
      exact ih (hkeeps s x hs hx hq (by simpa using hhalt)) hxs

/-- While the gate is closed, nothing that needs it is emitted. -/
theorem emitted_eq_nil {α : Type*} {gate : σ → Prop} {emit : Transition σ ι ω → List α}
    (hneeds : ∀ s x, emit (M.fire s x) ≠ [] → gate s)
    (hstays : ∀ s x, ¬ gate s → ¬ gate (M.step s x).2) {s : σ} (hs : ¬ gate s) (xs : List ι) :
    (M.run s xs).flatMap emit = [] := by
  rw [List.flatMap_eq_nil_iff]
  intro t ht
  have hb := (run_invariant (P := fun s => ¬ gate s) hstays hs ht).1
  by_contra hemit
  exact hb (hneeds t.before t.input (eq_fire_of_mem_run ht ▸ hemit))

/-- What needs an open gate, and closes it or ends the run, is emitted at most once. -/
theorem length_emitted_le_one {α : Type*} (gate : σ → Prop) {emit : Transition σ ι ω → List α}
    (hone : ∀ s x, (emit (M.fire s x)).length ≤ 1)
    (hneeds : ∀ s x, emit (M.fire s x) ≠ [] → gate s)
    (hcloses : ∀ s x, emit (M.fire s x) ≠ [] → M.halts (M.step s x).1 = false →
      ¬ gate (M.step s x).2)
    (hstays : ∀ s x, ¬ gate s → ¬ gate (M.step s x).2) (s : σ) (xs : List ι) :
    ((M.run s xs).flatMap emit).length ≤ 1 := by
  induction xs generalizing s with
  | nil => simp [run_nil]
  | cons x xs ih =>
    rw [run_cons, List.flatMap_cons, List.length_append]
    by_cases hhalt : M.halts (M.step s x).1 = true
    · rw [if_pos hhalt]
      simpa using hone s x
    rw [if_neg hhalt]
    by_cases hemit : emit (M.fire s x) = []
    · rw [hemit, List.length_nil, Nat.zero_add]
      exact ih (M.step s x).2
    · have hclosed := hcloses s x hemit (by simpa using hhalt)
      rw [emitted_eq_nil hneeds hstays hclosed xs]
      exact hone s x

/-- What each step pays for from a budget is emitted at most that often. -/
theorem length_emitted_le {α : Type*} (budget : σ → Nat) {emit : Transition σ ι ω → List α}
    (hpays : ∀ s x, (emit (M.fire s x)).length + budget (M.step s x).2 ≤ budget s) (s : σ)
    (xs : List ι) : ((M.run s xs).flatMap emit).length ≤ budget s := by
  induction xs generalizing s with
  | nil => simp [run_nil]
  | cons x xs ih =>
    have hpay := hpays s x
    rw [run_cons, List.flatMap_cons, List.length_append]
    split
    · simp only [List.flatMap_nil, List.length_nil]
      omega
    · have hrest := ih (M.step s x).2
      omega

/-! ## Histories -/

/-- The outputs of a run. -/
def outputs (M : Machine σ ι ω) (s : σ) (xs : List ι) : List ω := (M.run s xs).map (·.output)

/-- The state a run ends in. -/
def final (M : Machine σ ι ω) : σ → List ι → σ
  | s, [] => s
  | s, x :: xs => if M.halts (M.step s x).1 then (M.step s x).2 else final M (M.step s x).2 xs

theorem final_nil (s : σ) : M.final s [] = s := rfl

theorem final_cons (s : σ) (x : ι) (xs : List ι) : M.final s (x :: xs) =
    if M.halts (M.step s x).1 then (M.step s x).2 else M.final (M.step s x).2 xs := rfl

theorem output_fire (s : σ) (x : ι) : (M.fire s x).output = (M.step s x).1 := rfl

/-- Up to the first step that is not admitted, `I` relates the state to the outputs before it, and
from that step on `B` does. -/
theorem history_cases {I B : List ω → σ → Prop} {C : Transition σ ι ω → Prop}
    (hadmitted : ∀ log s x, I log s → C (M.fire s x) → I (log ++ [(M.step s x).1]) (M.step s x).2)
    (hrefused : ∀ log s x, I log s → ¬ C (M.fire s x) → B (log ++ [(M.step s x).1]) (M.step s x).2)
    (hstays : ∀ log s x, B log s → B (log ++ [(M.step s x).1]) (M.step s x).2)
    {log : List ω} {s : σ} (hI : I log s) (xs : List ι) :
    ((∀ t ∈ M.run s xs, C t) ∧ I (log ++ M.outputs s xs) (M.final s xs)) ∨
      ((¬ ∀ t ∈ M.run s xs, C t) ∧ B (log ++ M.outputs s xs) (M.final s xs)) := by
  have hlost : ∀ xs log s, B log s → B (log ++ M.outputs s xs) (M.final s xs) := by
    intro xs
    induction xs with
    | nil => simp [outputs, run_nil, final_nil]
    | cons x xs ih =>
      intro log s hB
      have hnext := hstays log s x hB
      rw [outputs, run_cons, final_cons]
      split
      · exact hnext
      · simpa [outputs, output_fire] using ih _ _ hnext
  induction xs generalizing log s with
  | nil => simpa [outputs, run_nil, final_nil] using hI
  | cons x xs ih =>
    rw [outputs, run_cons, final_cons, List.forall_mem_cons]
    by_cases hC : C (M.fire s x)
    · have hnext := hadmitted log s x hI hC
      split
      · exact .inl ⟨⟨hC, by simp⟩, hnext⟩
      · simpa [outputs, output_fire, hC] using ih hnext
    · have hnext := hrefused log s x hI hC
      refine .inr ⟨fun hall => hC hall.1, ?_⟩
      split
      · exact hnext
      · simpa [outputs, output_fire] using hlost xs _ _ hnext

/-- What every step keeps up between a state and the transitions before it holds at the end of a
run. -/
theorem history_final {I : List (Transition σ ι ω) → σ → Prop}
    (hstep : ∀ log s x, I log s → I (log ++ [M.fire s x]) (M.step s x).2) {s : σ}
    {log : List (Transition σ ι ω)} (hI : I log s) (xs : List ι) :
    I (log ++ M.run s xs) (M.final s xs) := by
  induction xs generalizing s log with
  | nil => rwa [run_nil, final_nil, List.append_nil]
  | cons x xs ih =>
    have hnext := hstep log s x hI
    rw [run_cons, final_cons]
    split
    · exact hnext
    · have hlater := ih hnext
      rwa [List.append_assoc] at hlater

/-- What the admitted steps preserve holds at the end of an admitted run. -/
theorem final_invariant_of {P : σ → Prop} {C : Transition σ ι ω → Prop}
    (hstep : ∀ s x, P s → C (M.fire s x) → P (M.step s x).2) {s : σ} (hs : P s) {xs : List ι}
    (hC : ∀ t ∈ M.run s xs, C t) : P (M.final s xs) := by
  induction xs generalizing s with
  | nil => exact hs
  | cons x xs ih =>
    rw [run_cons, List.forall_mem_cons] at hC
    rw [final_cons]
    split
    · exact hstep s x hs hC.1
    · rename_i hhalt
      rw [if_neg hhalt] at hC
      exact ih (hstep s x hs hC.1) hC.2

/-- What every step preserves holds at the end of a run. -/
theorem final_invariant {P : σ → Prop} (hstep : ∀ s x, P s → P (M.step s x).2) {s : σ}
    (hs : P s) (xs : List ι) : P (M.final s xs) :=
  final_invariant_of (C := fun _ => True) (fun s x hs _ => hstep s x hs) hs fun _ _ => trivial

/-- A machine that never halts goes on where it was. -/
theorem run_append (hgoes : ∀ o, M.halts o = false) (s : σ) (xs ys : List ι) :
    M.run s (xs ++ ys) = M.run s xs ++ M.run (M.final s xs) ys := by
  induction xs generalizing s with
  | nil => rfl
  | cons x xs ih =>
    rw [List.cons_append, run_cons, run_cons, final_cons, hgoes, if_neg Bool.false_ne_true,
      if_neg Bool.false_ne_true, if_neg Bool.false_ne_true, ih, List.cons_append]

theorem final_append (hgoes : ∀ o, M.halts o = false) (s : σ) (xs ys : List ι) :
    M.final s (xs ++ ys) = M.final (M.final s xs) ys := by
  induction xs generalizing s with
  | nil => rfl
  | cons x xs ih =>
    rw [List.cons_append, final_cons, final_cons, hgoes, if_neg Bool.false_ne_true,
      if_neg Bool.false_ne_true, ih]

theorem reachable_final (s : σ) (xs : List ι) : M.Reachable s (M.final s xs) := by
  induction xs generalizing s with
  | nil => exact .inl rfl
  | cons x xs ih =>
    rw [final_cons]
    split
    · exact .inr ⟨[x], M.fire s x, List.mem_cons_self, rfl⟩
    · rename_i hhalt
      rcases ih (M.step s x).2 with hsame | ⟨ys, t, ht, hafter⟩
      · exact .inr ⟨[x], M.fire s x, List.mem_cons_self, hsame.symm⟩
      · refine .inr ⟨x :: ys, t, ?_, hafter⟩
        rw [run_cons, if_neg hhalt]
        exact List.mem_cons_of_mem _ ht

end Machine

end Lib
