import Mathlib.Data.List.Count
import Mathlib.Data.List.Sort

/-!
# Counting in fixed windows

A limiter that counts arrivals in a window, starts the next window at the first arrival after the
window's span, and refuses everything from the first arrival over the limit on. Windows start at
arrivals, so an interval of one span meets at most two of them: at most twice the limit is let
through in it (`within_admitted_le`). A run in which no interval has more than the limit is let
through as it is (`admitted_eq_self`).
-/

namespace Lib

/-- How many arrivals a window of this span takes. -/
structure FixedWindow where
  limit : Nat
  span : Nat

/-- A window that has started, and the arrivals counted in it. -/
structure WindowCount where
  started : Nat
  count : Nat

namespace FixedWindow

variable (L : FixedWindow)

/-- Count an arrival, in the window or in the next one. -/
def hit (w : WindowCount) (now : Nat) : WindowCount :=
  if L.span ≤ now - w.started then ⟨now, 1⟩ else ⟨w.started, w.count + 1⟩

/-- The arrivals before the first one over the limit. -/
def admitted : WindowCount → List Nat → List Nat
  | _, [] => []
  | w, now :: nows =>
    if (L.hit w now).count ≤ L.limit then now :: admitted (L.hit w now) nows else []

/-- How many of the times are in the interval of one span from `a` on. -/
def within (a : Nat) (times : List Nat) : Nat :=
  times.countP fun t => a ≤ t ∧ t < a + L.span

/-- What can still be let through in the interval from `a` on. -/
def room (a : Nat) (w : WindowCount) : Nat :=
  if w.started + L.span ≤ a then 2 * L.limit
  else if w.started < a then 2 * L.limit - w.count
  else if w.started < a + L.span then L.limit - w.count
  else 0

variable {L} {w : WindowCount} {nows : List Nat}

theorem within_cons (a now : Nat) : L.within a (now :: nows) =
    L.within a nows + if a ≤ now ∧ now < a + L.span then 1 else 0 := by
  rw [within, List.countP_cons]
  simp [within]

theorem hit_started_le {now : Nat} (h : w.started ≤ now) : (L.hit w now).started ≤ now := by
  unfold hit
  split
  · exact le_refl _
  · exact h

/-- Each arrival that is let through is paid for. -/
theorem room_hit {a now : Nat} (hstarted : w.started ≤ now) (hcount : w.count ≤ L.limit)
    (hlimit : (L.hit w now).count ≤ L.limit) :
    (if a ≤ now ∧ now < a + L.span then 1 else 0) + L.room a (L.hit w now) ≤ L.room a w := by
  unfold hit at *
  split at hlimit
  · rename_i hnext
    rw [if_pos hnext]
    simp only [room] at hlimit ⊢
    split_ifs <;> omega
  · rename_i hsame
    rw [if_neg hsame]
    simp only [room] at hlimit ⊢
    split_ifs <;> omega

theorem admitted_prefix (w : WindowCount) (nows : List Nat) : L.admitted w nows <+: nows := by
  induction nows generalizing w with
  | nil => exact List.prefix_refl _
  | cons now nows ih =>
    rw [admitted]
    split
    · exact (List.cons_prefix_cons).2 ⟨rfl, ih _⟩
    · exact List.nil_prefix

theorem within_admitted_le_room (hcount : w.count ≤ L.limit)
    (hstarted : ∀ now ∈ nows, w.started ≤ now) (hsorted : nows.Pairwise (· ≤ ·)) (a : Nat) :
    L.within a (L.admitted w nows) ≤ L.room a w := by
  induction nows generalizing w with
  | nil => exact Nat.zero_le _
  | cons now nows ih =>
    rw [admitted]
    split
    · rename_i hlimit
      obtain ⟨hnow, -⟩ := List.forall_mem_cons.1 hstarted
      obtain ⟨hafter, hsorted⟩ := List.pairwise_cons.1 hsorted
      have hrest := ih hlimit
        (fun later hlater => (hit_started_le hnow).trans (hafter later hlater)) hsorted
      have hpaid := room_hit (a := a) hnow hcount hlimit
      rw [within_cons]
      omega
    · exact Nat.zero_le _

/-- No interval of one span has more than twice the limit. -/
theorem within_admitted_le (hcount : w.count ≤ L.limit) (hstarted : ∀ now ∈ nows, w.started ≤ now)
    (hsorted : nows.Pairwise (· ≤ ·)) (a : Nat) : L.within a (L.admitted w nows) ≤ 2 * L.limit := by
  refine (within_admitted_le_room hcount hstarted hsorted a).trans ?_
  unfold room
  split_ifs <;> omega

/-- What is refused is over the limit in its window, or in one that starts at an arrival. -/
theorem over_of_refused (hspan : 0 < L.span) (hstarted : ∀ now ∈ nows, w.started ≤ now)
    (hsorted : nows.Pairwise (· ≤ ·)) (hrefused : L.admitted w nows ≠ nows) :
    L.limit < w.count + L.within w.started nows ∨ ∃ a, L.limit < L.within a nows := by
  induction nows generalizing w with
  | nil => exact absurd rfl hrefused
  | cons now nows ih =>
    obtain ⟨hnow, -⟩ := List.forall_mem_cons.1 hstarted
    obtain ⟨hafter, hsorted⟩ := List.pairwise_cons.1 hsorted
    have hself : L.within now (now :: nows) = L.within now nows + 1 := by
      rw [within_cons, if_pos ⟨le_refl _, by omega⟩]
    have hcount : (L.hit w now).started = w.started ∧ (L.hit w now).count = w.count + 1 ∧
        L.within w.started (now :: nows) = L.within w.started nows + 1 ∨
        (L.hit w now).started = now ∧ (L.hit w now).count = 1 := by
      unfold hit
      split
      · exact .inr ⟨rfl, rfl⟩
      · refine .inl ⟨rfl, rfl, ?_⟩
        rw [within_cons, if_pos ⟨hnow, by omega⟩]
    rw [admitted] at hrefused
    split at hrefused
    · have hrest := ih (w := L.hit w now)
        (fun later hlater => (hit_started_le hnow).trans (hafter later hlater)) hsorted
        (fun hall => hrefused (congrArg (now :: ·) hall))
      rcases hrest with hover | ⟨a, hover⟩
      · rcases hcount with ⟨hsame, hcount, hwithin⟩ | ⟨hnext, hcount⟩
        · rw [hsame, hcount] at hover
          exact .inl (by omega)
        · rw [hnext, hcount] at hover
          exact .inr ⟨now, by omega⟩
      · exact .inr ⟨a, by rw [within_cons]; omega⟩
    · rename_i hover
      rcases hcount with ⟨-, hcount, hwithin⟩ | ⟨-, hcount⟩
      · exact .inl (by omega)
      · exact .inr ⟨now, by omega⟩

/-- A run that nowhere exceeds the limit is let through. -/
theorem admitted_eq_self (hspan : 0 < L.span) (hstarted : ∀ now ∈ nows, w.started ≤ now)
    (hsorted : nows.Pairwise (· ≤ ·)) (hnew : w.count = 0)
    (hwithin : ∀ a, L.within a nows ≤ L.limit) : L.admitted w nows = nows := by
  by_contra hrefused
  rcases over_of_refused hspan hstarted hsorted hrefused with hover | ⟨a, hover⟩
  · have hbound := hwithin w.started
    omega
  · have hbound := hwithin a
    omega

end FixedWindow

end Lib
