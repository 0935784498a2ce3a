import Mathlib.Logic.Function.Basic

/-!
# Registries

A registry is a partial function from names. `All` says something of every entry; an entry may be
put in (`All.update`), and what is said may follow from what was said before (`All.mono`).
-/

namespace Lib.Registry

variable {κ α : Type*}

def All (entries : κ → Option α) (P : κ → α → Prop) : Prop :=
  ∀ name entry, entries name = some entry → P name entry

variable {entries : κ → Option α} {P Q : κ → α → Prop}

theorem all_empty : All (fun _ : κ => (none : Option α)) P := fun _ _ h => nomatch h

theorem All.mono (h : All entries P) (himp : ∀ name entry, P name entry → Q name entry) :
    All entries Q :=
  fun name entry hentry => himp name entry (h name entry hentry)

variable [DecidableEq κ]

theorem update_eq_some {name other : κ} {entry found : α} :
    Function.update entries name (some entry) other = some found ↔
      other = name ∧ entry = found ∨ other ≠ name ∧ entries other = some found := by
  by_cases hother : other = name
  · subst hother
    simp
  · simp [hother]

/-- A new entry; of the others it is enough to say it again. -/
theorem All.update_of (name : κ) {entry : α} (hentry : P name entry)
    (hothers : ∀ other found, other ≠ name → entries other = some found → P other found) :
    All (Function.update entries name (some entry)) P := by
  intro other found hfound
  rcases update_eq_some.1 hfound with ⟨rfl, rfl⟩ | ⟨hother, hold⟩
  · exact hentry
  · exact hothers other found hother hold

theorem All.update (h : All entries P) (name : κ) {entry : α} (hentry : P name entry) :
    All (Function.update entries name (some entry)) P :=
  .update_of name hentry fun other found _ hfound => h other found hfound

end Lib.Registry
