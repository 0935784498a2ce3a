import Mathlib.Data.List.Nodup

/-!
# Keyed tables

A table is the list of its rows, in the order they were inserted. `upsert` is
`INSERT … ON CONFLICT(key) DO UPDATE`: it updates the row that has the key, or appends a new one.
The rules: `filter_upsert` (the selections it leaves alone), `nodup_upsert` (keys stay unique),
`mem_upsert` (where a row comes from). `filter_map_of_fixed` is the rule for an `UPDATE`.
-/

namespace Lib.Table

variable {ρ κ : Type*}

/-- An update that only changes rows outside a selection leaves the selection alone. -/
theorem filter_map_of_fixed {f : ρ → ρ} {p : ρ → Bool} {rows : List ρ}
    (hsame : ∀ r ∈ rows, p (f r) = p r) (hfixed : ∀ r ∈ rows, p r = true → f r = r) :
    (rows.map f).filter p = rows.filter p := by
  induction rows with
  | nil => rfl
  | cons r rows ih =>
    obtain ⟨hr, hrows⟩ := List.forall_mem_cons.1 hsame
    obtain ⟨hf, hfs⟩ := List.forall_mem_cons.1 hfixed
    rw [List.map_cons, List.filter_cons, List.filter_cons, hr, ih hrows hfs]
    by_cases hp : p r = true
    · rw [if_pos hp, if_pos hp, hf hp]
    · rw [if_neg hp, if_neg hp]

variable [DecidableEq κ] (key : ρ → κ)

/-- Update the row that has the key of `row`, or append `row`. -/
def upsert (update : ρ → ρ) (row : ρ) (rows : List ρ) : List ρ :=
  if rows.any (fun r => key r = key row) then
    rows.map fun r => if key r = key row then update r else r
  else rows ++ [row]

variable {key}

theorem mem_upsert {update : ρ → ρ} {row r : ρ} {rows : List ρ}
    (h : r ∈ upsert key update row rows) :
    r = row ∨ r ∈ rows ∨ ∃ r' ∈ rows, key r' = key row ∧ r = update r' := by
  unfold upsert at h
  split at h
  · obtain ⟨r', hr', rfl⟩ := List.mem_map.1 h
    by_cases hkey : key r' = key row
    · rw [if_pos hkey]
      exact .inr (.inr ⟨r', hr', hkey, rfl⟩)
    · rw [if_neg hkey]
      exact .inr (.inl hr')
  · rcases List.mem_append.1 h with hold | hnew
    · exact .inr (.inl hold)
    · exact .inl (List.mem_singleton.1 hnew)

/-- A selection stays the same if neither the new row nor the row with its key is in it. -/
theorem filter_upsert {update : ρ → ρ} {row : ρ} {rows : List ρ} {p : ρ → Bool}
    (hrow : p row = false)
    (hold : ∀ r ∈ rows, key r = key row → p r = false ∧ p (update r) = false) :
    (upsert key update row rows).filter p = rows.filter p := by
  unfold upsert
  split
  · apply filter_map_of_fixed
    · intro r hr
      by_cases hkey : key r = key row
      · rw [if_pos hkey, (hold r hr hkey).1, (hold r hr hkey).2]
      · rw [if_neg hkey]
    · intro r hr hp
      apply if_neg
      intro hkey
      rw [(hold r hr hkey).1] at hp
      cases hp
  · rw [List.filter_append, List.filter_singleton]
    simp [hrow]

/-- The keys after an upsert that updates in place. -/
theorem map_key_upsert {update : ρ → ρ} {row : ρ} {rows : List ρ}
    (hupdate : ∀ r, key r = key row → key (update r) = key row) :
    (upsert key update row rows).map key =
      if rows.any (fun r => key r = key row) then rows.map key else rows.map key ++ [key row] := by
  unfold upsert
  split
  · rw [List.map_map]
    apply List.map_congr_left
    intro r _
    show key (if key r = key row then update r else r) = key r
    by_cases hkey : key r = key row
    · rw [if_pos hkey, hupdate r hkey, hkey]
    · rw [if_neg hkey]
  · rw [List.map_append, List.map_singleton]

theorem mem_key_upsert {update : ρ → ρ} {row : ρ} {rows : List ρ} {k : κ}
    (hupdate : ∀ r, key r = key row → key (update r) = key row) :
    k ∈ (upsert key update row rows).map key ↔ k = key row ∨ k ∈ rows.map key := by
  rw [map_key_upsert hupdate]
  split
  · rename_i hany
    obtain ⟨r, hr, hkey⟩ := List.any_eq_true.1 hany
    have hmem : key row ∈ rows.map key := List.mem_map.2 ⟨r, hr, by simpa using hkey⟩
    constructor
    · exact .inr
    · intro hk
      rcases hk with rfl | hk
      · exact hmem
      · exact hk
  · rw [List.mem_append, List.mem_singleton, or_comm]

theorem nodup_upsert {update : ρ → ρ} {row : ρ} {rows : List ρ}
    (hupdate : ∀ r, key r = key row → key (update r) = key row) (h : (rows.map key).Nodup) :
    ((upsert key update row rows).map key).Nodup := by
  rw [map_key_upsert hupdate]
  split
  · exact h
  · rename_i hnone
    rw [List.nodup_append]
    refine ⟨h, List.nodup_singleton _, ?_⟩
    intro k hk k' hk' heq
    subst heq
    obtain ⟨r, hr, rfl⟩ := List.mem_map.1 hk
    exact hnone (List.any_eq_true.2 ⟨r, hr, by simpa using hk'⟩)

/-- Another unique column stays unique if the row written differs in it from all rows with other
keys. -/
theorem nodup_map_upsert {γ : Type*} {column : ρ → γ} {row : ρ} {rows : List ρ}
    (hkeys : (rows.map key).Nodup) (hcolumn : (rows.map column).Nodup)
    (hother : ∀ r ∈ rows, key r ≠ key row → column r ≠ column row) :
    ((upsert key (fun _ => row) row rows).map column).Nodup := by
  unfold upsert
  split
  · rw [List.Nodup, List.pairwise_map] at hkeys hcolumn ⊢
    rw [List.pairwise_map]
    refine List.Pairwise.imp_of_mem ?_ (hkeys.and hcolumn)
    intro a b ha hb hcase
    obtain ⟨hkey, hne⟩ := hcase
    by_cases hka : key a = key row
    · have hkb : key b ≠ key row := fun hkb => hkey (hka.trans hkb.symm)
      rw [if_pos hka, if_neg hkb]
      exact (hother b hb hkb).symm
    · rw [if_neg hka]
      by_cases hkb : key b = key row
      · rw [if_pos hkb]
        exact hother a ha hka
      · rw [if_neg hkb]
        exact hne
  · rename_i hnone
    rw [List.map_append, List.nodup_append]
    refine ⟨hcolumn, List.nodup_singleton _, ?_⟩
    intro c hc c' hc' heq
    subst heq
    obtain ⟨r, hr, rfl⟩ := List.mem_map.1 hc
    have hkey : key r ≠ key row := by
      intro hkey
      exact hnone (List.any_eq_true.2 ⟨r, hr, by simpa using hkey⟩)
    exact hother r hr hkey (by simpa using hc')

end Lib.Table
