import Mathlib.Data.List.ProdSigma

/-!
# Grids that are written cell by cell

A grid is a list of rows; a position is a row and a column. No write changes the `shape`.
`cell_writes` reads a cell after a list of writes to different positions, `cell_fill` one after the
same value was written to a list of positions. `tabulate` is the grid of a function, and a square
grid is that of its cells (`Square.eq_tabulate`); `inside` takes off a margin.
-/

namespace Lib

abbrev Grid (α : Type*) := List (List α)

namespace Grid

variable {α β : Type*}

def cell (grid : Grid α) (p : Nat × Nat) : Option α := grid[p.1]?.bind (·[p.2]?)

def write (grid : Grid α) (p : Nat × Nat) (x : α) : Grid α := grid.modify p.1 (·.set p.2 x)

/-- A square grid of one value. -/
def blank (size : Nat) (x : α) : Grid α := List.replicate size (List.replicate size x)

def shape (grid : Grid α) : List Nat := grid.map List.length

def Square (size : Nat) (grid : Grid α) : Prop := shape grid = List.replicate size size

theorem square_blank (size : Nat) (x : α) : Square size (blank size x) := by
  simp [Square, shape, blank]

theorem Square.length {size : Nat} {grid : Grid α} (h : Square size grid) :
    grid.length = size := by
  have hlength := congrArg List.length h
  rwa [shape, List.length_map, List.length_replicate] at hlength

theorem isSome_cell_iff {size : Nat} {grid : Grid α} (h : Square size grid) (p : Nat × Nat) :
    (grid.cell p).isSome ↔ p.1 < size ∧ p.2 < size := by
  rw [cell]
  cases hrow : grid[p.1]? with
  | none =>
    have hle := List.getElem?_eq_none_iff.1 hrow
    rw [h.length] at hle
    simp
    omega
  | some row =>
    have hlt := (List.getElem?_eq_some_iff.1 hrow).1
    rw [h.length] at hlt
    have hsize : row.length = size := by
      have hmem : row.length ∈ shape grid := List.mem_map_of_mem (List.mem_of_getElem? hrow)
      rw [Square] at h
      rw [h] at hmem
      exact List.eq_of_mem_replicate hmem
    simp [hlt, hsize]

theorem cell_blank (size : Nat) (x : α) (p : Nat × Nat) :
    (blank size x).cell p = if p.1 < size ∧ p.2 < size then some x else none := by
  by_cases hrow : p.1 < size <;> by_cases hcolumn : p.2 < size <;>
    simp [cell, blank, hrow, hcolumn]

theorem cell_write (grid : Grid α) (p q : Nat × Nat) (x : α) :
    (grid.write p x).cell q = if q = p then (grid.cell q).map fun _ => x else grid.cell q := by
  obtain ⟨a, b⟩ := p
  obtain ⟨c, d⟩ := q
  rw [cell, write, List.getElem?_modify, cell]
  by_cases hrow : a = c
  · subst hrow
    cases grid[a]? with
    | none => simp
    | some row =>
      by_cases hcolumn : b = d
      · subst hcolumn
        by_cases hlt : b < row.length
        · simp [hlt]
        · simp [hlt]
      · simp [hcolumn, Ne.symm hcolumn]
  · cases grid[c]? <;> simp [hrow, Ne.symm hrow]

theorem cell_write_of_ne {p q : Nat × Nat} (h : q ≠ p) (grid : Grid α) (x : α) :
    (grid.write p x).cell q = grid.cell q := by rw [cell_write, if_neg h]

@[simp] theorem shape_write (grid : Grid α) (p : Nat × Nat) (x : α) :
    shape (grid.write p x) = shape grid := by
  refine List.ext_getElem? fun i => ?_
  rw [shape, shape, List.getElem?_map, List.getElem?_map, write, List.getElem?_modify]
  split
  · cases grid[i]? <;> simp
  · simp

/-! ## Runs of writes -/

theorem shape_foldl {f : Grid α → β → Grid α} (h : ∀ grid x, shape (f grid x) = shape grid)
    (items : List β) (grid : Grid α) : shape (items.foldl f grid) = shape grid := by
  induction items generalizing grid with
  | nil => rfl
  | cons x items ih => rw [List.foldl_cons, ih, h]

def writes (grid : Grid α) (values : List ((Nat × Nat) × α)) : Grid α :=
  values.foldl (fun grid value => grid.write value.1 value.2) grid

@[simp] theorem shape_writes (grid : Grid α) (values : List ((Nat × Nat) × α)) :
    shape (grid.writes values) = shape grid := by
  rw [writes, shape_foldl fun _ _ => shape_write _ _ _]

theorem writes_append (grid : Grid α) (front back : List ((Nat × Nat) × α)) :
    grid.writes (front ++ back) = (grid.writes front).writes back := List.foldl_append

theorem cell_writes_of_notMem {values : List ((Nat × Nat) × α)} {q : Nat × Nat}
    (h : q ∉ values.map Prod.fst) (grid : Grid α) : (grid.writes values).cell q = grid.cell q := by
  induction values generalizing grid with
  | nil => rfl
  | cons value values ih =>
    obtain ⟨hne, hrest⟩ := List.ne_and_not_mem_of_not_mem_cons h
    rw [writes, List.foldl_cons, ← writes, ih hrest, cell_write_of_ne hne]

theorem cell_writes {values : List ((Nat × Nat) × α)} (hnodup : (values.map Prod.fst).Nodup)
    {q : Nat × Nat} {x : α} (hmem : (q, x) ∈ values) {size : Nat} {grid : Grid α}
    (hgrid : Square size grid) (hq : q.1 < size ∧ q.2 < size) :
    (grid.writes values).cell q = some x := by
  induction values generalizing grid with
  | nil => cases hmem
  | cons value values ih =>
    rw [List.map_cons, List.nodup_cons] at hnodup
    rw [writes, List.foldl_cons, ← writes]
    have hshape : Square size (grid.write value.1 value.2) := (shape_write _ _ _).trans hgrid
    rcases List.mem_cons.1 hmem with rfl | hmem
    · obtain ⟨y, hy⟩ := Option.isSome_iff_exists.1 ((isSome_cell_iff hgrid q).2 hq)
      rw [cell_writes_of_notMem hnodup.1, cell_write, if_pos rfl, hy]
      rfl
    · exact ih hnodup.2 hmem hshape

/-- The same value at a list of positions. -/
def fill (grid : Grid α) (x : α) (positions : List (Nat × Nat)) : Grid α :=
  positions.foldl (fun grid p => grid.write p x) grid

@[simp] theorem shape_fill (grid : Grid α) (x : α) (positions : List (Nat × Nat)) :
    shape (grid.fill x positions) = shape grid := by
  rw [fill, shape_foldl fun _ _ => shape_write _ _ _]

theorem cell_fill (grid : Grid α) (x : α) (positions : List (Nat × Nat)) (q : Nat × Nat) :
    (grid.fill x positions).cell q =
      if q ∈ positions then (grid.cell q).map fun _ => x else grid.cell q := by
  induction positions generalizing grid with
  | nil => rfl
  | cons p positions ih =>
    rw [fill, List.foldl_cons, ← fill, ih, cell_write]
    by_cases hp : q = p <;> by_cases hmem : q ∈ positions <;> simp [hp, hmem] <;>
      cases grid.cell p <;> simp

/-! ## Grids of functions -/

def tabulate (rows columns : Nat) (f : Nat × Nat → α) : Grid α :=
  (List.range rows).map fun row => (List.range columns).map fun column => f (row, column)

/-- The grid without a margin on each side. -/
def inside (margin : Nat) (grid : Grid α) : Grid α :=
  ((grid.drop margin).take (grid.length - 2 * margin)).map fun row =>
    (row.drop margin).take (row.length - 2 * margin)

theorem length_tabulate (rows columns : Nat) (f : Nat × Nat → α) :
    (tabulate rows columns f).length = rows := by
  rw [tabulate, List.length_map, List.length_range]

theorem square_tabulate (size : Nat) (f : Nat × Nat → α) : Square size (tabulate size size f) := by
  rw [Square, shape, tabulate, List.map_map, List.eq_replicate_iff]
  refine ⟨by simp, fun length hlength => ?_⟩
  obtain ⟨row, -, rfl⟩ := List.mem_map.1 hlength
  simp

theorem cell_tabulate {rows columns : Nat} (f : Nat × Nat → α) {p : Nat × Nat} (hrow : p.1 < rows)
    (hcolumn : p.2 < columns) : (tabulate rows columns f).cell p = some (f p) := by
  simp [cell, tabulate, hrow, hcolumn]

theorem tabulate_congr {rows columns : Nat} {f g : Nat × Nat → α}
    (h : ∀ p, p.1 < rows → p.2 < columns → f p = g p) :
    tabulate rows columns f = tabulate rows columns g :=
  List.map_congr_left fun row hrow => List.map_congr_left fun column hcolumn =>
    h (row, column) (List.mem_range.1 hrow) (List.mem_range.1 hcolumn)

theorem map_tabulate (rows columns : Nat) (f : Nat × Nat → α) (g : α → β) :
    (tabulate rows columns f).map (List.map g) = tabulate rows columns fun p => g (f p) := by
  simp [tabulate, List.map_map, Function.comp_def]

theorem Square.eq_tabulate {size : Nat} {grid : Grid α} (h : Square size grid) {f : Nat × Nat → α}
    (hf : ∀ p, p.1 < size → p.2 < size → grid.cell p = some (f p)) :
    grid = tabulate size size f := by
  have hlength := h.length
  refine List.ext_getElem (by simp [tabulate, hlength]) fun row hrow hrow' => ?_
  have hsize : grid[row].length = size := by
    have hmem : grid[row].length ∈ shape grid := List.mem_map_of_mem (List.getElem_mem hrow)
    rw [Square] at h
    rw [h] at hmem
    exact List.eq_of_mem_replicate hmem
  refine List.ext_getElem (by simp [tabulate, hsize]) fun column hcolumn hcolumn' => ?_
  have hcell := hf (row, column) (hlength ▸ hrow) (hsize ▸ hcolumn)
  simpa [cell, tabulate, hrow, hcolumn] using hcell

theorem inside_tabulate (margin rows columns : Nat) (f : Nat × Nat → α) :
    inside margin (tabulate (rows + 2 * margin) (columns + 2 * margin) f) =
      tabulate rows columns fun p => f (p.1 + margin, p.2 + margin) := by
  have hmiddle {γ : Type _} (count : Nat) (g : Nat → γ) :
      (((List.range (count + 2 * margin)).map g).drop margin).take count =
        (List.range count).map fun index => g (index + margin) := by
    refine List.ext_getElem (by simp; omega) fun index hindex hindex' => ?_
    simp [Nat.add_comm]
  rw [inside, tabulate, List.length_map, List.length_range, Nat.add_sub_cancel, hmiddle,
    List.map_map, tabulate]
  refine List.map_congr_left fun row _ => ?_
  rw [Function.comp_apply, List.length_map, List.length_range, Nat.add_sub_cancel, hmiddle]

end Grid

end Lib
