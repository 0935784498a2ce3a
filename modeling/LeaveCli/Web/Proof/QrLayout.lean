import LeaveCli.Web.Proof.QrContent

/-!
# The layout of a pairing code

`isDark_reservedMatrix`: what the encoder reserves are the standard's function patterns, in every
version. `dataOrder_eq`: the loops of `placeData` go through the modules in the standard's order.
`candidate_cells` puts the two together: under any mask the format modules hold the mask's word,
and the data modules the codewords' bits under it.
-/

namespace LeaveCli.Web.Qr

open Lib

/-! ## Reserved modules -/

def InRange (size : Nat) (p : Nat × Nat) : Prop := p.1 < size ∧ p.2 < size

theorem isDark_fill {size : Nat} {grid : Grid Bool} (hgrid : grid.Square size) {p : Nat × Nat}
    (hp : InRange size p) (positions : List (Nat × Nat)) :
    isDark (grid.fill true positions) p.1 p.2 =
      (isDark grid p.1 p.2 || decide (p ∈ positions)) := by
  obtain ⟨dark, hdark⟩ := Option.isSome_iff_exists.1 ((Grid.isSome_cell_iff hgrid p).2 hp)
  rw [isDark, isDark, Grid.cell_fill, hdark]
  by_cases hmem : p ∈ positions <;> simp [hmem]

theorem reserveBlock_eq (size : Nat) (reserved : Grid Bool) (top left rows columns : Nat) :
    reserveBlock size reserved top left rows columns =
      reserved.fill true ((List.range' top rows ×ˢ List.range' left columns).filter
        fun p => p.1 < size ∧ p.2 < size) := by
  rw [Grid.fill, List.foldl_filter, reserveBlock]
  simp only [decide_eq_true_eq]

theorem isDark_reserveBlock {size : Nat} {reserved : Grid Bool} (hreserved : reserved.Square size)
    {p : Nat × Nat} (hp : InRange size p) (top left rows columns : Nat) :
    isDark (reserveBlock size reserved top left rows columns) p.1 p.2 =
      (isDark reserved p.1 p.2 || QrCode.within top left rows columns p) := by
  have hwithin : decide (p ∈ (List.range' top rows ×ˢ List.range' left columns).filter
      fun p => p.1 < size ∧ p.2 < size) = QrCode.within top left rows columns p := by
    obtain ⟨row, column⟩ := p
    rw [Bool.eq_iff_iff, decide_eq_true_iff, List.mem_filter, List.mem_product,
      List.mem_range'_1, List.mem_range'_1, QrCode.within]
    simp only [Bool.and_eq_true, Nat.ble_eq, Nat.blt_eq, decide_eq_true_eq]
    exact ⟨fun h => ⟨⟨⟨h.1.1.1, h.1.1.2⟩, h.1.2.1⟩, h.1.2.2⟩,
      fun h => ⟨⟨⟨h.1.1.1, h.1.1.2⟩, h.1.2, h.2⟩, hp⟩⟩
  rw [reserveBlock_eq, isDark_fill hreserved hp, hwithin]

theorem square_reserveBlock {size : Nat} {reserved : Grid Bool} (hreserved : reserved.Square size)
    (top left rows columns : Nat) :
    (reserveBlock size reserved top left rows columns).Square size := by
  rw [reserveBlock_eq]
  exact (Grid.shape_fill _ _ _).trans hreserved

/-- The timing patterns. -/
theorem foldl_timing (size : Nat) (reserved : Grid Bool) :
    (List.range size).foldl (fun reserved index =>
      (reserved.write (6, index) true).write (index, 6) true) reserved =
    reserved.fill true ((List.range size).flatMap fun index => [(6, index), (index, 6)]) := by
  rw [Grid.fill, List.foldl_flatMap]
  rfl

theorem isDark_timing {size : Nat} {reserved : Grid Bool} (hreserved : reserved.Square size)
    {p : Nat × Nat} (hp : InRange size p) :
    isDark ((List.range size).foldl (fun reserved index =>
      (reserved.write (6, index) true).write (index, 6) true) reserved) p.1 p.2 =
    (isDark reserved p.1 p.2 || (p.1.beq 6 || p.2.beq 6)) := by
  have htiming : decide (p ∈ (List.range size).flatMap fun index => [(6, index), (index, 6)]) =
      (p.1.beq 6 || p.2.beq 6) := by
    obtain ⟨row, column⟩ := p
    obtain ⟨hrow, hcolumn⟩ := hp
    rw [Bool.eq_iff_iff, decide_eq_true_iff, List.mem_flatMap, Bool.or_eq_true, Nat.beq_eq,
      Nat.beq_eq]
    constructor
    · rintro ⟨index, -, hmem⟩
      rcases List.mem_pair.1 hmem with hmem | hmem
      · exact Or.inl (Prod.mk.inj hmem).1
      · exact Or.inr (Prod.mk.inj hmem).2
    · rintro (rfl | rfl)
      · exact ⟨column, List.mem_range.2 hcolumn, List.mem_cons_self⟩
      · exact ⟨row, List.mem_range.2 hrow, List.mem_cons_of_mem _ List.mem_cons_self⟩
  rw [foldl_timing, isDark_fill hreserved hp, htiming]

theorem foldl_alignment {size : Nat} {reserved : Grid Bool} (hreserved : reserved.Square size)
    {p : Nat × Nat} (hp : InRange size p) (centres : List (Nat × Nat)) :
    let drawn := centres.foldl (fun reserved (row, column) =>
      reserveBlock size reserved (row - 2) (column - 2) 5 5) reserved
    drawn.Square size ∧ isDark drawn p.1 p.2 = (isDark reserved p.1 p.2 ||
      centres.any fun centre => QrCode.within (centre.1 - 2) (centre.2 - 2) 5 5 p) := by
  induction centres generalizing reserved with
  | nil => exact ⟨hreserved, (Bool.or_false _).symm⟩
  | cons centre centres ih =>
    obtain ⟨hsquare, hdark⟩ := ih (square_reserveBlock hreserved (centre.1 - 2) (centre.2 - 2) 5 5)
    refine ⟨hsquare, ?_⟩
    rw [List.foldl_cons, hdark, isDark_reserveBlock hreserved hp, List.any_cons, Bool.or_assoc]

/-- The table has the standard's centres, and those that are skipped are in the corners. -/
theorem alignmentCentres_eq {version : Nat} (hversion : 1 ≤ version ∧ version ≤ 10) :
    alignmentCentres version (17 + version * 4) = QrCode.alignmentPatterns version :=
  forall_versions (P := fun version => alignmentCentres version (17 + version * 4) =
    QrCode.alignmentPatterns version) (by decide) hversion

theorem isDark_reservedMatrix {version : Nat} (hversion : 1 ≤ version ∧ version ≤ 10)
    {p : Nat × Nat} (hp : InRange (17 + version * 4) p) :
    isDark (reservedMatrix version (17 + version * 4)) p.1 p.2 = QrCode.isFunction version p := by
  have hside : QrCode.side version = 17 + version * 4 := by rw [QrCode.side, Nat.mul_comm]
  have hblank : isDark (Grid.blank (17 + version * 4) false) p.1 p.2 = false := by
    rw [isDark, Grid.cell_blank]
    split <;> rfl
  unfold reservedMatrix QrCode.isFunction
  simp only [hside]
  set size := 17 + version * 4 with hsize
  have h0 := Grid.square_blank size false
  have h1 := square_reserveBlock h0 0 0 9 9
  have h2 := square_reserveBlock h1 0 (size - 8) 9 8
  have h3 := square_reserveBlock h2 (size - 8) 0 8 9
  have hfinders : isDark (reserveBlock size (reserveBlock size (reserveBlock size
      (Grid.blank size false) 0 0 9 9) 0 (size - 8) 9 8) (size - 8) 0 8 9) p.1 p.2 =
        (QrCode.within 0 0 9 9 p || QrCode.within 0 (size - 8) 9 8 p ||
          QrCode.within (size - 8) 0 8 9 p) := by
    rw [isDark_reserveBlock h2 hp, isDark_reserveBlock h1 hp, isDark_reserveBlock h0 hp,
      hblank, Bool.false_or]
  have htiming := isDark_timing h3 hp
  have h4 := (foldl_timing size _).symm ▸ (Grid.shape_fill _ _ _).trans h3
  obtain ⟨h5, halignment⟩ := foldl_alignment h4 hp (alignmentCentres version size)
  have hcentres : alignmentCentres version size = QrCode.alignmentPatterns version :=
    alignmentCentres_eq hversion
  split
  · rename_i hinfo
    have hble : Nat.ble 7 version = true := Nat.ble_eq_true_of_le hinfo
    rw [isDark_reserveBlock (square_reserveBlock h5 0 (size - 11) 6 3) hp,
      isDark_reserveBlock h5 hp, halignment, htiming, hfinders, hcentres, hble, Bool.true_and]
    simp only [Bool.or_assoc]
  · rename_i hinfo
    have hble : Nat.ble 7 version = false := by
      rw [← Bool.not_eq_true, Nat.ble_eq]
      exact hinfo
    rw [halignment, htiming, hfinders, hcentres, hble, Bool.false_and, Bool.or_false]
    simp only [Bool.or_assoc]

/-! ## The order of the data -/

/-- The pairs of columns are the standard's. -/
theorem columnPairs_eq {version : Nat} (hversion : 1 ≤ version ∧ version ≤ 10) :
    columnPairs (17 + version * 4) (17 + version * 4 - 1) true =
      (List.range ((17 + version * 4 - 1) / 2)).map fun lane =>
        let right := 17 + version * 4 - 1 - 2 * lane
        (if right ≤ 6 then right - 1 else right, decide (lane % 2 = 0)) :=
  forall_versions (P := fun version => columnPairs (17 + version * 4) (17 + version * 4 - 1) true =
      (List.range ((17 + version * 4 - 1) / 2)).map fun lane =>
        let right := 17 + version * 4 - 1 - 2 * lane
        (if right ≤ 6 then right - 1 else right, decide (lane % 2 = 0))) (by decide) hversion

theorem map_product {α β γ : Type} (f : α × β → γ) (xs : List α) (ys : List β) :
    (xs ×ˢ ys).map f = xs.flatMap fun x => ys.map fun y => f (x, y) := by
  induction xs with
  | nil => rfl
  | cons x xs ih =>
    rw [List.product_cons, List.map_append, List.map_map, ih, List.flatMap_cons]
    rfl

theorem dataOrder_eq {version : Nat} (hversion : 1 ≤ version ∧ version ≤ 10) :
    dataOrder (17 + version * 4) = QrCode.zigzag (17 + version * 4) := by
  rw [dataOrder, columnPairs_eq hversion, QrCode.zigzag, map_product, List.flatMap_map]
  refine List.flatMap_congr fun lane hlane => ?_
  have hlt := List.mem_range.1 hlane
  rw [map_product]
  refine List.flatMap_congr fun step _ => ?_
  refine List.map_congr_left fun offset hoffset => ?_
  rw [QrCode.visit]
  refine Prod.ext ?_ ?_
  · simp
  · have hoffset : offset < 2 := List.mem_range.1 hoffset
    dsimp only
    split <;> split <;> omega

/-! ## Data -/

theorem shape_drawFinder (matrix : Grid Bool) (top left : Nat) :
    (drawFinder matrix top left).shape = matrix.shape := by
  rw [drawFinder, Grid.shape_foldl fun _ _ => Grid.shape_write _ _ _]

theorem shape_drawAlignment (matrix : Grid Bool) (centreRow centreColumn : Nat) :
    (drawAlignment matrix centreRow centreColumn).shape = matrix.shape := by
  rw [drawAlignment, Grid.shape_foldl fun _ _ => Grid.shape_write _ _ _]

theorem shape_drawVersionInfo (matrix : Grid Bool) (version size : Nat) :
    (drawVersionInfo matrix version size).shape = matrix.shape := by
  rw [drawVersionInfo, Grid.shape_foldl fun _ _ => by
    rw [Grid.shape_write, Grid.shape_write]]

theorem square_functionPatterns (version size : Nat) :
    (functionPatterns version size).Square size := by
  have hmatrix : (functionPatterns version size).shape = (Grid.blank size false).shape := by
    unfold functionPatterns
    dsimp only
    split
    · rw [shape_drawVersionInfo, Grid.shape_write,
        Grid.shape_foldl fun _ _ => shape_drawAlignment _ _ _,
        Grid.shape_foldl fun _ _ => by rw [Grid.shape_write, Grid.shape_write],
        Grid.shape_foldl fun _ _ => shape_drawFinder _ _ _]
    · rw [Grid.shape_write, Grid.shape_foldl fun _ _ => shape_drawAlignment _ _ _,
        Grid.shape_foldl fun _ _ => by rw [Grid.shape_write, Grid.shape_write],
        Grid.shape_foldl fun _ _ => shape_drawFinder _ _ _]
  exact hmatrix.trans (Grid.square_blank size false)

/-- What `placeData` writes: the bits of the codewords to the modules that are not reserved. -/
theorem foldl_placeData (reserved : Grid Bool) (codewords : List Nat) (mask : Nat)
    (order : List (Nat × Nat)) (matrix : Grid Bool) (start : Nat) :
    (order.foldl (fun (matrix, bitIndex) (row, target) =>
      if isDark reserved row target then (matrix, bitIndex)
      else
        (matrix.write (row, target) (codewordBit codewords bitIndex != maskAt mask row target),
          bitIndex + 1)) (matrix, start)).1 =
    matrix.writes (((order.filter fun p => !isDark reserved p.1 p.2).zipIdx start).map fun entry =>
      (entry.1, codewordBit codewords entry.2 != maskAt mask entry.1.1 entry.1.2)) := by
  induction order generalizing matrix start with
  | nil => rfl
  | cons p order ih =>
    rw [List.foldl_cons]
    by_cases hreserved : isDark reserved p.1 p.2
    · rw [List.filter_cons_of_neg (by simp [hreserved])]
      simp only [hreserved, ↓reduceIte]
      exact ih matrix start
    · rw [List.filter_cons_of_pos (by simp [hreserved]), List.zipIdx_cons, List.map_cons]
      simp only [hreserved, Bool.false_eq_true, ↓reduceIte]
      exact ih _ (start + 1)

/-- The modules that are not reserved, in the order of the loops. -/
theorem filter_dataOrder {version : Nat} (hversion : 1 ≤ version ∧ version ≤ 10) :
    ((dataOrder (17 + version * 4)).filter fun p =>
      !isDark (reservedMatrix version (17 + version * 4)) p.1 p.2) =
        QrCode.dataModules version := by
  have hside : QrCode.side version = 17 + version * 4 := by rw [QrCode.side, Nat.mul_comm]
  rw [dataOrder_eq hversion, QrCode.dataModules, hside]
  refine List.filter_congr fun p hp => ?_
  rw [isDark_reservedMatrix hversion (QrCode.lt_of_mem_zigzag hp)]

theorem placeData_eq {version : Nat} (hversion : 1 ≤ version ∧ version ≤ 10) {matrix : Grid Bool}
    (hmatrix : matrix.Square (17 + version * 4)) (codewords : List Nat) (mask : Nat) :
    placeData matrix (reservedMatrix version (17 + version * 4)) codewords mask =
      matrix.writes ((QrCode.dataModules version).zipIdx.map fun entry =>
        (entry.1, codewordBit codewords entry.2 != maskAt mask entry.1.1 entry.1.2)) := by
  rw [placeData, hmatrix.length, ← filter_dataOrder hversion]
  exact foldl_placeData _ _ _ _ _ _

theorem map_fst_zipIdx {α β : Type} (f : α × Nat → β) (xs : List α) :
    ((xs.zipIdx.map fun entry => (entry.1, f entry)).map Prod.fst) = xs := by
  rw [List.map_map]
  exact List.zipIdx_map_fst 0 xs

theorem cell_placeData {version : Nat} (hversion : 1 ≤ version ∧ version ≤ 10)
    {matrix : Grid Bool} (hmatrix : matrix.Square (17 + version * 4)) (codewords : List Nat)
    (mask : Nat) {index : Nat} {p : Nat × Nat}
    (hp : (QrCode.dataModules version)[index]? = some p) :
    (placeData matrix (reservedMatrix version (17 + version * 4)) codewords mask).cell p =
      some (codewordBit codewords index != maskAt mask p.1 p.2) := by
  have hside : QrCode.side version = 17 + version * 4 := by rw [QrCode.side, Nat.mul_comm]
  have hrange := QrCode.lt_of_mem_dataModules (List.mem_of_getElem? hp)
  rw [hside] at hrange
  rw [placeData_eq hversion hmatrix]
  refine Grid.cell_writes ?_ ?_ hmatrix hrange
  · rw [map_fst_zipIdx]
    exact QrCode.nodup_dataModules version
  · exact List.mem_map.2 ⟨(p, index), List.mem_zipIdx_iff_getElem?.2 hp, rfl⟩

/-! ## Format information -/

/-- The copy beside the finder pattern at the top left. -/
def formatFront (bits : Nat) : List ((Nat × Nat) × Bool) :=
  (List.range 15).map fun index => (QrCode.formatModule index, bits.testBit index)

/-- The other copy, and the module that is always dark. -/
def formatBack (size bits : Nat) : List ((Nat × Nat) × Bool) :=
  ((List.range 8).map fun index => ((8, size - 1 - index), bits.testBit index)) ++
  ((List.range' 8 7).map fun index => ((size - 15 + index, 8), bits.testBit index)) ++
  [((size - 8, 8), true)]

theorem foldl_write (place : Nat → Nat × Nat) (bits : Nat) (indices : List Nat)
    (matrix : Grid Bool) :
    indices.foldl (fun matrix index => matrix.write (place index) (bits.testBit index)) matrix =
      matrix.writes (indices.map fun index => (place index, bits.testBit index)) := by
  rw [Grid.writes, List.foldl_map]

theorem placeFormat_eq (matrix : Grid Bool) (mask : Nat) :
    placeFormat matrix mask = (matrix.writes (formatFront (formatBits mask))).writes
      (formatBack matrix.length (formatBits mask)) := by
  have hfront (bits : Nat) : formatFront bits =
      ((List.range 6).map fun index => ((index, 8), bits.testBit index)) ++
      [((7, 8), bits.testBit 6)] ++ [((8, 8), bits.testBit 7)] ++ [((8, 7), bits.testBit 8)] ++
      (List.range' 9 6).map fun index => ((8, 14 - index), bits.testBit index) := rfl
  unfold placeFormat
  generalize formatBits mask = bits
  rw [hfront, formatBack]
  simp only [foldl_write, Grid.writes_append]
  rfl

/-- The front of the format information is part of the corner at the top left. -/
theorem formatModule_le (index : Nat) (h : index < 15) :
    (QrCode.formatModule index).1 ≤ 8 ∧ (QrCode.formatModule index).2 ≤ 8 := by
  have hle : ∀ index < 15,
      (QrCode.formatModule index).1 ≤ 8 ∧ (QrCode.formatModule index).2 ≤ 8 := by decide
  exact hle index h

theorem isFunction_of_le {version : Nat} {p : Nat × Nat} (h : p.1 ≤ 8 ∧ p.2 ≤ 8) :
    QrCode.isFunction version p = true := by
  have hcorner : QrCode.within 0 0 9 9 p = true := by
    simp only [QrCode.within, Bool.and_eq_true, Nat.ble_eq, Nat.blt_eq]
    omega
  simp only [QrCode.isFunction, hcorner, Bool.true_or]

/-- The other copy is in the two other corners. -/
theorem isFunction_back {version bits : Nat} {p : Nat × Nat}
    (h : p ∈ (formatBack (17 + version * 4) bits).map Prod.fst) :
    QrCode.isFunction version p = true ∧ (8 < p.1 ∨ 8 < p.2) := by
  have hside : QrCode.side version = 17 + version * 4 := by rw [QrCode.side, Nat.mul_comm]
  have hcorners : (p.1 = 8 ∧ 9 + version * 4 ≤ p.2 ∧ p.2 < 17 + version * 4) ∨
      (p.2 = 8 ∧ 9 + version * 4 ≤ p.1 ∧ p.1 < 17 + version * 4) := by
    simp only [formatBack, List.map_append, List.map_map, List.mem_append, List.mem_map,
      Function.comp_apply, List.mem_range, List.mem_range'_1, List.map_cons, List.map_nil,
      List.mem_singleton] at h
    rcases h with (⟨index, hindex, rfl⟩ | ⟨index, hindex, rfl⟩) | rfl
    · left
      dsimp only
      omega
    · right
      dsimp only
      omega
    · right
      dsimp only
      omega
  have hwithin : QrCode.within 0 (17 + version * 4 - 8) 9 8 p = true ∨
      QrCode.within (17 + version * 4 - 8) 0 8 9 p = true := by
    simp only [QrCode.within, Bool.and_eq_true, Nat.ble_eq, Nat.blt_eq]
    omega
  refine ⟨?_, by omega⟩
  rcases hwithin with hwithin | hwithin <;>
    simp only [QrCode.isFunction, hside, hwithin, Bool.true_or, Bool.or_true]

theorem formatBits_eq {mask : Nat} (hmask : mask < 8) :
    formatBits mask = QrCode.formatWord mask := by
  have htable : ∀ mask < 8, formatBits mask = QrCode.formatWord mask := by decide
  exact htable mask hmask

theorem maskAt_eq (mask row column : Nat) :
    maskAt mask row column = QrCode.masked mask row column :=
  rfl

section

variable {version : Nat} (hversion : 1 ≤ version ∧ version ≤ 10) {matrix : Grid Bool}
  (hmatrix : matrix.Square (17 + version * 4)) (mask : Nat)

include hmatrix

theorem square_placeFormat : (placeFormat matrix mask).Square (17 + version * 4) := by
  rw [placeFormat_eq, Grid.Square, Grid.shape_writes, Grid.shape_writes]
  exact hmatrix

/-- Format information leaves the data alone. -/
theorem cell_placeFormat_data {p : Nat × Nat} (hp : QrCode.isFunction version p = false) :
    (placeFormat matrix mask).cell p = matrix.cell p := by
  rw [placeFormat_eq, hmatrix.length, Grid.cell_writes_of_notMem, Grid.cell_writes_of_notMem]
  · intro hmem
    rw [formatFront, List.map_map] at hmem
    obtain ⟨index, hindex, rfl⟩ := List.mem_map.1 hmem
    rw [Function.comp_apply,
      isFunction_of_le (formatModule_le index (List.mem_range.1 hindex))] at hp
    cases hp
  · intro hmem
    rw [(isFunction_back hmem).1] at hp
    cases hp

theorem cell_placeFormat_front {index : Nat} (hindex : index < 15) :
    (placeFormat matrix mask).cell (QrCode.formatModule index) =
      some ((formatBits mask).testBit index) := by
  obtain ⟨hrow, hcolumn⟩ := formatModule_le index hindex
  rw [placeFormat_eq, hmatrix.length, Grid.cell_writes_of_notMem]
  · refine Grid.cell_writes ?_ ?_ hmatrix ⟨by omega, by omega⟩
    · have hmodules : (formatFront (formatBits mask)).map Prod.fst =
          (List.range 15).map QrCode.formatModule := by
        rw [formatFront, List.map_map]
        rfl
      rw [hmodules]
      decide
    · exact List.mem_map.2 ⟨index, List.mem_range.2 hindex, rfl⟩
  · intro hmem
    have houter := (isFunction_back hmem).2
    omega

end

/-! ## The symbol -/

/-- Under any mask the format modules hold the mask's word and the data modules the bits of the
codewords, turned over where the mask is. -/
theorem candidate_cells {version : Nat} (hversion : 1 ≤ version ∧ version ≤ 10) (data : Bytes)
    {mask : Nat} (hmask : mask < 8) :
    (candidate version data mask).Square (QrCode.side version) ∧
      (∀ index < 15, (candidate version data mask).cell (QrCode.formatModule index) =
        some ((QrCode.formatWord mask).testBit index)) ∧
      ∀ index p, (QrCode.dataModules version)[index]? = some p →
        (candidate version data mask).cell p =
          some (codewordBit (interleave version (buildCodewords version data)) index ^^
            QrCode.masked mask p.1 p.2) := by
  have hside : QrCode.side version = 17 + version * 4 := by rw [QrCode.side, Nat.mul_comm]
  have hbase := square_functionPatterns version (17 + version * 4)
  have hdata : (placeData (functionPatterns version (17 + version * 4))
      (reservedMatrix version (17 + version * 4))
      (interleave version (buildCodewords version data)) mask).Square (17 + version * 4) := by
    rw [placeData_eq hversion hbase, Grid.Square, Grid.shape_writes]
    exact hbase
  refine ⟨hside ▸ square_placeFormat hdata mask, fun index hindex => ?_, fun index p hp => ?_⟩
  · rw [← formatBits_eq hmask]
    exact cell_placeFormat_front hdata mask hindex
  · have hfree : QrCode.isFunction version p = false := by
      have hmem := (List.mem_filter.1 (List.mem_of_getElem? hp)).2
      exact Bool.not_eq_true' _ ▸ hmem
    rw [candidate, cell_placeFormat_data hdata mask hfree, cell_placeData hversion hbase _ mask hp,
      maskAt_eq, Bool.bne_eq_xor]

end LeaveCli.Web.Qr
