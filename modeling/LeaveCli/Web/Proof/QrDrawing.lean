import LeaveCli.Web.Proof.Qr

/-!
# What a pairing code looks like

`paint_qrCode`: filled as SVG fills it, the drawing of a symbol is black where a module is dark and
white everywhere else, with a margin of four modules. So what the component draws for a text is read
as the text (`qrCode_read`).
-/

namespace LeaveCli.Web.Qr

open Lib

theorem readNumber_repr (n : Nat) : Svg.readNumber n.repr.toList = some n := by
  have hread := Svg.readDigits_repr n [] fun c hc => nomatch hc
  rw [List.append_nil] at hread
  rw [Svg.readNumber, hread]
  rfl

theorem readViewBox_extent (n : Nat) :
    Svg.readViewBox (("0 0 " : Str) ++ n.repr.toList ++ (" " : Str) ++ n.repr.toList) =
      some (n, n) := by
  have hspace : ' ' ∉ n.repr.toList := Str.not_mem_repr rfl
  have htext : ("0 0 " : Str) ++ n.repr.toList ++ (" " : Str) ++ n.repr.toList =
      ([' '] : Str).intercalate [['0'], ['0'], n.repr.toList, n.repr.toList] := by
    simp [List.intercalate, List.intersperse]
  have hwords : ∀ word ∈ [['0'], ['0'], n.repr.toList, n.repr.toList], ' ' ∉ word := by
    intro word hword
    simp only [List.mem_cons, List.not_mem_nil, or_false] at hword
    rcases hword with rfl | rfl | rfl | rfl
    · decide
    · decide
    · exact hspace
    · exact hspace
  rw [Svg.readViewBox, htext, List.splitOn_intercalate _ hwords (List.cons_ne_nil _ _)]
  dsimp only
  rw [if_pos ⟨rfl, rfl⟩, readNumber_repr]
  rfl

/-- The squares of a path: column and row of every dark module, with the quiet zone. -/
def squares (matrix : QrMatrix) (quietZone : Nat) : List (Nat × Nat) :=
  ((List.range matrix.size ×ˢ List.range matrix.size).filter fun p =>
    isDark matrix.modules p.1 p.2).map fun p => (p.2 + quietZone, p.1 + quietZone)

theorem qrToSvgPath_eq (matrix : QrMatrix) (quietZone : Nat) : qrToSvgPath matrix quietZone =
    (squares matrix quietZone).flatMap fun p => Svg.squareText p.1 p.2 := by
  rw [squares, List.flatMap_map]
  rfl

/-- The module that a cell of the drawing shows is dark. -/
def isInked (matrix : QrMatrix) (quietZone : Nat) (p : Nat × Nat) : Bool :=
  (quietZone ≤ p.1 ∧ p.1 < matrix.size + quietZone) ∧
    (quietZone ≤ p.2 ∧ p.2 < matrix.size + quietZone) ∧
      isDark matrix.modules (p.1 - quietZone) (p.2 - quietZone) = true

theorem mem_squares (matrix : QrMatrix) (quietZone : Nat) (p : Nat × Nat) :
    (p.2, p.1) ∈ squares matrix quietZone ↔ isInked matrix quietZone p = true := by
  obtain ⟨row, column⟩ := p
  rw [squares, List.mem_map, isInked, decide_eq_true_eq]
  constructor
  · intro h
    obtain ⟨⟨r, c⟩, hmem, heq⟩ := h
    obtain ⟨hrange, hdark⟩ := List.mem_filter.1 hmem
    rw [List.mem_product, List.mem_range, List.mem_range] at hrange
    obtain ⟨rfl, rfl⟩ := Prod.mk.inj heq
    simp only [Nat.add_sub_cancel]
    exact ⟨by omega, by omega, hdark⟩
  · intro h
    obtain ⟨hrow, hcolumn, hdark⟩ := h
    refine ⟨(row - quietZone, column - quietZone), List.mem_filter.2 ⟨?_, hdark⟩, ?_⟩
    · rw [List.mem_product, List.mem_range, List.mem_range]
      dsimp only at *
      omega
    · dsimp only at *
      rw [Nat.sub_add_cancel hrow.1, Nat.sub_add_cancel hcolumn.1]

/-- The path covers the cells of dark modules. -/
theorem region_path (matrix : QrMatrix) (quietZone : Nat) (fill : Str) :
    (Svg.Shape.path (qrToSvgPath matrix quietZone) fill).region =
      some (isInked matrix quietZone) := by
  obtain ⟨edges, hedges, hwinding⟩ := Svg.winding_squares (squares matrix quietZone) (0, 0)
  rw [Svg.Shape.region, qrToSvgPath_eq, Svg.readPath_squares, Option.bind_some, hedges,
    Option.map_some]
  refine congrArg some (funext fun p => ?_)
  rw [hwinding, Bool.eq_iff_iff, ← mem_squares, decide_eq_true_eq, ← List.count_pos_iff]
  omega

/-- Black where a module is dark, and white elsewhere. -/
def ink (matrix : QrMatrix) (quietZone : Nat) (p : Nat × Nat) : Option Str :=
  some (if isInked matrix quietZone p then "#000000" else "#ffffff")

/-- The drawing of a symbol, filled. -/
theorem paint_qrCode {value : Str} {matrix : QrMatrix} (h : encodeQr value = .ok matrix) :
    ∃ drawing, qrCode value = some drawing ∧ Svg.paint drawing =
      some (Grid.tabulate (qrViewBoxSize matrix defaultQuietZone)
        (qrViewBoxSize matrix defaultQuietZone) (ink matrix defaultQuietZone)) := by
  set extent := qrViewBoxSize matrix defaultQuietZone with hextent
  refine ⟨_, by rw [qrCode, h], ?_⟩
  have hrect : (Svg.Shape.rect extent.repr.toList extent.repr.toList "#ffffff").region =
      some fun p => decide (p.1 < extent ∧ p.2 < extent) := by
    rw [Svg.Shape.region, readNumber_repr]
    rfl
  rw [Svg.paint, readViewBox_extent, Option.bind_some]
  simp only [List.mapM_cons, List.mapM_nil, ← hextent, hrect, region_path, Option.map_some,
    Option.bind_eq_bind, Option.bind_some, Option.pure_def, Svg.Shape.fill]
  refine congrArg some (Grid.tabulate_congr fun p hrow hcolumn => ?_)
  rw [Svg.colour, ink, List.filter_cons_of_pos (by simp [hrow, hcolumn])]
  cases hinked : isInked matrix defaultQuietZone p <;> simp [hinked]

/-! ## Reading the drawing -/

theorem ink_eq_black (matrix : QrMatrix) (quietZone : Nat) (p : Nat × Nat) :
    (ink matrix quietZone p = some ("#000000" : Str)) ↔ isInked matrix quietZone p = true := by
  have hcolours : ("#ffffff" : Str) ≠ "#000000" := by decide
  rw [ink, Option.some.injEq]
  split
  · simp_all
  · simp_all

theorem isInked_shift (matrix : QrMatrix) (quietZone : Nat) {p : Nat × Nat}
    (hrow : p.1 < matrix.size) (hcolumn : p.2 < matrix.size) :
    isInked matrix quietZone (p.1 + quietZone, p.2 + quietZone) =
      isDark matrix.modules p.1 p.2 := by
  simp [isInked, hrow, hcolumn]

theorem ink_margin (matrix : QrMatrix) (quietZone : Nat) {p : Nat × Nat}
    (h : p.1 < quietZone ∨ p.2 < quietZone ∨ matrix.size + quietZone ≤ p.1 ∨
      matrix.size + quietZone ≤ p.2) : ink matrix quietZone p = some ("#ffffff" : Str) := by
  have hblank : isInked matrix quietZone p = false := by
    rw [isInked, decide_eq_false_iff_not]
    omega
  rw [ink, hblank]
  rfl

/-- A camera sees a grid of colours, and dark is what is black. -/
def seen (picture : Grid (Option Str)) : Grid Bool :=
  picture.map (List.map fun colour => colour = some ("#000000" : Str))

/-- What the component draws for a text of up to 213 bytes has a margin of four white modules, and
inside it is a symbol that reads as the text. For a longer text it draws nothing. -/
theorem qrCode_read (text : Str) :
    ((Str.utf8 text).length ≤ 213 → ∃ drawing picture, qrCode text = some drawing ∧
      Svg.paint drawing = some picture ∧ picture.Square picture.length ∧
      (∀ p, p.1 < picture.length → p.2 < picture.length →
        (p.1 < 4 ∨ p.2 < 4 ∨ picture.length ≤ p.1 + 4 ∨ picture.length ≤ p.2 + 4) →
          picture.cell p = some (some ("#ffffff" : Str))) ∧
      QrCode.read (Grid.inside 4 (seen picture)) = some (Str.utf8 text)) ∧
    (213 < (Str.utf8 text).length → qrCode text = none) := by
  constructor
  · intro hlength
    obtain ⟨version, mask, hversion, hfits, hmask, hsymbol⟩ := exists_candidate hlength
    set matrix : QrMatrix := ⟨17 + version * 4, candidate version (Str.utf8 text) mask, version⟩
    obtain ⟨hsquare, -⟩ := candidate_cells hversion (Str.utf8 text) hmask
    have hsize : QrCode.side version = matrix.size := congrArg (17 + ·) (Nat.mul_comm 4 version)
    rw [hsize] at hsquare
    obtain ⟨drawing, hdrawing, hpaint⟩ := paint_qrCode hsymbol
    have hextent : qrViewBoxSize matrix defaultQuietZone = matrix.size + 2 * 4 := by
      rw [qrViewBoxSize, defaultQuietZone, Nat.mul_comm]
    rw [hextent] at hpaint
    refine ⟨drawing, _, hdrawing, hpaint, ?_, ?_, ?_⟩
    · rw [Grid.length_tabulate]
      exact Grid.square_tabulate _ _
    · rw [Grid.length_tabulate]
      intro p hrow hcolumn hmargin
      rw [Grid.cell_tabulate _ hrow hcolumn, ink_margin]
      rw [defaultQuietZone]
      omega
    · have hmodules : matrix.modules = Grid.tabulate matrix.size matrix.size fun p =>
          isDark matrix.modules p.1 p.2 := by
        refine hsquare.eq_tabulate fun p hrow hcolumn => ?_
        obtain ⟨dark, hdark⟩ :=
          Option.isSome_iff_exists.1 ((Grid.isSome_cell_iff hsquare p).2 ⟨hrow, hcolumn⟩)
        rw [isDark, hdark]
        rfl
      have hinside : Grid.inside 4 (seen (Grid.tabulate (matrix.size + 2 * 4) (matrix.size + 2 * 4)
          (ink matrix defaultQuietZone))) = matrix.modules := by
        rw [seen, Grid.map_tabulate, Grid.inside_tabulate, hmodules]
        refine Grid.tabulate_congr fun p hrow hcolumn => ?_
        rw [← isInked_shift matrix defaultQuietZone hrow hcolumn, Bool.eq_iff_iff,
          decide_eq_true_eq, ink_eq_black]
        rfl
      rw [hinside]
      exact read_candidate hversion hfits hmask
  · intro hlength
    obtain ⟨error, herror⟩ := exists_encodeQr_error hlength
    rw [qrCode, herror]

end LeaveCli.Web.Qr
