import LeaveCli.Lib.Fields
import LeaveCli.Lib.Grid
import Mathlib.Algebra.Order.Group.Int
import Mathlib.Algebra.Ring.Int.Defs

/-!
# Drawings

SVG drawings of rectangles and paths whose edges run along the axes, with integer coordinates. A
path is filled where its edges wind around a cell (`winding`), and a cell has the colour of the last
shape that covers it (`paint`). `readPath_squares`: a path of unit squares, each written as
`Mx yh1v1h-1z`, is read as these squares, and `winding_squares`: it winds around their cells only.
-/

namespace Lib.Svg

/-! ## Paths -/

inductive PathCommand
  | moveTo (x y : Int)
  | horizontal (dx : Int)
  | vertical (dy : Int)
  | close
  deriving DecidableEq

/-- Digits, and what follows them. -/
def readDigits (s : Str) : Option (Nat × Str) :=
  let digits := s.takeWhile Char.isDigit
  if digits = [] then none else some (Nat.ofDigitChars 10 digits 0, s.dropWhile Char.isDigit)

def readInteger : Str → Option (Int × Str)
  | '-' :: s => (readDigits s).map fun p => (-p.1, p.2)
  | s => (readDigits s).map fun p => (p.1, p.2)

def readCommand : Str → Option (PathCommand × Str)
  | 'M' :: s => (readInteger s).bind fun (x, s) =>
    (Str.stripPrefix [' '] s).bind fun s => (readInteger s).map fun (y, s) => (.moveTo x y, s)
  | 'h' :: s => (readInteger s).map fun (dx, s) => (.horizontal dx, s)
  | 'v' :: s => (readInteger s).map fun (dy, s) => (.vertical dy, s)
  | 'z' :: s => some (.close, s)
  | _ => none

/-- The commands of a path; every command takes at least one character. -/
def readCommands : Nat → Str → Option (List PathCommand)
  | _, [] => some []
  | 0, _ :: _ => none
  | fuel + 1, s => (readCommand s).bind fun (command, s) =>
    (readCommands fuel s).map (command :: ·)

def readPath (d : Str) : Option (List PathCommand) := readCommands d.length d

/-- An upright edge: where it stands, and from where to where it runs. -/
structure Upright where
  x : Int
  first : Int
  last : Int

/-- The upright edge between two points, when the edge between them runs along an axis. -/
def edge (p q : Int × Int) : Option (List Upright) :=
  if p.1 = q.1 then some [⟨p.1, p.2, q.2⟩] else if p.2 = q.2 then some [] else none

/-- The upright edges of a path, from the start of its subpath and the point it has reached. A
subpath that is left open is closed. -/
def uprights (start point : Int × Int) : List PathCommand → Option (List Upright)
  | [] => edge point start
  | .moveTo x y :: commands =>
    (edge point start).bind fun closing => (uprights (x, y) (x, y) commands).map (closing ++ ·)
  | .horizontal dx :: commands => uprights start (point.1 + dx, point.2) commands
  | .vertical dy :: commands =>
    (uprights start (point.1, point.2 + dy) commands).map (⟨point.1, point.2, point.2 + dy⟩ :: ·)
  | .close :: commands =>
    (edge point start).bind fun closing => (uprights start start commands).map (closing ++ ·)

/-- How an edge counts for a cell to its left: down or up, if it passes the cell's row. -/
def Upright.turn (edge : Upright) (row column : Int) : Int :=
  if column < edge.x then
    if edge.first ≤ row ∧ row < edge.last then 1
    else if edge.last ≤ row ∧ row < edge.first then -1
    else 0
  else 0

/-- How often the edges wind around a cell. -/
def winding (edges : List Upright) (row column : Int) : Int :=
  (edges.map fun edge => edge.turn row column).sum

/-! ## Drawings -/

inductive Shape
  | rect (width height fill : Str)
  | path (d fill : Str)

structure Drawing where
  viewBox : Str
  shapes : List Shape

def readNumber (s : Str) : Option Nat :=
  (readDigits s).bind fun (n, rest) => if rest = [] then some n else none

def Shape.fill : Shape → Str
  | .rect _ _ fill => fill
  | .path _ fill => fill

/-- The cells that a shape covers, by row and column. -/
def Shape.region : Shape → Option (Nat × Nat → Bool)
  | .rect width height _ =>
    (readNumber width).bind fun width => (readNumber height).map fun height =>
      fun p => p.1 < height ∧ p.2 < width
  | .path d _ =>
    (readPath d).bind fun commands => (uprights (0, 0) (0, 0) commands).map fun edges =>
      fun p => winding edges p.1 p.2 ≠ 0

/-- The width and height of a view box at the origin. -/
def readViewBox (viewBox : Str) : Option (Nat × Nat) :=
  match viewBox.splitOn ' ' with
  | [left, top, width, height] =>
    if left = "0" ∧ top = "0" then
      (readNumber width).bind fun width => (readNumber height).map (width, ·)
    else none
  | _ => none

/-- The colour of the last region that has the cell. -/
def colour (regions : List ((Nat × Nat → Bool) × Str)) (p : Nat × Nat) : Option Str :=
  ((regions.filter fun region => region.1 p).getLast?).map (·.2)

/-- The colours of the cells of the view box. -/
def paint (drawing : Drawing) : Option (Grid (Option Str)) :=
  (readViewBox drawing.viewBox).bind fun (width, height) =>
    (drawing.shapes.mapM fun shape : Shape => shape.region.map (·, shape.fill)).map fun regions =>
      Grid.tabulate height width (colour regions)

/-! ## Squares -/

/-- A unit square as it is written. -/
def squareText (x y : Nat) : Str :=
  ("M" : Str) ++ x.repr.toList ++ (" " : Str) ++ y.repr.toList ++ ("h1v1h-1z" : Str)

def square (x y : Nat) : List PathCommand :=
  [.moveTo x y, .horizontal 1, .vertical 1, .horizontal (-1), .close]

theorem readDigits_repr (n : Nat) (rest : Str) (h : ∀ c ∈ rest.head?, c.isDigit = false) :
    readDigits (n.repr.toList ++ rest) = some (n, rest) := by
  have hall : ∀ c ∈ n.repr.toList, c.isDigit = true := fun c hc => Str.isDigit_of_mem_repr hc
  have hrest : rest.takeWhile Char.isDigit = [] ∧ rest.dropWhile Char.isDigit = rest := by
    cases rest with
    | nil => exact ⟨rfl, rfl⟩
    | cons c rest => simp [h c rfl]
  rw [readDigits, List.takeWhile_append_of_pos hall, List.dropWhile_append_of_pos hall, hrest.1,
    hrest.2, List.append_nil, if_neg (Str.repr_ne_nil n), Nat.toList_repr,
    Nat.ofDigitChars_ten_toDigits]

theorem readInteger_repr (n : Nat) {rest : Str} (h : ∀ c ∈ rest.head?, c.isDigit = false) :
    readInteger (n.repr.toList ++ rest) = some ((n : Int), rest) := by
  have hread := readDigits_repr n rest h
  obtain ⟨c, digits, hdigits⟩ := List.exists_cons_of_ne_nil (Str.repr_ne_nil n)
  have hminus : c ≠ '-' := by
    intro hc
    have hmem : '-' ∈ n.repr.toList := by rw [hdigits, hc]; exact List.mem_cons_self
    exact Str.not_mem_repr rfl hmem
  rw [hdigits, List.cons_append] at hread ⊢
  rw [readInteger.eq_2 _ fun s hs => hminus (List.cons.inj hs).1, hread]
  rfl

theorem readCommands_step {fuel : Nat} {s rest : Str} {command : PathCommand}
    (h : readCommand s = some (command, rest)) :
    readCommands (fuel + 1) s = (readCommands fuel rest).map (command :: ·) := by
  cases s with
  | nil => cases h
  | cons c s =>
    rw [readCommands.eq_3 _ _ (List.cons_ne_nil c s), h]
    rfl

/-- A square is read as its commands. -/
theorem readCommands_square (fuel x y : Nat) (rest : Str) :
    readCommands (fuel + 5) (squareText x y ++ rest) =
      (readCommands fuel rest).map (square x y ++ ·) := by
  let sides : Str := 'h' :: '1' :: 'v' :: '1' :: 'h' :: '-' :: '1' :: 'z' :: rest
  have htext : squareText x y ++ rest =
      'M' :: (x.repr.toList ++ ' ' :: (y.repr.toList ++ sides)) := by
    simp [squareText, sides]
  have hmove : readCommand ('M' :: (x.repr.toList ++ ' ' :: (y.repr.toList ++ sides))) =
      some (.moveTo x y, sides) := by
    have hspace : ∀ c ∈ (' ' :: (y.repr.toList ++ sides)).head?, c.isDigit = false := by
      intro c hc
      cases hc
      rfl
    have hside : ∀ c ∈ sides.head?, c.isDigit = false := by
      intro c hc
      cases hc
      rfl
    rw [readCommand, readInteger_repr x hspace, Option.bind_some]
    show ((Str.stripPrefix [' '] ([' '] ++ (y.repr.toList ++ sides))).bind _) = _
    rw [Str.stripPrefix_append, Option.bind_some, readInteger_repr y hside]
    rfl
  have hright : readCommand sides = some (.horizontal 1, sides.drop 2) := rfl
  have hdown : readCommand (sides.drop 2) = some (.vertical 1, sides.drop 4) := rfl
  have hleft : readCommand (sides.drop 4) = some (.horizontal (-1), sides.drop 7) := rfl
  have hclose : readCommand (sides.drop 7) = some (.close, rest) := rfl
  rw [htext, readCommands_step hmove, readCommands_step hright, readCommands_step hdown,
    readCommands_step hleft, readCommands_step hclose]
  cases readCommands fuel rest <;> rfl

theorem length_squares (squares : List (Nat × Nat)) :
    5 * squares.length ≤ (squares.flatMap fun p => squareText p.1 p.2).length := by
  induction squares with
  | nil => exact Nat.zero_le _
  | cons p squares ih =>
    have hsquare : 5 ≤ (squareText p.1 p.2).length := by
      have hsides : ("h1v1h-1z" : Str).length = 8 := rfl
      rw [squareText, List.length_append, hsides]
      omega
    rw [List.flatMap_cons, List.length_append, List.length_cons]
    omega

/-- A path of squares is read as them. -/
theorem readPath_squares (squares : List (Nat × Nat)) :
    readPath (squares.flatMap fun p => squareText p.1 p.2) =
      some (squares.flatMap fun p => square p.1 p.2) := by
  have hread : ∀ fuel, 5 * squares.length ≤ fuel →
      readCommands fuel (squares.flatMap fun p => squareText p.1 p.2) =
        some (squares.flatMap fun p => square p.1 p.2) := by
    induction squares with
    | nil =>
      intro fuel _
      cases fuel <;> rfl
    | cons p squares ih =>
      intro fuel hfuel
      rw [List.length_cons] at hfuel
      obtain ⟨more, rfl⟩ := Nat.exists_eq_add_of_le' (by omega : 5 ≤ fuel)
      rw [List.flatMap_cons, readCommands_square, ih more (by omega)]
      rfl
  exact hread _ (length_squares squares)

/-- The upright edges of a square, behind what closes the subpath before it: down on its right, and
up on its left. -/
theorem uprights_square (x y : Nat) (start : Int × Int) (commands : List PathCommand) :
    uprights start start (square x y ++ commands) = (uprights (x, y) (x, y) commands).map
      (⟨start.1, start.2, start.2⟩ :: ⟨x + 1, y, y + 1⟩ :: ⟨x, y + 1, y⟩ :: ·) := by
  have hopen : edge start start = some [⟨start.1, start.2, start.2⟩] := if_pos rfl
  have hleft : (x : Int) + 1 + -1 = x := by omega
  have hclose : edge ((x : Int), (y : Int) + 1) (x, y) = some [⟨x, y + 1, y⟩] := if_pos rfl
  simp only [square, List.cons_append, List.nil_append, uprights, hopen, hleft, hclose,
    Option.bind_some, Option.map_map]
  rfl

theorem winding_cons (edge : Upright) (edges : List Upright) (row column : Int) :
    winding (edge :: edges) row column = edge.turn row column + winding edges row column := by
  rw [winding, List.map_cons, List.sum_cons, winding]

/-- An edge that goes nowhere does not count. -/
theorem turn_empty (x y row column : Int) : Upright.turn ⟨x, y, y⟩ row column = 0 := by
  dsimp only [Upright.turn]
  split_ifs <;> omega

/-- The edges of a square wind once around its cell, and around no other. -/
theorem turn_square (x y row column : Int) :
    Upright.turn ⟨x + 1, y, y + 1⟩ row column + Upright.turn ⟨x, y + 1, y⟩ row column =
      if x = column ∧ y = row then 1 else 0 := by
  dsimp only [Upright.turn]
  split_ifs <;> omega

/-- Squares wind around a cell as often as it is among them. -/
theorem winding_squares (squares : List (Nat × Nat)) (start : Int × Int) :
    ∃ edges, uprights start start (squares.flatMap fun p => square p.1 p.2) = some edges ∧
      ∀ row column : Nat, winding edges row column = squares.count (column, row) := by
  induction squares generalizing start with
  | nil =>
    refine ⟨[⟨start.1, start.2, start.2⟩], if_pos rfl, fun row column => ?_⟩
    rw [winding_cons, turn_empty]
    rfl
  | cons p squares ih =>
    obtain ⟨edges, hedges, hwinding⟩ := ih ((p.1 : Int), (p.2 : Int))
    have hpath := uprights_square p.1 p.2 start (squares.flatMap fun p => square p.1 p.2)
    rw [hedges, Option.map_some] at hpath
    refine ⟨_, hpath, fun row column => ?_⟩
    rw [winding_cons, winding_cons, winding_cons, turn_empty, zero_add, ← add_assoc,
      turn_square p.1 p.2 row column, hwinding, List.count_cons, Int.natCast_add, add_comm]
    congr 1
    by_cases hp : p = (column, row)
    · simp [hp]
    · rw [if_neg, if_neg (by simpa using hp)]
      · rfl
      · intro hsame
        exact hp (Prod.ext (Int.ofNat.inj hsame.1) (Int.ofNat.inj hsame.2))

end Lib.Svg
