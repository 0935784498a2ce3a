import LeaveCli.Lib.Grid
import LeaveCli.Lib.Svg
import LeaveCli.Lib.Text

/-!
# The pairing code (`apps/web/src/lib/qr.ts`, `apps/web/src/components/qr-code.tsx`)

`encodeQr` draws a text as a QR symbol: byte mode, error correction level M, versions 1 to 10. Bits
are `Bool`, a symbol is a grid of dark modules, and a loop over two indices runs over their product.
`qrCode` is the drawing the component shows.
-/

namespace LeaveCli.Web.Qr

open Lib

def modeByte : Nat := 0b0100

def padBytes : List Nat := [0xec, 0x11]

structure VersionSpec where
  /-- Error correction codewords per block. -/
  ecPerBlock : Nat
  /-- `[blockCount, dataCodewordsPerBlock]` for each block group. -/
  groups : List (Nat × Nat)
  /-- Row and column centres of the alignment patterns. -/
  alignment : List Nat

/-- Level M block structure; there is no other version. -/
def versions : Nat → VersionSpec
  | 1 => ⟨10, [(1, 16)], []⟩
  | 2 => ⟨16, [(1, 28)], [6, 18]⟩
  | 3 => ⟨26, [(1, 44)], [6, 22]⟩
  | 4 => ⟨18, [(2, 32)], [6, 26]⟩
  | 5 => ⟨24, [(2, 43)], [6, 30]⟩
  | 6 => ⟨16, [(4, 27)], [6, 34]⟩
  | 7 => ⟨18, [(4, 31)], [6, 22, 38]⟩
  | 8 => ⟨22, [(2, 38), (2, 39)], [6, 24, 42]⟩
  | 9 => ⟨22, [(3, 36), (2, 37)], [6, 26, 46]⟩
  | 10 => ⟨26, [(4, 43), (1, 44)], [6, 28, 50]⟩
  | _ => ⟨0, [], []⟩

def minVersion : Nat := 1

def maxVersion : Nat := 10

structure QrMatrix where
  size : Nat
  modules : Grid Bool
  version : Nat

/-- What `encodeQr` throws, with the message. -/
inductive QrError
  | capacity (message : Str)
  | noCandidate (message : Str)
  deriving DecidableEq

def qrCapacityError (length : Nat) : QrError :=
  .capacity ((toString length).toList ++ (" bytes exceed the supported QR capacity" : Str))

/-- `matrix[row][column]`. -/
def isDark (matrix : Grid Bool) (row column : Nat) : Bool := (matrix.cell (row, column)).getD false

/-! ## Codewords -/

def dataCodewords (version : Nat) : Nat :=
  (versions version).groups.foldl (fun total group => total + group.1 * group.2) 0

def countBits (version : Nat) : Nat := if version < 10 then 8 else 16

def chooseVersion (byteLength : Nat) : Except QrError Nat :=
  let fits (version : Nat) : Bool :=
    4 + countBits version + byteLength * 8 ≤ dataCodewords version * 8
  match (List.range' minVersion (maxVersion + 1 - minVersion)).find? fits with
  | some version => .ok version
  | none => .error (qrCapacityError byteLength)

def pushBits (bits : List Bool) (value length : Nat) : List Bool :=
  (List.range length).reverse.foldl (fun bits index => bits ++ [value.testBit index]) bits

/-- `bits` of `buildCodewords`: mode, count and bytes, up to four more and then to a whole byte. -/
def contentBits (version : Nat) (data : Bytes) : List Bool :=
  let bits := pushBits [] modeByte 4
  let bits := pushBits bits data.length (countBits version)
  let bits := data.foldl (fun bits byte => pushBits bits byte.toNat 8) bits
  let capacity := dataCodewords version * 8
  let bits := bits ++ List.replicate (min 4 (capacity - bits.length)) false
  bits ++ List.replicate ((8 - bits.length % 8) % 8) false

/-- `codewords` of `buildCodewords`, without the padding. -/
def packBits (bits : List Bool) : List Nat :=
  (List.range ((bits.length + 7) / 8)).map fun index =>
    ((bits.drop (8 * index)).take 8).foldl (fun value bit => value <<< 1 ||| bit.toNat) 0

def padCodewords (version : Nat) (codewords : List Nat) : List Nat :=
  codewords ++ (List.range (dataCodewords version - codewords.length)).map fun index =>
    padBytes.getD (index % padBytes.length) 0

/-- `blocks` of `buildCodewords`: slices of the codewords, one behind the other. -/
def splitBlocks (version : Nat) (codewords : List Nat) : List (List Nat) :=
  ((versions version).groups.foldl (fun state group =>
    (List.range group.1).foldl (fun state _ =>
      (state.1 ++ [(codewords.drop state.2).take group.2], state.2 + group.2)) state)
    (([], 0) : List (List Nat) × Nat)).1

def buildCodewords (version : Nat) (data : Bytes) : List (List Nat) :=
  splitBlocks version (padCodewords version (packBits (contentBits version data)))

/-! ## Error correction -/

/-- `EXP` below 255, `LOG`, and the value of the loop that fills them. -/
def fieldTables : List Nat × List Nat × Nat :=
  (List.range 255).foldl (fun (exp, log, value) index =>
    let next := value <<< 1
    (exp.set index value, log.set value index, if next &&& 0x100 ≠ 0 then next ^^^ 0x11d else next))
    (List.replicate 512 0, List.replicate 256 0, 1)

def exp : List Nat :=
  (List.range' 255 (512 - 255)).foldl (fun exp index => exp.set index (exp.getD (index - 255) 0))
    fieldTables.1

def log : List Nat := fieldTables.2.1

def multiply (left right : Nat) : Nat :=
  if left = 0 ∨ right = 0 then 0 else exp.getD (log.getD left 0 + log.getD right 0) 0

/-- `generator` of `reedSolomon`. -/
def generator (ecLength : Nat) : List Nat :=
  (List.range ecLength).foldl (fun generator index =>
    (List.range generator.length).foldl (fun next position =>
      (next.modify position (· ^^^ generator.getD position 0)).modify (position + 1)
        (· ^^^ multiply (generator.getD position 0) (exp.getD index 0)))
      (List.replicate (generator.length + 1) 0)) [1]

def reedSolomon (data : List Nat) (ecLength : Nat) : List Nat :=
  let generator := generator ecLength
  data.foldl (fun remainder byte =>
    let factor := byte ^^^ remainder.getD 0 0
    (List.range ecLength).foldl (fun remainder index =>
      remainder.modify index (· ^^^ multiply (generator.getD (index + 1) 0) factor))
      (remainder.tail ++ [0])) (List.replicate ecLength 0)

def interleave (version : Nat) (blocks : List (List Nat)) : List Nat :=
  let ecPerBlock := (versions version).ecPerBlock
  let ecBlocks := blocks.map fun block => reedSolomon block ecPerBlock
  let longestData := (blocks.map List.length).foldl max 0
  ((List.range longestData).flatMap fun index => blocks.filterMap (·[index]?)) ++
    (List.range ecPerBlock).flatMap fun index => ecBlocks.map (·.getD index 0)

/-! ## Function patterns -/

def drawFinder (matrix : Grid Bool) (top left : Nat) : Grid Bool :=
  (List.range 7 ×ˢ List.range 7).foldl (fun matrix (row, column) =>
    let edge := row = 0 ∨ row = 6 ∨ column = 0 ∨ column = 6
    let core := row ≥ 2 ∧ row ≤ 4 ∧ column ≥ 2 ∧ column ≤ 4
    matrix.write (top + row, left + column) (edge ∨ core)) matrix

def drawAlignment (matrix : Grid Bool) (centreRow centreColumn : Nat) : Grid Bool :=
  let offsets : List Int := [-2, -1, 0, 1, 2]
  (offsets ×ˢ offsets).foldl (fun matrix (row, column) =>
    let ring := max row.natAbs column.natAbs
    matrix.write ((centreRow + row).toNat, (centreColumn + column).toNat) (ring ≠ 1)) matrix

/-- Alignment centres overlapping a finder pattern are not drawn. -/
def skipAlignment (row column size : Nat) : Bool :=
  (row ≤ 8 && column ≤ 8) || (row ≤ 8 && column ≥ size - 9) || (row ≥ size - 9 && column ≤ 8)

/-- Version information bits for versions 7 and above. -/
def versionBits (version : Nat) : Nat :=
  let remainder := (List.range 12).foldl (fun remainder _ =>
    let next := remainder <<< 1
    if next &&& 0b1000000000000 ≠ 0 then next ^^^ 0b1111100100101 else next) version
  version <<< 12 ||| remainder

def drawVersionInfo (matrix : Grid Bool) (version size : Nat) : Grid Bool :=
  let bits := versionBits version
  (List.range 18).foldl (fun matrix index =>
    let dark := bits.testBit index
    let row := index / 3
    let column := index % 3
    (matrix.write (row, size - 11 + column) dark).write (size - 11 + column, row) dark) matrix

/-- The centres for which both loops over `alignment` draw a pattern. -/
def alignmentCentres (version size : Nat) : List (Nat × Nat) :=
  let alignment := (versions version).alignment
  (alignment ×ˢ alignment).filter fun (row, column) => !skipAlignment row column size

def functionPatterns (version size : Nat) : Grid Bool :=
  let matrix := Grid.blank size false
  let matrix := [(0, 0), (0, size - 7), (size - 7, 0)].foldl (fun matrix (row, column) =>
    drawFinder matrix row column) matrix
  let matrix := (List.range' 8 (size - 8 - 8)).foldl (fun matrix index =>
    let dark := index % 2 = 0
    (matrix.write (6, index) dark).write (index, 6) dark) matrix
  let matrix := (alignmentCentres version size).foldl (fun matrix (row, column) =>
    drawAlignment matrix row column) matrix
  let matrix := matrix.write (size - 8, 8) true
  if version ≥ 7 then drawVersionInfo matrix version size else matrix

def reserveBlock (size : Nat) (reserved : Grid Bool) (top left rows columns : Nat) : Grid Bool :=
  (List.range' top rows ×ˢ List.range' left columns).foldl (fun reserved (row, column) =>
    if row < size ∧ column < size then reserved.write (row, column) true else reserved) reserved

def reservedMatrix (version size : Nat) : Grid Bool :=
  let reserved := Grid.blank size false
  let reserved := reserveBlock size reserved 0 0 9 9
  let reserved := reserveBlock size reserved 0 (size - 8) 9 8
  let reserved := reserveBlock size reserved (size - 8) 0 8 9
  let reserved := (List.range size).foldl (fun reserved index =>
    (reserved.write (6, index) true).write (index, 6) true) reserved
  let reserved := (alignmentCentres version size).foldl (fun reserved (row, column) =>
    reserveBlock size reserved (row - 2) (column - 2) 5 5) reserved
  if version ≥ 7 then
    reserveBlock size (reserveBlock size reserved 0 (size - 11) 6 3) (size - 11) 0 3 6
  else reserved

/-! ## Data and mask -/

def maskAt (mask row column : Nat) : Bool :=
  match mask with
  | 0 => (row + column) % 2 = 0
  | 1 => row % 2 = 0
  | 2 => column % 3 = 0
  | 3 => (row + column) % 3 = 0
  | 4 => (row / 2 + column / 3) % 2 = 0
  | 5 => row * column % 2 + row * column % 3 = 0
  | 6 => (row * column % 2 + row * column % 3) % 2 = 0
  | _ => ((row + column) % 2 + row * column % 3) % 2 = 0

/-- The columns that the loop of `placeData` goes through, and whether upward. The loop ends when
`right` falls below 1, which it does within `size` rounds. -/
def columnPairs : Nat → Nat → Bool → List (Nat × Bool)
  | 0, _, _ => []
  | rounds + 1, right, upward =>
    if right ≥ 1 then
      -- column 6 carries the vertical timing pattern, so the pair shifts left
      let column := if right = 6 then 5 else right
      (column, upward) :: columnPairs rounds (column - 2) !upward
    else []

/-- The modules in the order of the loops. -/
def dataOrder (size : Nat) : List (Nat × Nat) :=
  (columnPairs size (size - 1) true).flatMap fun (column, upward) =>
    (List.range size).flatMap fun step =>
      [0, 1].map fun offset => (if upward then size - 1 - step else step, column - offset)

/-- `bit` of `placeData`: zero behind the last codeword. -/
def codewordBit (codewords : List Nat) (bitIndex : Nat) : Bool :=
  match codewords[bitIndex >>> 3]? with
  | none => false
  | some byte => byte.testBit (7 - (bitIndex &&& 7))

def placeData (matrix reserved : Grid Bool) (codewords : List Nat) (mask : Nat) : Grid Bool :=
  ((dataOrder matrix.length).foldl (fun (matrix, bitIndex) (row, target) =>
    if isDark reserved row target then (matrix, bitIndex)
    else
      (matrix.write (row, target) (codewordBit codewords bitIndex != maskAt mask row target),
        bitIndex + 1)) (matrix, 0)).1

/-! ## Format information -/

def formatBits (mask : Nat) : Nat :=
  let data := (0b00 <<< 3) ||| mask
  let remainder := (List.range 10).foldl (fun remainder _ =>
    let next := remainder <<< 1
    if next &&& 0b10000000000 ≠ 0 then next ^^^ 0b10100110111 else next) data
  (data <<< 10 ||| remainder) ^^^ 0b101010000010010

def placeFormat (matrix : Grid Bool) (mask : Nat) : Grid Bool :=
  let size := matrix.length
  let bits := formatBits mask
  let dark (index : Nat) : Bool := bits.testBit index
  let matrix := (List.range 6).foldl (fun matrix index =>
    matrix.write (index, 8) (dark index)) matrix
  let matrix := matrix.write (7, 8) (dark 6)
  let matrix := matrix.write (8, 8) (dark 7)
  let matrix := matrix.write (8, 7) (dark 8)
  let matrix := (List.range' 9 (15 - 9)).foldl (fun matrix index =>
    matrix.write (8, 14 - index) (dark index)) matrix
  let matrix := (List.range 8).foldl (fun matrix index =>
    matrix.write (8, size - 1 - index) (dark index)) matrix
  let matrix := (List.range' 8 (15 - 8)).foldl (fun matrix index =>
    matrix.write (size - 15 + index, 8) (dark index)) matrix
  matrix.write (size - 8, 8) true

/-! ## Choosing a mask -/

/-- The penalty when a run of one colour has become that long. -/
def runPenalty (run : Nat) : Nat := if run = 5 then 3 else if run > 5 then 1 else 0

/-- The first loop of `score`. -/
def scoreRuns (matrix : Grid Bool) : Nat :=
  let size := matrix.length
  (List.range size).foldl (fun penalty row =>
    ((List.range' 1 (size - 1)).foldl (fun (penalty, horizontal, vertical) index =>
      let horizontal :=
        if isDark matrix row index = isDark matrix row (index - 1) then horizontal + 1 else 1
      let vertical :=
        if isDark matrix index row = isDark matrix (index - 1) row then vertical + 1 else 1
      (penalty + runPenalty horizontal + runPenalty vertical, horizontal, vertical))
      (penalty, 1, 1)).1) 0

/-- The second loop: squares of one colour. -/
def scoreSquares (matrix : Grid Bool) : Nat :=
  let size := matrix.length
  (List.range (size - 1) ×ˢ List.range (size - 1)).foldl (fun penalty (row, column) =>
    let value := isDark matrix row column
    if value = isDark matrix row (column + 1) ∧ value = isDark matrix (row + 1) column ∧
        value = isDark matrix (row + 1) (column + 1) then
      penalty + 3
    else penalty) 0

def finderRatio : List Bool := [true, false, true, true, true, false, true]

def light : List Bool := [false, false, false, false]

/-- `matches`. -/
def matchesAt (values : List Bool) (start : Nat) (expected : List Bool) : Bool :=
  expected.zipIdx.all fun (bit, offset) => values[start + offset]? == some bit

/-- The third loop: what looks like a finder pattern, in rows and columns. -/
def scoreFinders (matrix : Grid Bool) : Nat :=
  let size := matrix.length
  (List.range size).foldl (fun penalty index =>
    let rowValues := (matrix[index]?).getD []
    let columnValues := matrix.map fun row => (row[index]?).getD false
    [rowValues, columnValues].foldl (fun penalty values =>
      (List.range (size + 1 - 7)).foldl (fun penalty start =>
        if !matchesAt values start finderRatio then penalty
        else
          let before := start ≥ 4 && matchesAt values (start - 4) light
          let after := start + 11 ≤ size && matchesAt values (start + 7) light
          if before || after then penalty + 40 else penalty) penalty) penalty) 0

/-- The distance from half the modules being dark, in steps of five percent. The source computes it
in floating point; no two quotients of numbers this small are so close that it would round to
another step. -/
def scoreBalance (matrix : Grid Bool) : Nat :=
  let size := matrix.length
  let dark := matrix.flatten.countP id
  ((dark * 100 : Int) - 50 * (size * size)).natAbs / (5 * (size * size)) * 10

def score (matrix : Grid Bool) : Nat :=
  scoreRuns matrix + scoreSquares matrix + scoreFinders matrix + scoreBalance matrix

/-- The symbol under one mask. -/
def candidate (version : Nat) (data : Bytes) (mask : Nat) : Grid Bool :=
  let codewords := interleave version (buildCodewords version data)
  let size := 17 + version * 4
  let reserved := reservedMatrix version size
  let base := functionPatterns version size
  placeFormat (placeData base reserved codewords mask) mask

/-- `best` of `encodeQr`, with its penalty: the first of the lowest. -/
def bestCandidate (version : Nat) (data : Bytes) : Option (Grid Bool × Nat) :=
  (List.range 8).foldl (fun best mask =>
    let matrix := candidate version data mask
    let penalty := score matrix
    match best with
    | none => some (matrix, penalty)
    | some best => if penalty < best.2 then some (matrix, penalty) else some best) none

def encodeQr (text : Str) : Except QrError QrMatrix := do
  let data := Str.utf8 text
  let version ← chooseVersion data.length
  match bestCandidate version data with
  | none => .error (.noCandidate "QR mask selection produced no candidate")
  | some best => pure { size := 17 + version * 4, modules := best.1, version }

/-! ## Rendering -/

/-- A path covering every dark module. -/
def qrToSvgPath (matrix : QrMatrix) (quietZone : Nat) : Str :=
  ((List.range matrix.size ×ˢ List.range matrix.size).filter fun (row, column) =>
    isDark matrix.modules row column).flatMap fun (row, column) =>
      ("M" : Str) ++ (column + quietZone).repr.toList ++ (" " : Str) ++
        (row + quietZone).repr.toList ++ ("h1v1h-1z" : Str)

/-- Side length in modules once the quiet zone is included. -/
def qrViewBoxSize (matrix : QrMatrix) (quietZone : Nat) : Nat := matrix.size + quietZone * 2

/-- The default of both. -/
def defaultQuietZone : Nat := 4

/-- The component `QrCode`; without a drawing it says that the address is too long. -/
def qrCode (value : Str) : Option Svg.Drawing :=
  match encodeQr value with
  | .error _ => none
  | .ok matrix =>
    let extent := (qrViewBoxSize matrix defaultQuietZone).repr.toList
    some {
      viewBox := ("0 0 " : Str) ++ extent ++ (" " : Str) ++ extent
      shapes := [.rect extent extent "#ffffff",
        .path (qrToSvgPath matrix defaultQuietZone) "#000000"] }

end LeaveCli.Web.Qr
