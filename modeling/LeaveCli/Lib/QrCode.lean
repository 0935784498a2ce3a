import LeaveCli.Lib.Bits
import LeaveCli.Lib.Grid
import LeaveCli.Lib.Interleave
import Mathlib.Data.List.Nodup

/-!
# Reading QR symbols

Symbols of versions 1 to 10 with one byte segment at error correction level M, as the standard lays
them out. `read` finds the mask in the format information, takes the mask off the modules that are
no function patterns, in zig-zag order, deals the codewords to the version's blocks and reads the
segment; error correction is not used. `read_eq` says what a symbol gives whose format information
and data modules are known.
-/

namespace Lib.QrCode

/-! ## The symbol -/

def side (version : Nat) : Nat := 17 + 4 * version

/-- The rows and columns of the centres of alignment patterns. -/
def centres : Nat → List Nat
  | 2 => [6, 18]
  | 3 => [6, 22]
  | 4 => [6, 26]
  | 5 => [6, 30]
  | 6 => [6, 34]
  | 7 => [6, 22, 38]
  | 8 => [6, 24, 42]
  | 9 => [6, 26, 46]
  | 10 => [6, 28, 50]
  | _ => []

/-- The data codewords of each block at level M. -/
def blockLengths : Nat → List Nat
  | 1 => [16]
  | 2 => [28]
  | 3 => [44]
  | 4 => [32, 32]
  | 5 => [43, 43]
  | 6 => [27, 27, 27, 27]
  | 7 => [31, 31, 31, 31]
  | 8 => [38, 38, 39, 39]
  | 9 => [36, 36, 36, 37, 37]
  | 10 => [43, 43, 43, 43, 44]
  | _ => []

def capacity (version : Nat) : Nat := 8 * (blockLengths version).sum

/-- The bits of the count of bytes. -/
def countBits (version : Nat) : Nat := if version ≤ 9 then 8 else 16

/-- The bits of a segment of so many bytes. -/
def segmentBits (version length : Nat) : Nat := 4 + countBits version + 8 * length

def within (top left rows columns : Nat) (p : Nat × Nat) : Bool :=
  Nat.ble top p.1 && Nat.blt p.1 (top + rows) && Nat.ble left p.2 && Nat.blt p.2 (left + columns)

/-- A finder pattern is there. -/
def isCorner (size row column : Nat) : Bool :=
  row.beq 6 && column.beq 6 || row.beq 6 && column.beq (size - 7) ||
    row.beq (size - 7) && column.beq 6

/-- The centres where alignment patterns are. -/
def alignmentPatterns (version : Nat) : List (Nat × Nat) :=
  (centres version ×ˢ centres version).filter fun centre =>
    !isCorner (side version) centre.1 centre.2

/-- The modules that hold no codewords. -/
def isFunction (version : Nat) (p : Nat × Nat) : Bool :=
  let size := side version
  -- the finder patterns with their separators, and the format information beside them
  within 0 0 9 9 p || within 0 (size - 8) 9 8 p || within (size - 8) 0 8 9 p ||
  -- the timing patterns
  p.1.beq 6 || p.2.beq 6 ||
  (alignmentPatterns version).any (fun centre => within (centre.1 - 2) (centre.2 - 2) 5 5 p) ||
  -- the version information
  Nat.ble 7 version && (within 0 (size - 11) 6 3 p || within (size - 11) 0 3 6 p)

/-- The modules that a mask turns over. -/
def masked (mask row column : Nat) : Bool :=
  match mask with
  | 0 => (row + column) % 2 = 0
  | 1 => row % 2 = 0
  | 2 => column % 3 = 0
  | 3 => (row + column) % 3 = 0
  | 4 => (row / 2 + column / 3) % 2 = 0
  | 5 => row * column % 2 + row * column % 3 = 0
  | 6 => (row * column % 2 + row * column % 3) % 2 = 0
  | _ => ((row + column) % 2 + row * column % 3) % 2 = 0

/-! ## The order of the modules -/

/-- Two columns at a time from the right, upwards and downwards in turn, the right module first;
the column of the vertical timing pattern is passed over. -/
def visit (size : Nat) (step : Nat × Nat × Nat) : Nat × Nat :=
  let column := size - 1 - 2 * step.1 - step.2.2
  (if step.1 % 2 = 0 then size - 1 - step.2.1 else step.2.1,
    if column ≤ 6 then column - 1 else column)

def zigzag (size : Nat) : List (Nat × Nat) :=
  (List.range ((size - 1) / 2) ×ˢ List.range size ×ˢ List.range 2).map (visit size)

def dataModules (version : Nat) : List (Nat × Nat) :=
  (zigzag (side version)).filter fun p => !isFunction version p

/-! ## Format information -/

/-- The remainder of a polynomial over two elements, so many degrees above that of the divisor. -/
def remainder (divisor degree : Nat) : Nat → Nat → Nat
  | 0, word => word
  | above + 1, word =>
    remainder divisor degree above
      (if word.testBit (degree + above) then word ^^^ (divisor <<< above) else word)

/-- The word of five bits of format information. -/
def formatWord (format : Nat) : Nat :=
  (format <<< 10 ^^^ remainder 0b10100110111 10 5 (format <<< 10)) ^^^ 0b101010000010010

/-- Where a bit of the word stands, beside the finder pattern at the top left. -/
def formatModule (index : Nat) : Nat × Nat :=
  if index ≤ 5 then (index, 8)
  else if index = 6 then (7, 8)
  else if index = 7 then (8, 8)
  else if index = 8 then (8, 7)
  else (8, 14 - index)

def isDark (modules : Grid Bool) (p : Nat × Nat) : Bool := (modules.cell p).getD false

/-- The mask of a symbol at level M. -/
def readMask (modules : Grid Bool) : Option Nat :=
  let word := ofBits ((List.range 15).map fun index => isDark modules (formatModule (14 - index)))
  ((List.range 32).find? (formatWord · = word)).bind fun format =>
    -- the level is in the two highest bits, and zero is M
    if format / 8 = 0 then some (format % 8) else none

/-! ## The content -/

def readModules (version mask : Nat) (modules : Grid Bool) : List Bool :=
  (dataModules version).map fun p => isDark modules p ^^ masked mask p.1 p.2

def longest (version : Nat) : Nat := (blockLengths version).foldl max 0

def readData (version : Nat) (codewords : List Nat) : List Bool :=
  ((deinterleave (longest version) (blockLengths version) codewords).flatten).flatMap (toBits 8)

/-- A segment in byte mode: the mode, the count and the bytes. -/
def readSegment (version : Nat) (bits : List Bool) : Option (List UInt8) :=
  let count := ofBits ((bits.drop 4).take (countBits version))
  let bytes := octets (bits.drop (4 + countBits version))
  if ofBits (bits.take 4) = 4 ∧ count ≤ bytes.length then
    some ((bytes.take count).map UInt8.ofNat)
  else none

def read (modules : Grid Bool) : Option (List UInt8) :=
  let version := (modules.length - 17) / 4
  if 1 ≤ version ∧ version ≤ 10 ∧ modules.length = side version then
    (readMask modules).bind fun mask =>
      readSegment version (readData version (octets (readModules version mask modules)))
  else none

/-! ## What is read -/

theorem readSegment_eq {version : Nat} {bytes : List UInt8}
    (h : bytes.length < 2 ^ countBits version) (rest : List Bool) :
    readSegment version (toBits 4 4 ++ toBits (countBits version) bytes.length ++
      bytes.flatMap (fun byte => toBits 8 byte.toNat) ++ rest) = some bytes := by
  have hbytes : bytes.flatMap (fun byte => toBits 8 byte.toNat) =
      (bytes.map UInt8.toNat).flatMap (toBits 8) := by rw [List.flatMap_map]
  have hlt : ∀ value ∈ bytes.map UInt8.toNat, value < 256 := by
    intro value hvalue
    obtain ⟨byte, -, rfl⟩ := List.mem_map.1 hvalue
    exact byte.toNat_lt
  rw [hbytes, List.append_assoc, List.append_assoc]
  set tail := (bytes.map UInt8.toNat).flatMap (toBits 8) ++ rest with htail
  have hmode : (toBits 4 4 ++ (toBits (countBits version) bytes.length ++ tail)).take 4 =
      toBits 4 4 := List.take_left' (length_toBits 4 4)
  have hmore : (toBits 4 4 ++ (toBits (countBits version) bytes.length ++ tail)).drop 4 =
      toBits (countBits version) bytes.length ++ tail := List.drop_left' (length_toBits 4 4)
  have hcount : ofBits (toBits 4 4) = 4 := by decide
  have hcontent : octets tail = bytes.map UInt8.toNat ++ octets rest := octets_toBits hlt rest
  rw [readSegment, ← List.drop_drop, hmode, hmore, List.take_left' (length_toBits _ _),
    List.drop_left' (length_toBits _ _), hcount, hcontent, ofBits_toBits h]
  rw [if_pos ⟨rfl, by simp⟩, List.take_left' (by simp), List.map_map]
  exact congrArg some
    ((List.map_congr_left fun byte _ => UInt8.ofNat_toNat).trans (List.map_id bytes))

theorem side_mod_two (version : Nat) : side version % 2 = 1 := by
  rw [side]
  omega

theorem mem_steps {size : Nat} {step : Nat × Nat × Nat} :
    step ∈ List.range ((size - 1) / 2) ×ˢ List.range size ×ˢ List.range 2 ↔
      step.1 < (size - 1) / 2 ∧ step.2.1 < size ∧ step.2.2 < 2 := by
  obtain ⟨lane, turn, right⟩ := step
  simp [List.mem_product]

theorem visit_lt {size : Nat} {step : Nat × Nat × Nat} (hturn : step.2.1 < size) :
    (visit size step).1 < size ∧ (visit size step).2 < size := by
  dsimp only [visit]
  constructor
  · split <;> omega
  · split <;> omega

theorem visit_injective {size : Nat} (hodd : size % 2 = 1) {step step' : Nat × Nat × Nat}
    (hlane : step.1 < (size - 1) / 2) (hturn : step.2.1 < size) (hright : step.2.2 < 2)
    (hlane' : step'.1 < (size - 1) / 2) (hturn' : step'.2.1 < size) (hright' : step'.2.2 < 2)
    (h : visit size step = visit size step') : step = step' := by
  obtain ⟨lane, turn, right⟩ := step
  obtain ⟨lane', turn', right'⟩ := step'
  obtain ⟨hrow, hcolumn⟩ := Prod.mk.inj h
  have hright : lane = lane' ∧ right = right' := by
    dsimp only at *
    split at hcolumn <;> split at hcolumn <;> omega
  obtain ⟨rfl, rfl⟩ := hright
  have hturn : turn = turn' := by
    dsimp only at *
    split at hrow <;> omega
  rw [hturn]

theorem nodup_zigzag {size : Nat} (hodd : size % 2 = 1) : (zigzag size).Nodup := by
  refine List.Nodup.map_on (fun step hstep step' hstep' => ?_)
    (List.nodup_range.product (List.nodup_range.product List.nodup_range))
  obtain ⟨hlane, hturn, hright⟩ := mem_steps.1 hstep
  obtain ⟨hlane', hturn', hright'⟩ := mem_steps.1 hstep'
  exact visit_injective hodd hlane hturn hright hlane' hturn' hright'

theorem lt_of_mem_zigzag {size : Nat} {p : Nat × Nat} (h : p ∈ zigzag size) :
    p.1 < size ∧ p.2 < size := by
  obtain ⟨step, hstep, rfl⟩ := List.mem_map.1 h
  exact visit_lt (mem_steps.1 hstep).2.1

theorem nodup_dataModules (version : Nat) : (dataModules version).Nodup :=
  (nodup_zigzag (side_mod_two version)).filter _

theorem lt_of_mem_dataModules {version : Nat} {p : Nat × Nat} (h : p ∈ dataModules version) :
    p.1 < side version ∧ p.2 < side version := lt_of_mem_zigzag (List.mem_of_mem_filter h)

/-! ## Room for data -/

/-- Every module outside the column of the timing pattern has its turn. -/
theorem mem_zigzag {size : Nat} (hodd : size % 2 = 1) (hsize : 7 ≤ size) {p : Nat × Nat}
    (hrow : p.1 < size) (hcolumn : p.2 < size) (htiming : p.2 ≠ 6) : p ∈ zigzag size := by
  obtain ⟨row, column⟩ := p
  dsimp only at hrow hcolumn htiming
  -- the column among those that are not passed over, from the right
  let place := size - 1 - if column < 6 then column + 1 else column
  refine List.mem_map.2 ⟨(place / 2, if place / 2 % 2 = 0 then size - 1 - row else row, place % 2),
    mem_steps.2 ⟨?_, ?_, Nat.mod_lt _ Nat.two_pos⟩, Prod.ext ?_ ?_⟩
  · dsimp only [place]
    split <;> omega
  · dsimp only
    split <;> omega
  · dsimp only [visit]
    split <;> omega
  · dsimp only [visit, place]
    split <;> split <;> omega

theorem length_le_of_subset {xs ys : List (Nat × Nat)} (hnodup : xs.Nodup) (h : xs ⊆ ys) :
    xs.length ≤ ys.length := (List.subperm_of_subset hnodup h).length_le

/-- Behind the finder patterns only alignment patterns are in the way of data. -/
theorem isFunction_inner {version : Nat} {p : Nat × Nat} (hrow : 9 ≤ p.1) (hcolumn : 9 ≤ p.2) :
    isFunction version p = (alignmentPatterns version).any fun centre =>
      within (centre.1 - 2) (centre.2 - 2) 5 5 p := by
  have hrows (top left rows columns : Nat) (h : top + rows ≤ 9) :
      within top left rows columns p = false := by
    rw [← Bool.not_eq_true]
    simp only [within, Bool.and_eq_true, Nat.ble_eq, Nat.blt_eq]
    omega
  have hcolumns (top left rows columns : Nat) (h : left + columns ≤ 9) :
      within top left rows columns p = false := by
    rw [← Bool.not_eq_true]
    simp only [within, Bool.and_eq_true, Nat.ble_eq, Nat.blt_eq]
    omega
  have htiming : p.1.beq 6 = false ∧ p.2.beq 6 = false := by
    rw [← Bool.not_eq_true, ← Bool.not_eq_true, Nat.beq_eq, Nat.beq_eq]
    omega
  simp only [isFunction, hrows 0 0 9 9 (by omega), hrows 0 _ 9 8 (by omega),
    hcolumns _ 0 8 9 (by omega), hrows 0 _ 6 3 (by omega), hcolumns _ 0 3 6 (by omega), htiming,
    Bool.false_or, Bool.or_false, Bool.and_false]

/-- The data has the square behind the finder patterns, but for the alignment patterns. -/
theorem length_dataModules (version : Nat) :
    (side version - 9) * (side version - 9) ≤
      (dataModules version).length + 25 * (alignmentPatterns version).length := by
  let inner := List.range' 9 (side version - 9) ×ˢ List.range' 9 (side version - 9)
  have hinner : inner.Nodup := List.Nodup.product List.nodup_range' List.nodup_range'
  have hmem {p : Nat × Nat} (hp : p ∈ inner) :
      (9 ≤ p.1 ∧ p.1 < side version) ∧ 9 ≤ p.2 ∧ p.2 < side version := by
    obtain ⟨row, column⟩ := p
    rw [List.mem_product, List.mem_range'_1, List.mem_range'_1] at hp
    dsimp only
    omega
  have hfree : (inner.filter fun p => !isFunction version p).length ≤
      (dataModules version).length := by
    refine length_le_of_subset (hinner.filter _) fun p hp => ?_
    obtain ⟨hp, hfunction⟩ := List.mem_filter.1 hp
    obtain ⟨⟨hrow, hrow'⟩, hcolumn, hcolumn'⟩ := hmem hp
    exact List.mem_filter.2
      ⟨mem_zigzag (side_mod_two version) (by rw [side]; omega) hrow' hcolumn' (by omega), hfunction⟩
  have hpatterns : (inner.filter (isFunction version)).length ≤
      ((alignmentPatterns version).flatMap fun centre =>
        List.range' (centre.1 - 2) 5 ×ˢ List.range' (centre.2 - 2) 5).length := by
    refine length_le_of_subset (hinner.filter _) fun p hp => ?_
    obtain ⟨hp, hfunction⟩ := List.mem_filter.1 hp
    obtain ⟨⟨hrow, -⟩, hcolumn, -⟩ := hmem hp
    rw [isFunction_inner hrow hcolumn] at hfunction
    obtain ⟨centre, hcentre, hwithin⟩ := List.any_eq_true.1 hfunction
    refine List.mem_flatMap.2 ⟨centre, hcentre, ?_⟩
    obtain ⟨row, column⟩ := p
    simp only [within, Bool.and_eq_true, Nat.ble_eq, Nat.blt_eq] at hwithin
    rw [List.mem_product, List.mem_range'_1, List.mem_range'_1]
    exact ⟨⟨hwithin.1.1.1, hwithin.1.1.2⟩, hwithin.1.2, hwithin.2⟩
  have hsum : ((alignmentPatterns version).flatMap fun centre =>
      List.range' (centre.1 - 2) 5 ×ˢ List.range' (centre.2 - 2) 5).length =
        25 * (alignmentPatterns version).length := by
    rw [List.length_flatMap]
    simp only [List.length_product, List.length_range', List.map_const', List.sum_replicate_nat]
    omega
  have hlength : inner.length = (side version - 9) * (side version - 9) := by
    rw [List.length_product, List.length_range']
  have hsplit : inner.length = (inner.filter (isFunction version)).length +
      (inner.filter fun p => !isFunction version p).length := by
    rw [List.length_eq_length_filter_add (isFunction version)]
  omega

/-! ## The symbol that is read -/

/-- Format information that says level M and a mask is read as that mask. -/
theorem readMask_eq {modules : Grid Bool} {mask : Nat} (hmask : mask < 8)
    (hformat : ∀ index < 15,
      modules.cell (formatModule index) = some ((formatWord mask).testBit index)) :
    readMask modules = some mask := by
  have hbits : ((List.range 15).map fun index => isDark modules (formatModule (14 - index))) =
      toBits 15 (formatWord mask) := by
    have htoBits : toBits 15 (formatWord mask) =
        (List.range 15).map fun index => (formatWord mask).testBit (14 - index) := rfl
    rw [htoBits]
    refine List.map_congr_left fun index hindex => ?_
    rw [isDark, hformat (14 - index) (by omega)]
    rfl
  have hfind : ∀ mask < 8, formatWord mask < 2 ^ 15 ∧
      (List.range 32).find? (formatWord · = formatWord mask) = some mask := by decide
  obtain ⟨hlt, hfound⟩ := hfind mask hmask
  rw [readMask, hbits, ofBits_toBits hlt, hfound]
  show (if mask / 8 = 0 then some (mask % 8) else none) = some mask
  rw [if_pos (by omega), Nat.mod_eq_of_lt hmask]

/-- What the data modules hold under the mask is what is read. -/
theorem readModules_eq {version mask : Nat} {modules : Grid Bool} {bit : Nat → Bool}
    (h : ∀ index p, (dataModules version)[index]? = some p →
      modules.cell p = some (bit index ^^ masked mask p.1 p.2)) :
    readModules version mask modules =
      (List.range (dataModules version).length).map bit := by
  refine List.ext_getElem? fun index => ?_
  rw [readModules, List.getElem?_map, List.getElem?_map]
  by_cases hindex : index < (dataModules version).length
  · have hp := List.getElem?_eq_getElem hindex
    rw [hp, List.getElem?_range hindex]
    show some (isDark modules _ ^^ _) = some (bit index)
    rw [isDark, h index _ hp, Option.getD_some, Bool.xor_assoc, Bool.xor_self, Bool.xor_false]
  · rw [List.getElem?_eq_none (by omega), List.getElem?_eq_none (by simpa using hindex)]
    rfl

theorem read_eq {version mask : Nat} {modules : Grid Bool} {bit : Nat → Bool}
    (hversion : 1 ≤ version ∧ version ≤ 10) (hsquare : modules.Square (side version))
    (hmask : mask < 8)
    (hformat : ∀ index < 15,
      modules.cell (formatModule index) = some ((formatWord mask).testBit index))
    (hdata : ∀ index p, (dataModules version)[index]? = some p →
      modules.cell p = some (bit index ^^ masked mask p.1 p.2)) :
    read modules = readSegment version (readData version
      (octets ((List.range (dataModules version).length).map bit))) := by
  have hlength := hsquare.length
  have hfound : (modules.length - 17) / 4 = version := by
    rw [hlength, side]
    omega
  rw [read, hfound, if_pos ⟨hversion.1, hversion.2, hlength⟩, readMask_eq hmask hformat,
    Option.bind_some, readModules_eq hdata]

end Lib.QrCode
