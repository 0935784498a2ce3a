import LeaveCli.Lib.QrCode
import LeaveCli.Web.Qr

/-!
# The codewords of a pairing code

`buildCodewords` gives blocks of the standard's lengths (`map_length_buildCodewords`) whose bits
begin with the segment (`bits_buildCodewords`), and `readData_interleave` deals the interleaved
codewords back to the blocks.
-/

namespace LeaveCli.Web.Qr

open Lib

/-! ## Tables -/

theorem forall_versions {P : Nat → Prop} [DecidablePred P]
    (h : ∀ version < 11, 1 ≤ version → P version) {version : Nat}
    (hversion : 1 ≤ version ∧ version ≤ 10) : P version :=
  h version (Nat.lt_succ_of_le hversion.2) hversion.1

/-- The lengths of the blocks of all groups. -/
def groupLengths (groups : List (Nat × Nat)) : List Nat :=
  groups.flatMap fun group => List.replicate group.1 group.2

theorem groupLengths_versions {version : Nat} (hversion : 1 ≤ version ∧ version ≤ 10) :
    groupLengths (versions version).groups = QrCode.blockLengths version :=
  forall_versions (P := fun version => groupLengths (versions version).groups =
    QrCode.blockLengths version) (by decide) hversion

theorem dataCodewords_eq {version : Nat} (hversion : 1 ≤ version ∧ version ≤ 10) :
    dataCodewords version = (QrCode.blockLengths version).sum :=
  forall_versions (P := fun version => dataCodewords version =
    (QrCode.blockLengths version).sum) (by decide) hversion

theorem le_longest {version : Nat} (hversion : 1 ≤ version ∧ version ≤ 10) :
    ∀ length ∈ QrCode.blockLengths version, length ≤ QrCode.longest version :=
  forall_versions (P := fun version => ∀ length ∈ QrCode.blockLengths version,
    length ≤ QrCode.longest version) (by decide) hversion

/-- The count of bytes has room in its bits. -/
theorem dataCodewords_lt {version : Nat} (hversion : 1 ≤ version ∧ version ≤ 10) :
    dataCodewords version < 2 ^ QrCode.countBits version :=
  forall_versions (P := fun version => dataCodewords version < 2 ^ QrCode.countBits version)
    (by decide) hversion

theorem countBits_eq (version : Nat) : countBits version = QrCode.countBits version := by
  rw [countBits, QrCode.countBits]
  exact if_congr Nat.lt_succ_iff rfl rfl

/-! ## Bits -/

theorem pushBits_eq (bits : List Bool) (value length : Nat) :
    pushBits bits value length = bits ++ toBits length value := by
  induction length generalizing bits with
  | zero => exact (List.append_nil bits).symm
  | succ length ih =>
    rw [pushBits, List.range_succ, List.reverse_append, List.reverse_singleton,
      List.singleton_append, List.foldl_cons, ← pushBits, ih, toBits, List.append_assoc,
      List.singleton_append]

theorem foldl_pushBits (data : Bytes) (bits : List Bool) :
    data.foldl (fun bits byte => pushBits bits byte.toNat 8) bits =
      bits ++ data.flatMap fun byte => toBits 8 byte.toNat := by
  induction data generalizing bits with
  | nil => exact (List.append_nil bits).symm
  | cons byte data ih =>
    rw [List.foldl_cons, ih, pushBits_eq, List.flatMap_cons, List.append_assoc]

/-- The bits of the segment. -/
def segment (version : Nat) (data : Bytes) : List Bool :=
  toBits 4 4 ++ toBits (countBits version) data.length ++
    data.flatMap fun byte => toBits 8 byte.toNat

theorem length_segment (version : Nat) (data : Bytes) :
    (segment version data).length = 4 + countBits version + data.length * 8 := by
  simp [segment, List.length_flatMap, Nat.add_assoc]

/-- The segment fits the version. -/
def Fits (version length : Nat) : Prop :=
  4 + countBits version + length * 8 ≤ dataCodewords version * 8

theorem contentBits_eq {version : Nat} {data : Bytes} (h : Fits version data.length) :
    ∃ n rest, contentBits version data = segment version data ++ rest ∧
      (contentBits version data).length = 8 * n ∧ n ≤ dataCodewords version := by
  have hlength := length_segment version data
  have hbits : data.foldl (fun bits byte => pushBits bits byte.toNat 8)
      (pushBits (pushBits [] modeByte 4) data.length (countBits version)) =
        segment version data := by
    rw [foldl_pushBits, pushBits_eq, pushBits_eq]
    rfl
  unfold Fits at h
  unfold contentBits
  simp only [hbits]
  set content := (segment version data).length with hcontent
  set capacity := dataCodewords version * 8 with hcapacity
  refine ⟨(content + min 4 (capacity - content) + 7) / 8, _, List.append_assoc _ _ _, ?_, ?_⟩
  · simp only [List.length_append, List.length_replicate, ← hcontent]
    omega
  · omega

/-! ## Codewords -/

theorem foldl_shift (bits : List Bool) :
    bits.foldl (fun value bit => value <<< 1 ||| bit.toNat) 0 = ofBits bits := by
  have hstep : (fun value (bit : Bool) => value <<< 1 ||| bit.toNat) =
      fun value bit => 2 * value + bit.toNat := by
    funext value bit
    have hlt : bit.toNat < 2 ^ 1 := Nat.lt_succ_of_le (Bool.toNat_le bit)
    rw [← Nat.shiftLeft_add_eq_or_of_lt hlt, Nat.shiftLeft_eq]
    omega
  rw [hstep, ofBits]

theorem packBits_eq {n : Nat} {bits : List Bool} (h : bits.length = 8 * n) :
    packBits bits = octets bits := by
  have hrounds : (bits.length + 7) / 8 = n := by omega
  rw [packBits, hrounds]
  simp only [foldl_shift]
  clear hrounds
  induction n generalizing bits with
  | zero =>
    obtain rfl := List.eq_nil_of_length_eq_zero h
    rfl
  | succ n ih =>
    obtain ⟨front, rest, rfl, hfront, hrest⟩ := exists_eight h
    rw [octets_append_eight hfront, ← ih hrest, List.range_succ_eq_map, List.map_cons, List.map_map,
      Nat.mul_zero, List.drop_zero, List.take_left' hfront]
    refine congrArg (_ :: ·) (List.map_congr_left fun index _ => ?_)
    have hdrop : (front ++ rest).drop (8 * (index + 1)) = rest.drop (8 * index) := by
      rw [Nat.mul_succ, Nat.add_comm, ← List.drop_drop, List.drop_left' hfront]
    show ofBits (((front ++ rest).drop (8 * (index + 1))).take 8) = _
    rw [hdrop]

theorem lt_of_mem_padCodewords {version : Nat} {codewords : List Nat}
    (h : ∀ codeword ∈ codewords, codeword < 256) :
    ∀ codeword ∈ padCodewords version codewords, codeword < 256 := by
  have hpad : ∀ index < 2, padBytes.getD index 0 < 256 := by decide
  intro codeword hmem
  rcases List.mem_append.1 hmem with hmem | hmem
  · exact h codeword hmem
  · obtain ⟨index, -, rfl⟩ := List.mem_map.1 hmem
    exact hpad (index % 2) (Nat.mod_lt index Nat.two_pos)

theorem length_padCodewords {version : Nat} {codewords : List Nat}
    (h : codewords.length ≤ dataCodewords version) :
    (padCodewords version codewords).length = dataCodewords version := by
  rw [padCodewords, List.length_append, List.length_map, List.length_range]
  omega

/-! ## Blocks -/

/-- One group of blocks. -/
theorem foldl_blocks (codewords : List Nat) (perBlock count : Nat)
    (state : List (List Nat) × Nat) :
    (List.range count).foldl (fun state _ =>
      (state.1 ++ [(codewords.drop state.2).take perBlock], state.2 + perBlock)) state =
    (state.1 ++ slices (List.replicate count perBlock) (codewords.drop state.2),
      state.2 + count * perBlock) := by
  induction count generalizing state with
  | zero => simp [slices]
  | succ count ih =>
    rw [List.range_succ_eq_map, List.foldl_cons, List.foldl_map]
    rw [ih (state.1 ++ [(codewords.drop state.2).take perBlock], state.2 + perBlock)]
    rw [List.replicate_succ, slices, List.drop_drop, List.append_assoc, Nat.succ_mul]
    rw [List.singleton_append, Nat.add_assoc, Nat.add_comm perBlock (count * perBlock)]

theorem foldl_groups (codewords : List Nat) (groups : List (Nat × Nat))
    (state : List (List Nat) × Nat) :
    (groups.foldl (fun state group =>
      (List.range group.1).foldl (fun state _ =>
        (state.1 ++ [(codewords.drop state.2).take group.2], state.2 + group.2)) state) state).1 =
    state.1 ++ slices (groupLengths groups) (codewords.drop state.2) := by
  induction groups generalizing state with
  | nil => simp [groupLengths, slices]
  | cons group groups ih =>
    have hsum : (List.replicate group.1 group.2).sum = group.1 * group.2 := List.sum_replicate_nat
    have hlengths : groupLengths (group :: groups) =
        List.replicate group.1 group.2 ++ groupLengths groups := List.flatMap_cons
    rw [List.foldl_cons, ih, foldl_blocks, hlengths, slices_append, List.append_assoc,
      List.drop_drop, hsum]

theorem splitBlocks_eq {version : Nat} (hversion : 1 ≤ version ∧ version ≤ 10)
    (codewords : List Nat) :
    splitBlocks version codewords = slices (QrCode.blockLengths version) codewords := by
  rw [splitBlocks, foldl_groups, groupLengths_versions hversion]
  rfl

/-- The codewords before they are cut into blocks. -/
def codewords (version : Nat) (data : Bytes) : List Nat :=
  padCodewords version (packBits (contentBits version data))

section

variable {version : Nat} {data : Bytes} (hversion : 1 ≤ version ∧ version ≤ 10)
  (hfits : Fits version data.length)

include hfits

theorem length_codewords : (codewords version data).length = dataCodewords version := by
  obtain ⟨n, -, -, hlength, hle⟩ := contentBits_eq hfits
  refine length_padCodewords ?_
  rw [packBits_eq hlength, length_octets hlength]
  exact hle

theorem lt_of_mem_codewords : ∀ codeword ∈ codewords version data, codeword < 256 := by
  obtain ⟨n, -, -, hlength, -⟩ := contentBits_eq hfits
  refine lt_of_mem_padCodewords fun codeword hmem => ?_
  rw [packBits_eq hlength] at hmem
  exact lt_of_mem_octets hmem

/-- The bits of the codewords are those of the segment, and others behind them. -/
theorem bits_codewords : ∃ rest,
    (codewords version data).flatMap (toBits 8) = segment version data ++ rest := by
  obtain ⟨n, more, hbits, hlength, -⟩ := contentBits_eq hfits
  rw [codewords, padCodewords, List.flatMap_append, packBits_eq hlength,
    flatMap_toBits_octets hlength, hbits]
  exact ⟨_, List.append_assoc _ _ _⟩

include hversion

theorem map_length_buildCodewords :
    (buildCodewords version data).map List.length = QrCode.blockLengths version := by
  rw [buildCodewords, splitBlocks_eq hversion]
  refine map_length_slices (Nat.le_of_eq ?_)
  rw [← dataCodewords_eq hversion]
  exact (length_codewords hfits).symm

theorem flatten_buildCodewords :
    (buildCodewords version data).flatten = codewords version data := by
  rw [buildCodewords, splitBlocks_eq hversion, flatten_slices, ← dataCodewords_eq hversion]
  exact List.take_of_length_le (Nat.le_of_eq (length_codewords hfits))

theorem length_le_longest :
    ∀ block ∈ buildCodewords version data, block.length ≤ QrCode.longest version := by
  intro block hblock
  refine le_longest hversion block.length ?_
  rw [← map_length_buildCodewords hversion hfits]
  exact List.mem_map_of_mem hblock

/-- The data codewords in the order of the symbol. -/
theorem interleave_eq : ∃ ecCodewords, interleave version (buildCodewords version data) =
    Lib.interleave (QrCode.longest version) (buildCodewords version data) ++ ecCodewords := by
  unfold interleave
  simp only [map_length_buildCodewords hversion hfits]
  exact ⟨_, rfl⟩

theorem lt_of_mem_interleave {codeword : Nat} (h : codeword ∈
    Lib.interleave (QrCode.longest version) (buildCodewords version data)) : codeword < 256 := by
  obtain ⟨block, hblock, hmem⟩ := exists_mem_of_mem_interleave h
  refine lt_of_mem_codewords hfits codeword ?_
  rw [← flatten_buildCodewords hversion hfits]
  exact List.mem_flatten_of_mem hblock hmem

theorem length_interleave_data :
    (Lib.interleave (QrCode.longest version) (buildCodewords version data)).length =
      (QrCode.blockLengths version).sum := by
  rw [length_interleave (length_le_longest hversion hfits),
    map_length_buildCodewords hversion hfits]

/-- Dealing the codewords to the blocks gives the segment. -/
theorem readSegment_readData (more : List Nat) :
    QrCode.readSegment version (QrCode.readData version
      (Lib.interleave (QrCode.longest version) (buildCodewords version data) ++ more)) =
        some data := by
  have hdeal := deinterleave_interleave (length_le_longest hversion hfits) more
  rw [map_length_buildCodewords hversion hfits] at hdeal
  obtain ⟨rest, hbits⟩ := bits_codewords hfits
  have hcount : data.length < 2 ^ QrCode.countBits version := by
    have hlt := dataCodewords_lt hversion
    unfold Fits at hfits
    omega
  rw [QrCode.readData, hdeal, flatten_buildCodewords hversion hfits, hbits, segment,
    countBits_eq]
  exact QrCode.readSegment_eq hcount rest

end

end LeaveCli.Web.Qr
