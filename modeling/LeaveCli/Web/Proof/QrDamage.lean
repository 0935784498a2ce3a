import LeaveCli.Lib.QrRepair
import LeaveCli.Web.Proof.Qr
import LeaveCli.Web.Proof.ReedSolomon

/-!
# Damaged pairing codes are read back

The data modules hold all codewords of a symbol (`readCodewords_candidate`), which are its blocks,
each with its parity (`blocks_candidate`), so that a reader that corrects errors gets the text back
as long as no block has more wrong codewords than half its check symbols (`encodeQr_damaged`), as
when so few modules are wrong (`mendable_of_wrong`).
-/

namespace LeaveCli.Web.Qr

open Lib

theorem checkSymbols_eq {version : Nat} (hversion : 1 ≤ version ∧ version ≤ 10) :
    (versions version).ecPerBlock = QrCode.checkSymbols version :=
  forall_versions (P := fun version =>
    (versions version).ecPerBlock = QrCode.checkSymbols version) (by decide) hversion

theorem block_room {version : Nat} (hversion : 1 ≤ version ∧ version ≤ 10) :
    QrCode.longest version + QrCode.checkSymbols version ≤ 255 :=
  forall_versions (P := fun version =>
    QrCode.longest version + QrCode.checkSymbols version ≤ 255) (by decide) hversion

section

variable {version : Nat} {data : Bytes} (hversion : 1 ≤ version ∧ version ≤ 10)
  (hfits : Fits version data.length)

include hversion hfits

/-- Parity is bytes, as many as there are check symbols. -/
theorem parity_buildCodewords : ∀ block ∈ buildCodewords version data,
    (reedSolomon block (versions version).ecPerBlock).length = QrCode.checkSymbols version ∧
      IsBytes (reedSolomon block (versions version).ecPerBlock) := by
  intro block hblock
  obtain ⟨hpos, hle⟩ := ecPerBlock_versions hversion
  obtain ⟨p, hp⟩ := (reedSolomon_divided (isBytes_buildCodewords hversion hfits block hblock) hpos
    (by omega)).holds
  exact ⟨hp.length_eq.trans (checkSymbols_eq hversion), hp.bytes⟩

/-- The codewords of a symbol are those of the blocks, then those of their parity. -/
theorem interleave_split : interleave version (buildCodewords version data) =
    Lib.interleave (QrCode.longest version) (buildCodewords version data) ++
      Lib.interleave (QrCode.checkSymbols version) ((buildCodewords version data).map fun block =>
        reedSolomon block (versions version).ecPerBlock) := by
  have hparity : ∀ word ∈ (buildCodewords version data).map fun block =>
      reedSolomon block (versions version).ecPerBlock,
        word.length = (versions version).ecPerBlock := by
    intro word hword
    obtain ⟨block, hblock, rfl⟩ := List.mem_map.1 hword
    rw [checkSymbols_eq hversion]
    exact (checkSymbols_eq hversion ▸ parity_buildCodewords hversion hfits block hblock).1
  rw [interleave_parity rfl hparity, map_length_buildCodewords hversion hfits,
    checkSymbols_eq hversion]
  rfl

theorem isBytes_interleave : IsBytes (interleave version (buildCodewords version data)) := by
  intro codeword hmem
  rw [interleave_split hversion hfits] at hmem
  rcases List.mem_append.1 hmem with hdata | hparity
  · exact lt_of_mem_interleave hversion hfits hdata
  · obtain ⟨word, hword, hmem⟩ := exists_mem_of_mem_interleave hparity
    obtain ⟨block, hblock, rfl⟩ := List.mem_map.1 hword
    exact (parity_buildCodewords hversion hfits block hblock).2 codeword hmem

theorem length_interleave_all : (interleave version (buildCodewords version data)).length =
    QrCode.codewordCount version := by
  set parity := (buildCodewords version data).map fun block =>
    reedSolomon block (versions version).ecPerBlock with hparity
  have hlengths : parity.map List.length = List.replicate (QrCode.blockLengths version).length
      (QrCode.checkSymbols version) := by
    rw [List.eq_replicate_iff, ← map_length_buildCodewords hversion hfits]
    refine ⟨by simp [hparity], fun n hn => ?_⟩
    obtain ⟨word, hword, rfl⟩ := List.mem_map.1 hn
    obtain ⟨block, hblock, rfl⟩ := List.mem_map.1 hword
    exact (parity_buildCodewords hversion hfits block hblock).1
  have hfull : ∀ word ∈ parity, word.length ≤ QrCode.checkSymbols version := by
    intro word hword
    have hmem := List.mem_map_of_mem (f := List.length) hword
    rw [hlengths] at hmem
    exact (List.eq_of_mem_replicate hmem).le
  rw [interleave_split hversion hfits, List.length_append, length_interleave_data hversion hfits,
    length_interleave hfull, hlengths, List.sum_replicate, QrCode.codewordCount, smul_eq_mul]

/-- The data modules of a symbol hold all its codewords. -/
theorem readCodewords_candidate {mask : Nat} (hmask : mask < 8) : ∃ rest,
    QrCode.readCodewords version mask (candidate version data mask) =
      interleave version (buildCodewords version data) ++ rest := by
  obtain ⟨-, -, hcells⟩ := candidate_cells hversion data hmask
  obtain ⟨spare, hspare⟩ := Nat.exists_eq_add_of_le (QrCode.full_room hversion)
  rw [← length_interleave_all hversion hfits] at hspare
  obtain ⟨rest, hbits⟩ :=
    map_codewordBit (interleave version (buildCodewords version data)) [] spare
  rw [List.append_nil] at hbits
  refine ⟨octets rest, ?_⟩
  rw [QrCode.readCodewords, QrCode.readModules_eq hcells, hspare, hbits,
    octets_toBits (isBytes_interleave hversion hfits)]

/-- Dealt out, they are the blocks with their parity. -/
theorem blocks_candidate (rest : List Nat) :
    QrCode.blocks version (interleave version (buildCodewords version data) ++ rest) =
      (buildCodewords version data).map fun block =>
        block ++ reedSolomon block (versions version).ecPerBlock := by
  have hwords := blockWords_interleave hversion (isBytes_buildCodewords hversion hfits)
  rw [map_length_buildCodewords hversion hfits, checkSymbols_eq hversion] at hwords
  rw [QrCode.blocks, List.take_left' (length_interleave_all hversion hfits),
    checkSymbols_eq hversion]
  exact hwords

theorem isBlock_candidate : ∀ word ∈ (buildCodewords version data).map fun block =>
    block ++ reedSolomon block (versions version).ecPerBlock, QrCode.IsBlock version word := by
  intro word hword
  obtain ⟨block, hblock, rfl⟩ := List.mem_map.1 hword
  obtain ⟨hpos, hle⟩ := ecPerBlock_versions hversion
  obtain ⟨hlength, hbytes⟩ := parity_buildCodewords hversion hfits block hblock
  have hblockBytes := isBytes_buildCodewords hversion hfits block hblock
  constructor
  · intro codeword hmem
    rcases List.mem_append.1 hmem with hdata | hparity
    · exact hblockBytes codeword hdata
    · exact hbytes codeword hparity
  · have hlong := length_le_longest hversion hfits block hblock
    have hroom := block_room hversion
    rw [List.length_append, hlength]
    omega
  · rw [← checkSymbols_eq hversion]
    exact reedSolomon_isCodeword hblockBytes hpos (by omega)

/-- The data of the blocks is the segment. -/
theorem readSegment_blocks : QrCode.readSegment version ((List.zipWith List.take
    (QrCode.blockLengths version) ((buildCodewords version data).map fun block =>
      block ++ reedSolomon block (versions version).ecPerBlock)).flatten.flatMap (toBits 8)) =
        some data := by
  have hread := readSegment_readData hversion hfits []
  have hdeal := deinterleave_interleave (length_le_longest hversion hfits) []
  rw [map_length_buildCodewords hversion hfits] at hdeal
  rw [QrCode.readData, hdeal] at hread
  rw [← map_length_buildCodewords hversion hfits, List.zipWith_map, List.zipWith_self]
  simp only [List.take_left, List.map_id']
  exact hread

/-- A candidate with up to three wrong modules of format information and with no more wrong
codewords in a block than half its check symbols is read as its data. -/
theorem readRepaired_candidate {mask : Nat} (hmask : mask < 8) {damaged : Grid Bool}
    (hside : damaged.length = QrCode.side version)
    (hformat : mismatches (QrCode.formatBits (candidate version data mask))
      (QrCode.formatBits damaged) ≤ 3)
    (herrors : ∀ count ∈ List.zipWith mismatches
      (QrCode.blocks version
        (QrCode.readCodewords version mask (candidate version data mask)))
      (QrCode.blocks version (QrCode.readCodewords version mask damaged)),
        2 * count ≤ QrCode.checkSymbols version) :
    QrCode.readRepaired damaged = some data := by
  obtain ⟨-, hcells, -⟩ := candidate_cells hversion data hmask
  obtain ⟨rest, hrest⟩ := readCodewords_candidate hversion hfits hmask
  have hlength := QrCode.blocks_lengths version
    (QrCode.length_readCodewords version mask (candidate version data mask) damaged)
  rw [QrCode.formatBits_eq hcells] at hformat
  rw [hrest, blocks_candidate hversion hfits] at hlength herrors
  rw [QrCode.readRepaired_eq orderOf_alpha hversion hside hmask hformat hlength
    (isBlock_candidate hversion hfits) herrors]
  exact readSegment_blocks hversion hfits

end

/-- Damage that error correction makes up for: up to three wrong modules of format information, and
in each block no more wrong codewords than half its check symbols. -/
structure Mendable (symbol : QrMatrix) (mask : Nat) (damaged : Grid Bool) : Prop where
  size : damaged.length = symbol.size
  format : mismatches (QrCode.formatBits symbol.modules) (QrCode.formatBits damaged) ≤ 3
  codewords : ∀ count ∈ List.zipWith mismatches
    (QrCode.blocks symbol.version (QrCode.readCodewords symbol.version mask symbol.modules))
    (QrCode.blocks symbol.version (QrCode.readCodewords symbol.version mask damaged)),
      2 * count ≤ QrCode.checkSymbols symbol.version

/-- Damage to a few modules is mendable: no more than half the check symbols of a block, and of the
format information up to three. -/
theorem mendable_of_wrong {symbol : QrMatrix} (mask : Nat) {damaged : Grid Bool}
    (hsize : damaged.length = symbol.size) (wrong : Finset (Nat × Nat))
    (hsame : ∀ p ∉ wrong, QrCode.isDark symbol.modules p = QrCode.isDark damaged p)
    (hformat : (wrong.filter (· ∈ QrCode.formatModules)).card ≤ 3)
    (hfew : 2 * wrong.card ≤ QrCode.checkSymbols symbol.version) :
    Mendable symbol mask damaged := by
  refine ⟨hsize, (QrCode.mismatches_formatBits_le wrong hsame).trans hformat,
    fun count hcount => ?_⟩
  have hblock := QrCode.mismatches_blocks_le symbol.version
    (QrCode.length_readCodewords symbol.version mask symbol.modules damaged) count hcount
  have hwords := QrCode.mismatches_readCodewords_le wrong hsame symbol.version mask
  omega

/-- The modules at these positions are turned over. -/
def turnedOver (modules : Grid Bool) (wrong : Finset (Nat × Nat)) : Grid Bool :=
  modules.mapIdx fun row cells => cells.mapIdx fun column dark =>
    dark ^^ decide ((row, column) ∈ wrong)

theorem cell_turnedOver (modules : Grid Bool) (wrong : Finset (Nat × Nat)) (p : Nat × Nat) :
    (turnedOver modules wrong).cell p = (modules.cell p).map (· ^^ decide (p ∈ wrong)) := by
  rw [Grid.cell, Grid.cell, turnedOver, List.getElem?_mapIdx, Option.bind_map, Option.map_bind]
  refine congrArg _ (funext fun cells => ?_)
  simp [List.getElem?_mapIdx]

/-- Whichever modules of a pairing code are wrong, a reader that corrects errors gets the text back
as long as the damage is mendable. -/
theorem encodeQr_damaged (text : Str) (hlength : (Str.utf8 text).length ≤ 213) :
    ∃ symbol mask, encodeQr text = .ok symbol ∧ QrCode.readMask symbol.modules = some mask ∧
      ∀ damaged, Mendable symbol mask damaged →
        QrCode.readRepaired damaged = some (Str.utf8 text) := by
  obtain ⟨version, mask, hversion, hfits, hmask, hsymbol⟩ := exists_candidate hlength
  obtain ⟨-, hcells, -⟩ := candidate_cells hversion (Str.utf8 text) hmask
  refine ⟨_, mask, hsymbol, QrCode.readMask_eq hmask hcells, fun damaged hdamaged => ?_⟩
  refine readRepaired_candidate hversion hfits hmask ?_ hdamaged.format hdamaged.codewords
  rw [hdamaged.size, QrCode.side, Nat.mul_comm]

/-- Two modules of the format information and three in the corner of the data are wrong. -/
theorem encodeQr_damaged_leave : ∃ symbol, encodeQr "leave" = .ok symbol ∧
    ∃ damaged, (∀ p ∈ [(0, 8), (8, 7), (20, 20), (20, 19), (19, 20)],
      ∃ dark, symbol.modules.cell p = some dark ∧ damaged.cell p = some !dark) ∧
        QrCode.readRepaired damaged = some (Str.utf8 "leave") := by
  have hlength : (Str.utf8 "leave").length ≤ 213 := by
    rw [Str.length_utf8_of_ascii (by decide)]
    decide
  obtain ⟨symbol, mask, hsymbol, -, hread⟩ := encodeQr_damaged "leave" hlength
  obtain ⟨version, drawn, hversion, -, hdrawn, hcandidate⟩ := exists_candidate hlength
  obtain ⟨hsquare, -⟩ := candidate_cells hversion (Str.utf8 "leave") hdrawn
  obtain rfl := Except.ok.inj (hsymbol.symm.trans hcandidate)
  have hcheck : 10 ≤ QrCode.checkSymbols version :=
    forall_versions (P := fun version => 10 ≤ QrCode.checkSymbols version) (by decide) hversion
  let wrong : Finset (Nat × Nat) := {(0, 8), (8, 7), (20, 20), (20, 19), (19, 20)}
  refine ⟨_, hsymbol, turnedOver (candidate version (Str.utf8 "leave") drawn) wrong,
    fun p hp => ?_, hread _ (mendable_of_wrong mask ?_ wrong (fun p hp => ?_) (by decide) ?_)⟩
  · have hmem : p ∈ wrong := by simpa [wrong] using hp
    have hinside : ∀ p ∈ wrong, p.1 ≤ 20 ∧ p.2 ≤ 20 := by decide
    have hside : 21 ≤ QrCode.side version := by
      rw [QrCode.side]
      omega
    obtain ⟨hrow, hcolumn⟩ := hinside p hmem
    obtain ⟨dark, hdark⟩ := Option.isSome_iff_exists.1
      ((Grid.isSome_cell_iff hsquare p).2 ⟨by omega, by omega⟩)
    refine ⟨dark, hdark, ?_⟩
    rw [cell_turnedOver, hdark, decide_eq_true hmem]
    simp
  · rw [turnedOver, List.length_mapIdx, hsquare.length, QrCode.side, Nat.mul_comm]
  · rw [QrCode.isDark, QrCode.isDark, cell_turnedOver, decide_eq_false hp]
    simp
  · show 2 * 5 ≤ _
    exact hcheck

end LeaveCli.Web.Qr
