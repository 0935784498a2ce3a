import LeaveCli.Web.Proof.QrLayout

/-!
# Pairing codes are read back

The bits in the data modules begin with the codewords (`map_codewordBit`), and every version has
room for them (`room`), so a symbol under any mask reads as its data (`read_candidate`).
`encodeQr` returns one of these, at the first version that fits.
-/

namespace LeaveCli.Web.Qr

open Lib

/-! ## Every symbol is read -/

theorem codewordBit_add (codeword : Nat) (codewords : List Nat) (bitIndex : Nat) :
    codewordBit (codeword :: codewords) (8 + bitIndex) = codewordBit codewords bitIndex := by
  have hindex : (8 + bitIndex) >>> 3 = bitIndex >>> 3 + 1 := by
    rw [Nat.shiftRight_eq_div_pow, Nat.shiftRight_eq_div_pow]
    omega
  have hbit : (8 + bitIndex) &&& 7 = bitIndex &&& 7 := by
    rw [Nat.and_two_pow_sub_one_eq_mod _ 3, Nat.and_two_pow_sub_one_eq_mod _ 3]
    omega
  rw [codewordBit, codewordBit, hindex, hbit, List.getElem?_cons_succ]

/-- The first bits are those of the codewords, each from its highest. -/
theorem map_codewordBit (codewords more : List Nat) (spare : Nat) :
    ∃ rest, (List.range (8 * codewords.length + spare)).map (codewordBit (codewords ++ more)) =
      codewords.flatMap (toBits 8) ++ rest := by
  induction codewords with
  | nil => exact ⟨_, rfl⟩
  | cons codeword codewords ih =>
    obtain ⟨rest, hrest⟩ := ih
    have hfirst : (List.range 8).map (codewordBit (codeword :: (codewords ++ more))) =
        toBits 8 codeword := rfl
    have hlength : 8 * (codeword :: codewords).length + spare =
        8 + (8 * codewords.length + spare) := by
      rw [List.length_cons]
      omega
    refine ⟨rest, ?_⟩
    rw [hlength, List.range_add, List.map_append, List.cons_append, hfirst, List.map_map,
      List.flatMap_cons, List.append_assoc, ← hrest]
    exact congrArg _ (List.map_congr_left fun index _ => codewordBit_add _ _ index)

/-- The data modules of a version hold its data codewords. -/
theorem room {version : Nat} (hversion : 1 ≤ version ∧ version ≤ 10) :
    8 * (QrCode.blockLengths version).sum ≤ (QrCode.dataModules version).length := by
  have htable := forall_versions (P := fun version =>
    8 * (QrCode.blockLengths version).sum + 25 * (QrCode.alignmentPatterns version).length ≤
      (QrCode.side version - 9) * (QrCode.side version - 9)) (by decide) hversion
  have hinner := QrCode.length_dataModules version
  omega

theorem read_candidate {version : Nat} (hversion : 1 ≤ version ∧ version ≤ 10) {data : Bytes}
    (hfits : Fits version data.length) {mask : Nat} (hmask : mask < 8) :
    QrCode.read (candidate version data mask) = some data := by
  obtain ⟨hsquare, hformat, hdata⟩ := candidate_cells hversion data hmask
  obtain ⟨ecCodewords, hcodewords⟩ := interleave_eq hversion hfits
  obtain ⟨spare, hspare⟩ := Nat.exists_eq_add_of_le (room hversion)
  rw [← length_interleave_data hversion hfits] at hspare
  obtain ⟨rest, hbits⟩ := map_codewordBit
    (Lib.interleave (QrCode.longest version) (buildCodewords version data)) ecCodewords spare
  rw [QrCode.read_eq hversion hsquare hmask hformat hdata, hspare, hcodewords, hbits,
    octets_toBits fun codeword => lt_of_mem_interleave hversion hfits]
  exact readSegment_readData hversion hfits (octets rest)

/-! ## The choice of version and mask -/

/-- The best symbol so far is one of the candidates. -/
def IsCandidate (version : Nat) (data : Bytes) (best : Option (Grid Bool × Nat)) : Prop :=
  ∃ mask penalty, mask < 8 ∧ best = some (candidate version data mask, penalty)

theorem foldl_best {version : Nat} {data : Bytes} {masks : List Nat}
    (hmasks : ∀ mask ∈ masks, mask < 8) {best : Option (Grid Bool × Nat)}
    (hbest : IsCandidate version data best) :
    IsCandidate version data (masks.foldl (fun best mask =>
      let matrix := candidate version data mask
      let penalty := score matrix
      match best with
      | none => some (matrix, penalty)
      | some best => if penalty < best.2 then some (matrix, penalty) else some best) best) := by
  induction masks generalizing best with
  | nil => exact hbest
  | cons mask masks ih =>
    obtain ⟨hmask, hmasks⟩ := List.forall_mem_cons.1 hmasks
    rw [List.foldl_cons]
    refine ih hmasks ?_
    obtain ⟨found, penalty, hfound, rfl⟩ := hbest
    dsimp only
    split
    · exact ⟨mask, _, hmask, rfl⟩
    · exact ⟨found, penalty, hfound, rfl⟩

theorem bestCandidate_eq (version : Nat) (data : Bytes) :
    IsCandidate version data (bestCandidate version data) := by
  have hmasks : ∀ mask ∈ [1, 2, 3, 4, 5, 6, 7], mask < 8 := by decide
  exact foldl_best hmasks ⟨0, _, by decide, rfl⟩

theorem fits_iff {version : Nat} (hversion : 1 ≤ version ∧ version ≤ 10) (byteLength : Nat) :
    Fits version byteLength ↔
      QrCode.segmentBits version byteLength ≤ QrCode.capacity version := by
  rw [Fits, QrCode.segmentBits, QrCode.capacity, countBits_eq, dataCodewords_eq hversion,
    Nat.mul_comm byteLength, Nat.mul_comm (List.sum _)]

theorem chooseVersion_ok {byteLength version : Nat} (h : chooseVersion byteLength = .ok version) :
    (1 ≤ version ∧ version ≤ 10) ∧ Fits version byteLength ∧
      ∀ smaller, 1 ≤ smaller → smaller < version → ¬ Fits smaller byteLength := by
  unfold chooseVersion at h
  dsimp only at h
  split at h
  · rename_i found hfound
    cases h
    obtain ⟨hfits, hmem, hsmaller⟩ := List.find?_range'_eq_some.1 hfound
    have hrange := List.mem_range'_1.1 hmem
    refine ⟨⟨hrange.1, Nat.lt_succ_iff.1 hrange.2⟩, by simpa [Fits] using hfits,
      fun smaller hpos hlt hfits => ?_⟩
    have hnot := hsmaller smaller hpos hlt
    simp only [Fits] at hfits
    simp [hfits] at hnot
  · cases h

theorem chooseVersion_error {byteLength : Nat} {error : QrError}
    (h : chooseVersion byteLength = .error error) :
    error = qrCapacityError byteLength ∧ ∀ version, 1 ≤ version → version ≤ 10 →
      ¬ Fits version byteLength := by
  unfold chooseVersion at h
  dsimp only at h
  split at h
  · cases h
  · rename_i hnone
    cases h
    refine ⟨rfl, fun version hversion hversion' hfits => ?_⟩
    rw [List.find?_eq_none] at hnone
    refine hnone version (List.mem_range'_1.2 ⟨hversion, ?_⟩) (decide_eq_true hfits)
    exact Nat.lt_succ_of_le hversion'

/-- The largest version holds 213 bytes, and no other holds more. -/
theorem exists_fits_iff (byteLength : Nat) :
    (∃ version, (1 ≤ version ∧ version ≤ 10) ∧ Fits version byteLength) ↔ byteLength ≤ 213 := by
  constructor
  · rintro ⟨version, hversion, hfits⟩
    have hfull := forall_versions (P := fun version =>
      dataCodewords version * 8 < 4 + countBits version + 214 * 8) (by decide) hversion
    unfold Fits at hfits
    omega
  · intro hle
    refine ⟨10, ⟨by decide, by decide⟩, ?_⟩
    have hroom : 4 + countBits 10 + 213 * 8 ≤ dataCodewords 10 * 8 := by decide
    unfold Fits
    omega

/-- The symbol of a text that fits is a candidate of a version with room for it. -/
theorem exists_candidate {text : Str} (hlength : (Str.utf8 text).length ≤ 213) :
    ∃ version mask, (1 ≤ version ∧ version ≤ 10) ∧ Fits version (Str.utf8 text).length ∧
      mask < 8 ∧ encodeQr text =
        .ok ⟨17 + version * 4, candidate version (Str.utf8 text) mask, version⟩ := by
  cases hchosen : chooseVersion (Str.utf8 text).length with
  | error error =>
    obtain ⟨version, hversion, hfits⟩ := (exists_fits_iff _).2 hlength
    exact absurd hfits ((chooseVersion_error hchosen).2 version hversion.1 hversion.2)
  | ok version =>
    obtain ⟨hversion, hfits, -⟩ := chooseVersion_ok hchosen
    obtain ⟨mask, penalty, hmask, hbest⟩ := bestCandidate_eq version (Str.utf8 text)
    refine ⟨version, mask, hversion, hfits, hmask, ?_⟩
    rw [encodeQr]
    simp only [hchosen, hbest, bind, Except.bind, pure, Except.pure]

/-- A longer text has no symbol. -/
theorem exists_encodeQr_error {text : Str} (hlength : 213 < (Str.utf8 text).length) :
    ∃ error, encodeQr text = .error error := by
  cases hchosen : chooseVersion (Str.utf8 text).length with
  | error error =>
    refine ⟨error, ?_⟩
    rw [encodeQr]
    simp only [hchosen, bind, Except.bind]
  | ok version =>
    obtain ⟨hversion, hfits, -⟩ := chooseVersion_ok hchosen
    have hle := (exists_fits_iff _).1 ⟨version, hversion, hfits⟩
    omega

/-- A text of up to 213 bytes is drawn at the first version that has room for it, and every reader
of the standard's symbols gets its bytes back, whichever mask is best; a longer one is refused. -/
theorem encodeQr_read (text : Str) :
    ((Str.utf8 text).length ≤ 213 → ∃ symbol, encodeQr text = .ok symbol ∧
      QrCode.read symbol.modules = some (Str.utf8 text) ∧
      (∃ mask < 8, symbol.modules = candidate symbol.version (Str.utf8 text) mask) ∧
      (∀ mask < 8, QrCode.read (candidate symbol.version (Str.utf8 text) mask) =
        some (Str.utf8 text)) ∧
      symbol.size = QrCode.side symbol.version ∧ symbol.modules.Square symbol.size ∧
      (1 ≤ symbol.version ∧ symbol.version ≤ 10) ∧
      QrCode.segmentBits symbol.version (Str.utf8 text).length ≤
        QrCode.capacity symbol.version ∧
      ∀ smaller, 1 ≤ smaller → smaller < symbol.version →
        QrCode.capacity smaller < QrCode.segmentBits smaller (Str.utf8 text).length) ∧
    (213 < (Str.utf8 text).length →
      encodeQr text = .error (qrCapacityError (Str.utf8 text).length)) := by
  generalize hdata : Str.utf8 text = data
  constructor
  · intro hlength
    cases hchosen : chooseVersion data.length with
    | error error =>
      obtain ⟨version, hversion, hfits⟩ := (exists_fits_iff data.length).2 hlength
      exact absurd hfits ((chooseVersion_error hchosen).2 version hversion.1 hversion.2)
    | ok version =>
      obtain ⟨hversion, hfits, hsmaller⟩ := chooseVersion_ok hchosen
      obtain ⟨mask, penalty, hmask, hbest⟩ := bestCandidate_eq version data
      have hread := read_candidate hversion hfits hmask
      refine ⟨⟨17 + version * 4, candidate version data mask, version⟩, ?_, hread,
        ⟨mask, hmask, rfl⟩, fun mask hmask => read_candidate hversion hfits hmask, ?_, ?_,
        hversion, (fits_iff hversion _).1 hfits, fun smaller hpos hlt => ?_⟩
      · rw [encodeQr, hdata]
        simp only [hchosen, hbest, bind, Except.bind, pure, Except.pure]
      · exact congrArg (17 + ·) (Nat.mul_comm version 4)
      · have hsquare := (candidate_cells hversion data hmask).1
        rwa [QrCode.side, Nat.mul_comm] at hsquare
      · have hnot := hsmaller smaller hpos hlt
        have hle : smaller ≤ 10 := (Nat.le_of_lt hlt).trans hversion.2
        rw [fits_iff ⟨hpos, hle⟩] at hnot
        exact Nat.lt_of_not_le hnot
  · intro hlength
    cases hchosen : chooseVersion data.length with
    | error error =>
      obtain ⟨rfl, -⟩ := chooseVersion_error hchosen
      rw [encodeQr, hdata]
      simp only [hchosen, bind, Except.bind]
    | ok version =>
      obtain ⟨hversion, hfits, -⟩ := chooseVersion_ok hchosen
      have hle := (exists_fits_iff data.length).1 ⟨version, hversion, hfits⟩
      omega

end LeaveCli.Web.Qr
