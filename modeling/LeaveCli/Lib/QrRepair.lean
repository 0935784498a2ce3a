import LeaveCli.Lib.BinaryField
import LeaveCli.Lib.Code
import LeaveCli.Lib.QrCode
import LeaveCli.Lib.ReedSolomon

/-!
# Reading damaged QR symbols

`readRepaired` reads a symbol as `read` does, but with error correction: the format information is
the word with at most three wrong modules, and each block is the one codeword with at most half as
many errors as it has check symbols. `readRepaired_eq` says when a symbol reads as the one it was
damaged from, and `mismatches_blocks_le` that wrong modules make no more codewords wrong than they
are. `full_room`: the data modules of every version hold all of its codewords.
-/

namespace Lib.QrCode

/-- The error correction codewords of each block at level M. -/
def checkSymbols : Nat → Nat
  | 1 => 10
  | 2 => 16
  | 3 => 26
  | 4 => 18
  | 5 => 24
  | 6 => 16
  | 7 => 18
  | 8 => 22
  | 9 => 22
  | 10 => 26
  | _ => 0

/-- All codewords of a version. -/
def codewordCount (version : Nat) : Nat :=
  (blockLengths version).sum + (blockLengths version).length * checkSymbols version

/-- The blocks of a stream of codewords, each with its check symbols. -/
def blocks (version : Nat) (stream : List Nat) : List (List Nat) :=
  let lengths := blockLengths version
  let stream := stream.take (codewordCount version)
  List.zipWith (· ++ ·) (deinterleave (longest version) lengths stream)
    (deinterleave (checkSymbols version) (List.replicate lengths.length (checkSymbols version))
      (stream.drop lengths.sum))

/-- A block as it is written: bytes that are a codeword over the field of `0x11d`. -/
structure IsBlock (version : Nat) (word : List Nat) : Prop where
  bytes : ∀ codeword ∈ word, codeword < 256
  length : word.length ≤ 255
  codeword : IsCodeword (AdjoinRoot.root _ : BinaryRing 8 0x11d) (checkSymbols version)
    (word.map (element 8 0x11d))

noncomputable def repairBlock (version : Nat) (word : List Nat) : List Nat :=
  repair (IsBlock version) (checkSymbols version) word

/-- The modules of the format information, from its highest bit. -/
def formatBits (modules : Grid Bool) : List Bool :=
  (List.range 15).map fun index => isDark modules (formatModule (14 - index))

/-- The mask of a symbol at level M, with up to three wrong modules. -/
def repairMask (modules : Grid Bool) : Option Nat :=
  ((List.range 32).find? fun format =>
    mismatches (toBits 15 (formatWord format)) (formatBits modules) ≤ 3).bind fun format =>
      if format / 8 = 0 then some (format % 8) else none

/-- The codewords that the data modules hold under a mask. -/
def readCodewords (version mask : Nat) (modules : Grid Bool) : List Nat :=
  octets (readModules version mask modules)

noncomputable def readRepaired (modules : Grid Bool) : Option (List UInt8) :=
  let version := (modules.length - 17) / 4
  if 1 ≤ version ∧ version ≤ 10 ∧ modules.length = side version then
    (repairMask modules).bind fun mask =>
      let words := (blocks version (readCodewords version mask modules)).map (repairBlock version)
      readSegment version
        ((List.zipWith List.take (blockLengths version) words).flatten.flatMap (toBits 8))
  else none

/-! ## Words of one length -/

theorem length_octets_eq (bits : List Bool) : (octets bits).length = bits.length / 8 := by
  induction bits using octets.induct with
  | case1 a b c d e f g h bits ih =>
    rw [octets, List.length_cons, ih]
    simp only [List.length_cons]
    omega
  | case2 bits hshort =>
    obtain _ | ⟨a, _ | ⟨b, _ | ⟨c, _ | ⟨d, _ | ⟨e, _ | ⟨f, _ | ⟨g, _ | ⟨h, rest⟩⟩⟩⟩⟩⟩⟩⟩ := bits
    case cons.cons.cons.cons.cons.cons.cons.cons => exact absurd rfl (hshort a b c d e f g h rest)
    all_goals simp [octets]

/-- How long the blocks are does not depend on what is in the codewords. -/
theorem blocks_lengths (version : Nat) {s t : List Nat} (h : s.length = t.length) :
    List.Forall₂ (fun word word' => word.length = word'.length) (blocks version s)
      (blocks version t) := by
  have htake : (s.take (codewordCount version)).length =
      (t.take (codewordCount version)).length := by
    rw [List.length_take, List.length_take, h]
  refine forall₂_zipWith (fun word word' check check' hword hcheck => ?_)
    (deinterleave_lengths _ _ htake) (deinterleave_lengths _ _ ?_)
  · rw [List.length_append, List.length_append, hword, hcheck]
  · rw [List.length_drop, List.length_drop, htake]

theorem length_readCodewords (version mask : Nat) (modules modules' : Grid Bool) :
    (readCodewords version mask modules).length = (readCodewords version mask modules').length :=
  by simp [readCodewords, length_octets_eq, readModules]

/-! ## Few wrong modules -/

theorem mismatches_octets_le {s t : List Bool} (h : s.length = t.length) :
    mismatches (octets s) (octets t) ≤ mismatches s t := by
  induction hn : s.length / 8 generalizing s t with
  | zero =>
    have hnone := length_octets_eq s
    rw [hn] at hnone
    rw [List.eq_nil_of_length_eq_zero hnone]
    exact Nat.zero_le _
  | succ n ih =>
    have hs : (s.take 8).length = 8 := by
      rw [List.length_take]
      omega
    have ht : (t.take 8).length = 8 := by
      rw [List.length_take]
      omega
    have hrest := ih (s := s.drop 8) (t := t.drop 8)
      (by rw [List.length_drop, List.length_drop, h]) (by rw [List.length_drop]; omega)
    rw [← mismatches_take_drop h 8]
    conv_lhs => rw [← List.take_append_drop 8 s, ← List.take_append_drop 8 t]
    rw [octets_append_eight hs, octets_append_eight ht, mismatches_cons]
    by_cases hsame : s.take 8 = t.take 8
    · rw [hsame, if_pos rfl]
      omega
    · have hpos := mismatches_pos (hs.trans ht.symm) hsame
      split <;> omega

/-- A block has no more mismatches than the stream that it is dealt from. -/
theorem mismatches_deal_le (lengths : List Nat) {s t : List Nat} (h : s.length = t.length) :
    List.Forall₂ (fun x y => mismatches x.toList y.toList +
      mismatches (deal lengths s).2 (deal lengths t).2 ≤ mismatches s t)
        (deal lengths s).1 (deal lengths t).1 ∧
      mismatches (deal lengths s).2 (deal lengths t).2 ≤ mismatches s t := by
  induction lengths generalizing s t with
  | nil => exact ⟨.nil, le_refl _⟩
  | cons n lengths ih =>
    cases n with
    | zero =>
      obtain ⟨hheads, hrest⟩ := ih h
      exact ⟨.cons (by rwa [Option.toList_none, mismatches_nil, Nat.zero_add]) hheads, hrest⟩
    | succ n =>
      have htails : s.tail.length = t.tail.length := by rw [List.length_tail, List.length_tail, h]
      have hsplit : mismatches s t =
          mismatches s.head?.toList t.head?.toList + mismatches s.tail t.tail := by
        cases s <;> cases t
        · rfl
        · cases h
        · cases h
        · simp [mismatches_cons, Nat.add_comm]
      obtain ⟨hheads, hrest⟩ := ih htails
      simp only [deal]
      refine ⟨.cons (by omega) (hheads.imp fun x y hxy => ?_), by omega⟩
      omega

theorem mismatches_deinterleave_le (rounds : Nat) (lengths : List Nat) {s t : List Nat}
    (h : s.length = t.length) : List.Forall₂ (fun x y => mismatches x y ≤ mismatches s t)
      (deinterleave rounds lengths s) (deinterleave rounds lengths t) := by
  induction rounds generalizing lengths s t with
  | zero =>
    refine List.forall₂_same.2 fun block hblock => ?_
    obtain ⟨_, -, rfl⟩ := List.mem_map.1 hblock
    exact Nat.zero_le _
  | succ rounds ih =>
    obtain ⟨hlengths, hrest⟩ := deal_lengths lengths h
    obtain ⟨hheads, -⟩ := mismatches_deal_le lengths h
    rw [deinterleave, deinterleave]
    refine forall₂_zipWith (fun head head' block block' hhead hblock => ?_)
      (List.Forall₂.mp (fun _ _ => And.intro) hlengths hheads) (ih _ hrest)
    rw [mismatches_append hhead.1]
    exact (Nat.add_le_add_left hblock _).trans hhead.2

/-- A block, with its check symbols, has no more wrong codewords than the stream. -/
theorem mismatches_blocks_le (version : Nat) {s t : List Nat} (h : s.length = t.length) :
    ∀ count ∈ List.zipWith mismatches (blocks version s) (blocks version t),
      count ≤ mismatches s t := by
  have hcut := mismatches_take_drop h (codewordCount version)
  have htake : (s.take (codewordCount version)).length =
      (t.take (codewordCount version)).length := by
    rw [List.length_take, List.length_take, h]
  have hsplit := mismatches_take_drop htake (blockLengths version).sum
  have hwords := mismatches_deinterleave_le (longest version) (blockLengths version)
    (show ((s.take (codewordCount version)).take (blockLengths version).sum).length =
      ((t.take (codewordCount version)).take (blockLengths version).sum).length by
        simp [h])
  rw [deinterleave_take, deinterleave_take] at hwords
  have hchecks := mismatches_deinterleave_le (checkSymbols version)
    (List.replicate (blockLengths version).length (checkSymbols version))
    (show ((s.take (codewordCount version)).drop (blockLengths version).sum).length =
      ((t.take (codewordCount version)).drop (blockLengths version).sum).length by
        simp [h])
  refine forall_mem_zipWith (p := (· ≤ mismatches s t))
    (forall₂_zipWith (fun word word' check check' hword hcheck => ?_)
      (List.Forall₂.mp (fun _ _ => And.intro)
        (deinterleave_lengths (longest version) (blockLengths version) htake) hwords) hchecks)
  obtain ⟨hlength, hword⟩ := hword
  rw [mismatches_append hlength]
  omega

/-- Where the format information is read. -/
def formatModules : List (Nat × Nat) := (List.range 15).map fun index => formatModule (14 - index)

section

variable {modules modules' : Grid Bool} (wrong : Finset (Nat × Nat))
  (hsame : ∀ p ∉ wrong, isDark modules p = isDark modules' p)

include hsame

/-- So many wrong modules leave no more bits of the format information wrong. -/
theorem mismatches_formatBits_le : mismatches (formatBits modules) (formatBits modules') ≤
    (wrong.filter (· ∈ formatModules)).card := by
  have hbits (grid : Grid Bool) : formatBits grid = formatModules.map (isDark grid) := by
    rw [formatModules, List.map_map]
    rfl
  rw [hbits, hbits]
  refine mismatches_map_le (by decide) _ fun p hp hright => hsame p fun hwrong => hright ?_
  exact Finset.mem_filter.2 ⟨hwrong, hp⟩

/-- Nor do they leave more codewords wrong. -/
theorem mismatches_readCodewords_le (version mask : Nat) :
    mismatches (readCodewords version mask modules) (readCodewords version mask modules') ≤
      wrong.card := by
  refine (mismatches_octets_le (by simp [readModules])).trans ?_
  refine mismatches_map_le (nodup_dataModules version) wrong fun p _ hp => ?_
  simp only [hsame p hp]

end

/-! ## Repairing -/

theorem formatBits_eq {modules : Grid Bool} {mask : Nat} (hformat : ∀ index < 15,
    modules.cell (formatModule index) = some ((formatWord mask).testBit index)) :
    formatBits modules = toBits 15 (formatWord mask) := by
  have htoBits : toBits 15 (formatWord mask) =
      (List.range 15).map fun index => (formatWord mask).testBit (14 - index) := rfl
  rw [formatBits, htoBits]
  refine List.map_congr_left fun index hindex => ?_
  rw [isDark, hformat (14 - index) (by omega)]
  rfl

theorem separated_formats : ∀ format < 32, ∀ format' < 32, format ≠ format' →
    7 ≤ mismatches (toBits 15 (formatWord format)) (toBits 15 (formatWord format')) := by
  decide +kernel

/-- Up to three wrong modules leave the format information readable. -/
theorem repairMask_eq {modules : Grid Bool} {mask : Nat} (hmask : mask < 8)
    (herrors : mismatches (toBits 15 (formatWord mask)) (formatBits modules) ≤ 3) :
    repairMask modules = some mask := by
  have hlength (format : Nat) :
      (toBits 15 (formatWord format)).length = (formatBits modules).length := by
    rw [length_toBits, formatBits, List.length_map, List.length_range]
  cases hfind : (List.range 32).find? (fun format =>
      mismatches (toBits 15 (formatWord format)) (formatBits modules) ≤ 3) with
  | none =>
    have hnone := List.find?_eq_none.1 hfind mask (List.mem_range.2 (by omega))
    exact absurd (decide_eq_true herrors) hnone
  | some format =>
    have hlt := List.mem_range.1 (List.mem_of_find?_eq_some hfind)
    have hfound : mismatches (toBits 15 (formatWord format)) (formatBits modules) ≤ 3 := by
      simpa using List.find?_some hfind
    have hsame : format = mask := by
      by_contra hne
      have hfar := separated_formats format hlt mask (by omega) hne
      have htriangle := mismatches_triangle (hlength format) (toBits 15 (formatWord mask))
      rw [mismatches_comm (hlength mask)] at herrors
      omega
    rw [repairMask, hfind, hsame, Option.bind_some, if_pos (by omega), Nat.mod_eq_of_lt hmask]

section

variable (hroot : orderOf (AdjoinRoot.root _ : BinaryRing 8 0x11d) = 255)

include hroot

theorem separated_isBlock (version : Nat) :
    Separated (IsBlock version) (checkSymbols version) := by
  intro u v hu hv hlength herrors
  have hmodulus : 2 ^ 8 ≤ 0x11d ∧ 0x11d < 2 ^ (8 + 1) := by decide
  have hdomain : IsDomain (BinaryRing 8 0x11d) :=
    (isField_binaryRing hmodulus (by decide) hroot).isDomain
  have hmapped : u.map (element 8 0x11d) = v.map (element 8 0x11d) := by
    refine eq_of_agree (a := AdjoinRoot.root _) (by simpa using hlength) ?_ hu.codeword hv.codeword
      herrors fun i hi hsame => ?_
    · refine (pow_injOn_Iio_orderOf (x := AdjoinRoot.root _)).mono ?_
      rw [hroot, List.length_map]
      exact Set.Iio_subset_Iio hu.length
    · have hequal : u[i]? = v[i]? := by
        by_contra hne
        exact hsame (Finset.mem_filter.2 ⟨Finset.mem_range.2 (by simpa using hi), hne⟩)
      rw [List.getD_eq_getElem?_getD, List.getD_eq_getElem?_getD, List.getElem?_map,
        List.getElem?_map, hequal]
  refine List.ext_getElem hlength fun i hi hi' => ?_
  have hat : element 8 0x11d u[i] = element 8 0x11d v[i] := by
    have hget := congrArg (·[i]?) hmapped
    simpa [hi, hi'] using hget
  exact (element_inj hmodulus (by decide) (hu.bytes _ (List.getElem_mem hi))
    (hv.bytes _ (List.getElem_mem hi'))).1 hat

/-- Blocks with few enough errors in each are repaired. -/
theorem map_repairBlock {version : Nat} {right wrong : List (List Nat)}
    (hlength : List.Forall₂ (fun word word' => word.length = word'.length) right wrong)
    (hblocks : ∀ word ∈ right, IsBlock version word)
    (herrors : ∀ count ∈ List.zipWith mismatches right wrong, 2 * count ≤ checkSymbols version) :
    wrong.map (repairBlock version) = right := by
  induction hlength with
  | nil => rfl
  | cons hhead _ ih =>
    obtain ⟨hblock, hblocks⟩ := List.forall_mem_cons.1 hblocks
    obtain ⟨herror, herrors⟩ := List.forall_mem_cons.1 herrors
    rw [List.map_cons, ih hblocks herrors, repairBlock,
      repair_eq (separated_isBlock hroot version) hblock hhead herror]

/-- A symbol with up to three wrong modules of format information and few enough wrong codewords in
every block reads as the blocks it was made of. -/
theorem readRepaired_eq {version mask : Nat} {modules : Grid Bool} {right : List (List Nat)}
    (hversion : 1 ≤ version ∧ version ≤ 10) (hside : modules.length = side version)
    (hmask : mask < 8)
    (hformat : mismatches (toBits 15 (formatWord mask)) (formatBits modules) ≤ 3)
    (hlength : List.Forall₂ (fun word word' => word.length = word'.length) right
      (blocks version (readCodewords version mask modules)))
    (hblocks : ∀ word ∈ right, IsBlock version word)
    (herrors : ∀ count ∈ List.zipWith mismatches right
      (blocks version (readCodewords version mask modules)), 2 * count ≤ checkSymbols version) :
    readRepaired modules = readSegment version
      ((List.zipWith List.take (blockLengths version) right).flatten.flatMap (toBits 8)) := by
  have hfound : (modules.length - 17) / 4 = version := by
    rw [hside, side]
    omega
  rw [readRepaired, hfound, if_pos ⟨hversion.1, hversion.2, hside⟩, repairMask_eq hmask hformat,
    Option.bind_some, map_repairBlock hroot hlength hblocks herrors]

end

/-! ## Room for all codewords -/

theorem mem_of_within {top left rows columns : Nat} {p : Nat × Nat}
    (h : within top left rows columns p = true) :
    p ∈ List.range' top rows ×ˢ List.range' left columns := by
  obtain ⟨row, column⟩ := p
  simp only [within, Bool.and_eq_true, Nat.ble_eq, Nat.blt_eq] at h
  rw [List.mem_product, List.mem_range'_1, List.mem_range'_1]
  exact ⟨⟨h.1.1.1, h.1.1.2⟩, h.1.2, h.2⟩

theorem column_ne_of_mem_zigzag {size : Nat} {p : Nat × Nat} (h : p ∈ zigzag size) : p.2 ≠ 6 := by
  obtain ⟨step, -, rfl⟩ := List.mem_map.1 h
  dsimp only [visit]
  split <;> omega

/-- The function patterns, each with the modules it has for itself among those of the zigzag. -/
def patterns (version : Nat) : List (Nat × Nat) :=
  let size := side version
  (List.range' 0 9 ×ˢ List.range' 0 9 ++ List.range' 0 9 ×ˢ List.range' (size - 8) 8 ++
    List.range' (size - 8) 8 ×ˢ List.range' 0 9 ++ List.range' 6 1 ×ˢ List.range' 9 (size - 17) ++
    ((alignmentPatterns version).flatMap fun centre =>
      List.range' (centre.1 - 2) 5 ×ˢ List.range' (centre.2 - 2) 5).filter (fun p => p.1 ≠ 6) ++
    if 7 ≤ version then List.range' 0 6 ×ˢ List.range' (size - 11) 3 ++
      List.range' (size - 11) 3 ×ˢ List.range' 0 6 else []).filter fun p => p.2 ≠ 6

theorem mem_patterns {version : Nat} {p : Nat × Nat} (h : p ∈ zigzag (side version))
    (hfunction : isFunction version p = true) : p ∈ patterns version := by
  have hcolumn := column_ne_of_mem_zigzag h
  have hlt := (lt_of_mem_zigzag h).2
  have hside : side version = 17 + 4 * version := rfl
  refine List.mem_filter.2 ⟨?_, decide_eq_true hcolumn⟩
  simp only [List.mem_append]
  by_cases hsix : p.1 = 6
  · -- in one of the corners at the top, or in the timing pattern between them
    obtain ⟨row, column⟩ := p
    dsimp only at hsix hlt
    simp only [List.mem_product, List.mem_range'_1]
    omega
  simp only [isFunction, Bool.or_eq_true, Bool.and_eq_true] at hfunction
  rcases hfunction with (((((hcorner | hcorner) | hcorner) | hrow) | hline) | halignment) | hinfo
  · exact .inl (.inl (.inl (.inl (.inl (mem_of_within hcorner)))))
  · exact .inl (.inl (.inl (.inl (.inr (mem_of_within hcorner)))))
  · exact .inl (.inl (.inl (.inr (mem_of_within hcorner))))
  · exact absurd (Nat.eq_of_beq_eq_true hrow) hsix
  · exact absurd (Nat.eq_of_beq_eq_true hline) hcolumn
  · obtain ⟨centre, hcentre, hwithin⟩ := List.any_eq_true.1 halignment
    exact .inl (.inr (List.mem_filter.2
      ⟨List.mem_flatMap.2 ⟨centre, hcentre, mem_of_within hwithin⟩, decide_eq_true hsix⟩))
  · obtain ⟨hseven, hinfo⟩ := hinfo
    rw [if_pos (Nat.le_of_ble_eq_true hseven), List.mem_append]
    exact .inr (hinfo.imp mem_of_within mem_of_within)

/-- The data modules of every version hold its codewords. -/
theorem full_room {version : Nat} (hversion : 1 ≤ version ∧ version ≤ 10) :
    8 * codewordCount version ≤ (dataModules version).length := by
  have hpatterns : ((zigzag (side version)).filter (isFunction version)).length ≤
      (patterns version).length := by
    refine length_le_of_subset ((nodup_zigzag (side_mod_two version)).filter _) fun p hp => ?_
    obtain ⟨hp, hfunction⟩ := List.mem_filter.1 hp
    exact mem_patterns hp hfunction
  have hsplit : (zigzag (side version)).length =
      ((zigzag (side version)).filter (isFunction version)).length +
        (dataModules version).length :=
    List.length_eq_length_filter_add (isFunction version)
  have hall : (zigzag (side version)).length = (side version - 1) / 2 * (side version * 2) := by
    rw [zigzag, List.length_map, List.length_product, List.length_product, List.length_range,
      List.length_range, List.length_range]
  have htable : ∀ version ∈ List.range' 1 10, 8 * codewordCount version +
      (patterns version).length ≤ (side version - 1) / 2 * (side version * 2) := by
    decide +kernel
  have hroom := htable version (List.mem_range'_1.2 ⟨hversion.1, by omega⟩)
  omega

end Lib.QrCode
