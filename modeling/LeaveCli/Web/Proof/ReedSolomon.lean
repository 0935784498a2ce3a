import Mathlib
import LeaveCli.Lib.BinaryField
import LeaveCli.Lib.ReedSolomon
import LeaveCli.Web.Proof.QrContent

/-!
# Error correction of pairing codes

`EXP` holds the powers of the root of `0x11d` and `LOG` their exponents (`getD_exp`, `getD_log`), so
`multiply` is the product of a field (`multiply_isFieldProduct`). `Holds` relates a list of bytes to
its polynomial over that field: the loops of `reedSolomon` make the generator (`holds_generator`)
and the register of a division by it (`reedSolomon_divided`), so that data and parity are a
codeword. `interleave` sends both (`blockWords_interleave`).
-/

namespace LeaveCli.Web.Qr

open Lib Polynomial

/-! ## The field -/

/-- The polynomials over GF(2) modulo that of `0x11d`. -/
abbrev ByteField : Type := BinaryRing 8 0x11d

noncomputable def symbol (byte : Nat) : ByteField := element 8 0x11d byte

noncomputable def alpha : ByteField := AdjoinRoot.root _

theorem modulus_eight : 2 ^ 8 ≤ 0x11d ∧ 0x11d < 2 ^ (8 + 1) := by decide

/-- The powers of two in the field. -/
def power (index : Nat) : Nat := (double 8 0x11d)^[index] 1

theorem power_succ (index : Nat) : power (index + 1) = double 8 0x11d (power index) :=
  Function.iterate_succ_apply' ..

theorem power_lt (index : Nat) : power index < 256 :=
  (element_iterate modulus_eight (by decide) index).1

theorem symbol_power (index : Nat) : symbol (power index) = alpha ^ index :=
  (element_iterate modulus_eight (by decide) index).2

theorem power_period : power 255 = 1 := by decide +kernel

theorem power_add_period (index : Nat) : power (index + 255) = power index := by
  rw [power, Function.iterate_add_apply]
  exact congrArg _ power_period

theorem orderOf_alpha : orderOf alpha = 255 := by
  refine orderOf_root modulus_eight (by decide) (by decide) power_period fun p hp hdvd => ?_
  have hfactors : p ∣ 3 * (5 * 17) := hdvd
  have hthree : (double 8 0x11d)^[255 / 3] 1 ≠ 1 := by decide +kernel
  have hfive : (double 8 0x11d)^[255 / 5] 1 ≠ 1 := by decide +kernel
  have hseventeen : (double 8 0x11d)^[255 / 17] 1 ≠ 1 := by decide +kernel
  have hprime : Nat.Prime 17 := by norm_num
  rcases hp.dvd_mul.1 hfactors with h | h
  · obtain rfl := (Nat.prime_dvd_prime_iff_eq hp Nat.prime_three).1 h
    exact hthree
  rcases hp.dvd_mul.1 h with h | h
  · obtain rfl := (Nat.prime_dvd_prime_iff_eq hp Nat.prime_five).1 h
    exact hfive
  · obtain rfl := (Nat.prime_dvd_prime_iff_eq hp hprime).1 h
    exact hseventeen

theorem power_inj {i j : Nat} (hi : i < 255) (hj : j < 255) : power i = power j ↔ i = j :=
  iterate_double_inj modulus_eight (by decide) orderOf_alpha hi hj

theorem exists_power {byte : Nat} (h : byte < 256) (hne : byte ≠ 0) :
    ∃ index < 255, power index = byte :=
  exists_iterate_double modulus_eight (by decide) orderOf_alpha h hne

/-! ## The tables -/

theorem getD_set {values : List Nat} {i j value : Nat} (h : i < values.length) :
    (values.set i value).getD j 0 = if i = j then value else values.getD j 0 := by
  rw [List.getD_eq_getElem?_getD, List.getD_eq_getElem?_getD]
  by_cases heq : i = j
  · rw [if_pos heq, ← heq, List.getElem?_set_self h, Option.getD_some]
  · rw [if_neg heq, List.getElem?_set_ne heq]

/-- One round of the loop that fills the tables. -/
def tableStep : List Nat × List Nat × Nat → Nat → List Nat × List Nat × Nat :=
  fun (exp, log, value) index =>
    let next := value <<< 1
    (exp.set index value, log.set value index, if next &&& 0x100 ≠ 0 then next ^^^ 0x11d else next)

/-- `value` is doubled. -/
theorem tableStep_eq (exp log : List Nat) (value index : Nat) :
    tableStep (exp, log, value) index =
      (exp.set index value, log.set value index, double 8 0x11d value) := by
  have hbit : value <<< 1 &&& 0x100 ≠ 0 ↔ (value <<< 1).testBit 8 = true := by
    have hand : value <<< 1 &&& 0x100 = _ := Nat.and_two_pow (value <<< 1) 8
    rw [hand]
    cases (value <<< 1).testBit 8 <;> simp
  simp only [tableStep, double, hbit]

/-- The tables when `count` powers are in them. -/
structure Filled (count : Nat) (tables : List Nat × List Nat × Nat) : Prop where
  expLength : tables.1.length = 512
  logLength : tables.2.1.length = 256
  exp : ∀ i < count, tables.1.getD i 0 = power i
  log : ∀ i < count, tables.2.1.getD (power i) 0 = i
  value : tables.2.2 = power count

theorem Filled.step {count : Nat} {tables : List Nat × List Nat × Nat} (h : Filled count tables)
    (hcount : count < 255) : Filled (count + 1) (tableStep tables count) := by
  obtain ⟨exp, log, value⟩ := tables
  have hexpLength : exp.length = 512 := h.expLength
  have hlogLength : log.length = 256 := h.logLength
  have hvalue : value = power count := h.value
  have hindex : count < exp.length := by omega
  have hlt : power count < log.length := hlogLength ▸ power_lt count
  rw [tableStep_eq, hvalue]
  exact {
    expLength := (List.length_set ..).trans hexpLength
    logLength := (List.length_set ..).trans hlogLength
    exp := fun i hi => by
      rw [getD_set hindex]
      split
      · rename_i heq
        rw [heq]
      · exact h.exp i (by omega)
    log := fun i hi => by
      rw [getD_set hlt]
      split
      · rename_i heq
        exact (power_inj hcount (by omega)).1 heq
      · rename_i hne
        refine h.log i ?_
        have hother : i ≠ count := fun heq => hne (heq ▸ rfl)
        omega
    value := (power_succ count).symm }

theorem fieldTables_filled : Filled 255 fieldTables := by
  have hrun : ∀ count ≤ 255, Filled count ((List.range count).foldl tableStep
      (List.replicate 512 0, List.replicate 256 0, 1)) := by
    intro count hcount
    induction count with
    | zero =>
      rw [List.range_zero, List.foldl_nil]
      exact ⟨List.length_replicate, List.length_replicate, nofun, nofun, rfl⟩
    | succ count ih =>
      rw [List.range_succ, List.foldl_append]
      exact (ih (by omega)).step hcount
  have hstep : fieldTables = (List.range 255).foldl tableStep
      (List.replicate 512 0, List.replicate 256 0, 1) := rfl
  rw [hstep]
  exact hrun 255 le_rfl

theorem exp_filled : exp.length = 512 ∧ ∀ index < 512, exp.getD index 0 = power index := by
  let fill (exp : List Nat) (index : Nat) : List Nat := exp.set index (exp.getD (index - 255) 0)
  have hrun : ∀ count ≤ 512 - 255,
      ((List.range' 255 count).foldl fill fieldTables.1).length = 512 ∧ ∀ i < 255 + count,
        ((List.range' 255 count).foldl fill fieldTables.1).getD i 0 = power i := by
    intro count hcount
    induction count with
    | zero => exact ⟨fieldTables_filled.expLength, fieldTables_filled.exp⟩
    | succ count ih =>
      obtain ⟨hlength, hvalues⟩ := ih (by omega)
      rw [List.range'_1_concat, List.foldl_append]
      refine ⟨(List.length_set ..).trans hlength, fun i hi => ?_⟩
      rw [List.foldl_cons, List.foldl_nil, getD_set (by omega)]
      split
      · rename_i heq
        rw [← heq, Nat.add_sub_cancel_left, hvalues count (by omega), Nat.add_comm,
          power_add_period]
      · exact hvalues i (by omega)
  exact hrun (512 - 255) le_rfl

theorem getD_exp {index : Nat} (h : index < 512) : exp.getD index 0 = power index :=
  exp_filled.2 index h

theorem getD_log {index : Nat} (h : index < 255) : log.getD (power index) 0 = index :=
  fieldTables_filled.log index h

/-! ## Multiplication -/

/-- A product of bytes that is the product of a field, with exclusive or as the addition. -/
structure IsFieldProduct (product : Nat → Nat → Nat) : Prop where
  isField : IsField ByteField
  bijective : Function.Bijective fun byte : Fin 256 => symbol byte
  xor : ∀ left right, symbol (left ^^^ right) = symbol left + symbol right
  lt : ∀ left right, product left right < 256
  product : ∀ left < 256, ∀ right < 256,
    symbol (product left right) = symbol left * symbol right

theorem symbol_xor (left right : Nat) : symbol (left ^^^ right) = symbol left + symbol right :=
  element_xor modulus_eight (by decide) left right

theorem symbol_zero : symbol 0 = 0 := element_zero

theorem symbol_one : symbol 1 = 1 := element_one (by decide)

theorem symbol_getD_exp {index : Nat} (h : index < 512) :
    symbol (exp.getD index 0) = alpha ^ index := by
  rw [getD_exp h, symbol_power]

theorem getD_exp_lt (index : Nat) : exp.getD index 0 < 256 := by
  by_cases h : index < 512
  · rw [getD_exp h]
    exact power_lt index
  · rw [List.getD_eq_default _ _ (exp_filled.1 ▸ Nat.not_lt.1 h)]
    decide

theorem multiply_lt (left right : Nat) : multiply left right < 256 := by
  unfold multiply
  split
  · decide
  · exact getD_exp_lt _

theorem symbol_multiply {left right : Nat} (hleft : left < 256) (hright : right < 256) :
    symbol (multiply left right) = symbol left * symbol right := by
  unfold multiply
  split
  · rename_i hzero
    rcases hzero with rfl | rfl
    · rw [symbol_zero, zero_mul]
    · rw [symbol_zero, mul_zero]
  · rename_i hne
    rw [not_or] at hne
    obtain ⟨i, hi, rfl⟩ := exists_power hleft hne.1
    obtain ⟨j, hj, rfl⟩ := exists_power hright hne.2
    rw [getD_log hi, getD_log hj, symbol_getD_exp (by omega), symbol_power, symbol_power, pow_add]

theorem multiply_isFieldProduct : IsFieldProduct multiply where
  isField := isField_binaryRing modulus_eight (by decide) orderOf_alpha
  bijective := element_bijective modulus_eight (by decide)
  xor := symbol_xor
  lt := multiply_lt
  product _ hleft _ hright := symbol_multiply hleft hright

/-! ## Words of bytes -/

def IsBytes (word : List Nat) : Prop := ∀ byte ∈ word, byte < 256

/-- A list of bytes and its polynomial. -/
structure Holds (word : List Nat) (length : Nat) (p : ByteField[X]) : Prop where
  length_eq : word.length = length
  bytes : IsBytes word
  coeffs : ofCoeffs (word.map symbol) = p

theorem holds_zero (length : Nat) : Holds (List.replicate length 0) length 0 where
  length_eq := List.length_replicate
  bytes byte hbyte := by
    rw [List.eq_of_mem_replicate hbyte]
    decide
  coeffs := by rw [List.map_replicate, symbol_zero, ofCoeffs_replicate_zero]

theorem map_modify_xor (word : List Nat) (i value : Nat) :
    (word.modify i (· ^^^ value)).map symbol = (word.map symbol).modify i (· + symbol value) := by
  induction word generalizing i with
  | nil => cases i <;> rfl
  | cons byte word ih =>
    cases i with
    | zero => rw [List.modify_zero_cons, List.map_cons, List.map_cons, List.modify_zero_cons,
        symbol_xor]
    | succ i => rw [List.modify_succ_cons, List.map_cons, List.map_cons, List.modify_succ_cons, ih]

theorem isBytes_modify_xor {word : List Nat} (h : IsBytes word) (i : Nat) {value : Nat}
    (hvalue : value < 256) : IsBytes (word.modify i (· ^^^ value)) := by
  intro byte hbyte
  obtain ⟨j, hj⟩ := List.mem_iff_getElem?.1 hbyte
  rw [List.getElem?_modify] at hj
  obtain ⟨old, hold, rfl⟩ := Option.map_eq_some_iff.1 hj
  have hlt := h old (List.mem_of_getElem? hold)
  split
  · exact Nat.xor_lt_two_pow (n := 8) hlt hvalue
  · exact hlt

theorem Holds.modify {word : List Nat} {length : Nat} {p : ByteField[X]} (h : Holds word length p)
    {i value : Nat} (hi : i < length) (hvalue : value < 256) :
    Holds (word.modify i (· ^^^ value)) length (p + C (symbol value) * X ^ (length - 1 - i)) where
  length_eq := (List.length_modify ..).trans h.length_eq
  bytes := isBytes_modify_xor h.bytes i hvalue
  coeffs := by
    have hi' : i < (word.map symbol).length := by rw [List.length_map, h.length_eq]; exact hi
    rw [map_modify_xor, ofCoeffs_modify hi', h.coeffs, List.length_map, h.length_eq]

theorem IsBytes.getD {word : List Nat} (h : IsBytes word) (i : Nat) : word.getD i 0 < 256 := by
  by_cases hi : i < word.length
  · rw [List.getD_eq_getElem _ _ hi]
    exact h _ (List.getElem_mem hi)
  · rw [List.getD_eq_default _ _ (Nat.not_lt.1 hi)]
    decide

theorem Holds.eq_sum {word : List Nat} {length : Nat} {p : ByteField[X]} (h : Holds word length p) :
    p = ∑ i ∈ Finset.range length, C (symbol (word.getD i 0)) * X ^ (length - 1 - i) := by
  rw [← h.coeffs, ofCoeffs_eq_sum, List.length_map, h.length_eq]
  refine Finset.sum_congr rfl fun i _ => ?_
  rw [← symbol_zero, List.getD_map]

theorem Holds.congr {word : List Nat} {length : Nat} {p q : ByteField[X]} (h : Holds word length p)
    (heq : p = q) : Holds word length q := heq ▸ h

/-- A loop whose rounds each add a term. -/
theorem Holds.foldl_range {word : List Nat} {length count : Nat} {p : ByteField[X]}
    {step : List Nat → Nat → List Nat} {term : Nat → ByteField[X]} (h : Holds word length p)
    (hstep : ∀ i < count, ∀ word p, Holds word length p → Holds (step word i) length (p + term i)) :
    Holds ((List.range count).foldl step word) length (p + ∑ i ∈ Finset.range count, term i) := by
  induction count with
  | zero =>
    rw [Finset.range_zero, Finset.sum_empty, add_zero]
    exact h
  | succ count ih =>
    have hfront := ih fun i hi => hstep i (Nat.lt_succ_of_lt hi)
    rw [List.range_succ, List.foldl_append, Finset.sum_range_succ, ← add_assoc]
    exact hstep count (Nat.lt_succ_self count) _ _ hfront

/-! ## The generator -/

instance : CharP ByteField 2 := charP_binaryRing modulus_eight (by decide)

/-- One round of the loop that makes the generator. -/
def generatorStep (generator : List Nat) (index : Nat) : List Nat :=
  (List.range generator.length).foldl (fun next position =>
    (next.modify position (· ^^^ generator.getD position 0)).modify (position + 1)
      (· ^^^ multiply (generator.getD position 0) (exp.getD index 0)))
    (List.replicate (generator.length + 1) 0)

/-- A round multiplies by one factor. -/
theorem Holds.generatorStep {word : List Nat} {length : Nat} {p : ByteField[X]}
    (h : Holds word length p) {index : Nat} (hindex : index < 512) :
    Holds (generatorStep word index) (length + 1) (p * (X - C (alpha ^ index))) := by
  have hround : ∀ i < length, ∀ next q, Holds next (length + 1) q →
      Holds ((next.modify i (· ^^^ word.getD i 0)).modify (i + 1)
        (· ^^^ multiply (word.getD i 0) (exp.getD index 0))) (length + 1)
        (q + C (symbol (word.getD i 0)) * X ^ (length - 1 - i) * (X - C (alpha ^ index))) := by
    intro i hi next q hnext
    have hfirst := hnext.modify (i := i) (by omega) (h.bytes.getD i)
    have hsecond := hfirst.modify (i := i + 1) (by omega)
      (multiply_lt (word.getD i 0) (exp.getD index 0))
    have hproduct := symbol_multiply (h.bytes.getD i) (getD_exp_lt index)
    rw [symbol_getD_exp hindex] at hproduct
    have hplace : length + 1 - 1 - i = length - 1 - i + 1 := by omega
    have hafter : length + 1 - 1 - (i + 1) = length - 1 - i := by omega
    rw [hproduct, hplace, hafter] at hsecond
    refine hsecond.congr ?_
    rw [CharTwo.sub_eq_add, C_mul, pow_succ]
    ring
  have hloop := (holds_zero (length + 1)).foldl_range hround
  rw [zero_add, ← Finset.sum_mul, ← h.eq_sum] at hloop
  rw [Qr.generatorStep, h.length_eq]
  exact hloop

theorem holds_generator {ecLength : Nat} (h : ecLength ≤ 512) :
    Holds (generator ecLength) (ecLength + 1) (generatorPolynomial alpha ecLength) := by
  induction ecLength with
  | zero =>
    refine ⟨rfl, fun byte hbyte => ?_, ?_⟩
    · rw [List.mem_singleton.1 hbyte]
      decide
    · show ofCoeffs [symbol 1] = _
      rw [symbol_one, ofCoeffs_cons, C_1, one_mul]
      exact add_zero 1
  | succ ecLength ih =>
    have hstep : generator (ecLength + 1) = generatorStep (generator ecLength) ecLength := by
      rw [generator, List.range_succ, List.foldl_append]
      rfl
    rw [hstep, generatorPolynomial_succ]
    exact (ih (by omega)).generatorStep (by omega)

/-- The generator behind its first coefficient, which is one. -/
theorem ofCoeffs_generator {ecLength : Nat} (h : ecLength ≤ 512) :
    ofCoeffs (1 :: (generator ecLength).tail.map symbol) = generatorPolynomial alpha ecLength := by
  have hholds := holds_generator h
  have hchar : (2 : ℕ) ≠ 1 := by decide
  have : Nontrivial ByteField := CharP.nontrivial_of_char_ne_one hchar
  have hmonic : (ofCoeffs ((generator ecLength).map symbol)).Monic := by
    rw [hholds.coeffs]
    exact monic_generatorPolynomial alpha ecLength
  have hword := eq_cons_of_monic hmonic (by
    rw [hholds.coeffs, natDegree_generatorPolynomial, List.length_map, hholds.length_eq])
  rw [← hholds.coeffs, List.map_tail, ← hword]

/-! ## The register -/

/-- One round of the loop over the data. -/
def registerStep (generator : List Nat) (ecLength : Nat) (remainder : List Nat) (byte : Nat) :
    List Nat :=
  let factor := byte ^^^ remainder.getD 0 0
  (List.range ecLength).foldl (fun remainder index =>
    remainder.modify index (· ^^^ multiply (generator.getD (index + 1) 0) factor))
    (remainder.tail ++ [0])

theorem reedSolomon_concat (data : List Nat) (byte ecLength : Nat) :
    reedSolomon (data ++ [byte]) ecLength =
      registerStep (generator ecLength) ecLength (reedSolomon data ecLength) byte := by
  rw [reedSolomon, List.foldl_append]
  rfl

theorem Holds.shift {register : List Nat} {length : Nat} {p : ByteField[X]}
    (h : Holds register length p) (hpos : 0 < length) :
    Holds (register.tail ++ [0]) length (ofCoeffs ((register.map symbol).tail ++ [0])) where
  length_eq := by
    rw [List.length_append, List.length_tail, h.length_eq, List.length_singleton]
    omega
  bytes byte hbyte := by
    rcases List.mem_append.1 hbyte with htail | hzero
    · exact h.bytes byte (List.mem_of_mem_tail htail)
    · rw [List.mem_singleton.1 hzero]
      decide
  coeffs := by rw [List.map_append, List.map_tail, List.map_singleton, symbol_zero]

theorem Holds.registerStep {generator register : List Nat} {length : Nat} {g p : ByteField[X]}
    (hgenerator : Holds generator (length + 1) g) (hregister : Holds register length p)
    (hpos : 0 < length) {byte : Nat} (hbyte : byte < 256) :
    Holds (registerStep generator length register byte) length
      (ofCoeffs ((register.map symbol).tail ++ [0]) +
        C (symbol (byte ^^^ register.getD 0 0)) * ofCoeffs (generator.tail.map symbol)) := by
  set factor := byte ^^^ register.getD 0 0 with hfactor
  have hlt : factor < 256 := Nat.xor_lt_two_pow (n := 8) hbyte (hregister.bytes.getD 0)
  have hround : ∀ i < length, ∀ next q, Holds next length q →
      Holds (next.modify i (· ^^^ multiply (generator.getD (i + 1) 0) factor)) length
        (q + C (symbol factor) *
          (C (symbol (generator.getD (i + 1) 0)) * X ^ (length - 1 - i))) := by
    intro i hi next q hnext
    have hstep := hnext.modify hi (multiply_lt (generator.getD (i + 1) 0) factor)
    rw [symbol_multiply (hgenerator.bytes.getD (i + 1)) hlt] at hstep
    refine hstep.congr ?_
    rw [C_mul]
    ring
  have hloop := (hregister.shift hpos).foldl_range hround
  have htail : Holds generator.tail length (ofCoeffs (generator.tail.map symbol)) :=
    ⟨by rw [List.length_tail, hgenerator.length_eq, Nat.add_sub_cancel],
      fun byte hbyte => hgenerator.bytes byte (List.mem_of_mem_tail hbyte), rfl⟩
  have hindex (i : Nat) : generator.tail.getD i 0 = generator.getD (i + 1) 0 := by
    rw [List.getD_eq_getElem?_getD, List.getElem?_tail, List.getD_eq_getElem?_getD]
  have hsum := htail.eq_sum
  simp only [hindex] at hsum
  rw [← Finset.mul_sum, ← hsum] at hloop
  exact hloop

/-- What a run over the data leaves in the register. -/
structure Divided (data register : List Nat) (ecLength : Nat) : Prop where
  holds : ∃ p, Holds register ecLength p
  dvd : generatorPolynomial alpha ecLength ∣ ofCoeffs ((data ++ register).map symbol)

theorem Divided.start (ecLength : Nat) : Divided [] (List.replicate ecLength 0) ecLength where
  holds := ⟨0, holds_zero ecLength⟩
  dvd := by
    rw [List.nil_append, (holds_zero ecLength).coeffs]
    exact dvd_zero _

theorem Divided.step {data register : List Nat} {ecLength : Nat}
    (h : Divided data register ecLength) (hpos : 1 ≤ ecLength) (hle : ecLength ≤ 512) {byte : Nat}
    (hbyte : byte < 256) : Divided (data ++ [byte])
      (registerStep (generator ecLength) ecLength register byte) ecLength := by
  obtain ⟨p, hregister⟩ := h.holds
  have hgenerator := holds_generator hle
  have hnext := hgenerator.registerStep hregister hpos hbyte
  refine ⟨⟨_, hnext⟩, ?_⟩
  have hfeedback : ((generator ecLength).tail.map symbol).length = ecLength := by
    rw [List.length_map, List.length_tail, hgenerator.length_eq, Nat.add_sub_cancel]
  have hne : register.map symbol ≠ [] := by
    rw [← List.length_pos_iff, List.length_map, hregister.length_eq]
    exact hpos
  have hfactor : symbol (byte ^^^ register.getD 0 0) =
      symbol byte - (register.map symbol).getD 0 0 := by
    rw [symbol_xor, CharTwo.sub_eq_add, ← symbol_zero, List.getD_map]
  have hcoeffs := hnext.coeffs
  rw [hfactor] at hcoeffs
  have hdvd := h.dvd
  rw [← ofCoeffs_generator hle, List.map_append] at hdvd
  rw [← ofCoeffs_generator hle, List.map_append, List.map_append, List.map_singleton]
  refine dvd_register_step hne ?_ ?_ hcoeffs hdvd
  · rw [List.length_map, hregister.length_eq, hfeedback]
  · rw [List.length_map, hnext.length_eq, hfeedback]

/-- By induction on the data from its end. -/
theorem reedSolomon_divided {data : List Nat} {ecLength : Nat} (hdata : IsBytes data)
    (hpos : 1 ≤ ecLength) (hle : ecLength ≤ 512) :
    Divided data (reedSolomon data ecLength) ecLength := by
  induction data using List.reverseRecOn with
  | nil => exact Divided.start ecLength
  | append_singleton data byte ih =>
    rw [reedSolomon_concat]
    have hfront : IsBytes data := fun b hb => hdata b (List.mem_append_left [byte] hb)
    exact (ih hfront).step hpos hle (hdata byte (List.mem_append_right data (.head [])))

theorem reedSolomon_isCodeword {data : List Nat} {ecLength : Nat} (hdata : IsBytes data)
    (hpos : 1 ≤ ecLength) (hle : ecLength ≤ 512) :
    IsCodeword alpha ecLength ((data ++ reedSolomon data ecLength).map symbol) :=
  isCodeword_of_dvd (reedSolomon_divided hdata hpos hle).dvd

/-! ## Blocks -/

theorem ecPerBlock_versions {version : Nat} (hversion : 1 ≤ version ∧ version ≤ 10) :
    1 ≤ (versions version).ecPerBlock ∧ (versions version).ecPerBlock ≤ 254 :=
  forall_versions (P := fun version => 1 ≤ (versions version).ecPerBlock ∧
    (versions version).ecPerBlock ≤ 254) (by decide) hversion

/-- The words that a stream of codewords holds: the data of each block and its parity. -/
def blockWords (lengths : List Nat) (ecPerBlock : Nat) (stream : List Nat) : List (List Nat) :=
  List.zipWith (· ++ ·) (deinterleave (lengths.foldl max 0) lengths stream)
    (deinterleave ecPerBlock (List.replicate lengths.length ecPerBlock) (stream.drop lengths.sum))

theorem le_longest_of_mem {lengths : List Nat} {length : Nat} (h : length ∈ lengths) :
    length ≤ lengths.foldl max 0 := by
  rw [List.foldl_max_eq_max (List.ne_nil_of_mem h)]
  exact (List.le_max_of_mem h).trans (Nat.le_max_right _ _)

theorem column_eq_map {blocks : List (List Nat)} {length index : Nat}
    (h : ∀ block ∈ blocks, block.length = length) (hindex : index < length) :
    column blocks index = blocks.map (·.getD index 0) := by
  rw [column, ← List.filterMap_eq_map]
  refine List.filterMap_congr fun block hblock => ?_
  have hlt : index < block.length := (h block hblock).symm ▸ hindex
  rw [Function.comp_apply, List.getElem?_eq_getElem hlt, List.getD_eq_getElem _ _ hlt]

theorem interleave_parity {version : Nat} {blocks parity : List (List Nat)}
    (hparity : parity = blocks.map fun block => reedSolomon block (versions version).ecPerBlock)
    (hlength : ∀ word ∈ parity, word.length = (versions version).ecPerBlock) :
    interleave version blocks = Lib.interleave ((blocks.map List.length).foldl max 0) blocks ++
      Lib.interleave (versions version).ecPerBlock parity := by
  have hrounds : (List.range (versions version).ecPerBlock).flatMap (column parity) =
      (List.range (versions version).ecPerBlock).flatMap fun index =>
        parity.map (·.getD index 0) :=
    List.flatMap_congr fun index hindex => column_eq_map hlength (List.mem_range.1 hindex)
  unfold interleave Lib.interleave
  rw [hrounds, hparity]
  rfl

theorem blockWords_interleave {version : Nat} {blocks : List (List Nat)}
    (hversion : 1 ≤ version ∧ version ≤ 10) (hbytes : ∀ block ∈ blocks, IsBytes block) :
    blockWords (blocks.map List.length) (versions version).ecPerBlock
      (interleave version blocks) =
        blocks.map fun block => block ++ reedSolomon block (versions version).ecPerBlock := by
  obtain ⟨hpos, hle⟩ := ecPerBlock_versions hversion
  set ecPerBlock := (versions version).ecPerBlock with hec
  set parity := blocks.map fun block => reedSolomon block ecPerBlock with hparity
  have hlength : ∀ word ∈ parity, word.length = ecPerBlock := by
    intro word hword
    obtain ⟨block, hblock, rfl⟩ := List.mem_map.1 hword
    obtain ⟨p, hp⟩ := (reedSolomon_divided (hbytes block hblock) hpos (by omega)).holds
    exact hp.length_eq
  have hlengths : parity.map List.length = List.replicate (blocks.map List.length).length
      ecPerBlock := by
    rw [List.eq_replicate_iff]
    refine ⟨by rw [List.length_map, hparity, List.length_map, List.length_map], ?_⟩
    intro n hn
    obtain ⟨word, hword, rfl⟩ := List.mem_map.1 hn
    exact hlength word hword
  have hlongest : ∀ block ∈ blocks, block.length ≤ (blocks.map List.length).foldl max 0 :=
    fun block hblock => le_longest_of_mem (List.mem_map_of_mem hblock)
  have hdrop : (interleave version blocks).drop (blocks.map List.length).sum =
      Lib.interleave ecPerBlock parity := by
    rw [interleave_parity hparity hlength, ← length_interleave hlongest, List.drop_left]
  have hback := deinterleave_interleave (fun word hword => (hlength word hword).le) []
  rw [List.append_nil, hlengths] at hback
  rw [blockWords, hdrop, hback, interleave_parity hparity hlength,
    deinterleave_interleave hlongest, hparity, List.zipWith_map_right, List.zipWith_self]

theorem isBytes_buildCodewords {version : Nat} {data : Bytes}
    (hversion : 1 ≤ version ∧ version ≤ 10) (hfits : Fits version data.length) :
    ∀ block ∈ buildCodewords version data, IsBytes block := by
  intro block hblock codeword hmem
  refine lt_of_mem_codewords hfits codeword ?_
  rw [← flatten_buildCodewords hversion hfits]
  exact List.mem_flatten_of_mem hblock hmem

/-- The tables multiply in the field of `0x11d`; parity behind data of any length is a codeword of
the code with the first powers of `alpha` as roots; and a symbol's codewords hold the blocks, each
with its parity. The blocks made of a text are such blocks of bytes. -/
theorem reedSolomon_codeword : IsFieldProduct multiply ∧
    (∀ data ecLength, IsBytes data → 1 ≤ ecLength → ecLength ≤ 254 →
      (reedSolomon data ecLength).length = ecLength ∧ IsBytes (reedSolomon data ecLength) ∧
        IsCodeword alpha ecLength ((data ++ reedSolomon data ecLength).map symbol)) ∧
    ∀ version, 1 ≤ version ∧ version ≤ 10 →
      (∀ blocks, (∀ block ∈ blocks, IsBytes block) →
        let ecPerBlock := (versions version).ecPerBlock
        let words := blockWords (blocks.map List.length) ecPerBlock (interleave version blocks)
        (words = blocks.map fun block => block ++ reedSolomon block ecPerBlock) ∧
          ∀ word ∈ words, IsCodeword alpha ecPerBlock (word.map symbol)) ∧
      ∀ data, Fits version data.length → ∀ block ∈ buildCodewords version data, IsBytes block := by
  refine ⟨multiply_isFieldProduct, ?_, fun version hversion => ⟨?_, ?_⟩⟩
  · intro data ecLength hdata hpos hle
    have hbound : ecLength ≤ 512 := by omega
    obtain ⟨p, hp⟩ := (reedSolomon_divided hdata hpos hbound).holds
    exact ⟨hp.length_eq, hp.bytes, reedSolomon_isCodeword hdata hpos hbound⟩
  · intro blocks hbytes ecPerBlock words
    obtain ⟨hpos, hle⟩ := ecPerBlock_versions hversion
    have hwords : words = blocks.map fun block => block ++ reedSolomon block ecPerBlock :=
      blockWords_interleave hversion hbytes
    refine ⟨hwords, fun word hword => ?_⟩
    rw [hwords] at hword
    obtain ⟨block, hblock, rfl⟩ := List.mem_map.1 hword
    exact reedSolomon_isCodeword (hbytes block hblock) hpos (by omega)
  · exact fun data hfits => isBytes_buildCodewords hversion hfits

theorem reedSolomon_codeword_four : reedSolomon [2, 7, 1, 8] 2 = [12, 0] ∧
    IsCodeword alpha 2 ([2, 7, 1, 8, 12, 0].map symbol) := by
  have hparity : reedSolomon [2, 7, 1, 8] 2 = [12, 0] := by decide +kernel
  have hbytes : IsBytes [2, 7, 1, 8] := by
    unfold IsBytes
    decide
  have hword := (reedSolomon_codeword.2.1 [2, 7, 1, 8] 2 hbytes (by decide) (by decide)).2.2
  rw [hparity] at hword
  exact ⟨hparity, hword⟩

end LeaveCli.Web.Qr
