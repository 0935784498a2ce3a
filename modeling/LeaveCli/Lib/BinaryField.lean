import Mathlib

/-!
# Numbers as polynomials over GF(2)

The bits of a number are the coefficients of a polynomial over the field of two elements. Modulo
the polynomial of a number of `width + 1` bits they are a ring of `2 ^ width` elements, one for each
number of `width` bits (`element_bijective`). Addition is exclusive or (`element_xor`), and `double`
multiplies by the root (`element_double`). Where the root has as many powers as there are elements
but zero, each of these is a power and the ring is a field (`isField_binaryRing`).
-/

namespace Lib

open Polynomial

section

variable {R : Type*} [CommRing R]

/-- The polynomial of the lowest bits of a number, at `a`. -/
def evalBits (a : R) (width n : ℕ) : R :=
  ∑ i ∈ Finset.range width, if n.testBit i then a ^ i else 0

theorem evalBits_xor [CharP R 2] (a : R) (width m n : ℕ) :
    evalBits a width (m ^^^ n) = evalBits a width m + evalBits a width n := by
  rw [evalBits, evalBits, evalBits, ← Finset.sum_add_distrib]
  refine Finset.sum_congr rfl fun i _ => ?_
  rw [Nat.testBit_xor]
  cases m.testBit i <;> cases n.testBit i <;> simp [CharTwo.add_self_eq_zero]

theorem evalBits_shiftLeft (a : R) (width n : ℕ) :
    evalBits a (width + 1) (n <<< 1) = a * evalBits a width n := by
  rw [evalBits, evalBits, Finset.sum_range_succ', Finset.mul_sum]
  simp [Nat.testBit_shiftLeft, pow_succ']

theorem evalBits_succ (a : R) (width n : ℕ) : evalBits a (width + 1) n =
    evalBits a width n + if n.testBit width then a ^ width else 0 :=
  Finset.sum_range_succ _ _

theorem evalBits_one (a : R) {width : ℕ} (h : 0 < width) : evalBits a width 1 = 1 := by
  rw [evalBits, Finset.sum_eq_single_of_mem 0 (Finset.mem_range.2 h)]
  · simp
  · intro i _ hne
    rw [Nat.testBit_lt_two_pow (Nat.one_lt_two_pow hne), if_neg Bool.false_ne_true]

theorem map_evalBits {S : Type*} [CommRing S] (f : R →+* S) (a : R) (width n : ℕ) :
    f (evalBits a width n) = evalBits (f a) width n := by
  rw [evalBits, map_sum]
  refine Finset.sum_congr rfl fun i _ => ?_
  rw [apply_ite f, map_pow, map_zero]

theorem coeff_evalBits (width n i : ℕ) :
    (evalBits (X : R[X]) width n).coeff i = if i < width ∧ n.testBit i then 1 else 0 := by
  rw [evalBits, finsetSum_coeff]
  by_cases h : i < width
  · rw [Finset.sum_eq_single_of_mem i (Finset.mem_range.2 h)]
    · by_cases hbit : n.testBit i <;> simp [h, hbit]
    · intro j _ hne
      split
      · simp [coeff_X_pow, hne.symm]
      · simp
  · rw [if_neg fun hi => h hi.1]
    refine Finset.sum_eq_zero fun j hj => ?_
    have hne : i ≠ j := fun heq => h (heq ▸ Finset.mem_range.1 hj)
    split
    · simp [coeff_X_pow, hne]
    · simp

theorem degree_evalBits_lt (width n : ℕ) : (evalBits (X : R[X]) width n).degree < width := by
  refine (degree_lt_iff_coeff_zero _ _).2 fun i hi => ?_
  rw [coeff_evalBits, if_neg fun h => absurd h.1 (Nat.not_lt.2 hi)]

end

/-- Twice a number, reduced by the modulus. -/
def double (width modulus n : ℕ) : ℕ :=
  if (n <<< 1).testBit width then n <<< 1 ^^^ modulus else n <<< 1

section

variable {width modulus : ℕ} (hmodulus : 2 ^ width ≤ modulus ∧ modulus < 2 ^ (width + 1))

include hmodulus

theorem testBit_modulus : modulus.testBit width = true := by
  obtain ⟨hle, hlt⟩ := hmodulus
  rw [Nat.testBit_eq_decide_div_mod_eq, decide_eq_true_eq]
  have hone : modulus / 2 ^ width = 1 := by
    refine Nat.div_eq_of_lt_le (by omega) ?_
    rw [Nat.pow_succ] at hlt
    omega
  rw [hone]

theorem double_lt {n : ℕ} (hn : n < 2 ^ width) : double width modulus n < 2 ^ width := by
  have hshift : n <<< 1 < 2 ^ (width + 1) := by
    rw [Nat.shiftLeft_eq, Nat.pow_succ]
    omega
  refine Nat.lt_pow_two_of_testBit _ fun i hi => ?_
  have hhigh {m : ℕ} (hm : m < 2 ^ (width + 1)) (hne : i ≠ width) : m.testBit i = false :=
    Nat.testBit_lt_two_pow (hm.trans_le (Nat.pow_le_pow_right Nat.two_pos (by omega)))
  unfold double
  by_cases hne : i = width
  · subst hne
    split
    · rename_i hbit
      rw [Nat.testBit_xor, hbit, testBit_modulus hmodulus]
      rfl
    · rename_i hbit
      exact Bool.eq_false_iff.2 hbit
  · split
    · rw [Nat.testBit_xor, hhigh hshift hne, hhigh hmodulus.2 hne]
      rfl
    · exact hhigh hshift hne

theorem evalBits_double {R : Type*} [CommRing R] [CharP R 2] {a : R}
    (hroot : evalBits a (width + 1) modulus = 0) {n : ℕ} (hn : n < 2 ^ width) :
    evalBits a width (double width modulus n) = a * evalBits a width n := by
  have hbit := Nat.testBit_lt_two_pow (double_lt hmodulus hn)
  have hwide := evalBits_succ a width (double width modulus n)
  rw [hbit, if_neg Bool.false_ne_true, add_zero] at hwide
  rw [← hwide, ← evalBits_shiftLeft]
  unfold double
  split
  · rw [evalBits_xor, hroot, add_zero]
  · rfl

end

/-! ## The ring of a modulus -/

section

variable (width modulus : ℕ)

/-- The modulus as a polynomial. -/
noncomputable def modulusPolynomial : (ZMod 2)[X] := evalBits X (width + 1) modulus

/-- The polynomials over GF(2) modulo the modulus. -/
abbrev BinaryRing : Type := AdjoinRoot (modulusPolynomial width modulus)

/-- The element that a number of `width` bits stands for. -/
noncomputable def element (n : ℕ) : BinaryRing width modulus :=
  evalBits (AdjoinRoot.root _) width n

end

section

variable {width modulus : ℕ}

theorem evalBits_root :
    evalBits (AdjoinRoot.root (modulusPolynomial width modulus)) (width + 1) modulus = 0 := by
  have hmap := map_evalBits (AdjoinRoot.mk (modulusPolynomial width modulus)) X (width + 1) modulus
  rw [AdjoinRoot.mk_X] at hmap
  exact hmap.symm.trans AdjoinRoot.mk_self

theorem element_one (hwidth : 0 < width) : element width modulus 1 = 1 := evalBits_one _ hwidth

theorem element_zero : element width modulus 0 = 0 := by
  rw [element, evalBits, Finset.sum_eq_zero fun i _ => by simp]

theorem element_eq_mk (n : ℕ) :
    element width modulus n = AdjoinRoot.mk _ (evalBits X width n) := by
  rw [map_evalBits, AdjoinRoot.mk_X, element]

variable (hmodulus : 2 ^ width ≤ modulus ∧ modulus < 2 ^ (width + 1))

include hmodulus

theorem modulusPolynomial_eq :
    modulusPolynomial width modulus = X ^ width + evalBits X width modulus := by
  rw [modulusPolynomial, evalBits_succ, testBit_modulus hmodulus, if_pos rfl, add_comm]

theorem monic_modulusPolynomial : (modulusPolynomial width modulus).Monic := by
  rw [modulusPolynomial_eq hmodulus]
  exact monic_X_pow_add (degree_evalBits_lt width modulus)

theorem degree_modulusPolynomial : (modulusPolynomial width modulus).degree = width := by
  rw [modulusPolynomial_eq hmodulus, degree_add_eq_left_of_degree_lt, degree_X_pow]
  rw [degree_X_pow]
  exact degree_evalBits_lt width modulus

theorem charP_binaryRing (hwidth : 0 < width) : CharP (BinaryRing width modulus) 2 := by
  have : Nontrivial (BinaryRing width modulus) := by
    refine AdjoinRoot.nontrivial _ ?_
    rw [degree_modulusPolynomial hmodulus]
    exact_mod_cast hwidth.ne'
  exact charP_of_injective_algebraMap (algebraMap (ZMod 2) _).injective 2

theorem element_xor (hwidth : 0 < width) (m n : ℕ) :
    element width modulus (m ^^^ n) = element width modulus m + element width modulus n := by
  have := charP_binaryRing hmodulus hwidth
  exact evalBits_xor _ width m n

theorem element_double (hwidth : 0 < width) {n : ℕ} (hn : n < 2 ^ width) :
    element width modulus (double width modulus n) =
      AdjoinRoot.root _ * element width modulus n := by
  have := charP_binaryRing hmodulus hwidth
  exact evalBits_double hmodulus evalBits_root hn

/-- Doubling one again and again goes through the powers of the root. -/
theorem element_iterate (hwidth : 0 < width) (i : ℕ) :
    (double width modulus)^[i] 1 < 2 ^ width ∧
      element width modulus ((double width modulus)^[i] 1) = AdjoinRoot.root _ ^ i := by
  induction i with
  | zero => exact ⟨Nat.one_lt_two_pow hwidth.ne', element_one hwidth⟩
  | succ i ih =>
    obtain ⟨hlt, helement⟩ := ih
    rw [Function.iterate_succ_apply', element_double hmodulus hwidth hlt, helement, pow_succ']
    exact ⟨double_lt hmodulus hlt, rfl⟩

/-! ## One element for each number -/

theorem element_ne_zero {n : ℕ} (hn : n < 2 ^ width) (hne : n ≠ 0) :
    element width modulus n ≠ 0 := by
  rw [element_eq_mk, Ne, AdjoinRoot.mk_eq_zero]
  have hdegree : (evalBits (X : (ZMod 2)[X]) width n).degree <
      (modulusPolynomial width modulus).degree := by
    rw [degree_modulusPolynomial hmodulus]
    exact degree_evalBits_lt width n
  refine (monic_modulusPolynomial hmodulus).not_dvd_of_degree_lt (fun hzero => hne ?_) hdegree
  refine Nat.eq_of_testBit_eq fun i => ?_
  rw [Nat.zero_testBit]
  by_cases hi : i < width
  · have hcoeff := coeff_evalBits (R := ZMod 2) width n i
    rw [hzero, coeff_zero] at hcoeff
    by_contra hbit
    rw [if_pos ⟨hi, Bool.not_eq_false _ ▸ hbit⟩] at hcoeff
    exact zero_ne_one hcoeff
  · exact Nat.testBit_lt_two_pow (hn.trans_le (Nat.pow_le_pow_right Nat.two_pos (by omega)))

theorem element_inj (hwidth : 0 < width) {m n : ℕ} (hm : m < 2 ^ width) (hn : n < 2 ^ width) :
    element width modulus m = element width modulus n ↔ m = n := by
  refine ⟨fun h => ?_, fun h => h ▸ rfl⟩
  have := charP_binaryRing hmodulus hwidth
  have hzero : element width modulus (m ^^^ n) = 0 := by
    rw [element_xor hmodulus hwidth, h, CharTwo.add_self_eq_zero]
  by_contra hne
  exact element_ne_zero hmodulus (Nat.xor_lt_two_pow hm hn) (Nat.xor_ne_zero_iff.2 hne) hzero

theorem natCard_binaryRing : Nat.card (BinaryRing width modulus) = 2 ^ width := by
  let basis := AdjoinRoot.powerBasis' (monic_modulusPolynomial hmodulus)
  have hdim : basis.dim = width :=
    natDegree_eq_of_degree_eq_some (degree_modulusPolynomial hmodulus)
  rw [Nat.card_congr basis.basis.equivFun.toEquiv, Nat.card_fun, Nat.card_zmod, Nat.card_fin, hdim]

theorem element_bijective (hwidth : 0 < width) :
    Function.Bijective fun n : Fin (2 ^ width) => element width modulus n := by
  have hfinite : Finite (BinaryRing width modulus) := by
    refine Nat.finite_of_card_ne_zero ?_
    rw [natCard_binaryRing hmodulus]
    exact (Nat.two_pow_pos width).ne'
  refine Function.Injective.bijective_of_nat_card_le (fun m n h => ?_) ?_
  · exact Fin.ext ((element_inj hmodulus hwidth m.isLt n.isLt).1 h)
  · rw [natCard_binaryRing hmodulus, Nat.card_fin]

/-! ## Where the root goes through all of them -/

/-- The order of the root is known from a few powers of it. -/
theorem orderOf_root (hwidth : 0 < width) {n : ℕ} (hn : 0 < n)
    (hone : (double width modulus)^[n] 1 = 1)
    (hne : ∀ p, p.Prime → p ∣ n → (double width modulus)^[n / p] 1 ≠ 1) :
    orderOf (AdjoinRoot.root (modulusPolynomial width modulus)) = n := by
  have hpow (i : ℕ) : AdjoinRoot.root (modulusPolynomial width modulus) ^ i = 1 ↔
      (double width modulus)^[i] 1 = 1 := by
    obtain ⟨hlt, helement⟩ := element_iterate hmodulus hwidth i
    rw [← helement, ← element_one hwidth]
    exact element_inj hmodulus hwidth hlt (Nat.one_lt_two_pow hwidth.ne')
  refine orderOf_eq_of_pow_and_pow_div_prime hn ((hpow n).2 hone) fun p hp hdvd h => ?_
  exact hne p hp hdvd ((hpow (n / p)).1 h)

variable (hwidth : 0 < width)
  (horder : orderOf (AdjoinRoot.root (modulusPolynomial width modulus)) = 2 ^ width - 1)

include hwidth horder

theorem iterate_double_ne_zero {i : ℕ} (hi : i < 2 ^ width - 1) :
    (double width modulus)^[i] 1 ≠ 0 := by
  intro hzero
  have hpow := (element_iterate hmodulus hwidth i).2
  have hone : AdjoinRoot.root (modulusPolynomial width modulus) ^ (2 ^ width - 1) = 1 :=
    horder ▸ pow_orderOf_eq_one _
  rw [hzero, element_zero] at hpow
  rw [← Nat.add_sub_of_le hi.le, pow_add, ← hpow, zero_mul] at hone
  refine element_ne_zero hmodulus (Nat.one_lt_two_pow hwidth.ne') one_ne_zero ?_
  rw [element_one hwidth, ← hone]

theorem iterate_double_inj {i j : ℕ} (hi : i < 2 ^ width - 1) (hj : j < 2 ^ width - 1) :
    (double width modulus)^[i] 1 = (double width modulus)^[j] 1 ↔ i = j := by
  refine ⟨fun h => ?_, fun h => h ▸ rfl⟩
  have hpow := congrArg (element width modulus) h
  rw [(element_iterate hmodulus hwidth i).2, (element_iterate hmodulus hwidth j).2] at hpow
  rw [← horder] at hi hj
  exact pow_injOn_Iio_orderOf hi hj hpow

/-- Doubling one comes to every number but zero. -/
theorem exists_iterate_double {n : ℕ} (hn : n < 2 ^ width) (hne : n ≠ 0) :
    ∃ i < 2 ^ width - 1, (double width modulus)^[i] 1 = n := by
  have hmaps : ∀ i ∈ Finset.range (2 ^ width - 1),
      (double width modulus)^[i] 1 ∈ Finset.Ico 1 (2 ^ width) := by
    intro i hi
    have hpos := iterate_double_ne_zero hmodulus hwidth horder (Finset.mem_range.1 hi)
    exact Finset.mem_Ico.2 ⟨Nat.one_le_iff_ne_zero.2 hpos, (element_iterate hmodulus hwidth i).1⟩
  have hinj : Set.InjOn (fun i => (double width modulus)^[i] 1)
      (Finset.range (2 ^ width - 1)) := by
    intro i hi j hj h
    rw [Finset.coe_range] at hi hj
    exact (iterate_double_inj hmodulus hwidth horder hi hj).1 h
  have hall := Finset.surjOn_of_injOn_of_card_le _ hmaps hinj (by simp)
  obtain ⟨i, hi, h⟩ := hall (Finset.mem_coe.2 (Finset.mem_Ico.2
    ⟨Nat.one_le_iff_ne_zero.2 hne, hn⟩))
  exact ⟨i, Finset.mem_range.1 hi, h⟩

theorem exists_root_pow {x : BinaryRing width modulus} (hx : x ≠ 0) :
    ∃ i < 2 ^ width - 1, AdjoinRoot.root _ ^ i = x := by
  obtain ⟨n, rfl⟩ := (element_bijective hmodulus hwidth).surjective x
  have hne : (n : ℕ) ≠ 0 := by
    intro hzero
    exact hx (congrArg (element width modulus) hzero |>.trans element_zero)
  obtain ⟨i, hi, h⟩ := exists_iterate_double hmodulus hwidth horder n.isLt hne
  exact ⟨i, hi, by rw [← (element_iterate hmodulus hwidth i).2, h]⟩

theorem isField_binaryRing : IsField (BinaryRing width modulus) where
  exists_pair_ne := by
    have := charP_binaryRing hmodulus hwidth
    refine ⟨1, 0, fun h => ?_⟩
    exact element_ne_zero hmodulus (Nat.one_lt_two_pow hwidth.ne') one_ne_zero
      ((element_one hwidth).trans h)
  mul_comm := mul_comm
  mul_inv_cancel {x} hx := by
    obtain ⟨i, hi, rfl⟩ := exists_root_pow hmodulus hwidth horder hx
    refine ⟨AdjoinRoot.root _ ^ (2 ^ width - 1 - i), ?_⟩
    rw [← pow_add, Nat.add_sub_of_le hi.le, ← horder, pow_orderOf_eq_one]

end

end Lib
