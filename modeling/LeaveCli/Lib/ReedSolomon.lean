import Mathlib

/-!
# Reed-Solomon codes

A word is the list of coefficients of a polynomial, the highest first (`ofCoeffs`), and a codeword
of the code with `n` check symbols is one whose polynomial vanishes at the first `n` powers of `a`.
`ofCoeffs_append`, `ofCoeffs_modify` and `ofCoeffs_shift` say what the operations of a shift
register do to the polynomial of its contents. A register that feeds back the generator keeps the
polynomial of what it has read and what it holds a multiple of it (`dvd_register_step`), so its
contents are check symbols (`isCodeword_of_dvd`). Two codewords with at most as many differences as
there are check symbols are the same (`eq_of_agree`).
-/

namespace Lib

open Polynomial

variable {R : Type*} [CommRing R]

noncomputable def ofCoeffs (word : List R) : R[X] := word.foldl (fun p c => p * X + C c) 0

theorem ofCoeffs_concat (word : List R) (c : R) :
    ofCoeffs (word ++ [c]) = ofCoeffs word * X + C c := by
  rw [ofCoeffs, List.foldl_append]
  rfl

theorem ofCoeffs_append (front back : List R) :
    ofCoeffs (front ++ back) = ofCoeffs front * X ^ back.length + ofCoeffs back := by
  induction back using List.reverseRecOn with
  | nil => simp [ofCoeffs]
  | append_singleton back c ih =>
    rw [← List.append_assoc, ofCoeffs_concat, ih, ofCoeffs_concat, List.length_append,
      List.length_singleton]
    ring

theorem ofCoeffs_cons (c : R) (word : List R) :
    ofCoeffs (c :: word) = C c * X ^ word.length + ofCoeffs word := by
  have hfront : ofCoeffs [c] = C c := by simp [ofCoeffs]
  rw [← List.singleton_append, ofCoeffs_append, hfront]

theorem ofCoeffs_replicate_zero (n : ℕ) : ofCoeffs (List.replicate n (0 : R)) = 0 := by
  induction n with
  | zero => rfl
  | succ n ih => rw [List.replicate_succ, ofCoeffs_cons, ih, C_0, zero_mul, add_zero]

/-- A symbol that grows adds to one coefficient. -/
theorem ofCoeffs_modify {word : List R} {i : ℕ} (h : i < word.length) (c : R) :
    ofCoeffs (word.modify i (· + c)) = ofCoeffs word + C c * X ^ (word.length - 1 - i) := by
  induction word generalizing i with
  | nil => cases h
  | cons x word ih =>
    cases i with
    | zero =>
      rw [List.modify_zero_cons, ofCoeffs_cons, ofCoeffs_cons, C_add, List.length_cons,
        Nat.add_sub_cancel, Nat.sub_zero]
      ring
    | succ i =>
      have hi : i < word.length := Nat.succ_lt_succ_iff.1 h
      have hplace : (x :: word).length - 1 - (i + 1) = word.length - 1 - i := by
        rw [List.length_cons]
        omega
      rw [List.modify_succ_cons, ofCoeffs_cons, ofCoeffs_cons, ih hi, List.length_modify, hplace]
      ring

/-- The polynomial as the sum of its terms. -/
theorem ofCoeffs_eq_sum (word : List R) : ofCoeffs word =
    ∑ i ∈ Finset.range word.length, C (word.getD i 0) * X ^ (word.length - 1 - i) := by
  induction word with
  | nil => rfl
  | cons c word ih =>
    rw [ofCoeffs_cons, ih, List.length_cons, Finset.sum_range_succ', add_comm]
    refine congrArg₂ _ (Finset.sum_congr rfl fun i _ => ?_) (by simp)
    rw [List.getD_cons_succ, Nat.add_sub_cancel, Nat.add_comm i, Nat.sub_sub]

/-- A shift register drops its first symbol and takes in a zero. -/
theorem ofCoeffs_shift (word : List R) (hne : word ≠ []) :
    ofCoeffs (word.tail ++ [0]) + C (word.getD 0 0) * X ^ word.length = ofCoeffs word * X := by
  obtain ⟨c, word, rfl⟩ := List.exists_cons_of_ne_nil hne
  rw [List.tail_cons, ofCoeffs_concat, ofCoeffs_cons, List.getD_cons_zero, List.length_cons, C_0]
  ring

theorem degree_ofCoeffs_lt (word : List R) : (ofCoeffs word).degree < word.length := by
  induction word with
  | nil => exact bot_lt_iff_ne_bot.2 (by simp)
  | cons c word ih =>
    rw [ofCoeffs_cons, List.length_cons]
    have hlt : (word.length : WithBot ℕ) < (word.length + 1 : ℕ) := by
      exact_mod_cast Nat.lt_succ_self _
    exact (degree_add_le _ _).trans_lt
      (max_lt ((degree_C_mul_X_pow_le _ _).trans_lt hlt) (ih.trans hlt))

/-- The word of a monic polynomial starts with one. -/
theorem eq_cons_of_monic {word : List R} (hmonic : (ofCoeffs word).Monic)
    (hlength : word.length = (ofCoeffs word).natDegree + 1) : word = 1 :: word.tail := by
  obtain ⟨c, word, rfl⟩ := List.exists_cons_of_length_eq_add_one hlength
  have hdegree : word.length = (ofCoeffs (c :: word)).natDegree := Nat.succ.inj hlength
  have hrest : (ofCoeffs word).coeff word.length = 0 :=
    coeff_eq_zero_of_degree_lt (degree_ofCoeffs_lt word)
  have hlead : (ofCoeffs (c :: word)).coeff word.length = 1 := by
    rw [hdegree]
    exact hmonic
  rw [ofCoeffs_cons, coeff_add, coeff_C_mul_X_pow, if_pos rfl, hrest, add_zero] at hlead
  rw [hlead, List.tail_cons]

/-! ## Codewords -/

/-- The polynomial of a word vanishes at the first `n` powers of `a`. -/
def IsCodeword (a : R) (n : ℕ) (word : List R) : Prop :=
  ∀ i < n, (ofCoeffs word).eval (a ^ i) = 0

/-- The polynomial with the first `n` powers of `a` as its roots. -/
noncomputable def generatorPolynomial (a : R) (n : ℕ) : R[X] :=
  ∏ i ∈ Finset.range n, (X - C (a ^ i))

theorem generatorPolynomial_succ (a : R) (n : ℕ) :
    generatorPolynomial a (n + 1) = generatorPolynomial a n * (X - C (a ^ n)) :=
  Finset.prod_range_succ _ _

theorem monic_generatorPolynomial (a : R) (n : ℕ) : (generatorPolynomial a n).Monic :=
  monic_prod_X_sub_C _ _

theorem natDegree_generatorPolynomial [Nontrivial R] (a : R) (n : ℕ) :
    (generatorPolynomial a n).natDegree = n := by
  rw [generatorPolynomial, natDegree_finsetProd_X_sub_C_eq_card, Finset.card_range]

theorem isCodeword_of_dvd {a : R} {n : ℕ} {word : List R}
    (h : generatorPolynomial a n ∣ ofCoeffs word) : IsCodeword a n word := by
  intro i hi
  refine eval_eq_zero_of_dvd_of_eval_eq_zero h ?_
  rw [generatorPolynomial, eval_prod]
  exact Finset.prod_eq_zero (Finset.mem_range.2 hi) (by simp)

/-- A shift register takes in a symbol and feeds what comes out back through the coefficients of the
generator behind its first. -/
theorem dvd_register_step {data register next feedback : List R} {symbol : R}
    (hne : register ≠ []) (hregister : register.length = feedback.length)
    (hlength : next.length = feedback.length)
    (hnext : ofCoeffs next =
      ofCoeffs (register.tail ++ [0]) + C (symbol - register.getD 0 0) * ofCoeffs feedback)
    (h : ofCoeffs (1 :: feedback) ∣ ofCoeffs (data ++ register)) :
    ofCoeffs (1 :: feedback) ∣ ofCoeffs (data ++ [symbol] ++ next) := by
  have hshift := ofCoeffs_shift register hne
  have hword : ofCoeffs (data ++ [symbol] ++ next) = ofCoeffs (data ++ register) * X +
      C (symbol - register.getD 0 0) * ofCoeffs (1 :: feedback) := by
    rw [ofCoeffs_append, ofCoeffs_concat, ofCoeffs_append, ofCoeffs_cons, hnext, hlength,
      hregister, C_1, C_sub]
    rw [hregister] at hshift
    linear_combination hshift
  rw [hword]
  exact dvd_add (h.mul_right X) (Dvd.intro_left _ rfl)

/-! ## Distance -/

/-- Where a combination of the powers of points vanishes, for as many powers as there are points,
it is the trivial one. -/
theorem eq_zero_of_power_sums [IsDomain R] {places : Finset ℕ} {n : ℕ} (hcard : places.card ≤ n)
    {point value : ℕ → R} (hpoint : Set.InjOn point places)
    (hsum : ∀ j < n, ∑ i ∈ places, value i * point i ^ j = 0) : ∀ i ∈ places, value i = 0 := by
  let place := places.orderEmbOfFin rfl
  have hzero : (fun k => value (place k)) = 0 := by
    refine Matrix.eq_zero_of_forall_pow_sum_mul_pow_eq_zero (f := fun k => point (place k))
      (fun k l hkl => ?_) fun j => ?_
    · exact place.injective (hpoint (places.orderEmbOfFin_mem rfl k)
        (places.orderEmbOfFin_mem rfl l) hkl)
    · have hterms := hsum j (j.isLt.trans_le hcard)
      rw [← Finset.sum_coe_sort] at hterms
      rw [← hterms]
      exact Fintype.sum_equiv (places.orderIsoOfFin rfl).toEquiv
        (fun k => value (place k) * point (place k) ^ (j : ℕ))
        (fun i : places => value i * point i ^ (j : ℕ)) fun k => rfl
  intro i hi
  have hrange : i ∈ Set.range place := by
    rw [Finset.range_orderEmbOfFin]
    exact hi
  obtain ⟨k, rfl⟩ := hrange
  exact congrFun hzero k

theorem eval_ofCoeffs (word : List R) (x : R) : (ofCoeffs word).eval x =
    ∑ i ∈ Finset.range word.length, word.getD i 0 * x ^ (word.length - 1 - i) := by
  rw [ofCoeffs_eq_sum, eval_finsetSum]
  exact Finset.sum_congr rfl fun i _ => by simp

/-- Codewords that agree but for as many places as there are check symbols are the same. -/
theorem eq_of_agree [IsDomain R] {a : R} {n : ℕ} {u v : List R} (hlength : u.length = v.length)
    (hdistinct : Set.InjOn (a ^ ·) (Set.Iio u.length)) (hu : IsCodeword a n u)
    (hv : IsCodeword a n v) {places : Finset ℕ} (hcard : places.card ≤ n)
    (hagree : ∀ i < u.length, i ∉ places → u.getD i 0 = v.getD i 0) : u = v := by
  let value (i : ℕ) : R := u.getD i 0 - v.getD i 0
  have hsums : ∀ j < n, ∑ i ∈ places.filter (· < u.length),
      value i * (a ^ (u.length - 1 - i)) ^ j = 0 := by
    intro j hj
    have hdifference : ∑ i ∈ Finset.range u.length, value i * (a ^ (u.length - 1 - i)) ^ j = 0 := by
      have hleft := hu j hj
      have hright := hv j hj
      rw [eval_ofCoeffs] at hleft hright
      rw [← hlength] at hright
      have hboth := congrArg₂ (· - ·) hleft hright
      rw [sub_zero, ← Finset.sum_sub_distrib] at hboth
      rw [← hboth]
      refine Finset.sum_congr rfl fun i _ => ?_
      rw [← pow_mul, ← pow_mul, mul_comm j, sub_mul]
    rw [← hdifference]
    refine Finset.sum_subset (fun i hi => ?_) fun i hi hother => ?_
    · exact Finset.mem_range.2 (Finset.mem_filter.1 hi).2
    · have hlt := Finset.mem_range.1 hi
      have hsame := hagree i hlt fun hmem => hother (Finset.mem_filter.2 ⟨hmem, hlt⟩)
      rw [show value i = 0 from sub_eq_zero.2 hsame, zero_mul]
  have hpoints : Set.InjOn (fun i => a ^ (u.length - 1 - i)) (places.filter (· < u.length)) := by
    intro i hi j hj heq
    have hi := (Finset.mem_filter.1 hi).2
    have hj := (Finset.mem_filter.1 hj).2
    have hexponent : u.length - 1 - i = u.length - 1 - j :=
      hdistinct (Set.mem_Iio.2 (by omega)) (Set.mem_Iio.2 (by omega)) heq
    omega
  have hzero := eq_zero_of_power_sums ((Finset.card_filter_le _ _).trans hcard) hpoints hsums
  refine List.ext_getElem hlength fun i hi hi' => ?_
  have hsame : u.getD i 0 = v.getD i 0 := by
    by_cases hmem : i ∈ places
    · exact sub_eq_zero.1 (hzero i (Finset.mem_filter.2 ⟨hmem, hi⟩))
    · exact hagree i hi hmem
  rwa [List.getD_eq_getElem _ _ hi, List.getD_eq_getElem _ _ hi'] at hsame

end Lib
