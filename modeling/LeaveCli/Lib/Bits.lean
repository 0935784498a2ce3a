import Mathlib.Data.Nat.Bitwise
import Mathlib.Tactic.Ring

/-!
# Numbers as bits

Bits are written from the highest to the lowest. `toBits` and `ofBits` undo each other for a given
length; `octets` reads a list of bits eight at a time and drops what is left at its end.
-/

namespace Lib

/-- The lowest bits of a number. -/
def toBits : Nat → Nat → List Bool
  | 0, _ => []
  | length + 1, value => value.testBit length :: toBits length value

def ofBits (bits : List Bool) : Nat := bits.foldl (fun value bit => 2 * value + bit.toNat) 0

def octets : List Bool → List Nat
  | a :: b :: c :: d :: e :: f :: g :: h :: bits => ofBits [a, b, c, d, e, f, g, h] :: octets bits
  | _ => []

@[simp] theorem length_toBits (length value : Nat) : (toBits length value).length = length := by
  induction length with
  | zero => rfl
  | succ length ih => rw [toBits, List.length_cons, ih]

theorem foldl_bits (bits : List Bool) (value : Nat) :
    bits.foldl (fun value bit => 2 * value + bit.toNat) value =
      2 ^ bits.length * value + ofBits bits := by
  induction bits generalizing value with
  | nil => simp [ofBits]
  | cons bit bits ih =>
    rw [ofBits, List.foldl_cons, List.foldl_cons, ih, ih (2 * 0 + bit.toNat), List.length_cons]
    ring

theorem ofBits_cons (bit : Bool) (bits : List Bool) :
    ofBits (bit :: bits) = 2 ^ bits.length * bit.toNat + ofBits bits := by
  rw [ofBits, List.foldl_cons, foldl_bits, Nat.mul_zero, Nat.zero_add]

theorem ofBits_lt (bits : List Bool) : ofBits bits < 2 ^ bits.length := by
  induction bits with
  | nil => exact Nat.one_pos
  | cons bit bits ih =>
    have hbit := Bool.toNat_le bit
    have hle : 2 ^ bits.length * bit.toNat ≤ 2 ^ bits.length * 1 := Nat.mul_le_mul_left _ hbit
    rw [ofBits_cons, List.length_cons, Nat.pow_succ]
    omega

theorem ofBits_toBits_mod (length value : Nat) :
    ofBits (toBits length value) = value % 2 ^ length := by
  induction length with
  | zero => rw [Nat.pow_zero, Nat.mod_one]; rfl
  | succ length ih =>
    rw [toBits, ofBits_cons, length_toBits, ih, Nat.mod_pow_succ, Nat.toNat_testBit, Nat.add_comm]

theorem ofBits_toBits {length value : Nat} (h : value < 2 ^ length) :
    ofBits (toBits length value) = value := by
  rw [ofBits_toBits_mod, Nat.mod_eq_of_lt h]

theorem toBits_congr {length a b : Nat} (h : ∀ i < length, a.testBit i = b.testBit i) :
    toBits length a = toBits length b := by
  induction length with
  | zero => rfl
  | succ length ih =>
    rw [toBits, toBits, h length (Nat.lt_succ_self length),
      ih fun i hi => h i (Nat.lt_succ_of_lt hi)]

theorem toBits_ofBits (bits : List Bool) : toBits bits.length (ofBits bits) = bits := by
  induction bits with
  | nil => rfl
  | cons bit bits ih =>
    have htop : (ofBits (bit :: bits)).testBit bits.length = bit := by
      rw [ofBits_cons, Nat.testBit_two_pow_mul_add _ (ofBits_lt bits), if_neg (Nat.lt_irrefl _),
        Nat.sub_self]
      cases bit <;> rfl
    have hrest : toBits bits.length (ofBits (bit :: bits)) = toBits bits.length (ofBits bits) := by
      refine toBits_congr fun i hi => ?_
      rw [ofBits_cons, Nat.testBit_two_pow_mul_add _ (ofBits_lt bits), if_pos hi]
    rw [List.length_cons, toBits, htop, hrest, ih]

/-! ## Octets -/

theorem octets_append_eight {bits : List Bool} (h : bits.length = 8) (rest : List Bool) :
    octets (bits ++ rest) = ofBits bits :: octets rest := by
  match bits, h with
  | [_, _, _, _, _, _, _, _], _ => rfl

theorem octets_toBits {values : List Nat} (h : ∀ value ∈ values, value < 256) (rest : List Bool) :
    octets (values.flatMap (toBits 8) ++ rest) = values ++ octets rest := by
  induction values with
  | nil => rfl
  | cons value values ih =>
    obtain ⟨hvalue, hvalues⟩ := List.forall_mem_cons.1 h
    rw [List.flatMap_cons, List.append_assoc, octets_append_eight (length_toBits 8 value),
      ofBits_toBits hvalue, ih hvalues, List.cons_append]

/-- A list of `8 * n` bits is read in front of the others. -/
theorem exists_eight {n : Nat} {bits : List Bool} (h : bits.length = 8 * (n + 1)) :
    ∃ front rest, bits = front ++ rest ∧ front.length = 8 ∧ rest.length = 8 * n := by
  refine ⟨bits.take 8, bits.drop 8, (List.take_append_drop 8 bits).symm, ?_, ?_⟩
  · rw [List.length_take]
    omega
  · rw [List.length_drop]
    omega

theorem flatMap_toBits_octets {n : Nat} {bits : List Bool} (h : bits.length = 8 * n) :
    (octets bits).flatMap (toBits 8) = bits := by
  induction n generalizing bits with
  | zero =>
    obtain rfl := List.eq_nil_of_length_eq_zero h
    rfl
  | succ n ih =>
    obtain ⟨front, rest, rfl, hfront, hrest⟩ := exists_eight h
    have hbits : toBits 8 (ofBits front) = front := hfront ▸ toBits_ofBits front
    rw [octets_append_eight hfront, List.flatMap_cons, ih hrest, hbits]

theorem length_octets {n : Nat} {bits : List Bool} (h : bits.length = 8 * n) :
    (octets bits).length = n := by
  induction n generalizing bits with
  | zero =>
    obtain rfl := List.eq_nil_of_length_eq_zero h
    rfl
  | succ n ih =>
    obtain ⟨front, rest, rfl, hfront, hrest⟩ := exists_eight h
    rw [octets_append_eight hfront, List.length_cons, ih hrest]

theorem lt_of_mem_octets {bits : List Bool} {value : Nat} (h : value ∈ octets bits) :
    value < 256 := by
  fun_induction octets bits with
  | case1 a b c d e f g h' bits ih =>
    rcases List.mem_cons.1 h with rfl | h
    · have hlt : ofBits [a, b, c, d, e, f, g, h'] < 2 ^ 8 := ofBits_lt [a, b, c, d, e, f, g, h']
      exact hlt
    · exact ih h
  | case2 bits hbits => exact absurd h List.not_mem_nil

end Lib
