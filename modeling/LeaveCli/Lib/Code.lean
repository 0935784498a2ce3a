import Mathlib.Algebra.BigOperators.Group.Finset.Piecewise
import Mathlib.Algebra.Order.BigOperators.Group.Finset
import Mathlib.Data.Finset.Card

/-!
# Codes that correct errors

`mismatches` is the distance of two words of one length (`mismatches_comm`, `mismatches_triangle`),
which adds up along them (`mismatches_append`).
Where any two words of a code that differ do so in more than `check` places (`Separated`), a word
with at most half as many errors is close to one codeword only, and `repair` finds it
(`repair_eq`).
-/

namespace Lib

variable {α : Type*} [DecidableEq α]

/-- The number of places where `v` differs from `u`. -/
def mismatches (u v : List α) : Nat := ((Finset.range u.length).filter fun i => u[i]? ≠ v[i]?).card

theorem mismatches_comm {u v : List α} (h : u.length = v.length) :
    mismatches u v = mismatches v u := by
  rw [mismatches, mismatches, h]
  simp only [ne_comm]

theorem mismatches_triangle {u v : List α} (h : u.length = v.length) (w : List α) :
    mismatches u w ≤ mismatches u v + mismatches v w := by
  unfold mismatches
  rw [← h]
  refine (Finset.card_le_card fun i hi => ?_).trans (Finset.card_union_le _ _)
  rw [Finset.mem_filter] at hi
  rw [Finset.mem_union, Finset.mem_filter, Finset.mem_filter]
  by_cases hsame : u[i]? = v[i]?
  · exact .inr ⟨hi.1, hsame ▸ hi.2⟩
  · exact .inl ⟨hi.1, hsame⟩

@[simp] theorem mismatches_nil (v : List α) : mismatches [] v = 0 := rfl

theorem mismatches_cons (x y : α) (u v : List α) :
    mismatches (x :: u) (y :: v) = mismatches u v + if x = y then 0 else 1 := by
  rw [mismatches, mismatches, Finset.card_filter, Finset.card_filter, List.length_cons,
    Finset.sum_range_succ']
  simp

theorem mismatches_append {u v : List α} (h : u.length = v.length) (u' v' : List α) :
    mismatches (u ++ u') (v ++ v') = mismatches u v + mismatches u' v' := by
  induction u generalizing v with
  | nil =>
    rw [List.eq_nil_of_length_eq_zero h.symm]
    simp
  | cons x u ih =>
    cases v with
    | nil => cases h
    | cons y v =>
      rw [List.cons_append, List.cons_append, mismatches_cons, mismatches_cons,
        ih (Nat.succ.inj h)]
      omega

theorem mismatches_take_drop {u v : List α} (h : u.length = v.length) (n : Nat) :
    mismatches (u.take n) (v.take n) + mismatches (u.drop n) (v.drop n) = mismatches u v := by
  rw [← mismatches_append (by rw [List.length_take, List.length_take, h]), List.take_append_drop,
    List.take_append_drop]

theorem mismatches_pos {u v : List α} (h : u.length = v.length) (hne : u ≠ v) :
    0 < mismatches u v := by
  by_contra hzero
  refine hne (List.ext_getElem? fun i => ?_)
  by_cases hi : i < u.length
  · by_contra hdiffers
    rw [mismatches, Nat.pos_iff_ne_zero, not_not, Finset.card_eq_zero] at hzero
    have hmem : i ∈ (Finset.range u.length).filter fun i => u[i]? ≠ v[i]? :=
      Finset.mem_filter.2 ⟨Finset.mem_range.2 hi, hdiffers⟩
    rw [hzero] at hmem
    cases hmem
  · rw [List.getElem?_eq_none (by omega), List.getElem?_eq_none (by omega)]

/-- Two functions that agree outside a set are read alike along a list but at its members. -/
theorem mismatches_map_le {β : Type*} [DecidableEq β] {f g : β → α} {xs : List β} (h : xs.Nodup)
    (wrong : Finset β) (hsame : ∀ x ∈ xs, x ∉ wrong → f x = g x) :
    mismatches (xs.map f) (xs.map g) ≤ wrong.card := by
  induction xs generalizing wrong with
  | nil => exact Nat.zero_le _
  | cons x xs ih =>
    obtain ⟨hnew, hnodup⟩ := List.nodup_cons.1 h
    rw [List.map_cons, List.map_cons, mismatches_cons]
    by_cases hx : f x = g x
    · rw [if_pos hx]
      exact ih hnodup wrong fun y hy => hsame y (List.mem_cons_of_mem x hy)
    · have hwrong : x ∈ wrong := by
        by_contra hnot
        exact hx (hsame x List.mem_cons_self hnot)
      have hrest := ih hnodup (wrong.erase x) fun y hy hnot => by
        refine hsame y (List.mem_cons_of_mem x hy) fun hmem => hnot (Finset.mem_erase.2 ⟨?_, hmem⟩)
        rintro rfl
        exact hnew hy
      rw [Finset.card_erase_of_mem hwrong] at hrest
      have hpos := Finset.card_pos.2 ⟨x, hwrong⟩
      rw [if_neg hx]
      omega

/-! ## Repair -/

/-- Two words of one length with so few mismatches are the same. -/
def Separated (code : List α → Prop) (check : Nat) : Prop :=
  ∀ u v, code u → code v → u.length = v.length → mismatches u v ≤ check → u = v

open Classical in
/-- The codeword with at most half of `check` errors, when there is one. -/
noncomputable def repair (code : List α → Prop) (check : Nat) (word : List α) : List α :=
  if h : ∃ right, code right ∧ right.length = word.length ∧ 2 * mismatches right word ≤ check
  then h.choose else word

theorem repair_eq {code : List α → Prop} {check : Nat} (hcode : Separated code check)
    {word right : List α} (hright : code right) (hlength : right.length = word.length)
    (herrors : 2 * mismatches right word ≤ check) : repair code check word = right := by
  have hex : ∃ right, code right ∧ right.length = word.length ∧
      2 * mismatches right word ≤ check := ⟨right, hright, hlength, herrors⟩
  obtain ⟨hfound, hfoundLength, hfoundErrors⟩ := hex.choose_spec
  rw [repair, dif_pos hex]
  refine hcode _ _ hfound hright (hfoundLength.trans hlength.symm) ?_
  have htriangle := mismatches_triangle hfoundLength right
  rw [mismatches_comm hlength] at herrors
  omega

end Lib
