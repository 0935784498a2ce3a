import Mathlib.Algebra.BigOperators.Group.List.Basic
import Mathlib.Algebra.GroupWithZero.Nat
import Mathlib.Data.List.Basic

/-!
# Interleaving blocks

`interleave` takes the first element of every block, then the second of those that have one, and so
on; `deinterleave` deals a list out again to blocks of given lengths. Blocks may be of different
lengths, and the list may go on behind the blocks (`deinterleave_interleave`). How long the blocks
are that a list is dealt to does not depend on what is in it (`deinterleave_lengths`), nor what is
in them on what follows (`deinterleave_take`). `slices` cuts a list into blocks of given lengths.
-/

namespace Lib

variable {α : Type*}

theorem forall₂_zipWith {β γ : Type*} {r : α → α → Prop} {r' : β → β → Prop}
    {q : γ → γ → Prop} {f : α → β → γ} (hf : ∀ a a' b b', r a a' → r' b b' → q (f a b) (f a' b'))
    {as as' : List α} {bs bs' : List β} (ha : List.Forall₂ r as as') (hb : List.Forall₂ r' bs bs') :
    List.Forall₂ q (List.zipWith f as bs) (List.zipWith f as' bs') := by
  induction ha generalizing bs bs' with
  | nil => exact .nil
  | cons hhead _ ih =>
    cases hb with
    | nil => exact .nil
    | cons hhead' htail' => exact .cons (hf _ _ _ _ hhead hhead') (ih htail')

theorem forall_mem_zipWith {β γ : Type*} {p : γ → Prop} {f : α → β → γ} {as : List α}
    {bs : List β} (h : List.Forall₂ (fun a b => p (f a b)) as bs) :
    ∀ c ∈ List.zipWith f as bs, p c := by
  induction h with
  | nil => exact List.forall_mem_nil _
  | cons hhead _ ih => exact List.forall_mem_cons.2 ⟨hhead, ih⟩

/-- The element at one index of every block that has one. -/
def column (blocks : List (List α)) (index : Nat) : List α := blocks.filterMap (·[index]?)

def interleave (rounds : Nat) (blocks : List (List α)) : List α :=
  (List.range rounds).flatMap (column blocks)

/-- One element for every block that is not full, and what is left. -/
def deal : List Nat → List α → List (Option α) × List α
  | [], stream => ([], stream)
  | 0 :: lengths, stream =>
    let dealt := deal lengths stream
    (none :: dealt.1, dealt.2)
  | (_ + 1) :: lengths, stream =>
    let dealt := deal lengths stream.tail
    (stream.head? :: dealt.1, dealt.2)

def deinterleave : Nat → List Nat → List α → List (List α)
  | 0, lengths, _ => lengths.map fun _ => []
  | rounds + 1, lengths, stream =>
    let dealt := deal lengths stream
    List.zipWith (fun head block => head.toList ++ block) dealt.1
      (deinterleave rounds (lengths.map Nat.pred) dealt.2)

theorem column_succ (blocks : List (List α)) (index : Nat) :
    column blocks (index + 1) = column (blocks.map List.tail) index := by
  rw [column, column, List.filterMap_map]
  exact List.filterMap_congr fun block _ => List.getElem?_tail.symm

theorem interleave_succ (rounds : Nat) (blocks : List (List α)) :
    interleave (rounds + 1) blocks =
      blocks.filterMap List.head? ++ interleave rounds (blocks.map List.tail) := by
  have hheads : column blocks 0 = blocks.filterMap List.head? :=
    List.filterMap_congr fun block _ => List.head?_eq_getElem?.symm
  rw [interleave, List.range_succ_eq_map, List.flatMap_cons, List.flatMap_map, hheads, interleave]
  exact congrArg _ (List.flatMap_congr fun index _ => column_succ blocks index)

theorem deal_heads (blocks : List (List α)) (rest : List α) :
    deal (blocks.map List.length) (blocks.filterMap List.head? ++ rest) =
      (blocks.map List.head?, rest) := by
  induction blocks with
  | nil => rfl
  | cons block blocks ih =>
    cases block with
    | nil =>
      rw [List.filterMap_cons_none rfl]
      simp [deal, ih]
    | cons x block => simp [deal, ih]

theorem deinterleave_interleave {rounds : Nat} {blocks : List (List α)}
    (h : ∀ block ∈ blocks, block.length ≤ rounds) (rest : List α) :
    deinterleave rounds (blocks.map List.length) (interleave rounds blocks ++ rest) = blocks := by
  induction rounds generalizing blocks with
  | zero =>
    rw [deinterleave, List.map_map]
    refine (List.map_congr_left fun block hblock => ?_).trans (List.map_id blocks)
    exact (List.eq_nil_of_length_eq_zero (Nat.le_zero.1 (h block hblock))).symm
  | succ rounds ih =>
    have htails : ∀ block ∈ blocks.map List.tail, block.length ≤ rounds := by
      intro tail htail
      obtain ⟨block, hblock, rfl⟩ := List.mem_map.1 htail
      have hle := h block hblock
      rw [List.length_tail]
      omega
    have hlengths : (blocks.map List.length).map Nat.pred =
        (blocks.map List.tail).map List.length := by
      simp [List.map_map, Function.comp_def]
    have hblocks (blocks : List (List α)) : List.zipWith (fun head block => head.toList ++ block)
        (blocks.map List.head?) (blocks.map List.tail) = blocks := by
      rw [List.zipWith_map, List.zipWith_self]
      refine (List.map_congr_left fun block _ => ?_).trans (List.map_id blocks)
      cases block <;> rfl
    rw [interleave_succ, List.append_assoc, deinterleave, deal_heads, hlengths, ih htails, hblocks]

theorem length_interleave {rounds : Nat} {blocks : List (List α)}
    (h : ∀ block ∈ blocks, block.length ≤ rounds) :
    (interleave rounds blocks).length = (blocks.map List.length).sum := by
  induction rounds generalizing blocks with
  | zero =>
    have hsum : (blocks.map List.length).sum = 0 := by
      refine List.sum_eq_zero fun n hn => ?_
      obtain ⟨block, hblock, rfl⟩ := List.mem_map.1 hn
      exact Nat.le_zero.1 (h block hblock)
    rw [hsum]
    rfl
  | succ rounds ih =>
    have htails : ∀ block ∈ blocks.map List.tail, block.length ≤ rounds := by
      intro tail htail
      obtain ⟨block, hblock, rfl⟩ := List.mem_map.1 htail
      have hle := h block hblock
      rw [List.length_tail]
      omega
    have hheads (blocks : List (List α)) : (blocks.filterMap List.head?).length +
        ((blocks.map List.tail).map List.length).sum = (blocks.map List.length).sum := by
      induction blocks with
      | nil => rfl
      | cons block blocks ihblocks =>
        cases block with
        | nil =>
          rw [List.filterMap_cons_none rfl]
          simpa using ihblocks
        | cons x block =>
          simp only [List.filterMap_cons, List.head?_cons, List.length_cons, List.map_cons,
            List.tail_cons, List.sum_cons]
          omega
    rw [interleave_succ, List.length_append, ih htails, hheads]

theorem exists_mem_of_mem_interleave {rounds : Nat} {blocks : List (List α)} {x : α}
    (h : x ∈ interleave rounds blocks) : ∃ block ∈ blocks, x ∈ block := by
  obtain ⟨index, -, hx⟩ := List.mem_flatMap.1 h
  obtain ⟨block, hblock, hx⟩ := List.mem_filterMap.1 hx
  exact ⟨block, hblock, List.mem_of_getElem? hx⟩

theorem deal_lengths (lengths : List Nat) {s t : List α} (h : s.length = t.length) :
    List.Forall₂ (fun x y => x.toList.length = y.toList.length) (deal lengths s).1
      (deal lengths t).1 ∧ (deal lengths s).2.length = (deal lengths t).2.length := by
  induction lengths generalizing s t with
  | nil => exact ⟨.nil, h⟩
  | cons n lengths ih =>
    cases n with
    | zero =>
      obtain ⟨hheads, hrest⟩ := ih h
      exact ⟨.cons rfl hheads, hrest⟩
    | succ n =>
      have htails : s.tail.length = t.tail.length := by rw [List.length_tail, List.length_tail, h]
      obtain ⟨hheads, hrest⟩ := ih htails
      refine ⟨.cons ?_ hheads, hrest⟩
      cases s <;> cases t <;> simp_all

theorem deinterleave_lengths (rounds : Nat) (lengths : List Nat) {s t : List α}
    (h : s.length = t.length) : List.Forall₂ (fun x y => x.length = y.length)
      (deinterleave rounds lengths s) (deinterleave rounds lengths t) := by
  induction rounds generalizing lengths s t with
  | zero => exact List.forall₂_same.2 fun _ _ => rfl
  | succ rounds ih =>
    obtain ⟨hheads, hrest⟩ := deal_lengths lengths h
    rw [deinterleave, deinterleave]
    exact forall₂_zipWith (fun head head' block block' hhead hblock => by
      rw [List.length_append, List.length_append, hhead, hblock]) hheads (ih _ hrest)

theorem deal_take (lengths : List Nat) (s : List α) (more : Nat) :
    deal lengths (s.take (lengths.countP (0 < ·) + more)) =
      ((deal lengths s).1, (deal lengths s).2.take more) := by
  induction lengths generalizing s with
  | nil => simp [deal]
  | cons n lengths ih =>
    cases n with
    | zero => simp [deal, ih]
    | succ n =>
      have htail : (s.take (lengths.countP (0 < ·) + 1 + more)).tail =
          s.tail.take (lengths.countP (0 < ·) + more) := by
        rw [Nat.add_right_comm]
        cases s <;> simp
      have hhead : (s.take (lengths.countP (0 < ·) + 1 + more)).head? = s.head? := by
        rw [Nat.add_right_comm]
        cases s <;> simp
      rw [List.countP_cons_of_pos (by simp), deal, deal, htail, hhead, ih]

theorem sum_pred (lengths : List Nat) :
    lengths.countP (0 < ·) + (lengths.map Nat.pred).sum = lengths.sum := by
  induction lengths with
  | nil => rfl
  | cons n lengths ih =>
    cases n with
    | zero => simpa using ih
    | succ n =>
      rw [List.countP_cons_of_pos (by simp), List.map_cons, List.sum_cons, List.sum_cons, ← ih,
        Nat.pred_succ]
      omega

theorem deinterleave_take (rounds : Nat) (lengths : List Nat) (s : List α) :
    deinterleave rounds lengths (s.take lengths.sum) = deinterleave rounds lengths s := by
  induction rounds generalizing lengths s with
  | zero => rfl
  | succ rounds ih => rw [deinterleave, deinterleave, ← sum_pred, deal_take, ih]

/-! ## Slices -/

def slices : List Nat → List α → List (List α)
  | [], _ => []
  | length :: lengths, s => s.take length :: slices lengths (s.drop length)

theorem slices_append (front back : List Nat) (s : List α) :
    slices (front ++ back) s = slices front s ++ slices back (s.drop front.sum) := by
  induction front generalizing s with
  | nil => simp [slices]
  | cons length front ih => simp [slices, ih, List.drop_drop]

theorem map_length_slices {lengths : List Nat} {s : List α} (h : lengths.sum ≤ s.length) :
    (slices lengths s).map List.length = lengths := by
  induction lengths generalizing s with
  | nil => rfl
  | cons length lengths ih =>
    rw [List.sum_cons] at h
    have hrest : lengths.sum ≤ (s.drop length).length := by
      rw [List.length_drop]
      omega
    rw [slices, List.map_cons, ih hrest, List.length_take, Nat.min_eq_left (by omega)]

theorem flatten_slices (lengths : List Nat) (s : List α) :
    (slices lengths s).flatten = s.take lengths.sum := by
  induction lengths generalizing s with
  | nil => rfl
  | cons length lengths ih =>
    rw [slices, List.flatten_cons, ih, List.sum_cons, List.take_add]

end Lib
